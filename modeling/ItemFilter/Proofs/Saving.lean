import ItemFilter.Proofs.Completion
import ItemFilter.Proofs.Documents
import ItemFilter.Proofs.Expansion
import ItemFilter.Settings.Store

/-!
# Settings that are saved are loaded again

Settings that were saved under a path are loaded from it, with the paths of data sets expanded as
far as they can be (`Settings.load_save`). Three things come together: settings are decoded from the
entries that they are encoded as (`Settings.ofEntries?_entries`), a file that was written is found
under its path (`Files.Tree.lookup_of_write`), and expansion replaces a path whole or not at all.

All this holds on every platform that reads back the documents it has written and leaves plain paths
alone (`Platform.Lawful`). The standard platform is one of them (`Platform.standard_lawful`), since
the text of the settings' entries is made of parts that are read back as these entries
(`Settings.exists_write?_entries`).
-/

namespace ItemFilter

open Files Toml

/-! ## The format -/

/-- A bare key is written as it is. -/
theorem Toml.keyText?_of_isBare {key : String} (h : IsBare key) : keyText? key = some key := by
  have hempty : key.isEmpty = false := by simpa using h.1
  have hall : key.toList.all isBareKey = true := List.all_eq_true.2 h.2
  rw [keyText?, hempty, hall]
  rfl

/-- Strings are read from their values. -/
theorem Toml.mapM_stringOf? (texts : List String) :
    (texts.map Value.string).mapM stringOf? = some texts := by
  induction texts with
  | nil => rfl
  | cons text texts ih => simp [stringOf?, ih]

/-- A string is written on a line with its key. -/
theorem Toml.entryLine?_string {key : String} (h : IsBare key) (text : String) :
    entryLine? (key, .string text) = some (key ++ " = " ++ quote text ++ "\n") := by
  simp [entryLine?, keyText?_of_isBare h, valueText?]

/-- An array of strings is written behind its key. -/
theorem Toml.entryLine?_strings {key : String} (h : IsBare key) (texts : List String) :
    entryLine? (key, .array (texts.map .string)) =
      some (key ++ " = " ++ quoteAll texts ++ "\n") := by
  simp [entryLine?, keyText?_of_isBare h, valueText?, mapM_stringOf? texts]

/-- The name of a data set is a bare key. -/
theorem Dataset.isBare_name (dataset : Dataset) : IsBare dataset.name := by
  cases dataset <;> simp [IsBare, Dataset.name, isBareKey]

namespace Settings

/-- The part of a data set that has a file. -/
def datasetParts (dataset : Dataset) : Option String → List Part
  | none => []
  | some path => [.assign dataset.name (.string path)]

/-- The parts of the table of data sets. -/
def datasetsParts (d : Datasets) : List Part :=
  [.gap, .header "datasets"] ++ datasetParts .classes d.classes ++ datasetParts .bases d.bases ++
    datasetParts .sounds d.sounds

/-- The parts of the table of the white list. -/
def whitelistParts (w : Whitelist) : List Part :=
  [.gap, .header "whitelist", .assign "classes" (.strings w.classes),
    .assign "bases" (.strings w.bases)]

/-- The parts of settings as they are written. -/
def parts (s : Settings) : List Part :=
  [.assign "unknown_keywords" (.string s.unknownKeywords.name)] ++ datasetsParts s.datasets ++
    whitelistParts s.whitelist

/-- The entry of a data set is written as the text of its part. -/
theorem exists_lines_datasetEntry (dataset : Dataset) (path : Option String) :
    ∃ lines, (datasetEntry dataset path).mapM entryLine? = some lines ∧
      (String.join lines).toList =
        ((datasetParts dataset path).flatMap Part.tokens).flatMap Token.text := by
  cases path with
  | none => exact ⟨[], rfl, rfl⟩
  | some path =>
    have hline := entryLine?_string dataset.isBare_name path
    refine ⟨[dataset.name ++ " = " ++ quote path ++ "\n"], ?_, ?_⟩
    · simp [datasetEntry, hline]
    · simp [datasetParts, flatMap_text_string]

/-- The table of data sets is written as the text of its parts. -/
theorem exists_lines_datasetsTable (d : Datasets) :
    ∃ text, tableLines? ("datasets", datasetsTable d) = some text ∧
      text.toList = ((datasetsParts d).flatMap Part.tokens).flatMap Token.text := by
  have hkey : keyText? "datasets" = some "datasets" := by decide
  obtain ⟨classes, hclasses, hclassesText⟩ := exists_lines_datasetEntry .classes d.classes
  obtain ⟨bases, hbases, hbasesText⟩ := exists_lines_datasetEntry .bases d.bases
  obtain ⟨sounds, hsounds, hsoundsText⟩ := exists_lines_datasetEntry .sounds d.sounds
  refine ⟨"\n[" ++ "datasets" ++ "]\n" ++ String.join (classes ++ bases ++ sounds), ?_, ?_⟩
  · simp [tableLines?, datasetsTable, hkey, List.mapM_append, hclasses, hbases, hsounds]
  · simp only [datasetsParts, List.flatMap_append, ← hclassesText, ← hbasesText, ← hsoundsText]
    simp [Part.tokens, Token.text]

/-- The table of the white list is written as the text of its parts. -/
theorem exists_lines_whitelistTable (w : Whitelist) :
    ∃ text, tableLines? ("whitelist", whitelistTable w) = some text ∧
      text.toList = ((whitelistParts w).flatMap Part.tokens).flatMap Token.text := by
  have hkey : keyText? "whitelist" = some "whitelist" := by decide
  have hclasses : entryLine? ("classes", .array (w.classes.map .string)) = _ :=
    entryLine?_strings Dataset.classes.isBare_name w.classes
  have hbases : entryLine? ("bases", .array (w.bases.map .string)) = _ :=
    entryLine?_strings Dataset.bases.isBare_name w.bases
  refine ⟨"\n[" ++ "whitelist" ++ "]\n" ++ String.join
    ["classes" ++ " = " ++ quoteAll w.classes ++ "\n",
      "bases" ++ " = " ++ quoteAll w.bases ++ "\n"], ?_, ?_⟩
  · simp [tableLines?, whitelistTable, hkey, hclasses, hbases, Dataset.name]
  · simp only [whitelistParts, List.flatMap_cons, List.flatMap_append, flatMap_text_strings]
    simp [Part.tokens, Token.text]

/-- The entries of settings are written as the text of their parts. -/
theorem exists_write?_entries (s : Settings) :
    ∃ text, write? s.entries = some text ∧
      text.toList = (s.parts.flatMap Part.tokens).flatMap Token.text := by
  have hkey : IsBare "unknown_keywords" := by simp [IsBare, isBareKey]
  have hpolicy := entryLine?_string hkey s.unknownKeywords.name
  obtain ⟨datasets, hdatasets, hdatasetsText⟩ := exists_lines_datasetsTable s.datasets
  obtain ⟨whitelist, hwhitelist, hwhitelistText⟩ := exists_lines_whitelistTable s.whitelist
  have hplain : (s.entries.takeWhile fun entry => !isHeaded entry.2) =
      [("unknown_keywords", .string s.unknownKeywords.name)] := rfl
  have htables : (s.entries.dropWhile fun entry => !isHeaded entry.2) =
      [("datasets", datasetsTable s.datasets), ("whitelist", whitelistTable s.whitelist)] := rfl
  refine ⟨String.join ["unknown_keywords" ++ " = " ++ quote s.unknownKeywords.name ++ "\n"] ++
    String.join [datasets, whitelist], ?_, ?_⟩
  · simp [write?, hplain, htables, hpolicy, hdatasets, hwhitelist]
  · simp only [parts, List.flatMap_append, ← hdatasetsText, ← hwhitelistText]
    simp [flatMap_text_string]

/-- The keys of settings are bare. -/
theorem hasBareKey_parts (s : Settings) : ∀ part ∈ s.parts, part.HasBareKey := by
  have hdataset (dataset : Dataset) (path : Option String) :
      ∀ part ∈ datasetParts dataset path, part.HasBareKey := by
    cases path with
    | none => simp [datasetParts]
    | some path => simpa [datasetParts, Part.HasBareKey] using dataset.isBare_name
  have hpolicy : (Part.assign "unknown_keywords" (.string s.unknownKeywords.name)).HasBareKey := by
    simp [Part.HasBareKey, IsBare, isBareKey]
  have hdatasets : ∀ part ∈ [Part.gap, .header "datasets"], part.HasBareKey := by
    simp [Part.HasBareKey, IsBare, isBareKey]
  have hwhitelist : ∀ part ∈ whitelistParts s.whitelist, part.HasBareKey := by
    simp [whitelistParts, Part.HasBareKey, IsBare, isBareKey]
  simp only [parts, datasetsParts, List.forall_mem_append, List.forall_mem_singleton]
  exact ⟨⟨hpolicy, ⟨⟨hdatasets, hdataset _ _⟩, hdataset _ _⟩, hdataset _ _⟩, hwhitelist⟩

/-- The statements of settings build their entries. -/
theorem foldlM_add?_parts (s : Settings) :
    (s.parts.filterMap Part.statement?).foldlM Builder.add? .empty =
      some ⟨["whitelist"], s.entries⟩ := by
  obtain ⟨policy, ⟨classes, bases, sounds⟩, whitelist⟩ := s
  cases classes <;> cases bases <;> cases sounds <;> rfl

/-- The files of data sets are read from their table. -/
theorem datasetsOf?_datasetsTable (d : Datasets) : datasetsOf? (datasetsTable d) = some d := by
  obtain ⟨classes, bases, sounds⟩ := d
  cases classes <;> cases bases <;> cases sounds <;> rfl

/-- Strings are read from their array. -/
theorem stringsOf?_array (texts : List String) :
    stringsOf? (.array (texts.map .string)) = some texts := mapM_stringOf? texts

/-- The names of a white list are read from its table. -/
theorem whitelistOf?_whitelistTable (w : Whitelist) :
    whitelistOf? (whitelistTable w) = some w := by
  have hclasses := stringsOf?_array w.classes
  have hbases := stringsOf?_array w.bases
  have hfields : fieldsOf? [Dataset.classes.name, Dataset.bases.name] (whitelistTable w) =
      some [some (.array (w.classes.map .string)), some (.array (w.bases.map .string))] := rfl
  rw [whitelistOf?, hfields]
  simp [optional?, hclasses, hbases]

/-- A policy is read from its name. -/
theorem ofName?_name (policy : UnknownKeywords) :
    UnknownKeywords.ofName? policy.name = some policy := by
  cases policy <;> rfl

/-- Settings are read from their entries. -/
theorem ofEntries?_entries (s : Settings) : ofEntries? s.entries = some s := by
  have hpolicy : policyOf? (.string s.unknownKeywords.name) = some s.unknownKeywords :=
    ofName?_name s.unknownKeywords
  have hdatasets := datasetsOf?_datasetsTable s.datasets
  have hwhitelist := whitelistOf?_whitelistTable s.whitelist
  have hfields : fieldsOf? ["unknown_keywords", "datasets", "whitelist"]
      (.table .header s.entries) = some [some (.string s.unknownKeywords.name),
        some (datasetsTable s.datasets), some (whitelistTable s.whitelist)] := rfl
  rw [ofEntries?, hfields]
  simp [optional?, hpolicy, hdatasets, hwhitelist]

/-- The entries of settings that are written are read back. -/
theorem parse_of_write? {s : Settings} {text : String} (h : write? s.entries = some text) :
    Toml.parse text = .ok s.entries := by
  obtain ⟨written, hwritten, hparts⟩ := s.exists_write?_entries
  obtain rfl : written = text := Option.some.inj (hwritten.symm.trans h)
  exact parse_parts s.hasBareKey_parts hparts s.foldlM_add?_parts

end Settings

/-! ## Platforms -/

/-- A path holds no dollar sign and does not start with a tilde. -/
def IsPlain (path : String) : Prop := '$' ∉ path.toList ∧ path.toList.head? ≠ some '~'

namespace Platform

/-- What saving and loading rely on. -/
structure Lawful (p : Platform) : Prop where
  /-- A document of settings that was written is read back. -/
  readToml_writeToml : ∀ (s : Settings) (text : String),
    p.writeToml s.entries = .ok text → p.readToml text = .ok s.entries
  /-- A plain path is its own expansion. -/
  expand?_plain : ∀ (env : Environment) (path : String), IsPlain path →
    p.expand? env path = some path

/-- The standard platform writes all settings. -/
theorem exists_standard_writeToml (schedule : Nat) (s : Settings) :
    ∃ text, write? s.entries = some text ∧
      (standard schedule).writeToml s.entries = .ok text := by
  obtain ⟨text, htext, -⟩ := s.exists_write?_entries
  refine ⟨text, htext, ?_⟩
  simp only [standard, htext]

/-- The standard platform is lawful. -/
theorem standard_lawful (schedule : Nat) : (standard schedule).Lawful where
  readToml_writeToml s text h := by
    obtain ⟨written, hwritten, hstandard⟩ := exists_standard_writeToml schedule s
    obtain rfl : written = text := Except.ok.inj (hstandard.symm.trans h)
    have hparse := Settings.parse_of_write? hwritten
    simp only [standard, hparse]
    rfl
  expand?_plain env path h :=
    Expansion.expand?_eq_self env h.1 (by simpa [Expansion.startsWithTilde] using h.2)

end Platform

/-! ## Files -/

namespace Files.Tree

variable {t t' : Tree} {place place' target : List String} {name : String} {node : Node}

/-- What was put at a place below the root is there. -/
theorem get?_put_self (t : Tree) (place : List String) (name : String) (node : Node) :
    (t.put (place ++ [name]) node).get? (place ++ [name]) = some node := by
  simp [get?, put]

/-- Every other place stays as it is. -/
theorem get?_put_of_ne (h : place ≠ target) : (t.put target node).get? place = t.get? place := by
  have hne : (place == target) = false := by simpa using h
  have hfilter (nodes : List (List String × Node)) :
      (nodes.filter fun entry => entry.1 != target).lookup place = nodes.lookup place := by
    induction nodes with
    | nil => rfl
    | cons entry nodes ih =>
      obtain ⟨p, n⟩ := entry
      by_cases hp : p = target
      · simp [hp, List.lookup_cons, hne, ih]
      · simp [hp, List.lookup_cons, ih]
  have hnodes : (t.put target node).nodes.lookup place = t.nodes.lookup place := by
    rw [put, List.lookup_cons, hne]
    exact hfilter t.nodes
  rw [get?, hnodes, get?]

/-- A place from which another is entered is a directory. -/
theorem get?_of_enter (h : t.enter place name = .ok place') :
    t.get? place = some .directory := by
  unfold enter at h
  split at h
  · cases h
  · cases h
  · assumption

/-- A directory stays one when something is put where there is no directory. -/
theorem get?_put_directory (node : Node) (htarget : t.get? target ≠ some .directory)
    (h : t.get? place = some .directory) : (t.put target node).get? place = some .directory := by
  rwa [get?_put_of_ne]
  rintro rfl
  exact htarget h

/-- Directories are entered as before when something is put where there is no directory. -/
theorem enter_put (htarget : t.get? target ≠ some .directory)
    (h : t.enter place name = .ok place') (hdirectory : t.get? place' = some .directory) :
    (t.put target node).enter place name = .ok place' := by
  have hplace := get?_of_enter h
  have hplace' := get?_put_directory node htarget hdirectory
  unfold enter at h ⊢
  rw [get?_put_directory node htarget hplace]
  rw [hplace] at h
  simp only at h ⊢
  split_ifs at h ⊢ <;> simp_all

/-- A dot at the end of a way asks for a directory. -/
theorem walk_append_dot {names : List String} (h : t.walk place (names ++ ["."]) = .ok place') :
    t.walk place names = .ok place' ∧ t.get? place' = some .directory := by
  rw [walk, List.foldlM_append] at h
  obtain ⟨middle, hway, hdot⟩ := exists_of_bind_eq_ok h
  obtain ⟨last, hdot, hend⟩ := exists_of_bind_eq_ok hdot
  have hmiddle := get?_of_enter hdot
  obtain rfl : last = place' := Except.ok.inj hend
  obtain rfl : middle = last := by simpa [enter, hmiddle] using hdot
  exact ⟨hway, hmiddle⟩

/-- The way to a directory stays as it is when something is put where there is no directory. -/
theorem walk_put (node : Node) {names : List String} (htarget : t.get? target ≠ some .directory)
    (h : t.walk place names = .ok place') (hdirectory : t.get? place' = some .directory) :
    (t.put target node).walk place names = .ok place' := by
  induction names generalizing place with
  | nil => exact h
  | cons name names ih =>
    obtain ⟨middle, henter, hrest⟩ := exists_of_bind_eq_ok h
    -- every place on the way is a directory, because the next one is entered from it
    have hmiddle : t.get? middle = some .directory := by
      cases names with
      | nil =>
        obtain rfl : middle = place' := Except.ok.inj hrest
        exact hdirectory
      | cons next names =>
        obtain ⟨_, hnext, -⟩ := exists_of_bind_eq_ok hrest
        exact get?_of_enter hnext
    rw [walk, List.foldlM_cons, enter_put htarget henter hmiddle]
    exact ih hrest

/-- What is put in a directory under a name other than a dot or two is entered by that name. -/
theorem enter_put_self (node : Node) (hdirectory : t.get? place = some .directory)
    (hname : name ≠ "." ∧ name ≠ "..") (hlength : name.utf8ByteSize ≤ maxNameLength) :
    (t.put (place ++ [name]) node).enter place name = .ok (place ++ [name]) := by
  have hplace : (t.put (place ++ [name]) node).get? place = some .directory := by
    rw [get?_put_of_ne (by simp), hdirectory]
  have hself := get?_put_self t place name node
  have hlength' : ¬ name.utf8ByteSize > maxNameLength := Nat.not_lt.2 hlength
  simp [enter, hplace, hname, hlength', hself]

/-- Writing a file puts it in a directory, under a name that can be entered and under which there is
no directory. -/
theorem exists_of_write {path text : String} (h : t.write path text = .ok t') :
    checkPath path = .ok () ∧ Path.hasTrailingSlash path = false ∧ ∃ names name place,
      Path.names path = names ++ [name] ∧
      t.walk (t.origin (Path.isAbsolute path)) names = .ok place ∧
      t.get? place = some .directory ∧
      name ≠ "." ∧ name ≠ ".." ∧ name.utf8ByteSize ≤ maxNameLength ∧
      t.get? (place ++ [name]) ≠ some .directory ∧
      t' = t.put (place ++ [name]) (.file (.text text)) := by
  obtain ⟨_, hpath, h⟩ := exists_of_bind_eq_ok h
  simp only at h
  split at h
  · cases h
  next name hname =>
  obtain ⟨place, hwalk, h⟩ := exists_of_bind_eq_ok h
  obtain ⟨hwalk, hplace⟩ := walk_append_dot hwalk
  have hnames : Path.names path = (Path.names path).dropLast ++ [name] :=
    (List.dropLast_append_getLast? name hname).symm
  split_ifs at h with hforbidden
  simp only [not_or, Bool.not_eq_true] at hforbidden
  obtain ⟨hdot, hdots, hslash⟩ := hforbidden
  refine ⟨hpath, hslash, (Path.names path).dropLast, name, place, hnames, hwalk, hplace, hdot,
    hdots, ?_⟩
  simp only [enter, hplace, hdot, hdots, if_false] at h
  by_cases hlength : name.utf8ByteSize > maxNameLength
  · simp [hlength] at h
  -- the name is new, or there is something under it, which is no directory
  by_cases hnone : t.get? (place ++ [name]) = none
  · simp only [hlength, hnone, if_false, Option.isNone_none, if_true] at h
    exact ⟨Nat.le_of_not_lt hlength, by simp [hnone], (Except.ok.inj h).symm⟩
  · have hsome : (t.get? (place ++ [name])).isNone = false :=
      Bool.eq_false_iff.2 fun h => hnone (Option.isNone_iff_eq_none.1 h)
    simp only [hlength, hsome, if_false, Bool.false_eq_true] at h
    split_ifs at h with hdirectory
    exact ⟨Nat.le_of_not_lt hlength, hdirectory, (Except.ok.inj h).symm⟩

/-- A file that is written is found under its path. -/
theorem lookup_of_write {path text : String} (h : t.write path text = .ok t') :
    t'.lookup path = .ok (.file (.text text)) := by
  obtain ⟨hpath, hslash, names, name, place, hnames, hwalk, hplace, hdot, hdots, hlength, htarget,
    rfl⟩ := exists_of_write h
  have hwalk' := walk_put (.file (.text text)) htarget hwalk hplace
  have henter := enter_put_self (.file (.text text)) hplace ⟨hdot, hdots⟩ hlength
  have hlocate : (t.put (place ++ [name]) (.file (.text text))).locate path =
      .ok (place ++ [name]) := by
    rw [locate, hpath, hslash, hnames]
    show walk _ (t.origin _) (names ++ [name] ++ []) = _
    rw [List.append_nil, walk, List.foldlM_append]
    rw [walk] at hwalk'
    rw [hwalk']
    show (enter _ place name).bind _ = _
    rw [henter]
    rfl
  have hget := get?_put_self t place name (.file (.text text))
  simp only [lookup, hlocate, bind, Except.bind, hget]

end Files.Tree

/-! ## Saving and loading -/

/-- The file that replaces a data set. -/
def Datasets.file? (d : Datasets) : Dataset → Option String
  | .classes => d.classes
  | .bases => d.bases
  | .sounds => d.sounds

/-- Changing all paths changes each of them for itself. -/
theorem Datasets.file?_mapPaths (f : String → String) (d : Datasets) (dataset : Dataset) :
    (d.mapPaths f).file? dataset = (d.file? dataset).map f := by
  cases dataset <;> rfl

/-- Paths that all stay as they are stay together. -/
theorem Datasets.mapPaths_eq_self {f : String → String} {d : Datasets}
    (h : ∀ path ∈ d.paths, f path = path) : d.mapPaths f = d := by
  have hoption (path : Option String) (hpath : ∀ p ∈ path, f p = p) : path.map f = path := by
    cases path with
    | none => rfl
    | some p => rw [Option.map_some, hpath p rfl]
  have hclasses := hoption d.classes fun p hp => h p (by simp [paths, Option.mem_def.1 hp])
  have hbases := hoption d.bases fun p hp => h p (by simp [paths, Option.mem_def.1 hp])
  have hsounds := hoption d.sounds fun p hp => h p (by simp [paths, Option.mem_def.1 hp])
  rw [mapPaths, hclasses, hbases, hsounds]

namespace Settings

variable (p : Platform) (env : Environment)

/-- What is loaded of settings that were saved. -/
structure Reloads (s loaded : Settings) : Prop where
  /-- The policy for unknown keywords stays. -/
  unknownKeywords : loaded.unknownKeywords = s.unknownKeywords
  /-- The white list stays. -/
  whitelist : loaded.whitelist = s.whitelist
  /-- A data set without a file gets none. -/
  absent : ∀ dataset, s.datasets.file? dataset = none → loaded.datasets.file? dataset = none
  /-- A path that has an expansion is replaced by it. -/
  expanded : ∀ dataset path expansion, s.datasets.file? dataset = some path →
    p.expand? env path = some expansion → loaded.datasets.file? dataset = some expansion
  /-- A path that has none stays as it is. -/
  verbatim : ∀ dataset path, s.datasets.file? dataset = some path →
    p.expand? env path = none → loaded.datasets.file? dataset = some path
  /-- If all paths are plain, nothing changes. -/
  same : (∀ path ∈ s.datasets.paths, IsPlain path) → loaded = s

variable {p env}

/-- Settings with their paths expanded are what is loaded of them. -/
theorem reloads_expandPaths (hp : p.Lawful) (s : Settings) :
    s.Reloads p env (s.expandPaths p env) where
  unknownKeywords := rfl
  whitelist := rfl
  absent dataset h := by
    rw [expandPaths, Datasets.file?_mapPaths, h, Option.map_none]
  expanded dataset path expansion h hexpansion := by
    rw [expandPaths, Datasets.file?_mapPaths, h, Option.map_some, Platform.expand, hexpansion,
      Option.getD_some]
  verbatim dataset path h hnone := by
    rw [expandPaths, Datasets.file?_mapPaths, h, Option.map_some, Platform.expand, hnone,
      Option.getD_none]
  same h := by
    have hpaths : s.datasets.mapPaths (p.expand env) = s.datasets := by
      refine Datasets.mapPaths_eq_self fun path hpath => ?_
      rw [Platform.expand, hp.expand?_plain env path (h path hpath), Option.getD_some]
    rw [expandPaths, hpaths]

/-- Settings are loaded from a file that holds their document. -/
theorem load_of_readToml {disk : Disk} {path text : String} {s : Settings}
    (hfile : disk path = .ok (.file (.text text))) (htext : p.readToml text = .ok s.entries) :
    load p env disk path = .ok (some (s.expandPaths p env)) := by
  have hcontains : disk.contains path = true := by rw [Disk.contains, hfile]; rfl
  have hread : disk.read path = .ok text := by rw [Disk.read, hfile]
  have hsettings : read p text = .ok s := by
    unfold read
    rw [htext]
    show (expect (ofEntries? s.entries)).mapError Fault.message = _
    rw [ofEntries?_entries]
    rfl
  rw [load, if_pos hcontains, hread]
  simp only [hsettings]

/-- The last steps of saving settings write their document, and put it under their path. -/
theorem exists_write_of_save {s : Settings} {tree tree' : Tree} {path : String}
    (h : s.save p tree path = .ok tree') : ∃ (t : Tree) (text : String),
      p.writeToml s.entries = .ok text ∧ t.write path text = .ok tree' := by
  obtain ⟨t, hlast⟩ : ∃ t : Tree, ((p.writeToml s.entries).mapError FileError.other >>=
      fun text => t.write path text) = .ok tree' := by
    unfold save at h
    split at h
    · exact ⟨_, h⟩
    · obtain ⟨t, -, hlast⟩ := exists_of_bind_eq_ok h
      exact ⟨t, hlast⟩
  obtain ⟨text, htext, hwrite⟩ := exists_of_bind_eq_ok hlast
  refine ⟨t, text, ?_, hwrite⟩
  cases hdocument : p.writeToml s.entries with
  | error cause => rw [hdocument] at htext; cases htext
  | ok document =>
    rw [hdocument] at htext
    obtain rfl : document = text := Except.ok.inj htext
    rfl

/-- On every lawful platform, settings that were saved under a path are loaded from it. The standard
platform is lawful; it writes all settings, and has an expansion exactly for those paths in which
all references are resolved. -/
theorem load_save :
    (∀ p : Platform, p.Lawful → ∀ (s : Settings) (env : Environment) (tree tree' : Tree)
      (path : String), s.save p tree path = .ok tree' →
        ∃ loaded, load p env tree'.disk path = .ok (some loaded) ∧ s.Reloads p env loaded) ∧
    ∀ schedule, (Platform.standard schedule).Lawful ∧
      (∀ s : Settings, ∃ text, (Platform.standard schedule).writeToml s.entries = .ok text) ∧
      ∀ env path, ((Platform.standard schedule).expand? env path).isSome = true ↔
        Expansion.Resolves env path := by
  constructor
  · intro p hp s env tree tree' path hsave
    obtain ⟨t, text, htext, hwrite⟩ := exists_write_of_save hsave
    have hfile := Tree.lookup_of_write hwrite
    have hdocument := hp.readToml_writeToml s text htext
    exact ⟨_, load_of_readToml hfile hdocument, reloads_expandPaths hp s⟩
  · intro schedule
    refine ⟨Platform.standard_lawful schedule, fun s => ?_, fun env path => ?_⟩
    · obtain ⟨text, -, htext⟩ := Platform.exists_standard_writeToml schedule s
      exact ⟨text, htext⟩
    · exact Expansion.isSome_expand?_iff

/-- Settings with a path that has an expansion, one that refers to a variable that is not set, one
with a tilde, and names that take different forms. -/
def oddSettings : Settings where
  unknownKeywords := .warn
  datasets := ⟨some "$DATA/classes.txt", some "$DATA/$MISSING.txt", some "~/sounds"⟩
  whitelist := ⟨["two\nlines", "\"'''\"", "'\n\\"], ["a \\ b"]⟩

/-- An environment with a variable, in which the home directory is known from the record only. -/
def oddEnvironment : Environment := ⟨[("DATA", "/data"), ("HOME", "")], some "/home/user"⟩

/-- The file tree in which only those settings were saved. -/
def oddTree : Tree where
  nodes := [(["settings", "filter.toml"], .file (.text
      ("unknown_keywords = \"warn\"\n\n[datasets]\nclasses = \"$DATA/classes.txt\"\n" ++
        "bases = \"$DATA/$MISSING.txt\"\nsounds = \"~/sounds\"\n\n[whitelist]\nclasses = [\n" ++
        "    \"\"\"\ntwo\nlines\"\"\",\n    \"\"\"\"'''\"\"\"\",\n    '''\n'\n\\''',\n]\n" ++
        "bases = ['a \\ b']\n"))),
    (["settings"], .directory)]
  workingDirectory := []

/-- Saving makes the directory and the file, and loading expands two of the three paths. -/
theorem load_save_oddSettings :
    oddSettings.save (.standard 0) ⟨[], []⟩ "settings/filter.toml" = .ok oddTree ∧
      (Platform.standard 0).expand? oddEnvironment "$DATA/classes.txt" =
        some "/data/classes.txt" ∧
      (Platform.standard 0).expand? oddEnvironment "$DATA/$MISSING.txt" = none ∧
      (Platform.standard 0).expand? oddEnvironment "~/sounds" = some "/home/user/sounds" ∧
      ∃ loaded, load (.standard 0) oddEnvironment oddTree.disk "settings/filter.toml" =
          .ok (some loaded) ∧
        oddSettings.Reloads (.standard 0) oddEnvironment loaded := by
  have hsave : oddSettings.save (.standard 0) ⟨[], []⟩ "settings/filter.toml" = .ok oddTree := by
    decide +kernel
  obtain ⟨hreloads, hstandard⟩ := load_save
  exact ⟨hsave, by decide +kernel, by decide +kernel, by decide +kernel,
    hreloads _ (hstandard 0).1 _ _ _ _ _ hsave⟩

end Settings

end ItemFilter
