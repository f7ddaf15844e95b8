import ItemFilter.Line.Summary
import ItemFilter.Proofs.Check
import ItemFilter.Proofs.Messages
import ItemFilter.Proofs.Unbroken

/-!
# Printed lines

An outline and a report are printed, one entry below the other, and are read as lines again. This
works because no entry is broken: what an outline says about a row and about its diagnostics is made
of texts of the line (`Line.isRow_of_mem_entries`), none of which is broken, and of numbers.

`printed_intercalate` and `printed_join` give back the entries from what is printed, with a line
feed between two of them or behind each. So an outline has a line for each row and one for each
diagnostic, and the rows can be told from the diagnostics (`Line.Entered`). In a report each
diagnostic has a line of its own if the path of its file is not broken (`Covers.printed_output`).
`Source.readAll_printed` states both.
-/

namespace ItemFilter

open Text Lexeme

/-! ## Printing rows -/

/-- The lines of a printed text: what stands between line feeds. -/
def printed (text : String) : List String := (text.toList.splitOn '\n').map String.ofList

/-- A row is printed without a line feed. -/
theorem IsRow.not_mem {text : String} (h : IsRow text) : '\n' ∉ text.toList :=
  fun hmem => absurd (h '\n' hmem) (by decide)

/-- A row is printed on one line. -/
theorem IsRow.printed_eq {text : String} (h : IsRow text) : printed text = [text] := by
  unfold printed
  rw [List.splitOn_eq_singleton h.not_mem, List.map_singleton, String.ofList_toList]

/-- Rows that are printed with line feeds between them are the lines. -/
theorem printed_intercalate {parts : List String} (hne : parts ≠ [])
    (h : ∀ part ∈ parts, IsRow part) : printed ("\n".intercalate parts) = parts := by
  have hrows : ∀ cs ∈ parts.map String.toList, '\n' ∉ cs :=
    List.forall_mem_map.2 fun part hpart => (h part hpart).not_mem
  have hne' : parts.map String.toList ≠ [] := mt List.map_eq_nil_iff.1 hne
  have hsplit := List.splitOn_intercalate '\n' hrows hne'
  unfold printed
  rw [String.toList_intercalate]
  show (List.splitOn '\n' (['\n'].intercalate (parts.map String.toList))).map String.ofList = parts
  rw [hsplit, List.map_map]
  exact (List.map_congr_left fun _ _ => String.ofList_toList).trans (List.map_id _)

/-- A text that is ended by a line feed is printed in front of what follows. -/
theorem printed_append (text rest : String) :
    printed (text ++ "\n" ++ rest) = printed text ++ printed rest := by
  have hlist : (text ++ "\n" ++ rest).toList = text.toList ++ '\n' :: rest.toList := by
    rw [String.toList_append, String.toList_append, List.append_assoc]
    rfl
  unfold printed
  rw [hlist, List.splitOn_append_cons_self, List.map_append]

/-- Texts that are each ended by a line feed are printed one below the other. -/
theorem printed_join (parts : List String) :
    printed (String.join (parts.map fun part => part ++ "\n")) = parts.flatMap printed ++ [""] := by
  induction parts with
  | nil => rfl
  | cons part parts ih =>
    have hjoin : String.join ((part :: parts).map fun part => part ++ "\n") =
        part ++ "\n" ++ String.join (parts.map fun part => part ++ "\n") := by
      apply String.toList_inj.1
      simp [String.toList_join]
    rw [hjoin, printed_append, ih, List.flatMap_cons, List.append_assoc]

/-- Rows are printed as they are. -/
theorem flatMap_printed {parts : List String} (h : ∀ part ∈ parts, IsRow part) :
    parts.flatMap printed = parts := by
  induction parts with
  | nil => rfl
  | cons part parts ih =>
    obtain ⟨hfirst, hrest⟩ := List.forall_mem_cons.1 h
    rw [List.flatMap_cons, hfirst.printed_eq, ih hrest]
    rfl

/-! ## Entries of an outline -/

/-- A row in quotes is a row. -/
theorem IsRow.quoted {text : String} (h : IsRow text) : IsRow (quoted text) :=
  .fill (isRow_ofList rfl) h rfl

namespace Argument

/-- A part is one row if the value that it writes is. -/
theorem isRow_partText {α : Type} {write : α → String} {token : Option (Token α)}
    (h : ∀ t ∈ token, IsRow (write t.value)) : IsRow (partText write token) := by
  cases token with
  | none => exact isRow_ofList rfl
  | some t => exact h t rfl

/-- The parts of an argument are rows if the texts that it stores are. -/
theorem isRow_parts {a : Argument} (h : ∀ text ∈ a.texts, IsRow text) :
    ∀ part ∈ a.parts, IsRow part := by
  cases a with
  | number token | fontSize token =>
    exact List.forall_mem_singleton.2 (isRow_partText fun t _ => isRow_int t.value)
  | rarity token =>
    exact List.forall_mem_singleton.2 (isRow_partText fun t _ => t.value.isRow_name)
  | socketGroup token =>
    refine List.forall_mem_singleton.2 (isRow_partText fun t ht => h t.value ?_)
    exact Option.mem_toList.2 (Option.mem_map_of_mem _ ht)
  | boolean token =>
    refine List.forall_mem_singleton.2 (isRow_partText fun t _ => ?_)
    cases t.value <;> exact isRow_ofList rfl
  | names tokens =>
    cases tokens with
    | nil => exact List.forall_mem_singleton.2 (isRow_ofList rfl)
    | cons t tokens =>
      exact List.forall_mem_map.2 fun t ht => (h t.value (List.mem_map_of_mem ht)).quoted
  | color c =>
    cases c with
    | none => exact List.forall_mem_singleton.2 (isRow_ofList rfl)
    | some c => exact List.forall_mem_map.2 fun t _ => isRow_nat _
  | sound s =>
    rcases s with _ | ⟨⟨id, range⟩, volume⟩
    · exact List.forall_mem_singleton.2 (isRow_ofList rfl)
    · have hid : IsRow id.text := by
        cases id with
        | named name => exact h name List.mem_cons_self
        | numbered number => exact isRow_nat _
      refine List.forall_mem_cons.2 ⟨hid, fun part hpart => ?_⟩
      obtain ⟨t, -, rfl⟩ := Option.mem_map.1 (Option.mem_toList.1 hpart)
      exact isRow_nat _
  | soundFile token =>
    refine List.forall_mem_singleton.2 (isRow_partText fun t ht => (h t.value ?_).quoted)
    exact Option.mem_toList.2 (Option.mem_map_of_mem _ ht)
  | flag => exact nofun

end Argument

/-- The parts of a line are rows if the texts that it stores are. -/
theorem LineKind.isRow_parts {kind : LineKind} (h : ∀ text ∈ kind.texts, IsRow text) :
    ∀ part ∈ kind.parts, IsRow part := by
  cases kind with
  | empty => exact List.forall_mem_singleton.2 (isRow_ofList rfl)
  | comment t => exact List.forall_mem_cons.2 ⟨isRow_ofList rfl, h⟩
  | block header =>
    have hvisibility : IsRow header.keyword.value.summary := by
      cases header.keyword.value <;> exact isRow_ofList rfl
    exact List.forall_mem_cons.2 ⟨hvisibility, (List.forall_mem_cons.1 h).2⟩
  | rule r =>
    have hfamily : IsRow r.name.value.family := by
      cases r.name.value <;> exact isRow_ofList rfl
    obtain ⟨hrest, hcomment⟩ := List.forall_mem_append.1 h
    obtain ⟨hhead, hargument⟩ := List.forall_mem_append.1 hrest
    have hparts := Argument.isRow_parts hargument
    exact List.forall_mem_append.2 ⟨List.forall_mem_append.2
      ⟨List.forall_mem_cons.2 ⟨hfamily, hhead⟩, hparts⟩, hcomment⟩
  | unknown word => exact List.forall_mem_cons.2 ⟨isRow_ofList rfl, h⟩

namespace Line

/-- The summary of a line is one row if the texts of the line are. -/
theorem isRow_summary {line : Line} (h : ∀ text ∈ line.texts, IsRow text) :
    IsRow line.summary := by
  have hparts := LineKind.isRow_parts (List.forall_mem_append.1 h).1
  refine isRow_intercalate_of_forall (isRow_ofList rfl) (List.forall_mem_append.2 ⟨hparts, ?_⟩)
  split_ifs
  · exact List.forall_mem_singleton.2 (isRow_ofList rfl)
  · exact nofun

/-- The remark on a diagnostic is one row if its excerpt is. -/
theorem isRow_remark (severity : Severity) {d : Diagnostic} (h : IsRow d.excerpt) :
    IsRow (remark severity d) := by
  have hname : IsRow severity.name := by cases severity <;> exact isRow_ofList rfl
  exact .append (.fill (.fill (.fill (isRow_ofList rfl) hname rfl) (isRow_nat _) rfl) (isRow_nat _)
    rfl) h

/-- The entries of a row are rows if the texts of its line are. -/
theorem isRow_of_mem_entries {line : Line} (h : ∀ text ∈ line.texts, IsRow text) {row : Nat}
    {entry : String} (hentry : entry ∈ line.entries row) : IsRow entry := by
  rcases List.mem_cons.1 hentry with rfl | hremark
  · exact .append (.append (isRow_nat row) (isRow_ofList rfl)) (isRow_summary h)
  · obtain ⟨x, hx, rfl⟩ := List.mem_map.1 hremark
    have hexcerpt : x.2.excerpt ∈ line.messages.toList.flatMap fun x => x.2.texts :=
      List.mem_flatMap.2 ⟨x, hx, List.mem_cons_self⟩
    exact isRow_remark x.1 (h _ (List.mem_append_right _ hexcerpt))

/-- The entries of a line in an outline: an entry for the row, and one for each diagnostic. -/
structure Entered (line : Line) (row : Nat) (entries : List String) : Prop where
  /-- The entry for the row comes first and starts with the row's number. -/
  first : entries.head? = some s!"{row}: {line.summary}"
  /-- The other entries are for the errors and then for the warnings, and start with three blanks
  and the severity. -/
  others : entries.tail =
    (line.messages.errors.map fun d =>
      s!"   error {d.range.start.column}..{d.range.stop.column} {d.excerpt}") ++
    line.messages.warnings.map fun d =>
      s!"   warning {d.range.start.column}..{d.range.stop.column} {d.excerpt}"
  /-- None of these looks like the entry for a row. -/
  distinct : ∀ entry ∈ entries.tail, ∀ (number : Nat) (rest : String), entry ≠ s!"{number}: {rest}"

/-- A remark starts with a blank and not with the number of a row. -/
theorem remark_ne (severity : Severity) (d : Diagnostic) (number : Nat) (rest : String) :
    remark severity d ≠ s!"{number}: {rest}" := by
  intro heq
  -- The number of a row starts with a digit.
  obtain ⟨hne, hdigits⟩ := (isDigits_repr number).1
  obtain ⟨digit, digits, hcons⟩ := List.exists_cons_of_ne_nil hne
  have hhead : (remark severity d).toList.head? = some digit := by
    rw [heq]
    show (number.repr ++ ": " ++ rest).toList.head? = some digit
    rw [String.toList_append, String.toList_append, hcons]
    rfl
  have hblank : (remark severity d).toList.head? = some ' ' := by
    simp only [remark, String.toList_append]
    rfl
  have hdigit := hdigits digit (hcons ▸ List.mem_cons_self)
  rw [Option.some.inj (hhead.symm.trans hblank)] at hdigit
  exact absurd hdigit (by decide)

/-- A line of one severity is entered. -/
theorem entered_entries {line : Line} (h : line.OneSeverity) (row : Nat) :
    line.Entered row (line.entries row) where
  first := rfl
  others := by
    show line.messages.toList.map (fun x => remark x.1 x.2) = _
    unfold Messages.toList
    rw [h.info_eq, List.map_append, List.map_append, List.map_map, List.map_map]
    exact List.append_nil _
  distinct := by
    intro entry hentry
    obtain ⟨x, -, rfl⟩ := List.mem_map.1 hentry
    exact remark_ne x.1 x.2

end Line

/-! ## Outlines -/

/-- An outline of unbroken lines is printed as the entries of its rows. -/
theorem printed_outline {lines : List Line} (hne : lines ≠ [])
    (h : ∀ line ∈ lines, ∀ text ∈ line.texts, IsRow text) :
    printed (outline lines) = lines.zipIdx.flatMap fun x => x.1.entries x.2 := by
  refine printed_intercalate ?_ ?_
  · obtain ⟨line, below, rfl⟩ := List.exists_cons_of_ne_nil hne
    exact List.cons_ne_nil _ _
  · intro entry hentry
    obtain ⟨x, hx, hentry⟩ := List.mem_flatMap.1 hentry
    exact Line.isRow_of_mem_entries (h x.1 (List.fst_mem_of_mem_zipIdx hx)) hentry

/-- The entries of lines are as many as there are lines and diagnostics. -/
theorem length_flatMap_entries (lines : List Line) (row : Nat) :
    ((lines.zipIdx row).flatMap fun x => x.1.entries x.2).length =
      lines.length + (lines.map fun line => line.messages.size).sum := by
  induction lines generalizing row with
  | nil => rfl
  | cons line lines ih =>
    have hfirst : (line.entries row).length = 1 + line.messages.size := by
      simp only [Line.entries, List.length_cons, List.length_map, Messages.toList,
        List.length_append, Messages.size]
      omega
    rw [List.zipIdx_cons, List.flatMap_cons, List.length_append, ih, hfirst, List.length_cons,
      List.map_cons, List.sum_cons]
    omega

/-- What is printed of lines: for each row, from the first one on, the entries of its line. -/
structure Outlined (lines : List Line) (output : List String) : Prop where
  /-- There is one entry for each row and one for each diagnostic. -/
  length_eq : output.length = lines.length + (lines.map fun line => line.messages.size).sum
  /-- The entries of each row follow those of the row above. -/
  entered : ∃ blocks : List (List String), output = blocks.flatten ∧
    List.Forall₂ (fun x block => x.1.Entered x.2 block) lines.zipIdx blocks

/-- Unbroken lines of one severity each are outlined. -/
theorem outlined_outline {lines : List Line} (hne : lines ≠ [])
    (h : ∀ line ∈ lines, ∀ text ∈ line.texts, IsRow text)
    (hseverity : ∀ line ∈ lines, line.OneSeverity) :
    Outlined lines (printed (outline lines)) := by
  rw [printed_outline hne h]
  refine ⟨length_flatMap_entries lines 0, lines.zipIdx.map fun x => x.1.entries x.2, rfl, ?_⟩
  refine List.forall₂_map_right_iff.2 (List.forall₂_same.2 fun x hx => ?_)
  exact Line.entered_entries (hseverity x.1 (List.fst_mem_of_mem_zipIdx hx)) x.2

namespace Source

/-- No text in the lines of a text is broken. -/
theorem isRow_of_mem_lines {source : Source} {text : String} {line : Line}
    (hline : line ∈ source.lines (splitRows text)) : ∀ stored ∈ line.texts, IsRow stored := by
  obtain ⟨⟨row, number⟩, hrow, rfl⟩ := List.mem_map.1 hline
  have hcs : IsRow row := isRow_of_mem_splitRows (List.fst_mem_of_mem_zipIdx hrow)
  intro stored hstored
  exact Line.isRow_of_mem_texts hcs source.file source.vocabulary hstored

/-- The lines of a text are of one severity each. -/
theorem oneSeverity_of_mem_lines {source : Source} {texts : List String} {line : Line}
    (hline : line ∈ source.lines texts) : line.OneSeverity := by
  obtain ⟨⟨row, number⟩, -, rfl⟩ := List.mem_map.1 hline
  exact Line.oneSeverity_read _ _ _

end Source

/-! ## Reports -/

namespace Report

/-- What is printed for a diagnostic of a file is one row if the path and the excerpt are. -/
theorem isRow_located {path : String} (hpath : IsRow path) {x : Severity × Diagnostic}
    (hexcerpt : IsRow x.2.excerpt) : IsRow (located path x) := by
  have hname : IsRow x.1.name := by cases x.1 <;> exact isRow_ofList rfl
  have hplace : IsRow (path ++ ":") := hpath.append (isRow_ofList rfl)
  exact .append (.fill (.fill (.fill hplace (isRow_nat _) rfl) (isRow_nat _) rfl) hname rfl)
    hexcerpt

/-- What is printed for the diagnostics of a file that was checked is one row each if the path is
one. -/
theorem Checked.isRow_located {vocabulary : Vocabulary} {disk : Files.Disk} {path : String}
    {found : List (Severity × Diagnostic)} (h : Checked vocabulary disk path found)
    (hpath : IsRow path) : ∀ entry ∈ found.map (located path), IsRow entry := by
  obtain ⟨text, lines, -, hlines, rfl⟩ := h.full
  obtain rfl := Except.ok.inj ((hlines 0).symm.trans (Source.readAll_splitRows _ text))
  refine List.forall_mem_map.2 fun x hx => Report.isRow_located hpath ?_
  obtain ⟨line, hline, hx⟩ := List.mem_flatMap.1 hx
  have hexcerpt : x.2.excerpt ∈ line.texts :=
    List.mem_append_right _ (List.mem_flatMap.2 ⟨x, hx, List.mem_cons_self⟩)
  exact Source.isRow_of_mem_lines hline _ hexcerpt

/-- A report starts with the diagnostics of the files that were checked. -/
theorem Covers.exists_lines {warningsAsErrors : Bool} {vocabulary : Vocabulary} {disk : Files.Disk}
    {before checked : List (String × List (Severity × Diagnostic))} {files : List String}
    {report : Report} (h : Covers warningsAsErrors vocabulary disk before files checked report) :
    ∃ rest, report.lines = entries checked ++ rest := by
  have hle : checked.length ≤ files.length := by
    rw [← List.length_map (f := Prod.fst), h.paths]
    exact (List.takeWhile_prefix _).length_le
  rcases hle.lt_or_eq with hlt | heq
  · obtain ⟨path, cause, -, -, rfl⟩ := h.stopped hlt
    exact ⟨[], (List.append_nil _).symm⟩
  · obtain rfl := h.finished heq
    exact ⟨_, rfl⟩

/-- Each diagnostic of a file whose path is one row is printed on one line, behind what is printed
for the files before it. -/
theorem Covers.printed_output {warningsAsErrors : Bool} {vocabulary : Vocabulary}
    {disk : Files.Disk} {before above below : List (String × List (Severity × Diagnostic))}
    {path : String} {found : List (Severity × Diagnostic)} {files : List String} {report : Report}
    (h : Covers warningsAsErrors vocabulary disk before files (above ++ (path, found) :: below)
      report) (hpath : IsRow path) :
    (∀ entry ∈ found.map (located path), IsRow entry) ∧ ∃ rest, printed report.output =
      (entries above).flatMap printed ++ found.map (located path) ++ rest := by
  obtain ⟨rest, hlines⟩ := h.exists_lines
  have hmem : (path, found) ∈ above ++ (path, found) :: below :=
    List.mem_append_right _ List.mem_cons_self
  have hfound := (h.complete _ hmem).isRow_located hpath
  have hentries : entries (above ++ (path, found) :: below) =
      entries above ++ (found.map (located path) ++ entries below) := by
    simp [entries]
  refine ⟨hfound, (entries below ++ rest).flatMap printed ++ [""], ?_⟩
  unfold output
  rw [printed_join, hlines, hentries]
  simp only [List.flatMap_append, flatMap_printed hfound, List.append_assoc]

end Report

namespace Source

/-- No text in the lines of a text is broken, whatever the text, the file and the vocabulary are.
So the outline of the lines, printed, has one line for each row and each diagnostic, in order; and
so has each diagnostic that a check prints for a path that is not broken. -/
theorem readAll_printed (source : Source) (text : String) (p : Platform) (options : Options)
    (env : Environment) (disk : Files.Disk) :
    (∃ lines, source.readAll (splitRows text) = .ok lines ∧
      lines.length = (splitRows text).length ∧
      (∀ line ∈ lines, ∀ stored ∈ line.texts, IsRow stored) ∧
      Outlined lines (printed (outline lines))) ∧
    ∀ v, Report.vocabulary p options env disk = .ok v → ∃ checked,
      Report.Covers options.warningsAsErrors v disk [] options.files checked
        (Report.run p options env disk) ∧
      ∀ above path found below, checked = above ++ (path, found) :: below → IsRow path →
        (∀ entry ∈ found.map (Report.located path), IsRow entry) ∧
        ∃ rest, printed (Report.run p options env disk).output =
          (Report.entries above).flatMap printed ++ found.map (Report.located path) ++ rest := by
  constructor
  · have hlength : (source.lines (splitRows text)).length = (splitRows text).length :=
      source.length_linesFrom 0 _
    -- Every text has a row, so that there is something to print.
    have hne : source.lines (splitRows text) ≠ [] := by
      rw [← List.length_pos_iff, hlength, splitRows, List.length_map, length_rows]
      exact Nat.succ_pos _
    exact ⟨_, source.readAll_splitRows text, hlength, fun _ hline => isRow_of_mem_lines hline,
      outlined_outline hne (fun _ hline => isRow_of_mem_lines hline)
        fun _ hline => oneSeverity_of_mem_lines hline⟩
  · intro v hv
    obtain ⟨checked, hcovers⟩ := Report.checkFiles_covers options.warningsAsErrors p.schedule v
      disk [] options.files
    have hrun : Report.run p options env disk =
        Report.checkFiles options.warningsAsErrors p.schedule v disk (.ofChecked [])
          options.files := by
      unfold Report.run
      rw [hv]
      rfl
    rw [hrun]
    refine ⟨checked, hcovers, ?_⟩
    rintro above path found below rfl hpath
    exact hcovers.printed_output hpath

/-- A text with all kinds of terminators, in which three characters stand that separate lines
elsewhere. -/
def separatedText : String := "Show\u2028all\r\nClass \"W\u2029and\" # a\u0085b\rFlavour\n"

/-- A disk with this text in two files, of which one has a broken path. -/
def separatedDisk : Files.Disk
  | "split\nname" | "plain" => .ok (.file (.text separatedText))
  | _ => .error .notFound

/-- A check of both files. -/
def separatedCheck : Options := ⟨none, false, ["split\nname", "plain"]⟩

/-- The outline has a line for each of the four rows and for two diagnostics. The diagnostics of the
second file are printed on one line each, also behind those of the first one, which are not. -/
theorem readAll_printed_separated :
    (∃ lines, (⟨none, .builtin, 0⟩ : Source).readAll (splitRows separatedText) = .ok lines ∧
      (∀ line ∈ lines, ∀ stored ∈ line.texts, IsRow stored) ∧
      Outlined lines (printed (outline lines)) ∧ (printed (outline lines)).length = 6) ∧
    Report.vocabulary (.standard 0) separatedCheck .empty separatedDisk = .ok .builtin ∧
    IsRow "plain" ∧
    ∃ above, ∃ found : List (Severity × Diagnostic), ∃ rest,
      (∀ entry ∈ found.map (Report.located "plain"), IsRow entry) ∧
      printed (Report.run (.standard 0) separatedCheck .empty separatedDisk).output =
        (Report.entries above).flatMap printed ++ found.map (Report.located "plain") ++ rest := by
  have hloaded : Report.vocabulary (.standard 0) separatedCheck .empty separatedDisk =
      .ok .builtin := by
    decide +kernel
  have hsizes : ((⟨none, .builtin, 0⟩ : Source).readAll (splitRows separatedText)).map
      (fun lines => lines.map fun line => line.messages.size) = .ok [1, 1, 0, 0] := by
    decide +kernel
  have hrows : (splitRows separatedText).length = 4 := by decide +kernel
  have hreadable : Report.readable separatedDisk separatedCheck.files =
      ["split\nname", "plain"] := by
    decide +kernel
  obtain ⟨⟨lines, hlines, hlength, hunbroken, houtlined⟩, hchecked⟩ :=
    readAll_printed ⟨none, .builtin, 0⟩ separatedText (.standard 0) separatedCheck .empty
      separatedDisk
  obtain ⟨checked, hcovers, hprinted⟩ := hchecked .builtin hloaded
  refine ⟨⟨lines, hlines, hunbroken, houtlined, ?_⟩, hloaded, by decide, ?_⟩
  · rw [hlines] at hsizes
    have hsum : (lines.map fun line => line.messages.size) = [1, 1, 0, 0] := Except.ok.inj hsizes
    rw [houtlined.length_eq, hlength, hrows, hsum]
    rfl
  · have hpaths := hcovers.paths.trans hreadable
    -- Both files were read, so that there are two entries with their paths.
    match checked, hpaths with
    | [(_, other), (_, found)], rfl =>
      obtain ⟨hentries, rest, houtput⟩ := hprinted [(_, other)] _ found [] rfl (by decide)
      exact ⟨_, found, rest, hentries, houtput⟩

end Source

end ItemFilter
