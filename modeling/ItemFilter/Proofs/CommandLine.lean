import ItemFilter.Options
import Mathlib.Data.List.Basic
import Mathlib.Tactic.SplitIfs

/-!
# Reading a command line

What an argument means depends on its place: behind a `--config` it is a path, whatever it looks
like, and also if it looks like `--config` itself. `Options.isTaken` says this of every place of a
command line. The arguments that are taken are its paths (`Options.paths`), and all others stand for
themselves (`Options.standing`).

`Options.collect` walks over the arguments and stops where it cannot go on. What it comes to can be
said without a walk, by which arguments stand and which are taken (`Options.outcome`,
`Options.collect_eq_outcome`). The proof rests on the fact that a command line can be cut wherever
no path is missing: what is taken behind the cut does not depend on what is in front of it
(`Options.isTaken_append`), so that the rest can be read on its own (`Options.outcome_append`). Each
part that options are written with ends at such a place (`Options.Part.lacksPath_words`).

`Options.parse_commandLine` states from this that options can be written in every order, and which
command lines are refused.
-/

namespace ItemFilter.Options

/-! ## Places -/

/-- Whether the argument at a place is the path of a `--config` in front of it. A `--config` that is
a path itself takes none. -/
def isTaken (args : List String) : Nat → Bool
  | 0 => false
  | place + 1 => !isTaken args place && args[place]? == some "--config"

/-- The arguments at some of the places, in order. -/
def select (places : Nat → Bool) (args : List String) : List String :=
  (args.zipIdx.filter fun arg => places arg.2).map Prod.fst

/-- The arguments that are taken as paths. -/
def paths (args : List String) : List String := select (isTaken args) args

/-- The arguments that stand for themselves. -/
def standing (args : List String) : List String := select (fun place => !isTaken args place) args

/-- Whether the last argument is a `--config` that is followed by no path: it would take the place
behind it. -/
def lacksPath (args : List String) : Bool := isTaken args args.length

/-- Whether an argument looks like an option but is none. -/
def isUnknown (arg : String) : Bool :=
  isFlag arg && arg != "--config" && arg != "--warnings-as-errors"

/-- The options that arguments ask for, on top of others: the last path, and all files. -/
def extend (options : Options) (args : List String) : Options where
  config := (paths args).getLast?.or options.config
  warningsAsErrors := options.warningsAsErrors || (standing args).contains "--warnings-as-errors"
  files := options.files ++ (standing args).filter (!isFlag ·)

/-- What arguments come to: the first unknown option is refused, then a path that is missing. -/
def outcome (options : Options) (args : List String) : Except UsageError Options :=
  match (standing args).find? isUnknown with
  | some flag => .error (.unknownOption flag)
  | .none => if lacksPath args then .error .missingConfigPath else .ok (options.extend args)

/-! ## Cutting a command line -/

/-- The arguments of two stretches, by their places in the whole. -/
theorem select_append (places : Nat → Bool) (before args : List String) :
    select places (before ++ args) =
      select places before ++ select (fun place => places (before.length + place)) args := by
  have hshift : args.zipIdx (0 + before.length) =
      args.zipIdx.map fun arg => (arg.1, before.length + arg.2) := by
    rw [Nat.zero_add, List.zipIdx_eq_map_add]
  unfold select
  rw [List.zipIdx_append, List.filter_append, List.map_append, hshift, List.filter_map,
    List.map_map]
  rfl

/-- Only the places of the arguments matter. -/
theorem select_congr {places places' : Nat → Bool} {args : List String}
    (h : ∀ place < args.length, places place = places' place) :
    select places args = select places' args := by
  unfold select
  congr 1
  exact List.filter_congr fun arg harg => h arg.2 (List.snd_lt_of_mem_zipIdx harg)

/-- Whether an argument is taken does not depend on what is behind it. -/
theorem isTaken_append_left (before args : List String) {place : Nat}
    (h : place ≤ before.length) : isTaken (before ++ args) place = isTaken before place := by
  induction place with
  | zero => rfl
  | succ place ih =>
    rw [isTaken, isTaken, ih (Nat.le_of_succ_le h), List.getElem?_append_left h]

variable {before : List String}

/-- Behind a stretch where no path is missing, whether an argument is taken does not depend on what
is in front of it. -/
theorem isTaken_append (h : lacksPath before = false) (args : List String) (place : Nat) :
    isTaken (before ++ args) (before.length + place) = isTaken args place := by
  -- The first place behind the stretch is the one that a missing path would take.
  induction place with
  | zero => exact (isTaken_append_left before args (Nat.le_refl _)).trans h
  | succ place ih =>
    rw [← Nat.add_assoc, isTaken, isTaken, ih,
      List.getElem?_append_right (Nat.le_add_right _ _), Nat.add_sub_cancel_left]

/-- Arguments that are selected by whether they are taken are selected in each stretch on its
own. -/
theorem select_isTaken_append (p : Bool → Bool) (h : lacksPath before = false)
    (args : List String) :
    select (fun place => p (isTaken (before ++ args) place)) (before ++ args) =
      select (fun place => p (isTaken before place)) before ++
        select (fun place => p (isTaken args place)) args := by
  have hbefore : ∀ place < before.length,
      p (isTaken (before ++ args) place) = p (isTaken before place) :=
    fun place hplace => congrArg p (isTaken_append_left before args (Nat.le_of_lt hplace))
  rw [select_append, select_congr hbefore]
  simp only [isTaken_append h]

theorem paths_append (h : lacksPath before = false) (args : List String) :
    paths (before ++ args) = paths before ++ paths args :=
  select_isTaken_append id h args

theorem standing_append (h : lacksPath before = false) (args : List String) :
    standing (before ++ args) = standing before ++ standing args :=
  select_isTaken_append not h args

/-- A path can only be missing at the very end. -/
theorem lacksPath_append (h : lacksPath before = false) (args : List String) :
    lacksPath (before ++ args) = lacksPath args := by
  unfold lacksPath
  rw [List.length_append, isTaken_append h]

/-- The stretches extend options one after the other. -/
theorem extend_append (options : Options) (h : lacksPath before = false) (args : List String) :
    options.extend (before ++ args) = (options.extend before).extend args := by
  unfold extend
  rw [paths_append h, standing_append h, List.getLast?_append, List.contains_append,
    List.filter_append, Option.or_assoc, Bool.or_assoc, List.append_assoc]

/-- Behind a stretch where no path is missing and all options are known, the rest is read on its
own. -/
theorem outcome_append (options : Options) (h : lacksPath before = false)
    (hknown : (standing before).find? isUnknown = .none) (args : List String) :
    outcome options (before ++ args) = outcome (options.extend before) args := by
  unfold outcome
  rw [standing_append h, List.find?_append, hknown, Option.none_or, lacksPath_append h,
    extend_append options h]

/-! ## The parts of a command line -/

/-- What a command line is written with. -/
inductive Part where
  /-- `--config` and its path. -/
  | config (path : String)
  | warningsAsErrors
  | file (name : String)
deriving DecidableEq, Repr

namespace Part

/-- The arguments of a part. -/
def words : Part → List String
  | config path => ["--config", path]
  | warningsAsErrors => ["--warnings-as-errors"]
  | file name => [name]

/-- The argument of a part that stands for itself. -/
def word : Part → String
  | config _ => "--config"
  | warningsAsErrors => "--warnings-as-errors"
  | file name => name

/-- The path that a part gives. -/
def path? : Part → Option String
  | config path => some path
  | warningsAsErrors | file _ => .none

/-- The file that a part names. -/
def file? : Part → Option String
  | file name => some name
  | config _ | warningsAsErrors => .none

/-- Parts interleave what options are written with: their files in order, the path of the settings
if there is one, and at least one `--warnings-as-errors` if it is asked for. -/
structure Interleave (parts : List Part) (options : Options) : Prop where
  files : parts.filterMap file? = options.files
  config : parts.filterMap path? = options.config.toList
  warningsAsErrors : warningsAsErrors ∈ parts ↔ options.warningsAsErrors = true

end Part

/-- Options with those of a part on top. -/
def add (options : Options) : Part → Options
  | .config path => { options with config := some path }
  | .warningsAsErrors => { options with warningsAsErrors := true }
  | .file name => { options with files := options.files ++ [name] }

/-- An argument that does not look like an option is none. -/
theorem ne_of_isFlag {arg flag : String} (hflag : isFlag flag = true) (harg : isFlag arg = false) :
    arg ≠ flag := by
  rintro rfl
  rw [hflag] at harg
  cases harg

@[simp]
theorem isFlag_config : isFlag "--config" = true := by decide

@[simp]
theorem isFlag_warningsAsErrors : isFlag "--warnings-as-errors" = true := by decide

/-- Of single arguments, only `--config` asks for a path. -/
theorem lacksPath_singleton {arg : String} (h : arg ≠ "--config") : lacksPath [arg] = false := by
  simpa [lacksPath, isTaken] using h

namespace Part

variable {part : Part}

/-- No path is missing behind a part. -/
theorem lacksPath_words (h : ∀ name ∈ part.file?, isFlag name = false) :
    lacksPath part.words = false := by
  cases part with
  | config path => rfl
  | warningsAsErrors => exact lacksPath_singleton (by decide)
  | file name => exact lacksPath_singleton (ne_of_isFlag isFlag_config (h name rfl))

theorem standing_words (part : Part) : standing part.words = [part.word] := by
  cases part <;> rfl

theorem paths_words (part : Part) : paths part.words = part.path?.toList := by
  cases part <;> rfl

/-- No part is an unknown option. -/
theorem isUnknown_word (h : ∀ name ∈ part.file?, isFlag name = false) :
    isUnknown part.word = false := by
  cases part with
  | config path => simp [isUnknown, word]
  | warningsAsErrors => simp [isUnknown, word]
  | file name => rw [isUnknown, word, h name rfl, Bool.false_and, Bool.false_and]

/-- A part extends options by what it says. -/
theorem extend_words (h : ∀ name ∈ part.file?, isFlag name = false) (options : Options) :
    options.extend part.words = options.add part := by
  unfold extend
  rw [standing_words, paths_words]
  cases part with
  | config path => simp [path?, word, add]
  | warningsAsErrors => simp [path?, word, add]
  | file name =>
    have hname : isFlag name = false := h name rfl
    have hne := ne_of_isFlag isFlag_warningsAsErrors hname
    simp [path?, word, add, hname, hne.symm]

/-- A part is read first, and the rest on top of it. -/
theorem outcome_words_append (part : Part) (h : ∀ name ∈ part.file?, isFlag name = false)
    (options : Options) (args : List String) :
    outcome options (part.words ++ args) = outcome (options.add part) args := by
  have hknown : (standing part.words).find? isUnknown = .none := by
    simp [standing_words, isUnknown_word h]
  rw [outcome_append options (lacksPath_words h) hknown, extend_words h]

end Part

/-- Without arguments, the options stay as they are. -/
theorem outcome_nil (options : Options) : outcome options [] = .ok options := by
  simp [outcome, extend, standing, paths, select, lacksPath, isTaken]

/-- An unknown option in front is what arguments are refused for. -/
theorem outcome_unknown {arg : String} (hconfig : arg ≠ "--config") (h : isUnknown arg = true)
    (options : Options) (args : List String) :
    outcome options (arg :: args) = .error (.unknownOption arg) := by
  have hstanding : standing (arg :: args) = arg :: standing args :=
    standing_append (lacksPath_singleton hconfig) args
  unfold outcome
  rw [hstanding, List.find?_cons_of_pos h]

/-! ## The walk -/

/-- Reading arguments comes to their outcome. -/
theorem collect_eq_outcome (options : Options) (args : List String) :
    collect options args = outcome options args := by
  -- The walk goes on behind each part, and ends at an open `--config` or an unknown option.
  fun_induction collect options args with
  | case1 options => exact (outcome_nil options).symm
  | case2 options => rfl
  | case3 options path args ih =>
    exact ih.trans (Part.outcome_words_append (.config path) nofun options args).symm
  | case4 options args hconfig ih =>
    exact ih.trans (Part.outcome_words_append .warningsAsErrors nofun options args).symm
  | case5 options arg args hconfig hwarnings hflag =>
    have hunknown : isUnknown arg = true := by simp [isUnknown, hflag, hconfig, hwarnings]
    exact (outcome_unknown hconfig hunknown options args).symm
  | case6 options arg args hconfig hwarnings hflag ih =>
    have hfile : ∀ name ∈ (Part.file arg).file?, isFlag name = false := by
      rintro name ⟨⟩
      simpa using hflag
    exact ih.trans (Part.outcome_words_append (.file arg) hfile options args).symm

/-- Parts are read one after the other. -/
theorem outcome_flatMap_words {parts : List Part}
    (h : ∀ part ∈ parts, ∀ name ∈ part.file?, isFlag name = false) (options : Options) :
    outcome options (parts.flatMap Part.words) = .ok (parts.foldl add options) := by
  induction parts generalizing options with
  | nil => exact outcome_nil options
  | cons part parts ih =>
    obtain ⟨hpart, hparts⟩ := List.forall_mem_cons.1 h
    rw [List.flatMap_cons, Part.outcome_words_append part hpart, ih hparts, List.foldl_cons]

/-- Parts give the last of their paths and all of their files. -/
theorem foldl_add (options : Options) (parts : List Part) :
    parts.foldl add options =
      { config := (parts.filterMap Part.path?).getLast?.or options.config
        warningsAsErrors := options.warningsAsErrors || parts.contains .warningsAsErrors
        files := options.files ++ parts.filterMap Part.file? } := by
  induction parts generalizing options with
  | nil => simp
  | cons part parts ih =>
    rw [List.foldl_cons, ih]
    cases part with
    | config path => simp [add, Part.path?, Part.file?, List.filterMap_cons, List.getLast?_cons]
    | warningsAsErrors => simp [add, Part.path?, Part.file?, List.filterMap_cons]
    | file name => simp [add, Part.path?, Part.file?, List.filterMap_cons]

/-! ## The command line -/

/-- Why a command line is refused: for its first unknown option, or else for a path that is missing
at its end, or else because no file is named. -/
def Misused (args : List String) : UsageError → Prop
  | .unknownOption flag => (standing args).find? isUnknown = some flag
  | .missingConfigPath =>
    (standing args).find? isUnknown = .none ∧ lacksPath args = true
  | .noFiles =>
    (standing args).find? isUnknown = .none ∧ lacksPath args = false ∧
      (standing args).filter (!isFlag ·) = []

/-- What a command line is read as, without a walk. -/
theorem parse_eq (args : List String) :
    parse args = match (standing args).find? isUnknown with
      | some flag => .error (.unknownOption flag)
      | .none =>
        if lacksPath args then .error .missingConfigPath
        else if (standing args).filter (!isFlag ·) = [] then .error .noFiles
        else .ok (none.extend args) := by
  have hfiles : (none.extend args).files.isEmpty = true ↔
      (standing args).filter (!isFlag ·) = [] := by
    rw [List.isEmpty_iff]
    rfl
  unfold parse
  rw [collect_eq_outcome, outcome]
  cases (standing args).find? isUnknown with
  | some flag => rfl
  | none =>
    cases lacksPath args with
    | true => rfl
    | false =>
      simp only [Bool.false_eq_true, if_false]
      exact if_congr hfiles rfl rfl

/-- A command line is refused for what is wrong with it. -/
theorem parse_eq_error_iff {args : List String} {e : UsageError} :
    parse args = .error e ↔ Misused args e := by
  rw [parse_eq]
  cases hunknown : (standing args).find? isUnknown with
  | some flag => cases e <;> simp [Misused, hunknown]
  | none =>
    cases hpath : lacksPath args with
    | true => cases e <;> simp [Misused, hunknown, hpath]
    | false =>
      by_cases hfiles : (standing args).filter (!isFlag ·) = []
      · cases e <;> simp [Misused, hunknown, hpath, hfiles]
      · cases e <;> simp [Misused, hunknown, hpath, hfiles]

/-- A command line that is not refused asks for what its arguments say. -/
theorem exists_error_or_parse_eq_ok (args : List String) :
    (∃ e, parse args = .error e) ∨ parse args = .ok (none.extend args) := by
  rw [parse_eq]
  split
  · exact .inl ⟨_, rfl⟩
  · split_ifs
    · exact .inl ⟨_, rfl⟩
    · exact .inl ⟨_, rfl⟩
    · exact .inr rfl

/-- A path is missing behind a last `--config` that is not taken as a path itself. -/
theorem lacksPath_iff {args : List String} :
    lacksPath args = true ↔
      ∃ before, args = before ++ ["--config"] ∧ isTaken args before.length = false := by
  -- The place behind the arguments is seen from the last of them, so they are split there.
  rcases args.eq_nil_or_concat with rfl | ⟨before, arg, rfl⟩
  · simp [lacksPath, isTaken]
  · simp [lacksPath, isTaken, and_comm]

/-- Something is wrong with a command line if an argument that stands for itself is an unknown
option, if a path is missing, or if all such arguments look like options. -/
theorem exists_misused_iff {args : List String} :
    (∃ e, Misused args e) ↔
      (∃ arg ∈ standing args,
        isFlag arg = true ∧ arg ≠ "--config" ∧ arg ≠ "--warnings-as-errors") ∨
      lacksPath args = true ∨ ∀ arg ∈ standing args, isFlag arg = true := by
  have hunknown : (∃ arg ∈ standing args,
        isFlag arg = true ∧ arg ≠ "--config" ∧ arg ≠ "--warnings-as-errors") ↔
      ∃ flag, (standing args).find? isUnknown = some flag := by
    rw [← Option.isSome_iff_exists, List.find?_isSome]
    simp [isUnknown, and_assoc]
  have hfiles : (standing args).filter (!isFlag ·) = [] ↔
      ∀ arg ∈ standing args, isFlag arg = true := by simp [List.filter_eq_nil_iff]
  rw [hunknown, ← hfiles]
  constructor
  · rintro ⟨e, he⟩
    cases e with
    | unknownOption flag => exact .inl ⟨flag, he⟩
    | missingConfigPath => exact .inr (.inl he.2)
    | noFiles => exact .inr (.inr he.2.2)
  · -- The first of the three that holds is what the command line is refused for.
    intro h
    cases hfind : (standing args).find? isUnknown with
    | some flag => exact ⟨.unknownOption flag, hfind⟩
    | none =>
      cases hpath : lacksPath args with
      | true => exact ⟨.missingConfigPath, hfind, hpath⟩
      | false =>
        rcases h with ⟨flag, hflag⟩ | hlacks | hnone
        · rw [hfind] at hflag
          cases hflag
        · rw [hpath] at hlacks
          cases hlacks
        · exact ⟨.noFiles, hfind, hpath, hnone⟩

/-- Parts that interleave what options are written with add up to these options. -/
theorem foldl_add_of_interleave {parts : List Part} {options : Options}
    (h : Part.Interleave parts options) : parts.foldl add none = options := by
  have hwarnings : parts.contains .warningsAsErrors = options.warningsAsErrors := by
    rw [Bool.eq_iff_iff, List.contains_iff_mem]
    exact h.warningsAsErrors
  rw [foldl_add, h.files, h.config, hwarnings]
  cases options with
  | mk config warningsAsErrors files => cases config <;> rfl

/-- Options are read off every command line that is an interleaving of what they are written
with. -/
theorem parse_flatMap_words {parts : List Part} {options : Options} (hfiles : options.files ≠ [])
    (hnames : ∀ file ∈ options.files, isFlag file = false) (h : Part.Interleave parts options) :
    parse (parts.flatMap Part.words) = .ok options := by
  -- A file that looked like an option would not be read as the part that it is.
  have hparts : ∀ part ∈ parts, ∀ name ∈ part.file?, isFlag name = false := by
    intro part hpart name hname
    apply hnames
    rw [← h.files]
    exact List.mem_filterMap.2 ⟨part, hpart, hname⟩
  have hcollect : collect none (parts.flatMap Part.words) = .ok options := by
    rw [collect_eq_outcome, outcome_flatMap_words hparts, foldl_add_of_interleave h]
  unfold parse
  rw [hcollect]
  exact if_neg (by simpa using hfiles)

/-- Options can be written as a command line by their files in order, `--config` with its path and
`--warnings-as-errors`, in whatever way these are interleaved. Conversely, a command line is refused
exactly if an argument that is not taken as a path is an unknown option, or is a `--config` at the
end, or if no such argument is a file; and it is refused for the first of these that is met.
Otherwise it asks for these files in order, for the last of its paths, and for warnings to count as
errors if one of its arguments says so. -/
theorem parse_commandLine :
    (∀ (options : Options) (parts : List Part), options.files ≠ [] →
      (∀ file ∈ options.files, isFlag file = false) → Part.Interleave parts options →
      parse (parts.flatMap Part.words) = .ok options) ∧
    ∀ args : List String,
      ((∃ e, parse args = .error e) ↔
        (∃ arg ∈ standing args,
          isFlag arg = true ∧ arg ≠ "--config" ∧ arg ≠ "--warnings-as-errors") ∨
        (∃ before, args = before ++ ["--config"] ∧ isTaken args before.length = false) ∨
        ∀ arg ∈ standing args, isFlag arg = true) ∧
      (∀ e, parse args = .error e ↔ Misused args e) ∧
      ((∃ e, parse args = .error e) ∨
        parse args = .ok
          { config := (paths args).getLast?
            warningsAsErrors := (standing args).contains "--warnings-as-errors"
            files := (standing args).filter (!isFlag ·) }) := by
  refine ⟨fun options parts hfiles hnames hparts => ?_, fun args => ⟨?_, ?_, ?_⟩⟩
  · exact parse_flatMap_words hfiles hnames hparts
  · simp only [parse_eq_error_iff]
    rw [exists_misused_iff, lacksPath_iff]
  · exact fun e => parse_eq_error_iff
  · simpa [extend, none] using exists_error_or_parse_eq_ok args

/-- A command line with a path that looks like `--config`, and one with an open `--config` behind
such a path. -/
theorem parse_commandLine_config :
    parse ["--warnings-as-errors", "a.filter", "--config", "--config", "--warnings-as-errors",
      "-b"] = .ok ⟨some "--config", true, ["a.filter", "-b"]⟩ ∧
    (∃ e, parse ["a.filter", "--config", "--config", "--config"] = .error e) ∧
    parse ["a.filter", "--config", "--config", "--config"] = .error .missingConfigPath := by
  obtain ⟨hwritten, hread⟩ := parse_commandLine
  obtain ⟨hrefused, hcause, -⟩ := hread ["a.filter", "--config", "--config", "--config"]
  refine ⟨?_, ?_, ?_⟩
  · exact hwritten ⟨some "--config", true, ["a.filter", "-b"]⟩
      [.warningsAsErrors, .file "a.filter", .config "--config", .warningsAsErrors, .file "-b"]
      (by decide) (by decide) ⟨rfl, rfl, by decide⟩
  · exact hrefused.2 (.inr (.inl ⟨["a.filter", "--config", "--config"], rfl, by decide⟩))
  · exact (hcause _).2 ⟨by decide, by decide⟩

end ItemFilter.Options
