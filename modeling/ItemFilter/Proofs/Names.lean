import ItemFilter.Proofs.Reports

/-!
# Lists of names

What becomes of each name that a rule lists. The strings behind the keyword and an operator are
those that a query answers again and again until it answers none (`Cursor.Yields`); every query
moves the cursor on, so that there is an end to them (`Cursor.yields_strings`). The accepted ones
are stored in order. The errors are those of the operator, of the rejected names, and at last of
what follows the names (`Draft.names_start`).

The names tile the row, and so no two of them are in one place. No other error is in the place of a
name either, as the operator is in front of all names and what follows them behind. So each name is
stored once or reported once, and never both (`Line.parse_names`).
-/

namespace ItemFilter

open Text Lexeme

/-! ## Reading again and again -/

namespace Cursor

/-- An operator or none is in front of the cursor, and this is the cursor behind it. -/
inductive Passes (c : Cursor) : Option (Token Operator) → Cursor → Prop
  | absent : c.next operator? = none → Passes c none c
  | present {op : Token Operator} {c' : Cursor} :
    c.next operator? = some (op, c') → Passes c (some op) c'

/-- The strings that queries answer one after the other until there is none, and the cursor at which
none is found. -/
inductive Yields : Cursor → List (Token String) → Cursor → Prop
  | done {c : Cursor} : c.next string? = none → Yields c [] c
  | more {c c' last : Cursor} {t : Token String} {tokens : List (Token String)} :
    c.next string? = some (t, c') → Yields c' tokens last → Yields c (t :: tokens) last

/-- There is an end to the strings of a row. -/
theorem yields_strings (c : Cursor) : c.Yields c.strings.1 c.strings.2 := by
  fun_induction strings c with
  | case1 c hnone => exact .done hnone
  | case2 c t c' hsome tokens last hstrings ih =>
    rw [hstrings] at ih
    exact .more hsome ih

/-- Every cursor passes an operator or none. -/
theorem exists_passes (c : Cursor) : ∃ operator behind, c.Passes operator behind := by
  cases hnext : c.next operator? with
  | none => exact ⟨none, c, .absent hnext⟩
  | some found => exact ⟨some found.1, found.2, .present hnext⟩

/-- A cursor moves over the operator that it passes. -/
theorem Passes.reaches {c behind : Cursor} {operator : Option (Token Operator)}
    (h : c.Passes operator behind) : c.Reaches (Draft.operatorRanges operator) behind := by
  cases h with
  | absent _ => exact .refl c
  | present hsome =>
    exact (next_reaches recognises_operator (fun hop => hop ▸ isVisible_symbol _) hsome).1

end Cursor

/-! ## Rows that start with a word -/

namespace Line

variable {c c' : Cursor} {word : Token String}

/-- A row that starts with a word is neither blank nor a comment. -/
theorem not_ignored_of_word (h : c.next word? = some (word, c')) :
    ¬ c.isEmpty = true ∧ c.comment = none := by
  obtain ⟨token, hspells, hstarts, -⟩ := Cursor.next_eq_some recognises_word h
  have hignored : ¬ c.isIgnored = true := by
    rw [Cursor.isIgnored_iff]
    exact fun hignorable => hignorable.not_startsWith hspells.isBareString.isString hstarts
  rw [Cursor.isIgnored, Bool.or_eq_true, not_or] at hignored
  exact ⟨hignored.1, if_neg hignored.2⟩

/-- A row that starts with a keyword. -/
theorem read_of_keyword (h : c.next word? = some (word, c')) {keyword : Keyword}
    (hkeyword : Keyword.ofName? word.value = some keyword) (file : Option String)
    (vocabulary : Vocabulary) :
    read c file vocabulary = recognised c' word keyword file vocabulary := by
  obtain ⟨hempty, hcomment⟩ := not_ignored_of_word h
  unfold read
  rw [if_neg hempty, hcomment, h]
  dsimp only
  rw [hkeyword]

/-- A row that starts with a word that is no keyword. -/
theorem read_of_unknown (h : c.next word? = some (word, c'))
    (hkeyword : Keyword.ofName? word.value = none) (file : Option String)
    (vocabulary : Vocabulary) :
    read c file vocabulary = unrecognised c' word file vocabulary.unknownKeywords := by
  obtain ⟨hempty, hcomment⟩ := not_ignored_of_word h
  unfold read
  rw [if_neg hempty, hcomment, h]
  dsimp only
  rw [hkeyword]

end Line

/-! ## The messages of a list -/

/-- The condition that lists names of a kind. -/
def Lexicon.condition : Lexicon → Condition
  | classes => .itemClass
  | bases => .baseType

namespace Draft

variable {d : Draft}

/-- The reports of rejected names, each on its own range. -/
def rejections (keyword : String) (lexicon : Lexicon) (file : Option String)
    (rejected : List (Token String)) : List Diagnostic :=
  rejected.map fun t => (Problem.notListed keyword t.value lexicon).diagnostic file t.range

/-- Rejected names are reported in order behind all other errors. -/
theorem reportRejected_eq (lexicon : Lexicon) (rejected : List (Token String)) :
    d.reportRejected lexicon rejected =
      { d with messages := { d.messages with
          errors := d.messages.errors ++ rejections d.keyword lexicon d.file rejected } } := by
  induction rejected generalizing d with
  | nil =>
    show d = { d with messages := { d.messages with errors := d.messages.errors ++ [] } }
    rw [List.append_nil]
  | cons t rejected ih =>
    have hstep : d.reportRejected lexicon (t :: rejected) =
        (d.report (.notListed d.keyword t.value lexicon) t.range).reportRejected lexicon
          rejected := rfl
    have hreport : d.messages.report d.file (.notListed d.keyword t.value lexicon) t.range =
        { d.messages with errors := d.messages.errors ++
          [(Problem.notListed d.keyword t.value lexicon).diagnostic d.file t.range] } :=
      Messages.report_error rfl _ _ _
    rw [hstep, ih]
    simp [report, hreport, rejections]

/-- What is reported of the operator in front of names. -/
def operatorErrors (keyword : String) (file : Option String) :
    Option (Token Operator) → List Diagnostic
  | none => []
  | some op =>
    if op.value = .equal then []
    else [(Problem.invalidOperator keyword op.value).diagnostic file op.range]

/-- A draft that was just started, behind any operator. -/
theorem anyOperator_start {c behind : Cursor} {operator : Option (Token Operator)}
    (h : c.Passes operator behind) (keyword : String) (file : Option String) :
    (start c keyword file).anyOperator = ⟨behind, keyword, file, operator, .none⟩ := by
  cases h with
  | absent hnone => exact anyOperator_of_none (d := start c keyword file) hnone
  | present hsome => exact anyOperator_of_some (d := start c keyword file) hsome

/-- A draft that was just started, behind an operator that may be the equality sign only. -/
theorem equalityOperator_start {c behind : Cursor} {operator : Option (Token Operator)}
    (h : c.Passes operator behind) (keyword : String) (file : Option String) :
    (start c keyword file).equalityOperator =
      ⟨behind, keyword, file, operator, ⟨operatorErrors keyword file operator, [], []⟩⟩ := by
  unfold equalityOperator
  rw [anyOperator_start h]
  cases operator with
  | none => rfl
  | some op =>
    dsimp only [operatorErrors]
    split_ifs
    · rfl
    · rfl

/-- The last error of a list of names. That there is no name is reported if nothing else is; if
there is a name or an error, text that follows is reported unless it can be ignored. -/
inductive LastError (file : Option String) (tokens : List (Token String))
    (earlier : List Diagnostic) (last : Cursor) : List Diagnostic → Prop
  | missing : tokens = [] → earlier = [] → LastError file tokens earlier last
    [(Problem.expected .string).diagnostic file last.restOfLine]
  | trailing : ¬(tokens = [] ∧ earlier = []) → ¬ Ignorable last.remaining →
    LastError file tokens earlier last [Problem.trailingText.diagnostic file last.restOfText]
  | complete : ¬(tokens = [] ∧ earlier = []) → Ignorable last.remaining →
    LastError file tokens earlier last []

/-- The last error is not about the names. -/
theorem LastError.column_le {file : Option String} {tokens : List (Token String)}
    {earlier errors : List Diagnostic} {last : Cursor}
    (h : LastError file tokens earlier last errors) :
    ∀ e ∈ errors, last.column ≤ e.range.start.column := by
  cases h with
  | missing _ _ => exact List.forall_mem_singleton.2 last.column_le_nextColumn
  | trailing _ _ => exact List.forall_mem_singleton.2 last.column_le_nextColumn
  | complete _ _ => nofun

/-- A list of names behind a keyword: which of them are stored, and what is reported. -/
theorem names_start {c behind : Cursor} {operator : Option (Token Operator)}
    (h : c.Passes operator behind) (keyword : String) (file : Option String) (lexicon : Lexicon)
    (vocabulary : Vocabulary) :
    ∃ comment final,
      LastError file behind.strings.1 (operatorErrors keyword file operator) behind.strings.2
        final ∧
      (start c keyword file).names lexicon vocabulary =
        ⟨behind.strings.1.filter fun t => lexicon.accepts vocabulary t.value, operator, comment,
          ⟨operatorErrors keyword file operator ++ rejections keyword lexicon file
            (behind.strings.1.filter fun t => !lexicon.accepts vocabulary t.value) ++ final,
            [], []⟩⟩ := by
  have hstart := equalityOperator_start h keyword file
  by_cases hnothing : behind.next string? = none ∧ operatorErrors keyword file operator = []
  · -- Neither a name nor an error is there.
    obtain ⟨hnone, hnoError⟩ := hnothing
    rw [hnoError] at hstart ⊢
    have hnames : (start c keyword file).names lexicon vocabulary = _ :=
      names_of_none (by rw [hstart]; exact hnone) (by rw [hstart]; rfl) lexicon vocabulary
    rw [hnames, hstart, Cursor.strings_of_none hnone]
    exact ⟨none, _, .missing rfl rfl, rfl⟩
  · have hlisted : ¬(behind.strings.1 = [] ∧ operatorErrors keyword file operator = []) := by
      rintro ⟨htokens, hnoError⟩
      refine hnothing ⟨?_, hnoError⟩
      cases hnext : behind.next string? with
      | none => rfl
      | some found =>
        rw [Cursor.strings_of_some hnext] at htokens
        cases htokens
    have hnames : (start c keyword file).names lexicon vocabulary = _ :=
      names_of_some (by simpa [hstart, Messages.isEmpty] using hnothing) lexicon vocabulary
    rw [hstart, reportRejected_eq] at hnames
    generalize behind.strings.1 = tokens at hnames hlisted ⊢
    generalize behind.strings.2 = last at hnames ⊢
    dsimp only at hnames
    generalize hrejected : rejections keyword lexicon file _ = rejected at hnames ⊢
    -- The rule ends behind the names, with the errors that were reported so far.
    have hignored := Cursor.isIgnored_iff (c := last)
    rw [finish_eq] at hnames
    dsimp only at hnames
    by_cases hrest : last.isIgnored = true
    · rw [if_pos hrest, ← List.append_nil (operatorErrors keyword file operator ++ rejected)]
        at hnames
      exact ⟨_, [], .complete hlisted (hignored.1 hrest), hnames⟩
    · rw [if_neg hrest, Messages.report_error rfl] at hnames
      exact ⟨_, _, .trailing hlisted fun h => hrest (hignored.2 h), hnames⟩

end Draft

/-! ## Each name once -/

/-- Of tokens in different places, each is either among those that pass a test or in the place of
one that does not. -/
theorem count_filter_add_countP {tokens : List (Token String)}
    (hnodup : (tokens.map Token.range).Nodup) (test : Token String → Bool) {t : Token String}
    (ht : t ∈ tokens) :
    (tokens.filter test).count t +
      (tokens.filter fun t => !test t).countP (fun s => s.range = t.range) = 1 := by
  -- A token is known by its place.
  have hplace (s : Token String) (hs : s ∈ tokens.filter test) :
      (s == t) = true ↔ decide (s.range = t.range) = true := by
    rw [beq_iff_eq, decide_eq_true_iff]
    exact ⟨fun h => h ▸ rfl, List.inj_on_of_nodup_map hnodup (List.mem_of_mem_filter hs) ht⟩
  calc (tokens.filter test).count t +
        (tokens.filter fun t => !test t).countP (fun s => s.range = t.range)
      = (tokens.filter test).countP (fun s => s.range = t.range) +
        (tokens.filter fun t => !test t).countP (fun s => s.range = t.range) := by
        rw [List.count, List.countP_congr hplace]
    _ = tokens.countP (fun s => s.range = t.range) :=
        (List.countP_eq_countP_filter_add tokens _ test).symm
    _ = (tokens.map Token.range).count t.range := by
        rw [List.count, List.countP_map]
        rfl
    _ = 1 := List.count_eq_one_of_mem hnodup (List.mem_map_of_mem ht)

namespace Line

/-- A line that lists names: these tokens behind this operator, with the cursor at the end of
them. -/
structure ListsNames (lexicon : Lexicon) (file : Option String) (vocabulary : Vocabulary)
    (operator : Option (Token Operator)) (tokens : List (Token String)) (last : Cursor)
    (line : Line) : Prop where
  /-- The names that the vocabulary accepts are stored in order. -/
  stored : ∃ range comment, line.kind = .rule ⟨⟨.condition lexicon.condition, range⟩, operator,
    .names (tokens.filter fun t => lexicon.accepts vocabulary t.value), comment⟩
  /-- The operator is reported, then the other names in order, each on itself, and then what follows
  them. -/
  reported : ∃ final,
    Draft.LastError file tokens (Draft.operatorErrors lexicon.condition.name file operator) last
      final ∧
    line.messages = ⟨Draft.operatorErrors lexicon.condition.name file operator ++
      Draft.rejections lexicon.condition.name lexicon file
        (tokens.filter fun t => !lexicon.accepts vocabulary t.value) ++ final, [], []⟩
  /-- Each name is stored once or reported once. -/
  once : ∀ t ∈ tokens,
    (tokens.filter fun t => lexicon.accepts vocabulary t.value).count t +
      line.messages.errors.countP (fun e => e.range = t.range) = 1

/-- No error but that of a rejected name is in the place of a name. -/
theorem countP_errors {c behind last : Cursor} {operator : Option (Token Operator)}
    {tokens rejected : List (Token String)} {final : List Diagnostic} {keyword : String}
    {lexicon : Lexicon} {file : Option String} (hpasses : c.Passes operator behind)
    (hreaches : behind.Reaches (tokens.map Token.range) last)
    (hfinal : ∀ e ∈ final, last.column ≤ e.range.start.column) {t : Token String}
    (ht : t ∈ tokens) :
    (Draft.operatorErrors keyword file operator ++ Draft.rejections keyword lexicon file rejected ++
      final).countP (fun e => e.range = t.range) =
      rejected.countP fun s => s.range = t.range := by
  obtain ⟨-, hstart, hlt, hstop⟩ := hreaches.tiled.mem (List.mem_map_of_mem ht)
  have hoperator : (Draft.operatorErrors keyword file operator).countP
      (fun e => e.range = t.range) = 0 := by
    rw [List.countP_eq_zero]
    intro e he heq
    -- The operator stops before the first name starts.
    obtain ⟨op, rfl, hrange⟩ : ∃ op, operator = some op ∧ e.range = op.range := by
      unfold Draft.operatorErrors at he
      split at he
      · cases he
      · rename_i op
        split_ifs at he
        · cases he
        · obtain rfl := List.mem_singleton.1 he
          exact ⟨op, rfl, rfl⟩
    obtain ⟨-, -, -, hbefore⟩ := hpasses.reaches.tiled.mem (List.mem_singleton_self op.range)
    have hsame : op.range = t.range := hrange.symm.trans (of_decide_eq_true heq)
    rw [hsame] at hbefore
    omega
  have hfinal' : final.countP (fun e => e.range = t.range) = 0 := by
    rw [List.countP_eq_zero]
    intro e he heq
    have hbehind := hfinal e he
    rw [of_decide_eq_true heq] at hbehind
    omega
  rw [List.countP_append, List.countP_append, hoperator, hfinal', Draft.rejections,
    List.countP_map]
  show 0 + _ + 0 = _
  rw [Nat.zero_add, Nat.add_zero]
  rfl

/-- A row that starts with the keyword of a list of names. Behind an operator or none, queries for a
string come to an end; of the names that they answered, those that the vocabulary accepts are
stored, and the others are reported between what is wrong with the operator and what is wrong with
the rest of the row. -/
theorem parse_names {text : String} (htext : IsRow text) {row : Nat} {word : Token String}
    {c : Cursor} (hword : (⟨row, text.toList, 0⟩ : Cursor).next word? = some (word, c))
    (lexicon : Lexicon) (hname : word.value = lexicon.condition.name) (file : Option String)
    (vocabulary : Vocabulary) :
    ∃ operator behind tokens last line, c.Passes operator behind ∧ behind.Yields tokens last ∧
      parse text row file vocabulary = .ok line ∧
      line.ListsNames lexicon file vocabulary operator tokens last := by
  obtain ⟨operator, behind, hpasses⟩ := c.exists_passes
  obtain ⟨comment, final, hfinal, hnames⟩ :=
    Draft.names_start hpasses lexicon.condition.name file lexicon vocabulary
  obtain ⟨hreaches, -⟩ := behind.strings_reaches
  have hparse := Source.parse_eq_ok ⟨file, vocabulary, 0⟩ htext row
  have hkeyword : Keyword.ofName? word.value = some (.rule (.condition lexicon.condition)) :=
    Keyword.ofName?_eq_some_iff.2 hname
  have hline : read ⟨row, text.toList, 0⟩ file vocabulary =
      recognised c word (.rule (.condition lexicon.condition)) file vocabulary :=
    read_of_keyword hword hkeyword file vocabulary
  have hargument : (Draft.start c word.value file).argument vocabulary
      (.condition lexicon.condition) =
      ((Draft.start c lexicon.condition.name file).names lexicon vocabulary).map .names := by
    rw [hname]
    cases lexicon with
    | classes => rfl
    | bases => rfl
  refine ⟨operator, behind, behind.strings.1, behind.strings.2, _, hpasses, behind.yields_strings,
    hparse, ?_⟩
  show (read ⟨row, text.toList, 0⟩ file vocabulary).ListsNames _ _ _ _ _ _
  rw [hline]
  unfold recognised
  dsimp only
  rw [hargument, hnames]
  refine ⟨⟨word.range, comment, rfl⟩, ⟨final, hfinal, rfl⟩, fun t ht => ?_⟩
  show _ + (Draft.operatorErrors _ _ _ ++ Draft.rejections _ _ _ _ ++ final).countP _ = 1
  rw [countP_errors hpasses hreaches hfinal.column_le ht]
  exact count_filter_add_countP hreaches.tiled.nodup _ ht

/-- A wrong operator that touches the first name, a name that is accepted, one that is not, and a
quote that is never closed. -/
def mixedNames : String := "Class <Boots \"Bööts\" Glov\" # x"

/-- One name is stored; the operator, the other name and the rest of the row are reported in this
order. -/
theorem parse_names_mixedNames :
    (IsRow mixedNames ∧ (⟨3, mixedNames.toList, 0⟩ : Cursor).next word? =
      some (⟨"Class", .onRow 3 0 5⟩, ⟨3, mixedNames.toList, 5⟩)) ∧
    ∃ operator behind tokens last line,
      (⟨3, mixedNames.toList, 5⟩ : Cursor).Passes operator behind ∧ behind.Yields tokens last ∧
      parse mixedNames 3 none .builtin = .ok line ∧
      line.ListsNames .classes none .builtin operator tokens last ∧
      line.messages.errors.map Diagnostic.excerpt =
        ["Invalid operator for rule Class.",
          "Invalid value for rule Class. \"Bööts\" is not a known item class.",
          "Unexpected trailing text. The rule is already complete."] := by
  have hrow : IsRow mixedNames := by decide
  have hword : (⟨3, mixedNames.toList, 0⟩ : Cursor).next word? =
      some (⟨"Class", .onRow 3 0 5⟩, ⟨3, mixedNames.toList, 5⟩) := by decide +kernel
  have hread : (parse mixedNames 3 none .builtin).map
      (fun line => line.messages.errors.map Diagnostic.excerpt) =
      .ok ["Invalid operator for rule Class.",
        "Invalid value for rule Class. \"Bööts\" is not a known item class.",
        "Unexpected trailing text. The rule is already complete."] := by decide +kernel
  obtain ⟨operator, behind, tokens, last, line, hpasses, hyields, hline, hlists⟩ :=
    parse_names hrow hword .classes rfl none .builtin
  rw [hline] at hread
  exact ⟨⟨hrow, hword⟩, operator, behind, tokens, last, line, hpasses, hyields, hline, hlists,
    Except.ok.inj hread⟩

end Line

end ItemFilter
