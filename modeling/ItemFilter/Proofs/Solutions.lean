import ItemFilter.Proofs.Displacement
import ItemFilter.Proofs.Names

/-!
# Proposed solutions

What becomes of a row when the solution that a diagnostic proposes is put in its place. A solution
is proposed for an operator, which is the first error of its rule (`Invariant.plain`), and for the
name of a rarity.

Behind the part that is replaced the row goes on as before, in other columns, so that two readings
of it find the same arguments and report the same errors (`Likeness.mending`). What is left is to
see that the part itself is read as intended: the equality sign is one operator, since the operator
that it replaces was the longest run of comparison signs; where an operator is removed there is
none, if no further one follows; and the name of a rarity is a string, which is read behind the same
operator as before. The keyword is never touched, because blanks follow it
(`atBoundary_of_visible`).

All of this is put together in `Line.parse_solution`.
-/

namespace ItemFilter

open Text Lexeme

/-! ## What proposes a solution -/

/-- There are only errors, and those behind the given ones propose no solution. -/
def Messages.Plain (first : List Diagnostic) (m : Messages) : Prop :=
  ∃ rest, m = ⟨first ++ rest, [], []⟩ ∧ ∀ e ∈ rest, e.solution = .none

namespace Messages.Plain

variable {first : List Diagnostic} {m : Messages}

/-- Reporting an error without a solution. -/
theorem report (h : m.Plain first) {problem : Problem} (herror : problem.severity = .error)
    (hsolution : problem.solution = .none) (file : Option String) (range : Range) :
    (m.report file problem range).Plain first := by
  obtain ⟨rest, rfl, hrest⟩ := h
  refine ⟨rest ++ [problem.diagnostic file range], ?_, ?_⟩
  · rw [report_error herror, List.append_assoc]
  · exact List.forall_mem_append.2 ⟨hrest, List.forall_mem_singleton.2 hsolution⟩

/-- A diagnostic with a solution is one of the first errors. -/
theorem mem_first (h : m.Plain first) {severity : Severity} {d : Diagnostic}
    (hd : (severity, d) ∈ m.toList) (hsolution : d.solution ≠ .none) :
    severity = .error ∧ d ∈ first := by
  obtain ⟨rest, rfl, hrest⟩ := h
  have hlist : (⟨first ++ rest, [], []⟩ : Messages).toList =
      (first ++ rest).map (Severity.error, ·) := by simp [toList]
  rw [hlist] at hd
  obtain ⟨e, he, heq⟩ := List.mem_map.1 hd
  obtain ⟨rfl, rfl⟩ := Prod.mk.inj heq
  refine ⟨rfl, ?_⟩
  rcases List.mem_append.1 he with hfirst | hlater
  · exact hfirst
  · exact absurd (hrest e hlater) hsolution

end Messages.Plain

/-- A rule that ends behind its last argument reports errors without solutions at most. -/
theorem Draft.plain_finish {α : Type} {d : Draft} {first : List Diagnostic}
    (h : d.messages.Plain first) (value : α) : (d.finish value).messages.Plain first := by
  rw [messages_finish]
  split_ifs
  · exact h
  · exact h.report rfl rfl d.file d.cursor.restOfText

/-- Only what was reported at first proposes a solution. -/
def Invariant.plain (first : List Diagnostic) : Invariant where
  Holds d := d.messages.Plain first
  Ended o := o.messages.Plain first
  Permits problem := problem.severity = .error ∧ problem.solution = none
  permits herror hsolution := ⟨herror, hsolution⟩
  next := by
    intro α recognise Spells d t c _ h _
    exact ⟨h, fun problem ⟨herror, hsolution⟩ _ => h.report herror hsolution d.file t.range⟩
  finish h := Draft.plain_finish h ()
  missing h herror hsolution _ := h.report herror hsolution _ _

/-- A rule keeps the operator that it has in front of its arguments. -/
def Invariant.operator (operator : Option (Token Operator)) : Invariant where
  Holds d := d.operator = operator
  Ended o := o.operator = operator
  Permits _ := True
  permits _ _ := trivial
  next _ h _ := ⟨h, fun _ _ _ => h⟩
  finish {d} h := by
    rw [Draft.finish_eq]
    exact h
  missing h _ _ _ := h

/-- The operator of a rule is the one in front of its arguments. -/
theorem Draft.operator_argument (d : Draft) (vocabulary : Vocabulary) (name : RuleName) :
    (d.argument vocabulary name).operator = (d.readOperator name).operator :=
  (Invariant.operator (d.readOperator name).operator).argument rfl (fun _ _ => trivial) vocabulary

/-! ## Two readings of the same text -/

/-- The excerpts of the errors, in order. -/
def Messages.excerpts (m : Messages) : List String := m.errors.map Diagnostic.excerpt

/-- Reporting an error adds its excerpt. -/
theorem Messages.excerpts_report {problem : Problem} (h : problem.severity = .error)
    (m : Messages) (file : Option String) (range : Range) :
    (m.report file problem range).excerpts = m.excerpts ++ [problem.excerpt] := by
  rw [report_error h, excerpts, excerpts, List.map_append]
  rfl

/-- An error that is reported twice does not change what the first reading has reported more. -/
theorem Messages.excerpts_report_cons {m m' : Messages} {first : String} {problem : Problem}
    (h : m.excerpts = first :: m'.excerpts) (herror : problem.severity = .error)
    (file file' : Option String) (range range' : Range) :
    (m.report file problem range).excerpts =
      first :: (m'.report file' problem range').excerpts := by
  rw [excerpts_report herror, excerpts_report herror, h]
  rfl

/-- The second draft has the same text in front of it in other columns, and all errors of the first
but the first one. -/
def Likeness.mending (k : Int) (first : String) : Likeness where
  move := .shiftColumns k
  Alike d d' := d.cursor.Displaced k d'.cursor ∧ d'.keyword = d.keyword ∧
    d.messages.excerpts = first :: d'.messages.excerpts
  Ended o o' := o.messages.excerpts = first :: o'.messages.excerpts
  Permits problem := problem.severity = .error
  permits herror _ := herror
  keyword_eq h := h.2.1
  next := by
    rintro α recognise Spells d d' _ ⟨hdisplaced, hkeyword, hexcerpts⟩
    obtain hnone | ⟨t, c, c', hsome, hsome', hbehind⟩ := hdisplaced.next recognise
    · exact .inl hnone
    · refine .inr ⟨t, c, c', hsome, hsome', ⟨hbehind, hkeyword, hexcerpts⟩,
        fun problem herror _ => ⟨hbehind, hkeyword, ?_⟩⟩
      exact Messages.excerpts_report_cons hexcerpts herror _ _ _ _
  finish := by
    rintro d d' ⟨hdisplaced, -, hexcerpts⟩
    rw [Draft.messages_finish, Draft.messages_finish, hdisplaced.isIgnored]
    split_ifs
    · exact hexcerpts
    · exact Messages.excerpts_report_cons hexcerpts rfl _ _ _ _
  missing := by
    rintro d d' problem ⟨-, -, hexcerpts⟩ herror - -
    exact Messages.excerpts_report_cons hexcerpts herror _ _ _ _

/-- Where the errors behind the first one are those of another reading, these are what is left
without it. -/
theorem Messages.Plain.excerpts_erase {m m' : Messages} {d : Diagnostic} (h : m.Plain [d])
    (hexcerpts : m.excerpts = d.excerpt :: m'.excerpts) :
    m'.excerpts = (m.errors.erase d).map Diagnostic.excerpt := by
  obtain ⟨rest, rfl, -⟩ := h
  have herase : ([d] ++ rest).erase d = rest := List.erase_cons_head d rest
  dsimp only
  rw [herase]
  exact (List.cons.inj hexcerpts).2.symm

/-! ## Texts with a part replaced -/

/-- The text in which the columns of a range are replaced. -/
def Range.replace (r : Range) (text new : String) : String :=
  String.ofList (text.toList.take r.start.column ++ new.toList ++ text.toList.drop r.stop.column)

/-- Replacing a part of a row in its place. -/
theorem Range.toList_replace {text : String} {before token rest : List Char}
    (htext : text.toList = before ++ token ++ rest) (row : Nat) (new : String) :
    ((onRow row before.length (before ++ token).length).replace text new).toList =
      before ++ new.toList ++ rest := by
  have htake : text.toList.take before.length = before := by
    rw [htext, List.append_assoc, List.take_left]
  have hdrop : text.toList.drop (before ++ token).length = rest := by
    rw [htext, List.drop_left]
  show (String.ofList (text.toList.take before.length ++ new.toList ++
    text.toList.drop (before ++ token).length)).toList = _
  rw [String.toList_ofList, htake, hdrop]

/-- A text starts with an operator. -/
def StartsWithOperator (cs : List Char) : Prop :=
  ∃ (op : Operator) (rest : List Char), StartsWith cs op.symbol.toList rest ∧
    Stops isComparison rest

/-- A text starts with a string. -/
def StartsWithString (cs : List Char) : Prop :=
  ∃ token rest, IsString token ∧ StartsWith cs token rest ∧ atBoundary rest = true

/-- No operator is found exactly where the text does not start with one. -/
theorem Cursor.next_operator_eq_none_iff {c : Cursor} :
    c.next operator? = none ↔ ¬ StartsWithOperator c.remaining := by
  rw [next_eq_none_iff recognises_operator fun hop => hop ▸ isVisible_symbol _]
  refine not_congr ⟨?_, ?_⟩
  · rintro ⟨_, op, rest, rfl, hstarts, hstops⟩
    exact ⟨op, rest, hstarts, hstops⟩
  · rintro ⟨op, rest, hstarts, hstops⟩
    exact ⟨_, op, rest, rfl, hstarts, hstops⟩

/-- No string is found exactly where the text does not start with one. -/
theorem Cursor.next_string_eq_none_iff {c : Cursor} :
    c.next string? = none ↔ ¬ StartsWithString c.remaining := by
  rw [next_eq_none_iff recognises_string fun h => IsString.isVisible ⟨_, h⟩]
  refine not_congr ⟨?_, ?_⟩
  · rintro ⟨token, value, rest, hspells, hstarts, hrest⟩
    exact ⟨token, rest, ⟨value, hspells⟩, hstarts, hrest⟩
  · rintro ⟨token, rest, ⟨value, hspells⟩, hstarts, hrest⟩
    exact ⟨token, value, rest, hspells, hstarts, hrest⟩

/-- A text that starts with a string does not start with a comparison sign. -/
theorem StartsWithString.stops_isComparison {cs : List Char} (h : StartsWithString cs) :
    Stops isComparison cs ∧ ¬ StartsWithOperator cs := by
  obtain ⟨token, rest, htoken, hstarts, -⟩ := h
  obtain ⟨c, tail, rfl, -, hcomparison, -⟩ := htoken.exists_cons
  constructor
  · obtain ⟨blanks, hblanks, rfl⟩ := hstarts
    cases blanks with
    | nil => exact stops_cons.2 hcomparison
    | cons b blanks =>
      exact stops_cons.2 (isComparison_of_isBlank (hblanks b List.mem_cons_self))
  · rintro ⟨op, rest', hstarts', -⟩
    -- The first character that is not blank would be a comparison sign.
    have htext := hstarts.trimStart_eq htoken.isVisible
    rw [hstarts'.trimStart_eq (isVisible_symbol op)] at htext
    obtain ⟨first, others, hsymbol, -⟩ := isVisible_symbol op
    have hfirst := isComparison_of_mem_symbol op first (by rw [hsymbol]; exact List.mem_cons_self)
    rw [hsymbol] at htext
    obtain ⟨rfl, -⟩ := List.cons.inj htext
    rw [hfirst] at hcomparison
    cases hcomparison

/-- If a text is at a boundary in front of a visible token, there is a blank in between, which stays
whatever the token is replaced with. -/
theorem atBoundary_of_visible {before token rest : List Char}
    (h : atBoundary (before ++ token ++ rest) = true) (hvisible : IsVisible token)
    (cs : List Char) : atBoundary (before ++ cs) = true := by
  cases before with
  | nil =>
    obtain ⟨c, tail, rfl, hc⟩ := hvisible
    have hblank : isBlank c = true := h
    rw [hc] at hblank
    cases hblank
  | cons c before => exact h

/-! ## Rows that are rules -/

namespace Line

/-- A row that starts with the keyword of a rule. -/
theorem read_rule {blanks after : List Char} (hblanks : ∀ c ∈ blanks, isBlank c = true)
    (name : RuleName) (hafter : atBoundary after = true) (row : Nat) (file : Option String)
    (vocabulary : Vocabulary) :
    read (.between row [] (blanks ++ name.name.toList ++ after)) file vocabulary =
      recognised (.between row (blanks ++ name.name.toList) after)
        ⟨name.name, .onRow row blanks.length (blanks ++ name.name.toList).length⟩ (.rule name) file
        vocabulary := by
  have hspells := Keyword.spellsWord_name (.rule name)
  have hnext := Cursor.next_between recognises_word hblanks hspells
    hspells.isBareString.isString.isVisible hafter row []
  have hkeyword : Keyword.ofName? name.name = some (.rule name) :=
    Keyword.ofName?_eq_some_iff.2 rfl
  exact read_of_keyword hnext hkeyword file vocabulary

/-- No block header proposes a solution. -/
theorem solution_header {c : Cursor} {keyword : String} {file : Option String}
    {x : Severity × Diagnostic} (hx : x ∈ (Draft.start c keyword file).header.messages.toList) :
    x.2.solution = none := by
  rw [Draft.header, Draft.close] at hx
  split at hx
  · cases hx
  · split_ifs at hx
    · cases hx
    · rcases Messages.mem_toList_report hx with hold | rfl
      · cases hold
      · rfl

/-- A diagnostic with a solution is one of a rule. -/
theorem exists_rule_of_solution (cs : List Char) {row : Nat} {file : Option String}
    {vocabulary : Vocabulary} {severity : Severity} {d : Diagnostic}
    (hd : (severity, d) ∈ (read (.between row [] cs) file vocabulary).messages.toList)
    (hsolution : d.solution ≠ none) :
    ∃ (name : RuleName) (blanks after : List Char), (∀ c ∈ blanks, isBlank c = true) ∧
      cs = blanks ++ name.name.toList ++ after ∧ atBoundary after = true := by
  cases hnext : (Cursor.between row [] cs).next word? with
  | none =>
    -- The row is blank, a comment, or unreadable.
    unfold read at hd
    rw [hnext] at hd
    split_ifs at hd
    · cases hd
    · split at hd
      · cases hd
      · rcases Messages.mem_toList_report hd with hold | hnew
        · cases hold
        · obtain ⟨-, rfl⟩ := Prod.mk.inj hnew
          exact absurd rfl hsolution
  | some found =>
    obtain ⟨word, c⟩ := found
    obtain ⟨blanks, token, after, hblanks, rfl, hspells, hafter, -, -⟩ :=
      Cursor.exists_between recognises_word (fun h => h.isBareString.isString.isVisible) hnext
    cases hkeyword : Keyword.ofName? word.value with
    | none =>
      rw [read_of_unknown hnext hkeyword] at hd
      unfold unrecognised at hd
      cases hpolicy : vocabulary.unknownKeywords with
      | ignore =>
        rw [hpolicy] at hd
        cases hd
      | warn =>
        rw [hpolicy] at hd
        rcases Messages.mem_toList_report hd with hold | hnew
        · cases hold
        · obtain ⟨-, rfl⟩ := Prod.mk.inj hnew
          exact absurd rfl hsolution
    | some keyword =>
      rw [read_of_keyword hnext hkeyword] at hd
      cases keyword with
      | block visibility => exact absurd (solution_header hd) hsolution
      | rule name =>
        have htoken : token = name.name.toList := by
          have hname := Keyword.ofName?_eq_some_iff.1 hkeyword
          rw [show name.name = word.value from hname.symm, hspells.2.2, String.toList_ofList]
        exact ⟨name, blanks, after, hblanks, by rw [htoken], hafter⟩

end Line

/-! ## Operators -/

namespace Draft

variable {blanks rest : List Char} {op : Operator} {name : RuleName} {keyword : String}
  {problem : Problem}

/-- A draft behind an operator that stands behind the keyword. -/
theorem readOperator_between (hblanks : ∀ c ∈ blanks, isBlank c = true)
    (hrest : Stops isComparison rest) (row : Nat) (before : List Char) (op : Operator)
    (name : RuleName) (keyword : String) (file : Option String) :
    ∃ range, range =
        .onRow row (before ++ blanks).length (before ++ blanks ++ op.symbol.toList).length ∧
      (start (.between row before (blanks ++ op.symbol.toList ++ rest)) keyword file).readOperator
        name = ⟨.between row (before ++ blanks ++ op.symbol.toList) rest, keyword, file,
          some ⟨op, range⟩, ⟨((name.operatorProblem? keyword op).map
            (·.diagnostic file range)).toList, [], []⟩⟩ := by
  have hnext := Cursor.next_between recognises_operator hblanks (show SpellsOperator _ op from rfl)
    (isVisible_symbol op) hrest row before
  have hread := readOperator_of_some (d := start (.between row before
    (blanks ++ op.symbol.toList ++ rest)) keyword file) hnext name
  refine ⟨_, rfl, ?_⟩
  rw [hread]
  dsimp only [start]
  cases hproblem : name.operatorProblem? keyword op with
  | none => rfl
  | some problem =>
    have herror := RuleName.severity_operatorProblem? hproblem
    dsimp only [report]
    rw [Messages.report_error herror]
    rfl

/-- Two rules that have the same text in front of them behind their operators report the same errors
there. Without any name it would matter that one of the operators is reported. -/
theorem excerpts_argument {d d' : Draft} {k : Int} {first : String}
    (hcursor : (d.readOperator name).cursor.Displaced k (d'.readOperator name).cursor)
    (hkeyword : (d'.readOperator name).keyword = (d.readOperator name).keyword)
    (hexcerpts : (d.readOperator name).messages.excerpts =
      first :: (d'.readOperator name).messages.excerpts)
    (hnames : name.Lists → StartsWithString (d.readOperator name).cursor.remaining)
    (vocabulary : Vocabulary) :
    (d.argument vocabulary name).messages.excerpts =
      first :: (d'.argument vocabulary name).messages.excerpts := by
  have halike : (Likeness.mending k first).Alike (d.readOperator name) (d'.readOperator name) :=
    ⟨hcursor, hkeyword, hexcerpts⟩
  refine (Likeness.argument halike (fun _ _ => rfl) (fun hlists hnone => ?_) vocabulary).ended
  exact absurd (hnames hlists) (Cursor.next_string_eq_none_iff.1 hnone)

/-- Behind the equality sign in the place of another operator, a rule that takes it reports the same
errors but that of the operator. -/
theorem excerpts_equality (hblanks : ∀ c ∈ blanks, isBlank c = true)
    (hrest : Stops isComparison rest) (hproblem : name.operatorProblem? keyword op = some problem)
    (hequal : name.operatorProblem? keyword .equal = none)
    (hnames : name.Lists → StartsWithString rest) (row : Nat) (before : List Char)
    (file : Option String) (vocabulary : Vocabulary) :
    ((start (.between row before (blanks ++ op.symbol.toList ++ rest)) keyword file).argument
      vocabulary name).messages.excerpts =
    problem.excerpt :: ((start (.between row before
      (blanks ++ Operator.equal.symbol.toList ++ rest)) keyword file).argument vocabulary
        name).messages.excerpts := by
  obtain ⟨range, -, hread⟩ := readOperator_between hblanks hrest row before op name keyword file
  obtain ⟨range', -, hread'⟩ :=
    readOperator_between hblanks hrest row before .equal name keyword file
  rw [hproblem] at hread
  rw [hequal] at hread'
  refine excerpts_argument (k := Operator.equal.symbol.toList.length - op.symbol.toList.length)
    ?_ ?_ ?_ ?_ vocabulary
  · rw [hread, hread']
    exact Cursor.displaced_between row (before ++ blanks) op.symbol.toList
      Operator.equal.symbol.toList rest
  · rw [hread, hread']
  · rw [hread, hread']
    rfl
  · rw [hread, Cursor.remaining_between]
    exact hnames

/-- Where an operator is removed and no other one follows, a rule reports the same errors but that
of the operator. -/
theorem excerpts_removal (hblanks : ∀ c ∈ blanks, isBlank c = true)
    (hrest : Stops isComparison rest) (hproblem : name.operatorProblem? keyword op = some problem)
    (hnone : ¬ StartsWithOperator rest) (hnames : ¬ name.Lists) (row : Nat) (before : List Char)
    (file : Option String) (vocabulary : Vocabulary) :
    ((start (.between row before (blanks ++ op.symbol.toList ++ rest)) keyword file).argument
      vocabulary name).messages.excerpts =
    problem.excerpt :: ((start (.between row before (blanks ++ [] ++ rest)) keyword file).argument
      vocabulary name).messages.excerpts := by
  obtain ⟨range, -, hread⟩ := readOperator_between hblanks hrest row before op name keyword file
  rw [hproblem] at hread
  have hdisplaced : (Cursor.between row (before ++ blanks ++ op.symbol.toList) rest).Displaced
      (-op.symbol.toList.length) (.between row before (blanks ++ [] ++ rest)) := by
    refine Cursor.displaced_of_remaining blanks hblanks rfl ?_ ?_
    · rw [Cursor.remaining_between, Cursor.remaining_between, List.append_nil]
    · simp only [Cursor.between, List.length_append]
      omega
  -- What follows the removed operator decides whether there is one now.
  have hnext : (Cursor.between row before (blanks ++ [] ++ rest)).next operator? = none := by
    obtain ⟨-, hnone'⟩ | ⟨t, c, c', hsome, -⟩ := hdisplaced.next operator?
    · exact hnone'
    · rw [Cursor.next_operator_eq_none_iff.2 (by rwa [Cursor.remaining_between])] at hsome
      cases hsome
  have hread' := readOperator_of_none (d := start (.between row before (blanks ++ [] ++ rest))
    keyword file) hnext name
  refine excerpts_argument (k := -op.symbol.toList.length) ?_ ?_ ?_ ?_ vocabulary
  · rw [hread, hread']
    exact hdisplaced
  · rw [hread, hread']
    rfl
  · rw [hread, hread']
    rfl
  · exact fun hlists => absurd hlists hnames

/-- A list without any name behind the equality sign lacks a string. -/
theorem excerpts_nameless (hblanks : ∀ c ∈ blanks, isBlank c = true)
    (hrest : Stops isComparison rest) (hlists : name.Lists) (hnone : ¬ StartsWithString rest)
    (row : Nat) (before : List Char) (keyword : String) (file : Option String)
    (vocabulary : Vocabulary) :
    ((start (.between row before (blanks ++ Operator.equal.symbol.toList ++ rest)) keyword
      file).argument vocabulary name).messages.excerpts = [(Problem.expected .string).excerpt] := by
  have hpasses := Cursor.Passes.present (Cursor.next_between recognises_operator hblanks
    (show SpellsOperator _ Operator.equal from rfl) (isVisible_symbol .equal) hrest row before)
  have hstrings := Cursor.strings_of_none (c := .between row
    (before ++ blanks ++ Operator.equal.symbol.toList) rest)
    (Cursor.next_string_eq_none_iff.2 (by rwa [Cursor.remaining_between]))
  have hexcerpts (lexicon : Lexicon) :
      ((start (.between row before (blanks ++ Operator.equal.symbol.toList ++ rest)) keyword
        file).names lexicon vocabulary).messages.excerpts =
          [(Problem.expected .string).excerpt] := by
    obtain ⟨comment, final, hfinal, hnames⟩ :=
      names_start hpasses keyword file lexicon vocabulary
    rw [hstrings] at hfinal hnames
    rw [hnames]
    cases hfinal with
    | missing _ _ => rfl
    | trailing hlisted _ => exact absurd ⟨rfl, rfl⟩ hlisted
    | complete hlisted _ => exact absurd ⟨rfl, rfl⟩ hlisted
  rcases hlists with rfl | rfl
  · exact hexcerpts .classes
  · exact hexcerpts .bases

end Draft

/-! ## Rarities -/

/-- What stands in front of a string may be an operator and is passed in the same way if the string
is replaced with another one. -/
theorem Cursor.Passes.exists_between {row : Nat} {before after : List Char}
    {operator : Option (Token Operator)} {behind : Cursor}
    (h : (between row before after).Passes operator behind) :
    ∃ middle rest, after = middle ++ rest ∧ behind = between row (before ++ middle) rest ∧
      ∀ rest', StartsWithString rest' → (between row before (middle ++ rest')).Passes operator
        (between row (before ++ middle) rest') := by
  cases h with
  | absent hnone =>
    refine ⟨[], after, rfl, by rw [List.append_nil], fun rest' hrest' => ?_⟩
    have hnone' : (between row before rest').next operator? = none := by
      rw [next_operator_eq_none_iff, remaining_between]
      exact hrest'.stops_isComparison.2
    rw [List.append_nil]
    exact .absent hnone'
  | @present op c hsome =>
    obtain ⟨blanks, token, rest, hblanks, hafter, htoken, -, hrange, hcursor⟩ :=
      Cursor.exists_between recognises_operator (fun hop => hop ▸ isVisible_symbol _) hsome
    refine ⟨blanks ++ token, rest, hafter, ?_, fun rest' hrest' => ?_⟩
    · rw [hcursor, List.append_assoc]
    · have hnext := next_between recognises_operator hblanks htoken
        (htoken ▸ isVisible_symbol op.value) hrest'.stops_isComparison.1 row before
      rw [← hrange, List.append_assoc before] at hnext
      exact .present hnext

namespace Draft

section Rarity

variable {c behind c₁ : Cursor} {operator : Option (Token Operator)} {t : Token String}

/-- The name of a rarity behind an operator or none. -/
theorem rarity_of_name (h : c.Passes operator behind) (hnext : behind.next string? = some (t, c₁))
    {r : Rarity} (hname : Rarity.ofName? t.value = some r) (keyword : String)
    (file : Option String) : (start c keyword file).rarity =
      (Draft.mk c₁ keyword file operator .none).finish (some ⟨r, t.range⟩) := by
  unfold rarity require take
  rw [anyOperator_start h]
  dsimp only
  rw [hnext]
  dsimp only
  rw [hname]

/-- A string that is no name of a rarity, behind an operator or none. -/
theorem rarity_of_unknown (h : c.Passes operator behind)
    (hnext : behind.next string? = some (t, c₁)) (hname : Rarity.ofName? t.value = none)
    (keyword : String) (file : Option String) : (start c keyword file).rarity =
      ((Draft.mk c₁ keyword file operator .none).report (.unknownRarity t.value) t.range).finish
        none := by
  unfold rarity require take
  rw [anyOperator_start h]
  dsimp only
  rw [hnext]
  dsimp only
  rw [hname]

end Rarity

/-- A rarity that proposes a solution is a string that is no name of a rarity, and this is the first
error. -/
theorem exists_unknown_of_solution {c : Cursor} {keyword : String} {file : Option String}
    {severity : Severity} {d : Diagnostic}
    (hd : (severity, d) ∈ (start c keyword file).rarity.messages.toList)
    (hsolution : d.solution ≠ none) :
    ∃ operator behind t c₁, c.Passes operator behind ∧ behind.next string? = some (t, c₁) ∧
      Rarity.ofName? t.value = none ∧ severity = .error ∧
      d = (Problem.unknownRarity t.value).diagnostic file t.range ∧
      (start c keyword file).rarity.messages.Plain [d] := by
  obtain ⟨operator, behind, hpasses⟩ := c.exists_passes
  cases hnext : behind.next string? with
  | none =>
    -- A missing string proposes no solution.
    have hplain : (start c keyword file).rarity.messages.Plain [] := by
      unfold rarity require take
      rw [anyOperator_start hpasses]
      dsimp only
      rw [hnext]
      show (Messages.none.report file (.expected .string) behind.restOfLine).Plain []
      exact Messages.Plain.report ⟨[], rfl, nofun⟩ rfl rfl file behind.restOfLine
    cases (hplain.mem_first hd hsolution).2
  | some found =>
    obtain ⟨t, c₁⟩ := found
    cases hname : Rarity.ofName? t.value with
    | some r =>
      rw [rarity_of_name hpasses hnext hname] at hd
      have hplain : (Draft.mk c₁ keyword file operator .none).messages.Plain [] :=
        ⟨[], rfl, nofun⟩
      cases ((plain_finish hplain _).mem_first hd hsolution).2
    | none =>
      have hplain : (start c keyword file).rarity.messages.Plain
          [(Problem.unknownRarity t.value).diagnostic file t.range] := by
        rw [rarity_of_unknown hpasses hnext hname]
        exact plain_finish ⟨[], rfl, nofun⟩ _
      obtain ⟨hseverity, hfirst⟩ := hplain.mem_first hd hsolution
      obtain rfl := List.mem_singleton.1 hfirst
      exact ⟨operator, behind, t, c₁, hpasses, hnext, hname, hseverity, rfl, hplain⟩

/-- With the name of a rarity in the place of an unknown one, a rule stores the rarity and reports
the same errors but that of the unknown one. -/
theorem excerpts_rarity {c c' behind behind' c₁ c₁' : Cursor} {operator : Option (Token Operator)}
    (h : c.Passes operator behind) (h' : c'.Passes operator behind') {t : Token String}
    (hnext : behind.next string? = some (t, c₁)) (hname : Rarity.ofName? t.value = none)
    {r : Rarity} {range : Range} (hnext' : behind'.next string? = some (⟨r.name, range⟩, c₁'))
    {k : Int} (hdisplaced : c₁.Displaced k c₁') (keyword : String) (file : Option String) :
    (start c' keyword file).rarity.value = some ⟨r, range⟩ ∧
      (start c keyword file).rarity.messages.excerpts =
        (Problem.unknownRarity t.value).excerpt ::
          (start c' keyword file).rarity.messages.excerpts := by
  have hrarity := rarity_of_unknown h hnext hname keyword file
  have hrarity' := rarity_of_name h' hnext' (ofName?_rarity_eq_some_iff.2 rfl) keyword file
  have halike : (Likeness.mending k (Problem.unknownRarity t.value).excerpt).Alike
      ((Draft.mk c₁ keyword file operator .none).report (.unknownRarity t.value) t.range)
      (Draft.mk c₁' keyword file operator .none) := ⟨hdisplaced, rfl, rfl⟩
  have hended := (Likeness.mending k (Problem.unknownRarity t.value).excerpt).finish halike
  dsimp only [Likeness.mending] at hended
  rw [messages_finish, messages_finish] at hended
  rw [hrarity, hrarity', messages_finish, messages_finish]
  exact ⟨value_finish _ _, hended⟩

end Draft

/-- Replacing the value of an outcome keeps its messages. -/
theorem Outcome.messages_map {α β : Type} (f : α → β) (o : Outcome α) :
    (o.map f).messages = o.messages := rfl

/-! ## Mended rows -/

/-- A solution mends a row with this rest behind the replaced part: `m` are the messages of the row,
`m'` those of the row with the part replaced, and `rule` is the rule that it is now. -/
structure Diagnostic.Mends (d : Diagnostic) (replacement : String) (rest : List Char)
    (m m' : Messages) (rule : Rule) : Prop where
  /-- The errors are those of before without the diagnostic. Excepted are a list without any name,
  and an operator that is removed in front of another one. -/
  errors : ¬(rule.name.value.Lists ∧ ¬ StartsWithString rest) →
    (replacement = "" → ¬ StartsWithOperator rest) →
    m'.excerpts = (m.errors.erase d).map Diagnostic.excerpt
  /-- A list without any name lacks a string now. -/
  missing : rule.name.value.Lists → ¬ StartsWithString rest →
    m'.excerpts = [(Problem.expected .string).excerpt]
  /-- An equality sign is the operator now. -/
  operator : replacement = Operator.equal.symbol →
    ∃ range, rule.operator = some ⟨.equal, range⟩
  /-- A rarity is the argument now. -/
  rarity : ∀ r : Rarity, replacement = r.name → ∃ range, rule.argument = .rarity (some ⟨r, range⟩)

/-- A symbol of an operator, or nothing, is not the name of a rarity. -/
theorem Rarity.name_ne (r : Rarity) : "" ≠ r.name ∧ Operator.equal.symbol ≠ r.name := by
  cases r <;> decide

/-- The name of a rarity is a string. -/
theorem Rarity.spellsString_name (r : Rarity) : SpellsString r.name.toList r.name := by
  have hletters : r.name.toList ≠ [] ∧ r.name.toList.head? ≠ some '#' ∧
      r.name.toList.all isBare = true := by
    cases r <;> decide
  obtain ⟨hne, hhead, hall⟩ := hletters
  have hspells := SpellsString.bare ⟨hne, hhead, List.all_eq_true.1 hall⟩
  rwa [String.ofList_toList] at hspells

namespace Draft

/-- What is read behind the keyword of a rule. -/
def outcome (row : Nat) (before : List Char) (name : RuleName) (file : Option String)
    (vocabulary : Vocabulary) (after : List Char) : Outcome Argument :=
  (start (.between row before after) name.name file).argument vocabulary name

/-- The rule with this outcome. -/
def ruleOf (name : Token RuleName) (o : Outcome Argument) : Rule :=
  ⟨name, o.operator, o.value, o.comment⟩

variable {row : Nat} {before after : List Char} {name : RuleName} {file : Option String}
  {vocabulary : Vocabulary} {severity : Severity} {d : Diagnostic} {solution : Solution}

/-- A solution is proposed for a part of what is behind the keyword, and mends the rule. -/
def Solves (row : Nat) (before after : List Char) (name : RuleName) (file : Option String)
    (vocabulary : Vocabulary) (d : Diagnostic) (replacement : String) : Prop :=
  IsRow replacement ∧ ∃ middle token rest, after = middle ++ token ++ rest ∧
    d.range = .onRow row (before ++ middle).length (before ++ middle ++ token).length ∧
    atBoundary (middle ++ replacement.toList ++ rest) = true ∧
    ∀ range, d.Mends replacement rest (outcome row before name file vocabulary after).messages
      (outcome row before name file vocabulary (middle ++ replacement.toList ++ rest)).messages
      (ruleOf ⟨name, range⟩
        (outcome row before name file vocabulary (middle ++ replacement.toList ++ rest)))

/-- The solutions that are proposed for operators. -/
theorem solves_operator (hafter : atBoundary after = true) (hname : name ≠ .condition .rarity)
    (hd : (severity, d) ∈ (outcome row before name file vocabulary after).messages.toList)
    (hsolution : d.solution = some solution) :
    severity = .error ∧ Solves row before after name file vocabulary d solution.replacement := by
  have hsome : d.solution ≠ none := by
    rw [hsolution]
    nofun
  have hplain (first : List Diagnostic)
      (h : ((start (.between row before after) name.name file).readOperator name).messages.Plain
        first) : (outcome row before name file vocabulary after).messages.Plain first :=
    (Invariant.plain first).argument h (fun hrarity => absurd hrarity hname) vocabulary
  cases hnext : (Cursor.between row before after).next operator? with
  | none =>
    -- Without an operator, nothing proposes a solution.
    have hread := readOperator_of_none (d := start (.between row before after) name.name file)
      hnext name
    have hnothing := hplain [] (by rw [hread]; exact ⟨[], rfl, nofun⟩)
    cases (hnothing.mem_first hd hsome).2
  | some found =>
    obtain ⟨op, c⟩ := found
    obtain ⟨blanks, token, rest, hblanks, rfl, htoken, hrest, -, -⟩ :=
      Cursor.exists_between recognises_operator (fun hop => hop ▸ isVisible_symbol _) hnext
    obtain rfl : token = op.value.symbol.toList := htoken
    obtain ⟨range, hrange, hread⟩ :=
      readOperator_between hblanks hrest row before op.value name name.name file
    have hboundary (cs : List Char) : atBoundary (blanks ++ cs ++ rest) = true := by
      rw [List.append_assoc]
      exact atBoundary_of_visible hafter (isVisible_symbol op.value) (cs ++ rest)
    cases hproblem : name.operatorProblem? name.name op.value with
    | none =>
      -- An operator that the rule takes proposes no solution either.
      rw [hproblem] at hread
      have hnothing := hplain [] (by rw [hread]; exact ⟨[], rfl, nofun⟩)
      cases (hnothing.mem_first hd hsome).2
    | some problem =>
      rw [hproblem] at hread
      have hfirst := hplain [problem.diagnostic file range]
        (by rw [hread]; exact ⟨[], rfl, nofun⟩)
      obtain ⟨hseverity, hmem⟩ := hfirst.mem_first hd hsome
      obtain rfl := List.mem_singleton.1 hmem
      refine ⟨hseverity, ?_⟩
      rcases RuleName.operatorProblem?_eq_some hproblem with rfl | ⟨rfl, hequal⟩
      · -- The operator is removed.
        obtain rfl : _ = solution := Option.some.inj hsolution
        have hlists : ¬ name.Lists := by
          rintro (rfl | rfl) <;> simp [RuleName.operatorProblem?] at hproblem
        refine ⟨show IsRow "" by decide, blanks, _, rest, rfl, hrange, hboundary _,
          fun _ => ⟨?_, ?_, ?_, ?_⟩⟩
        · intro _ hnone
          exact hfirst.excerpts_erase (excerpts_removal hblanks hrest hproblem (hnone rfl) hlists
            row before file vocabulary)
        · exact fun h => absurd h hlists
        · exact fun h => absurd h (show "" ≠ Operator.equal.symbol by decide)
        · exact fun r h => absurd h r.name_ne.1
      · -- The equality sign takes its place.
        obtain rfl : _ = solution := Option.some.inj hsolution
        refine ⟨show IsRow Operator.equal.symbol by decide, blanks, _, rest, rfl, hrange,
          hboundary _, fun _ => ⟨?_, ?_, ?_, ?_⟩⟩
        · intro hlists _
          refine hfirst.excerpts_erase (excerpts_equality hblanks hrest hproblem hequal ?_ row
            before file vocabulary)
          exact fun h => by_contra fun hnone => hlists ⟨h, hnone⟩
        · exact fun h hnone => excerpts_nameless hblanks hrest h hnone row before _ file vocabulary
        · intro _
          obtain ⟨range', -, hread'⟩ :=
            readOperator_between hblanks hrest row before .equal name name.name file
          refine ⟨range', ?_⟩
          show (outcome row before name file vocabulary _).operator = _
          unfold outcome
          rw [operator_argument]
          exact congrArg Draft.operator hread'
        · exact fun r h => absurd h r.name_ne.2

/-- The solutions that are proposed for rarities. -/
theorem solves_rarity (hafter : atBoundary after = true)
    (hd : (severity, d) ∈
      (outcome row before (.condition .rarity) file vocabulary after).messages.toList)
    (hsolution : d.solution = some solution) :
    severity = .error ∧
      Solves row before after (.condition .rarity) file vocabulary d solution.replacement := by
  have houtcome (cs : List Char) : outcome row before (.condition .rarity) file vocabulary cs =
      (start (.between row before cs) (RuleName.condition .rarity).name file).rarity.map
        .rarity := rfl
  rw [houtcome, Outcome.messages_map] at hd
  obtain ⟨operator, behind, t, c₁, hpasses, hnext, hname, hseverity, rfl, hplain⟩ :=
    exists_unknown_of_solution hd (by rw [hsolution]; nofun)
  obtain ⟨r, -, rfl⟩ := Option.map_eq_some_iff.1 hsolution
  obtain ⟨middle, behindText, rfl, rfl, hreplaced⟩ := hpasses.exists_between
  obtain ⟨blanks, token, rest, hblanks, rfl, hspells, hrest, hrange, rfl⟩ :=
    Cursor.exists_between recognises_string (fun h => IsString.isVisible ⟨_, h⟩) hnext
  have hspells' := r.spellsString_name
  have hpasses' := hreplaced (blanks ++ r.name.toList ++ rest)
    ⟨_, rest, ⟨_, hspells'⟩, ⟨blanks, hblanks, rfl⟩, hrest⟩
  have hnext' := Cursor.next_between recognises_string hblanks hspells'
    (IsString.isVisible ⟨_, hspells'⟩) hrest row (before ++ middle)
  have hdisplaced := Cursor.displaced_between row (before ++ middle ++ blanks) token
    r.name.toList rest
  obtain ⟨hvalue, hexcerpts⟩ := excerpts_rarity hpasses hpasses' hnext hname hnext' hdisplaced
    (RuleName.condition .rarity).name file
  have hrow : IsRow r.name := by cases r <;> decide
  have hassoc (cs : List Char) :
      middle ++ (blanks ++ cs ++ rest) = middle ++ blanks ++ cs ++ rest := by
    simp only [List.append_assoc]
  refine ⟨hseverity, hrow, middle ++ blanks, token, rest, hassoc token, ?_, ?_,
    fun range => ⟨?_, ?_, ?_, ?_⟩⟩
  · rw [← List.append_assoc before]
    exact hrange
  · rw [hassoc] at hafter
    rw [List.append_assoc]
    exact atBoundary_of_visible hafter (IsString.isVisible ⟨_, hspells⟩) (r.name.toList ++ rest)
  · intro _ _
    rw [← hassoc, houtcome, houtcome, Outcome.messages_map, Outcome.messages_map]
    exact hplain.excerpts_erase hexcerpts
  · rintro (h | h) <;> cases h
  · exact fun h => absurd h.symm r.name_ne.2
  · intro r' hr'
    -- Rarities are known by their names.
    have hsame : r = r' := by
      have hfound : Rarity.ofName? r.name = some r' := ofName?_rarity_eq_some_iff.2 hr'
      rw [ofName?_rarity_eq_some_iff.2 rfl] at hfound
      exact Option.some.inj hfound
    rw [← hassoc, houtcome, ← hsame]
    exact ⟨_, congrArg Argument.rarity hvalue⟩

end Draft

/-- A text in which a part of a row is replaced with text without line breaks is a row. -/
theorem isRow_of_toList {text text' new : String} {before token rest : List Char} (h : IsRow text)
    (hnew : IsRow new) (htext : text.toList = before ++ token ++ rest)
    (htext' : text'.toList = before ++ new.toList ++ rest) : IsRow text' := by
  unfold IsRow at h ⊢
  rw [htext] at h
  rw [htext']
  intro c hc
  simp only [List.mem_append] at h hc
  rcases hc with (hbefore | hinside) | hbehind
  · exact h c (.inl (.inl hbefore))
  · exact hnew c hinside
  · exact h c (.inr hbehind)

namespace Line

/-- Putting the solution that a diagnostic proposes in its place. The row is a rule with the same
keyword in the same place, and is mended as the diagnostic says. -/
theorem parse_solution {text : String} (htext : IsRow text) {row : Nat} {file : Option String}
    {vocabulary : Vocabulary} {line : Line} (hline : parse text row file vocabulary = .ok line)
    {severity : Severity} {d : Diagnostic} (hd : (severity, d) ∈ line.messages.toList)
    {solution : Solution} (hsolution : d.solution = some solution) :
    severity = .error ∧ ∃ line' rule rule',
      parse (d.range.replace text solution.replacement) row file vocabulary = .ok line' ∧
      line.rule? = some rule ∧ line'.rule? = some rule' ∧ rule'.name = rule.name ∧
      d.Mends solution.replacement (text.toList.drop d.range.stop.column) line.messages
        line'.messages rule' := by
  let source : Source := ⟨file, vocabulary, 0⟩
  obtain rfl : source.line text row = line :=
    Except.ok.inj ((source.parse_eq_ok htext row).symm.trans hline)
  obtain ⟨name, blanks, after, hblanks, hcs, hafter⟩ :=
    exists_rule_of_solution text.toList hd (by rw [hsolution]; nofun)
  have hrule {text : String} {after : List Char} (hafter : atBoundary after = true)
      (htext : text.toList = blanks ++ name.name.toList ++ after) : source.line text row =
        recognised (.between row (blanks ++ name.name.toList) after)
          ⟨name.name, .onRow row blanks.length (blanks ++ name.name.toList).length⟩ (.rule name)
          file vocabulary := by
    rw [← read_rule hblanks name hafter, ← htext]
    rfl
  rw [hrule hafter hcs] at hd ⊢
  have hreported : (severity, d) ∈ (Draft.outcome row (blanks ++ name.name.toList) name file
      vocabulary after).messages.toList := hd
  obtain ⟨hseverity, hnew, middle, token, rest, rfl, hrange, hboundary, hmends⟩ :
      severity = .error ∧ Draft.Solves row (blanks ++ name.name.toList) after name file vocabulary
        d solution.replacement := by
    by_cases hrarity : name = .condition .rarity
    · subst hrarity
      exact Draft.solves_rarity hafter hreported hsolution
    · exact Draft.solves_operator hafter hrarity hreported hsolution
  have hsplit : text.toList = blanks ++ name.name.toList ++ middle ++ token ++ rest := by
    rw [hcs]
    simp only [List.append_assoc]
  have hreplaced := Range.toList_replace hsplit row solution.replacement
  rw [← hrange] at hreplaced
  have hrest : text.toList.drop d.range.stop.column = rest := by
    rw [hsplit, hrange]
    exact List.drop_left
  have hcs' : (d.range.replace text solution.replacement).toList =
      blanks ++ name.name.toList ++ (middle ++ solution.replacement.toList ++ rest) := by
    rw [hreplaced]
    simp only [List.append_assoc]
  have hparse := source.parse_eq_ok (isRow_of_toList htext hnew hsplit hreplaced) row
  rw [hrule hboundary hcs'] at hparse
  refine ⟨hseverity, _, _, _, hparse, rfl, rfl, rfl, ?_⟩
  rw [hrest]
  exact hmends _

/-- The name of a rarity in quotes and in the wrong case, which touches the operator, with text
behind it. -/
def unknownMagic : String := "Rarity >=\"mAGIC\" now"

/-- What is reported on the name. -/
def unknownMagicReport : Diagnostic :=
  (Problem.unknownRarity "mAGIC").diagnostic none (.onRow 4 9 16)

/-- With the proposed name in the place of the name and its quotes, only the text behind it is
reported. -/
theorem parse_solution_unknownMagic :
    IsRow unknownMagic ∧ ∃ line line' rule',
      parse unknownMagic 4 none .builtin = .ok line ∧
      (Severity.error, unknownMagicReport) ∈ line.messages.toList ∧
      parse "Rarity >=Magic now" 4 none .builtin = .ok line' ∧
      unknownMagicReport.Mends "Magic" " now".toList line.messages line'.messages rule' ∧
      line'.messages.excerpts = [Problem.trailingText.excerpt] := by
  have hrow : IsRow unknownMagic := by decide
  have hline := Source.parse_eq_ok ⟨none, .builtin, 0⟩ hrow 4
  have hreported : (Severity.error, unknownMagicReport) ∈
      ((⟨none, .builtin, 0⟩ : Source).line unknownMagic 4).messages.toList := by decide +kernel
  have hsolution : unknownMagicReport.solution = some ⟨some "mAGIC", "Magic"⟩ := by decide +kernel
  have hreplaced : unknownMagicReport.range.replace unknownMagic "Magic" =
      "Rarity >=Magic now" := by decide +kernel
  have hrest : unknownMagic.toList.drop unknownMagicReport.range.stop.column = " now".toList := by
    decide +kernel
  have hread : (parse "Rarity >=Magic now" 4 none .builtin).map (fun line =>
      line.messages.excerpts) = .ok [Problem.trailingText.excerpt] := by
    decide +kernel
  obtain ⟨-, line', rule, rule', hline', -, -, -, hmends⟩ :=
    parse_solution hrow hline hreported hsolution
  dsimp only at hline' hmends
  rw [hreplaced] at hline'
  rw [hrest] at hmends
  rw [hline'] at hread
  exact ⟨hrow, _, line', rule', hline, hreported, hline', hmends, Except.ok.inj hread⟩

end Line

end ItemFilter
