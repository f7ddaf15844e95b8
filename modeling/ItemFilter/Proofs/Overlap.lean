import ItemFilter.Line.Parse
import ItemFilter.Proofs.Recognition

/-!
# Where the kinds of lexemes overlap

One text may be a lexeme of several kinds, and then the order of the kinds decides which of them a
cursor announces. How far they overlap is settled by the string, of which all other kinds but the
operator are special cases: a lexeme of such a kind takes the same characters as the string that
stands in its place (`Kind.span?_string`), so that no two of them differ in length. An operator
starts with a comparison sign, which no string does, and a number holds a digit, which no word does
(`SpellsInteger.exists_digit`).

Hence a cursor announces nothing exactly where it finds neither an operator nor a string, and what
it announces can be read (`Cursor.peek_eq_none_iff`, `Cursor.isSome_next_of_peek`). A row that does
not start with a word is never said to start with one (`Line.peek_ne_word`).
-/

namespace ItemFilter

open Text Lexeme

namespace Lexeme

/-! ## Spellings of two kinds -/

/-- A number holds a digit. -/
theorem SpellsInteger.exists_digit {token : List Char} {n : Int} (h : SpellsInteger token n) :
    ∃ d ∈ token, d.isDigit = true := by
  -- A sign is at most in front of the digits, of which there is one at least.
  have hfirst {ds : List Char} (hds : IsDigits ds) : ∃ d ∈ ds, d.isDigit = true := by
    obtain ⟨d, others, rfl⟩ := List.exists_cons_of_ne_nil hds.1
    exact ⟨d, List.mem_cons_self, hds.2 d List.mem_cons_self⟩
  cases h with
  | unsigned hds => exact hfirst hds
  | positive hds | negative hds =>
    obtain ⟨d, hd, hdigit⟩ := hfirst hds
    exact ⟨d, List.mem_cons_of_mem _ hd, hdigit⟩

/-- A digit is no letter. -/
theorem isLetter_of_isDigit {c : Char} (h : c.isDigit = true) : isLetter c = false := by
  obtain ⟨-, hhi⟩ := toNat_of_isDigit h
  by_contra hletter
  rw [Bool.not_eq_false, isLetter, Bool.or_eq_true, beq_iff_eq] at hletter
  rcases hletter with halpha | rfl
  · obtain ⟨hlo, -⟩ := toNat_of_isAlpha halpha
    omega
  · revert hhi
    decide

/-- No number is a word. -/
theorem SpellsInteger.not_spellsWord {token : List Char} {n : Int} (h : SpellsInteger token n)
    (word : String) : ¬ SpellsWord token word := by
  rintro ⟨-, hletters, -⟩
  obtain ⟨d, hd, hdigit⟩ := h.exists_digit
  have hletter := hletters d hd
  rw [isLetter_of_isDigit hdigit] at hletter
  cases hletter

/-- No number is a truth value. -/
theorem SpellsInteger.not_spellsBoolean {token : List Char} {n : Int} (h : SpellsInteger token n)
    (b : Bool) : ¬ SpellsBoolean token b := by
  intro hboolean
  cases hboolean with
  | bare htruth => exact h.not_spellsWord _ htruth.spellsWord
  | quoted _ =>
    -- A number is bare, and so holds no quote.
    have hquote := h.isBareString.2.2 '"' List.mem_cons_self
    revert hquote
    decide

/-! ## Kinds on one text -/

namespace Kind

variable {kind kind' : Kind} {input token token' : List Char}

/-- The characters that a lexeme of a kind takes at the start of a text. -/
def span? (kind : Kind) (input : List Char) : Option (List Char) :=
  (kind.recognise input).map Lexeme.text

/-- A lexeme of a kind takes the characters of a token of that kind, and what follows it may follow
such a token. -/
theorem span?_eq_some_iff : kind.span? input = some token ↔
    ∃ rest, input = token ++ rest ∧ (∃ value, kind.Spells token value) ∧ kind.Ends rest := by
  unfold span?
  rw [Option.map_eq_some_iff]
  constructor
  · rintro ⟨lexeme, hread, rfl⟩
    obtain ⟨rest, hinput, hspells, hends⟩ := kind.recognises.eq_some_iff.1 hread
    exact ⟨rest, hinput, ⟨lexeme.value, hspells⟩, hends⟩
  · rintro ⟨rest, hinput, ⟨value, hspells⟩, hends⟩
    exact ⟨⟨value, token⟩, kind.recognises.eq_some_iff.2 ⟨rest, hinput, hspells, hends⟩, rfl⟩

/-- A token of any kind but the operator is a string. -/
theorem isString_of_spells (hkind : kind ≠ operator) {value : kind.Value}
    (h : kind.Spells token value) : IsString token := by
  cases kind with
  | operator => exact absurd rfl hkind
  | number =>
    obtain ⟨m, hinteger, -⟩ := h
    exact hinteger.isString
  | boolean => exact (spellsBoolean_iff.2 h).isString
  | word => exact SpellsWord.isBareString h |>.isString
  | string => exact ⟨value, h⟩

/-- Where a lexeme of any kind but the operator stands, a string stands that takes the same
characters. -/
theorem span?_string (hkind : kind ≠ operator) (h : kind.span? input = some token) :
    string.span? input = some token := by
  obtain ⟨rest, hinput, ⟨value, hspells⟩, hends⟩ := span?_eq_some_iff.1 h
  have hboundary : atBoundary rest = true := by
    cases kind with
    | operator => exact absurd rfl hkind
    | number | boolean | word | string => exact hends
  exact span?_eq_some_iff.2 ⟨rest, hinput, isString_of_spells hkind hspells, hboundary⟩

/-- Where an operator stands, no lexeme of another kind stands. -/
theorem span?_of_operator (h : (operator.span? input).isSome = true) (hkind : kind ≠ operator) :
    kind.span? input = none := by
  obtain ⟨symbol, hsymbol⟩ := Option.isSome_iff_exists.1 h
  obtain ⟨rest, hinput, ⟨op, rfl⟩, -⟩ := span?_eq_some_iff.1 hsymbol
  rw [Option.eq_none_iff_forall_ne_some]
  intro token htoken
  obtain ⟨rest', hinput', ⟨value, hspells⟩, -⟩ := span?_eq_some_iff.1 (span?_string hkind htoken)
  -- The first character would be a comparison sign, and at the same time that of a string.
  obtain ⟨c, others, rfl, -, hcomparison, -⟩ := IsString.exists_cons ⟨value, hspells⟩
  obtain ⟨first, tail, hfirst, -⟩ := isVisible_symbol op
  have hsign : isComparison first = true :=
    isComparison_of_mem_symbol op first (by rw [hfirst]; exact List.mem_cons_self)
  rw [hinput, hfirst] at hinput'
  obtain ⟨rfl, -⟩ := List.cons.inj hinput'
  rw [hsign] at hcomparison
  cases hcomparison

/-- Lexemes of two kinds, neither of which is the operator, take the same characters. -/
theorem span?_unique (hkind : kind ≠ operator) (hkind' : kind' ≠ operator)
    (h : kind.span? input = some token) (h' : kind'.span? input = some token') :
    token = token' := by
  have hstring := span?_string hkind h
  rw [span?_string hkind' h'] at hstring
  exact (Option.some.inj hstring).symm

/-- Where a number stands, no truth value and no word stands. -/
theorem span?_of_number (h : (number.span? input).isSome = true)
    (hkind : kind = boolean ∨ kind = word) : kind.span? input = none := by
  obtain ⟨token, htoken⟩ := Option.isSome_iff_exists.1 h
  obtain ⟨-, -, ⟨_, m, hinteger, -⟩, -⟩ := span?_eq_some_iff.1 htoken
  have hnumber : number ≠ operator := nofun
  have hne : kind ≠ operator := by rcases hkind with rfl | rfl <;> nofun
  rw [Option.eq_none_iff_forall_ne_some]
  intro token' htoken'
  obtain rfl : token = token' := span?_unique hnumber hne htoken htoken'
  obtain ⟨-, -, ⟨value, hspells⟩, -⟩ := span?_eq_some_iff.1 htoken'
  rcases hkind with rfl | rfl
  · exact hinteger.not_spellsBoolean value (spellsBoolean_iff.2 hspells)
  · exact hinteger.not_spellsWord value hspells

/-- How the kinds overlap on a text. -/
structure Overlaps (input : List Char) : Prop where
  /-- Where an operator stands, nothing else does. -/
  operator_alone : (operator.span? input).isSome = true →
    ∀ kind, kind ≠ operator → kind.span? input = none
  /-- Where a number stands, there is neither a truth value nor a word. -/
  number_apart : (number.span? input).isSome = true →
    boolean.span? input = none ∧ word.span? input = none
  /-- A number, a truth value and a word are strings of the same characters. -/
  string_same : ∀ kind ∈ [number, boolean, word], ∀ token,
    kind.span? input = some token → string.span? input = some token
  /-- All lexemes but operators take the same characters. -/
  span_unique : ∀ kind kind', kind ≠ operator → kind' ≠ operator → ∀ token token',
    kind.span? input = some token → kind'.span? input = some token' → token = token'

/-- On every text the kinds overlap in this way and in no other. -/
theorem overlaps (input : List Char) : Overlaps input where
  operator_alone h _ hkind := span?_of_operator h hkind
  number_apart h := ⟨span?_of_number h (.inl rfl), span?_of_number h (.inr rfl)⟩
  string_same kind hkind token h := by
    have hne : kind ≠ operator := by
      rintro rfl
      revert hkind
      decide
    exact span?_string hne h
  span_unique _ _ hkind hkind' _ _ h h' := span?_unique hkind hkind' h h'

end Kind

/-! ## What comes first -/

/-- No kind is found exactly where there is neither an operator nor a string. -/
theorem kind?_eq_none_iff {cs : List Char} :
    kind? cs = none ↔ operator? cs = none ∧ string? cs = none := by
  have hstring (kind : Kind) (hkind : kind ≠ .operator) (hnone : string? cs = none) :
      kind.recognise cs = none := by
    rw [Option.eq_none_iff_forall_ne_some]
    intro lexeme hlexeme
    have hspan : kind.span? cs = some lexeme.text := by rw [Kind.span?, hlexeme, Option.map_some]
    have hsame := Kind.span?_string hkind hspan
    rw [Kind.span?, Kind.recognise, hnone] at hsame
    cases hsame
  constructor
  · intro h
    unfold kind? at h
    split_ifs at h with hoperator _ _ _ hstring
    exact ⟨Option.not_isSome_iff_eq_none.1 hoperator, Option.not_isSome_iff_eq_none.1 hstring⟩
  · rintro ⟨hoperator, hnone⟩
    have hnumber : number? cs = none := hstring .number nofun hnone
    have hboolean : boolean? cs = none := hstring .boolean nofun hnone
    have hword : word? cs = none := hstring .word nofun hnone
    simp [kind?, hoperator, hnumber, hboolean, hword, hnone]

/-- The kind that is found has a lexeme there. -/
theorem isSome_recognise_of_kind? {cs : List Char} {kind : Kind} (h : kind? cs = some kind) :
    (kind.recognise cs).isSome = true := by
  unfold kind? at h
  split_ifs at h with hoperator hnumber hboolean hword hstring
  all_goals
    obtain rfl := Option.some.inj h
    assumption

end Lexeme

namespace Cursor

/-- A cursor announces nothing exactly if it finds neither an operator nor a string. -/
theorem peek_eq_none_iff {c : Cursor} :
    c.peek = none ↔ c.next operator? = none ∧ c.next string? = none := by
  rw [peek, next, next, Option.map_eq_none_iff, Option.map_eq_none_iff]
  exact kind?_eq_none_iff

/-- What a cursor announces can be read. -/
theorem isSome_next_of_peek {c : Cursor} {kind : Kind} (h : c.peek = some kind) :
    (c.next kind.recognise).isSome = true := by
  rw [next, Option.isSome_map]
  exact isSome_recognise_of_kind? h

end Cursor

namespace Line

/-- Only a row that does not start with a word makes a line without a keyword, and a cursor
announces no word in front of it. -/
theorem peek_ne_word {c : Cursor} {file : Option String} {vocabulary : Vocabulary}
    (h : (read c file vocabulary).kind = .unknown none) :
    read c file vocabulary = unreadable c file ∧ c.peek ≠ some .word := by
  unfold read at h ⊢
  split_ifs at h ⊢ with hempty
  · cases h
  cases hcomment : c.comment with
  | some found => rw [hcomment] at h; cases h
  | none =>
    rw [hcomment] at h
    cases hword : c.next word? with
    | none =>
      refine ⟨rfl, fun hpeek => ?_⟩
      have hsome : (c.next word?).isSome = true := Cursor.isSome_next_of_peek hpeek
      rw [hword] at hsome
      cases hsome
    | some found =>
      -- Every other line that starts with a word has a kind of its own.
      obtain ⟨word, behind⟩ := found
      rw [hword] at h
      dsimp only at h
      split at h
      · cases h
      · rename_i keyword _
        cases keyword <;> cases h

end Line

/-- On every text the kinds of lexemes overlap as their order supposes. A cursor announces nothing
exactly if neither an operator nor a string can be read, and what it announces can be read. A line
without a keyword comes from a row in front of which no word is announced. -/
theorem Cursor.kinds_overlap (input : List Char) (c : Cursor) (file : Option String)
    (vocabulary : Vocabulary) :
    Kind.Overlaps input ∧
      (c.peek = none ↔ c.next operator? = none ∧ c.next string? = none) ∧
      (∀ kind, c.peek = some kind → (c.next kind.recognise).isSome = true) ∧
      ((Line.read c file vocabulary).kind = .unknown none →
        Line.read c file vocabulary = Line.unreadable c file ∧ c.peek ≠ some .word) :=
  ⟨Kind.overlaps input, peek_eq_none_iff, fun _ => isSome_next_of_peek, Line.peek_ne_word⟩

/-- A row that starts with a truth value in quotes, which is a string and no word. -/
def quotedTruth : Cursor := ⟨0, " \"TRUE\" x".toList, 0⟩

/-- The truth value is announced, and is a string of the same characters. -/
theorem Cursor.kinds_overlap_quotedTruth :
    Kind.boolean.span? quotedTruth.ahead = some "\"TRUE\"".toList ∧
      Kind.string.span? quotedTruth.ahead = some "\"TRUE\"".toList ∧
      quotedTruth.peek = some .boolean ∧
      (quotedTruth.next Kind.boolean.recognise).isSome = true ∧
      Line.read quotedTruth none .empty = Line.unreadable quotedTruth none ∧
      quotedTruth.peek ≠ some .word := by
  obtain ⟨hoverlaps, -, hnext, hunreadable⟩ :=
    Cursor.kinds_overlap quotedTruth.ahead quotedTruth none .empty
  have hspan : Kind.boolean.span? quotedTruth.ahead = some "\"TRUE\"".toList := by decide +kernel
  have hpeek : quotedTruth.peek = some .boolean := by decide +kernel
  have hkind : (Line.read quotedTruth none .empty).kind = .unknown none := by decide +kernel
  exact ⟨hspan, hoverlaps.string_same .boolean (by decide) _ hspan, hpeek, hnext _ hpeek,
    hunreadable hkind⟩

end ItemFilter
