import ItemFilter.Proofs.Spelling
import ItemFilter.Text.Offset

/-!
# The lexical grammar

Which lexeme of each kind stands at the start of a text. The tokens of a kind and what may follow
them are given by two predicates on characters (`Kind.Spells`, `Kind.Ends`), and the recogniser of
the kind answers a lexeme exactly where the text splits into a token and a rest of this form
(`recognise_iff`).

There is never a choice between a shorter and a longer token: a recogniser that answers every token
in front of every rest answers only one lexeme on a text, so that two splits of the text are the
same (`Recognises.split_unique`).

The case of letters is that of ASCII: a truth value is spelled by four or five letters, each of
which is the small letter of the word or its capital (`spellsBoolean_iff`). Other characters that
fold to such a letter do not spell it.
-/

namespace ItemFilter.Lexeme

open Text

/-! ## Letters in either case -/

/-- A text is a word up to the case of its letters: in each place stands the letter of the word or
its capital. -/
def IsCased (token : List Char) (word : String) : Prop :=
  List.Forall₂ (fun c letter => c = letter ∨ c = letter.toUpper) token word.toList

/-- The characters whose small form is a small letter are the letter itself and its capital. -/
theorem toLower_eq_iff {c letter : Char} (h : letter.isLower = true) :
    c.toLower = letter ↔ c = letter ∨ c = letter.toUpper := by
  have hsmall : letter.toLower = letter :=
    Char.toLower_eq_of_not_isUpper (Char.not_isUpper_of_isLower h)
  constructor
  · rintro rfl
    by_cases hc : c.isUpper = true
    · -- A capital is the capital of its small form.
      rw [Char.toUpper_toLower_eq_toUpper,
        Char.toUpper_eq_of_not_isLower (Char.not_isLower_of_isUpper hc)]
      exact .inr rfl
    · exact .inl (Char.toLower_eq_of_not_isUpper hc).symm
  · rintro (rfl | rfl)
    · exact hsmall
    · rw [Char.toLower_toUpper_eq_toLower, hsmall]

/-- A text becomes a word of small letters by taking the small form of each character exactly when
it is the word up to the case of its letters. -/
theorem map_toLower_eq_iff {token : List Char} {word : String}
    (h : ∀ letter ∈ word.toList, letter.isLower = true) :
    token.map Char.toLower = word.toList ↔ IsCased token word := by
  unfold IsCased
  generalize word.toList = letters at h
  induction letters generalizing token with
  | nil => simp
  | cons letter letters ih =>
    obtain ⟨hletter, hletters⟩ := List.forall_mem_cons.1 h
    cases token with
    | nil => simp
    | cons c token =>
      rw [List.map_cons, List.cons.injEq, List.forall₂_cons, toLower_eq_iff hletter, ih hletters]

/-- A truth value is spelled by its word in either case, bare or in one pair of quotes. -/
theorem spellsBoolean_iff {token : List Char} {b : Bool} :
    SpellsBoolean token b ↔ ∃ letters, IsCased letters (if b then "true" else "false") ∧
      (token = letters ∨ token = '"' :: letters ++ ['"']) := by
  have hsmall : ∀ letter ∈ (if b then "true" else "false").toList, letter.isLower = true := by
    rw [← List.all_eq_true]
    cases b <;> decide
  have htruth (letters : List Char) :
      SpellsTruth letters b ↔ IsCased letters (if b then "true" else "false") :=
    map_toLower_eq_iff hsmall
  constructor
  · intro h
    cases h with
    | bare hbare => exact ⟨token, (htruth _).1 hbare, .inl rfl⟩
    | @quoted inner _ hinner => exact ⟨inner, (htruth _).1 hinner, .inr rfl⟩
  · rintro ⟨letters, hcased, rfl | rfl⟩
    · exact .bare ((htruth _).2 hcased)
    · exact .quoted ((htruth _).2 hcased)

/-! ## Kinds -/

namespace Kind

/-- What the lexemes of a kind stand for. -/
def Value : Kind → Type
  | operator => Operator
  | number => Int
  | boolean => Bool
  | word => String
  | string => String

/-- The recogniser of a kind. -/
def recognise : (kind : Kind) → List Char → Option (Lexeme kind.Value)
  | operator => operator?
  | number => number?
  | boolean => boolean?
  | word => word?
  | string => string?

/-- The tokens of a kind, each with what it stands for. -/
def Spells : (kind : Kind) → List Char → kind.Value → Prop
  | operator => SpellsOperator
  | number => SpellsNumber
  | boolean => fun token (b : Bool) => ∃ letters, IsCased letters (if b then "true" else "false") ∧
      (token = letters ∨ token = '"' :: letters ++ ['"'])
  | word => SpellsWord
  | string => SpellsString

/-- What may follow a token of a kind: no further comparison sign behind an operator, and a blank or
the end behind any other token. -/
def Ends : Kind → List Char → Prop
  | operator => Stops isComparison
  | number | boolean | word | string => fun rest => atBoundary rest

/-- The recogniser of a kind answers the tokens of the kind. -/
theorem recognises (kind : Kind) : Recognises kind.recognise kind.Spells kind.Ends := by
  cases kind with
  | operator => exact recognises_operator
  | number => exact recognises_number
  | boolean =>
    refine ⟨fun h => ?_, fun hspells hends => ?_⟩
    · obtain ⟨hspells, hrest⟩ := recognises_boolean.sound h
      exact ⟨spellsBoolean_iff.1 hspells, hrest⟩
    · exact recognises_boolean.complete (spellsBoolean_iff.2 hspells) hends
  | word => exact recognises_word
  | string => exact recognises_string

end Kind

/-! ## Splits of a text -/

section Splits

variable {α : Type} {recognise : List Char → Option (Lexeme α)} {Spells : List Char → α → Prop}
  {Ends : List Char → Prop}

/-- A lexeme is answered exactly if the text splits into its characters, which spell its value, and
a rest that may follow. -/
theorem Recognises.eq_some_iff (h : Recognises recognise Spells Ends) {input : List Char}
    {lexeme : Lexeme α} : recognise input = some lexeme ↔
      ∃ rest, input = lexeme.text ++ rest ∧ Spells lexeme.text lexeme.value ∧ Ends rest := by
  constructor
  · intro hread
    obtain ⟨hspells, rest, hinput, hends⟩ := h.sound hread
    exact ⟨rest, hinput, hspells, hends⟩
  · rintro ⟨rest, rfl, hspells, hends⟩
    exact h.complete hspells hends

/-- A text splits into a token and a rest in one way at most. -/
theorem Recognises.split_unique (h : Recognises recognise Spells Ends)
    {token token' rest rest' : List Char} {value value' : α} (hspells : Spells token value)
    (hends : Ends rest) (hspells' : Spells token' value') (hends' : Ends rest')
    (htext : token ++ rest = token' ++ rest') : token = token' ∧ rest = rest' := by
  have hread := h.complete hspells hends
  rw [htext, h.complete hspells' hends'] at hread
  obtain rfl : token' = token := congrArg Lexeme.text (Option.some.inj hread)
  exact ⟨rfl, List.append_cancel_left htext⟩

end Splits

/-- A recogniser answers a value and a number of bytes exactly if the text splits into a token of so
many bytes that spells the value, and a rest that may follow such a token. There is one such split
at most. -/
theorem recognise_iff (kind : Kind) (input : List Char) :
    (∀ value size,
      (kind.recognise input).map (fun lexeme => (lexeme.value, byteLength lexeme.text)) =
          some (value, size) ↔
        ∃ token rest, input = token ++ rest ∧ byteLength token = size ∧ kind.Spells token value ∧
          kind.Ends rest) ∧
    {split : List Char × List Char | input = split.1 ++ split.2 ∧
      (∃ value, kind.Spells split.1 value) ∧ kind.Ends split.2}.Subsingleton := by
  have hrecognises := kind.recognises
  refine ⟨fun value size => ?_, ?_⟩
  · rw [Option.map_eq_some_iff]
    constructor
    · rintro ⟨lexeme, hread, heq⟩
      obtain ⟨rfl, rfl⟩ := Prod.mk.inj heq
      obtain ⟨rest, hinput, hspells, hends⟩ := hrecognises.eq_some_iff.1 hread
      exact ⟨lexeme.text, rest, hinput, rfl, hspells, hends⟩
    · rintro ⟨token, rest, hinput, rfl, hspells, hends⟩
      exact ⟨⟨value, token⟩, hrecognises.eq_some_iff.2 ⟨rest, hinput, hspells, hends⟩, rfl⟩
  · rintro ⟨token, rest⟩ ⟨hinput, ⟨value, hspells⟩, hends⟩ ⟨token', rest'⟩
      ⟨hinput', ⟨value', hspells'⟩, hends'⟩
    obtain ⟨rfl, rfl⟩ := hrecognises.split_unique hspells hends hspells' hends'
      (hinput.symm.trans hinput')
    rfl

-- A long s folds to the letter, but it is not the letter in either case.
example : boolean? "FaLse\u2028x".toList = some ⟨false, "FaLse".toList⟩ ∧
    boolean? "fal\u017Fe".toList = none ∧ string? "\"a\nb\" c".toList =
      some ⟨"a\nb", "\"a\nb\"".toList⟩ := by decide

end ItemFilter.Lexeme
