import ItemFilter.Lexeme.Pattern
import ItemFilter.Proofs.Recognition

/-!
# The token rules and the recognisers

The rules of the table find the lexemes that the recognisers answer (`Kind.matches?_rule`,
`TokenRule.kind?_eq`), so that what is known of the one is known of the other.

What a pattern can match is said without the order of its tries (`TokenPattern.Fits`,
`TokenPattern.mem_run`). The order never matters for a whole rule: every token that a rule can
capture is an operator or a string, and a text splits in one way at most into such a token and a
rest that may follow it. The rule therefore recognises the tokens that it can capture and convert
(`TokenRule.recognises_of_fits`), and these are spelled like the lexemes of its kind.
-/

namespace ItemFilter

open Text Lexeme

/-! ## Patterns -/

namespace TokenPattern

variable {accepts : Char → Bool} {cs taken rest : List Char}

/-- A pattern can take a text in front of a rest. -/
def Fits : TokenPattern → List Char → List Char → Prop
  | empty, taken, _ => taken = []
  | one accepts, taken, _ => ∃ c, taken = [c] ∧ accepts c = true
  | many accepts, taken, _ => ∀ c ∈ taken, accepts c = true
  | seq first second, taken, rest =>
    ∃ front back, taken = front ++ back ∧ first.Fits front (back ++ rest) ∧ second.Fits back rest
  | alt left right, taken, rest => left.Fits taken rest ∨ right.Fits taken rest
  | stop, taken, rest => taken = [] ∧ rest = []

/-- The leads of a text are the splits of it with characters of the class in front. -/
theorem mem_leads : (taken, rest) ∈ leads accepts cs ↔
    cs = taken ++ rest ∧ ∀ c ∈ taken, accepts c = true := by
  induction cs generalizing taken rest with
  | nil =>
    simp only [leads, List.mem_singleton, Prod.mk.injEq]
    constructor
    · rintro ⟨rfl, rfl⟩
      exact ⟨rfl, nofun⟩
    · rintro ⟨hnil, -⟩
      exact List.append_eq_nil_iff.1 hnil.symm
  | cons c cs ih =>
    rw [leads]
    cases taken with
    | nil => split_ifs <;> simpa using eq_comm
    | cons d others =>
      split_ifs with hc
      · simp only [List.mem_append, List.mem_map, List.mem_singleton, Prod.mk.injEq, Prod.exists,
          List.cons.injEq, reduceCtorEq, false_and, or_false, ih, List.cons_append,
          List.forall_mem_cons]
        constructor
        · rintro ⟨_, _, ⟨rfl, hall⟩, ⟨rfl, rfl⟩, rfl⟩
          exact ⟨⟨rfl, rfl⟩, hc, hall⟩
        · rintro ⟨⟨rfl, rfl⟩, -, hall⟩
          exact ⟨others, rest, ⟨rfl, hall⟩, ⟨rfl, rfl⟩, rfl⟩
      · -- A character outside the class is not taken.
        simp only [List.mem_singleton, Prod.mk.injEq, reduceCtorEq, false_and, false_iff]
        rintro ⟨hsplit, hall⟩
        obtain ⟨rfl, -⟩ := List.cons.inj hsplit
        exact hc (hall c List.mem_cons_self)

/-- The ways in which a pattern matches are the splits of the text behind what it can take. -/
theorem mem_run {pattern : TokenPattern} : (taken, rest) ∈ pattern.run cs ↔
    cs = taken ++ rest ∧ pattern.Fits taken rest := by
  induction pattern generalizing cs taken rest with
  | empty =>
    simp only [run, Fits, List.mem_singleton, Prod.mk.injEq]
    grind
  | one accepts =>
    cases cs with
    | nil => simp only [run, Fits, List.not_mem_nil]; grind
    | cons c cs => simp only [run, Fits]; grind
  | many accepts => exact mem_leads
  | seq first second ihfirst ihsecond =>
    simp only [run, Fits, List.mem_flatMap, List.mem_map, Prod.exists, Prod.mk.injEq, ihfirst,
      ihsecond]
    constructor
    · rintro ⟨front, _, ⟨rfl, hfront⟩, back, _, ⟨rfl, hback⟩, rfl, rfl⟩
      exact ⟨(List.append_assoc _ _ _).symm, front, back, rfl, hfront, hback⟩
    · rintro ⟨rfl, front, back, rfl, hfront, hback⟩
      exact ⟨front, back ++ rest, ⟨List.append_assoc _ _ _, hfront⟩, back, rest, ⟨rfl, hback⟩, rfl,
        rfl⟩
  | alt left right ihleft ihright =>
    simp only [run, Fits, List.mem_append, ihleft, ihright, and_or_left]
  | stop =>
    simp only [run, Fits, List.isEmpty_iff]
    grind

/-- One character of each class. -/
theorem fits_sequence {classes : List (Char → Bool)} : (sequence classes).Fits taken rest ↔
    List.Forall₂ (fun c accepts => accepts c = true) taken classes := by
  induction classes generalizing taken with
  | nil => simp [sequence, Fits]
  | cons accepts classes ih =>
    simp only [sequence, Fits, ih]
    constructor
    · rintro ⟨_, back, rfl, ⟨c, rfl, hc⟩, hback⟩
      exact .cons hc hback
    · rintro (_ | ⟨hc, hback⟩)
      exact ⟨[_], _, rfl, ⟨_, rfl, hc⟩, hback⟩

/-- A sequence of classes that are given by what becomes of a character takes the texts that become
a word. -/
theorem fits_sequence_map {f : Char → Char} {letters : List Char} :
    (sequence (letters.map fun letter c => f c == letter)).Fits taken rest ↔
      taken.map f = letters := by
  simp only [fits_sequence, List.forall₂_map_right_iff, beq_iff_eq]
  rw [← List.forall₂_map_left_iff (R := Eq), List.forall₂_eq_eq_eq]

/-- A literal takes its word. -/
theorem fits_literal {word : String} : (literal word).Fits taken rest ↔ taken = word.toList := by
  have hmap : (literal word).Fits taken rest ↔ taken.map id = word.toList := fits_sequence_map
  rwa [List.map_id] at hmap

/-- A word in any case takes the texts that fold to it. -/
theorem fits_folded {word : String} :
    (folded word).Fits taken rest ↔ taken.map foldCase = word.toList := fits_sequence_map

/-- At least one character of a class. -/
theorem fits_oneOrMore :
    (oneOrMore accepts).Fits taken rest ↔ taken ≠ [] ∧ ∀ c ∈ taken, accepts c = true := by
  constructor
  · rintro ⟨_, back, rfl, ⟨c, rfl, hc⟩, hback⟩
    exact ⟨List.cons_ne_nil _ _, List.forall_mem_cons.2 ⟨hc, hback⟩⟩
  · rintro ⟨hne, hall⟩
    obtain ⟨c, back, rfl⟩ := List.exists_cons_of_ne_nil hne
    obtain ⟨hc, hback⟩ := List.forall_mem_cons.1 hall
    exact ⟨[c], back, rfl, ⟨c, rfl, hc⟩, hback⟩

/-- A class or the end matches in front of a text that no character outside the class starts. -/
theorem isEmpty_run_oneOrStop :
    (!((oneOrStop accepts).run rest).isEmpty) = true ↔ Stops (fun c => !accepts c) rest := by
  cases rest with
  | nil => simp [oneOrStop, run, stops_nil]
  | cons c rest =>
    rw [stops_cons]
    by_cases hc : accepts c <;> simp [oneOrStop, run, hc]

end TokenPattern

/-! ## Rules -/

namespace TokenRule

variable {α β : Type}

/-- The lexeme at the very start of a text, by a rule. -/
def lexeme? (rule : TokenRule α) (cs : List Char) : Option (Lexeme α) :=
  (rule.capture? cs).bind fun token => (rule.convert token).map fun value => ⟨value, token⟩

/-- A rule answers the value of its lexeme and how many bytes it has. -/
theorem matches?_eq (rule : TokenRule α) (cs : List Char) :
    rule.matches? cs = (rule.lexeme? cs).map fun l => (l.value, byteLength l.text) := by
  unfold matches? lexeme?
  cases rule.capture? cs with
  | none => rfl
  | some token => cases h : rule.convert token <;> simp [h]

/-- A rule recognises the tokens that it can capture and convert, provided that a text splits in one
way at most into what it can capture and what may follow. -/
theorem recognises_of_fits {rule : TokenRule α} {Spells : List Char → α → Prop}
    {recognise : List Char → Option (Lexeme β)} {Broad : List Char → β → Prop}
    {Ends : List Char → Prop} (hbroad : Recognises recognise Broad Ends)
    (hends : ∀ rest, (!(rule.boundary.run rest).isEmpty) = true ↔ Ends rest)
    (hfits : ∀ {token rest}, rule.token.Fits token rest → ∃ value, Broad token value)
    (hspells : ∀ {token rest value},
      rule.token.Fits token rest ∧ rule.convert token = some value ↔ Spells token value) :
    Recognises rule.lexeme? Spells Ends where
  sound {cs lexeme} h := by
    obtain ⟨token, hcapture, hconvert⟩ := Option.bind_eq_some_iff.1 h
    obtain ⟨value, hvalue, rfl⟩ := Option.map_eq_some_iff.1 hconvert
    obtain ⟨⟨_, rest⟩, hfound, rfl⟩ := Option.map_eq_some_iff.1 hcapture
    obtain ⟨hsplit, hfit⟩ := TokenPattern.mem_run.1 (List.mem_of_find?_eq_some hfound)
    have hgood := List.find?_some hfound
    exact ⟨hspells.1 ⟨hfit, hvalue⟩, rest, hsplit, (hends rest).1 hgood⟩
  complete {token rest value} hspelled hrest := by
    obtain ⟨hfit, hvalue⟩ := hspells.2 hspelled
    have hmem : (token, rest) ∈ rule.token.run (token ++ rest) := TokenPattern.mem_run.2 ⟨rfl, hfit⟩
    -- The first split that is good is the only one.
    have hfound : (rule.token.run (token ++ rest)).find?
        (fun split => !(rule.boundary.run split.2).isEmpty) = some (token, rest) := by
      cases hfirst : (rule.token.run (token ++ rest)).find?
          (fun split => !(rule.boundary.run split.2).isEmpty) with
      | none =>
        have hnone := List.find?_eq_none.1 hfirst _ hmem
        exact absurd ((hends rest).2 hrest) hnone
      | some first =>
        obtain ⟨token', rest'⟩ := first
        obtain ⟨hsplit, hfit'⟩ := TokenPattern.mem_run.1 (List.mem_of_find?_eq_some hfirst)
        obtain ⟨_, hbroad₁⟩ := hfits hfit
        obtain ⟨_, hbroad₂⟩ := hfits hfit'
        have hgood := List.find?_some hfirst
        have hrest' := (hends rest').1 hgood
        obtain ⟨rfl, rfl⟩ := hbroad.split_unique hbroad₁ hrest hbroad₂ hrest' hsplit
        rfl
    simp [lexeme?, capture?, hfound, hvalue]

/-- Two recognisers of the same tokens answer the same. -/
theorem recognise_eq {recognise recognise' : List Char → Option (Lexeme α)}
    {Spells : List Char → α → Prop} {Ends : List Char → Prop}
    (h : Recognises recognise Spells Ends) (h' : Recognises recognise' Spells Ends) :
    recognise = recognise' := by
  funext cs
  apply Option.ext
  intro lexeme
  exact h.eq_some_iff.trans h'.eq_some_iff.symm

/-- A blank or the end may follow a token that reaches to a boundary. -/
theorem isEmpty_run_blankOrStop (rest : List Char) :
    (!((TokenPattern.oneOrStop isBlank).run rest).isEmpty) = true ↔ atBoundary rest = true :=
  TokenPattern.isEmpty_run_oneOrStop.trans stops_not_isBlank_iff

/-- The rule for operators recognises them. -/
theorem lexeme?_operator : operator.lexeme? = operator? := by
  have hfits {token rest : List Char} (op : Operator) (h : token = op.symbol.toList) :
      operator.token.Fits token rest := by
    subst h
    simp only [operator, TokenPattern.Fits, TokenPattern.fits_literal]
    cases op <;> simp [Operator.symbol]
  have hends (rest : List Char) :
      (!(operator.boundary.run rest).isEmpty) = true ↔ Stops isComparison rest := by
    refine TokenPattern.isEmpty_run_oneOrStop.trans ?_
    simp only [Bool.not_not]
  refine recognise_eq (recognises_of_fits recognises_operator hends ?_ ?_) recognises_operator
  · intro token rest h
    simp only [operator, TokenPattern.Fits, TokenPattern.fits_literal] at h
    rcases h with rfl | rfl | rfl | rfl | rfl
    exacts [⟨.lessEqual, rfl⟩, ⟨.greaterEqual, rfl⟩, ⟨.equal, rfl⟩, ⟨.less, rfl⟩, ⟨.greater, rfl⟩]
  · intro token rest op
    have hconvert : operator.convert token = some op ↔ token = op.symbol.toList := by
      refine ofSymbol?_eq_some_iff.trans ?_
      rw [← String.toList_inj, String.toList_ofList]
    rw [hconvert]
    exact ⟨And.right, fun h => ⟨hfits op h, h⟩⟩

/-- What the rule for numbers can capture spells an integer. -/
theorem fits_number {token rest : List Char} :
    number.token.Fits token rest ↔ ∃ n, SpellsInteger token n := by
  constructor
  · rintro ⟨sign, ds, rfl, hsign, hds⟩
    have hdigits : IsDigits ds := TokenPattern.fits_oneOrMore.1 hds
    rcases hsign with ⟨c, rfl, hc⟩ | hnone
    · rw [Bool.or_eq_true, beq_iff_eq, beq_iff_eq] at hc
      rcases hc with rfl | rfl
      · exact ⟨_, .positive hdigits⟩
      · exact ⟨_, .negative hdigits⟩
    · obtain rfl : sign = [] := hnone
      exact ⟨_, .unsigned hdigits⟩
  · rintro ⟨n, hn⟩
    cases hn with
    | unsigned hds => exact ⟨[], token, rfl, .inr rfl, TokenPattern.fits_oneOrMore.2 hds⟩
    | positive hds =>
      exact ⟨['+'], _, rfl, .inl ⟨'+', rfl, by decide⟩, TokenPattern.fits_oneOrMore.2 hds⟩
    | negative hds =>
      exact ⟨['-'], _, rfl, .inl ⟨'-', rfl, by decide⟩, TokenPattern.fits_oneOrMore.2 hds⟩

/-- The rule for numbers recognises them. -/
theorem lexeme?_number : number.lexeme? = number? := by
  refine recognise_eq (recognises_of_fits recognises_string isEmpty_run_blankOrStop ?_ ?_)
    recognises_number
  · intro token rest h
    obtain ⟨n, hn⟩ := fits_number.1 h
    exact hn.isString
  · intro token rest n
    have hconvert : number.convert token = some n ↔ SpellsNumber token n := by
      refine Option.map_eq_some_iff.trans (exists_congr fun m => ?_)
      rw [integer?_eq_some_iff, eq_comm (a := clampInt64 m)]
    rw [hconvert]
    refine ⟨And.right, fun h => ⟨?_, h⟩⟩
    obtain ⟨m, hm, -⟩ := h
    exact fits_number.2 ⟨m, hm⟩

/-- The rule for words recognises them. -/
theorem lexeme?_word : word.lexeme? = word? := by
  have hfits {token rest : List Char} : word.token.Fits token rest ↔
      SpellsWord token (String.ofList token) := by
    refine TokenPattern.fits_oneOrMore.trans ?_
    simp only [SpellsWord, and_true]
  refine recognise_eq (recognises_of_fits recognises_string isEmpty_run_blankOrStop ?_ ?_)
    recognises_word
  · intro token rest h
    exact (hfits.1 h).isBareString.isString
  · intro token rest value
    rw [hfits]
    show _ ∧ some (String.ofList token) = some value ↔ _
    rw [Option.some.injEq]
    constructor
    · rintro ⟨h, rfl⟩
      exact h
    · rintro ⟨hne, hletters, rfl⟩
      exact ⟨⟨hne, hletters, rfl⟩, rfl⟩

/-- What the rule for strings can capture is a quoted text without quotes, or a bare string. -/
theorem fits_string {token rest : List Char} : string.token.Fits token rest ↔
    (∃ inner, '"' ∉ inner ∧ token = '"' :: inner ++ ['"']) ∨ IsBareString token := by
  refine or_congr ?_ ?_
  · constructor
    · rintro ⟨_, _, rfl, ⟨first, rfl, hfirst⟩, inner, _, rfl, hinner, last, rfl, hlast⟩
      rw [beq_iff_eq] at hfirst hlast
      subst hfirst hlast
      refine ⟨inner, fun hquote => ?_, rfl⟩
      have hne := hinner _ hquote
      revert hne
      decide
    · rintro ⟨inner, hinner, rfl⟩
      refine ⟨['"'], inner ++ ['"'], rfl, ⟨'"', rfl, by decide⟩, inner, ['"'], rfl, ?_,
        '"', rfl, by decide⟩
      intro c hc
      rw [bne_iff_ne]
      rintro rfl
      exact hinner hc
  · constructor
    · rintro ⟨_, others, rfl, ⟨first, rfl, hfirst⟩, hothers⟩
      rw [Bool.and_eq_true, bne_iff_ne] at hfirst
      refine ⟨List.cons_ne_nil _ _, by simpa using hfirst.2, ?_⟩
      exact List.forall_mem_cons.2 ⟨hfirst.1, hothers⟩
    · rintro ⟨hne, hhash, hall⟩
      obtain ⟨first, others, rfl⟩ := List.exists_cons_of_ne_nil hne
      obtain ⟨hfirst, hothers⟩ := List.forall_mem_cons.1 hall
      have hstart : first ≠ '#' := by simpa using hhash
      have hclass : (isBare first && first != '#') = true := by
        rw [hfirst, Bool.true_and, bne_iff_ne]
        exact hstart
      exact ⟨[first], others, rfl, ⟨first, rfl, hclass⟩, hothers⟩

/-- A bare string is not in quotes. -/
theorem unquote_of_isBareString {token : List Char} (h : IsBareString token) :
    unquote token = token := by
  apply unquote_eq_self
  rintro inner rfl
  have hquote := h.2.2 '"' List.mem_cons_self
  revert hquote
  decide

/-- The rule for strings recognises them. -/
theorem lexeme?_string : string.lexeme? = string? := by
  refine recognise_eq (recognises_of_fits recognises_string isEmpty_run_blankOrStop ?_ ?_)
    recognises_string
  · intro token rest h
    rcases fits_string.1 h with ⟨inner, hinner, rfl⟩ | hbare
    · exact ⟨_, .quoted hinner⟩
    · exact hbare.isString
  · intro token rest value
    rw [fits_string]
    show _ ∧ some (String.ofList (unquote token)) = some value ↔ _
    rw [Option.some.injEq]
    constructor
    · rintro ⟨⟨inner, hinner, rfl⟩ | hbare, rfl⟩
      · rw [unquote_quoted]
        exact .quoted hinner
      · rw [unquote_of_isBareString hbare]
        exact .bare hbare
    · intro h
      cases h with
      | quoted hinner => exact ⟨.inl ⟨_, hinner, rfl⟩, by rw [unquote_quoted]⟩
      | bare hbare => exact ⟨.inr hbare, by rw [unquote_of_isBareString hbare]⟩

/-! ### Truth values -/

/-- A character whose small form is a letter folds to it. -/
theorem foldCase_of_toLower {c : Char} (h : c.toLower.isAlpha = true) :
    TokenPattern.foldCase c = c.toLower := by
  unfold TokenPattern.foldCase
  split_ifs with hs hk
  · rw [beq_iff_eq] at hs
    subst hs
    revert h
    decide
  · rw [beq_iff_eq] at hk
    subst hk
    revert h
    decide
  · rfl

/-- A character that folds to a letter may stand in a bare string. -/
theorem isBare_of_foldCase {c : Char} (h : (TokenPattern.foldCase c).isAlpha = true) :
    isBare c = true := by
  unfold TokenPattern.foldCase at h
  split_ifs at h with hs hk
  · rw [beq_iff_eq] at hs
    subst hs
    decide
  · rw [beq_iff_eq] at hk
    subst hk
    decide
  · exact isBare_of_isLetter (isLetter_of_toLower h)

/-- Only a quote folds to a quote. -/
theorem foldCase_eq_quote {c : Char} : TokenPattern.foldCase c = '"' ↔ c = '"' := by
  constructor
  · intro h
    unfold TokenPattern.foldCase at h
    split_ifs at h
    · exact absurd h (by decide)
    · exact absurd h (by decide)
    · by_cases hupper : c.isUpper = true
      · -- A capital is the capital of its small form.
        have hback := congrArg Char.toUpper h
        rw [Char.toUpper_toLower_eq_toUpper,
          Char.toUpper_eq_of_not_isLower (Char.not_isLower_of_isUpper hupper)] at hback
        rw [hback]
        decide
      · rwa [Char.toLower_eq_of_not_isUpper hupper] at h
  · rintro rfl
    decide

/-- The letters of a truth value, after folding their case. -/
def IsFolded (letters : List Char) : Prop :=
  letters.map TokenPattern.foldCase = "true".toList ∨
    letters.map TokenPattern.foldCase = "false".toList

/-- A truth value is folded. -/
theorem isFolded_of_spellsTruth {letters : List Char} {b : Bool} (h : SpellsTruth letters b) :
    IsFolded letters := by
  have hfold : letters.map TokenPattern.foldCase = letters.map Char.toLower := by
    apply List.map_congr_left
    intro c hc
    apply foldCase_of_toLower
    have hmem : c.toLower ∈ (if b then "true" else "false").toList := h ▸ List.mem_map_of_mem hc
    have halpha : (if b then "true" else "false").toList.all Char.isAlpha = true := by
      cases b <;> decide
    exact List.all_eq_true.1 halpha _ hmem
  unfold IsFolded
  rw [hfold, h]
  cases b
  · exact .inr rfl
  · exact .inl rfl

/-- Folded letters make a bare string. -/
theorem IsFolded.isBareString {letters : List Char} (h : IsFolded letters) :
    IsBareString letters := by
  have halpha : ∀ c ∈ letters, (TokenPattern.foldCase c).isAlpha = true := by
    intro c hc
    have hmem := List.mem_map_of_mem (f := TokenPattern.foldCase) hc
    rcases h with h | h <;> rw [h] at hmem
    · exact List.all_eq_true.1 (by decide : "true".toList.all Char.isAlpha = true) _ hmem
    · exact List.all_eq_true.1 (by decide : "false".toList.all Char.isAlpha = true) _ hmem
  refine ⟨?_, ?_, fun c hc => isBare_of_foldCase (halpha c hc)⟩
  · rintro rfl
    rcases h with h | h <;> cases h
  · intro hhash
    have hletter := halpha _ (List.mem_of_head? hhash)
    revert hletter
    decide

/-- A text folds to a word in quotes if it is a text in quotes that folds to the word. -/
theorem map_foldCase_quoted {token word : List Char} :
    token.map TokenPattern.foldCase = '"' :: word ++ ['"'] ↔
      ∃ letters, letters.map TokenPattern.foldCase = word ∧ token = '"' :: letters ++ ['"'] := by
  constructor
  · intro h
    obtain ⟨first, back, rfl, hfirst, hback⟩ := List.map_eq_cons_iff.1 h
    obtain ⟨letters, last, rfl, hletters, hlast⟩ := List.map_eq_append_iff.1 hback
    obtain ⟨quote, none, rfl, hquote, hnone⟩ := List.map_eq_cons_iff.1 hlast
    obtain rfl := List.map_eq_nil_iff.1 hnone
    rw [foldCase_eq_quote] at hfirst hquote
    subst hfirst hquote
    exact ⟨letters, hletters, rfl⟩
  · rintro ⟨letters, rfl, rfl⟩
    simp [foldCase_eq_quote.2 rfl]

/-- What the rule for truth values can capture folds to one of the two words, bare or in quotes. -/
theorem fits_boolean {token rest : List Char} : boolean.token.Fits token rest ↔
    ∃ letters, IsFolded letters ∧ (token = letters ∨ token = '"' :: letters ++ ['"']) := by
  have htrue : "\"true\"".toList = '"' :: "true".toList ++ ['"'] := by decide
  have hfalse : "\"false\"".toList = '"' :: "false".toList ++ ['"'] := by decide
  simp only [boolean, TokenPattern.Fits, TokenPattern.fits_folded, htrue, hfalse,
    map_foldCase_quoted]
  constructor
  · rintro (⟨letters, h, rfl⟩ | ⟨letters, h, rfl⟩ | h | h)
    · exact ⟨letters, .inl h, .inr rfl⟩
    · exact ⟨letters, .inr h, .inr rfl⟩
    · exact ⟨token, .inl h, .inl rfl⟩
    · exact ⟨token, .inr h, .inl rfl⟩
  · rintro ⟨letters, h | h, rfl | rfl⟩
    · exact .inr (.inr (.inl h))
    · exact .inl ⟨letters, h, rfl⟩
    · exact .inr (.inr (.inr h))
    · exact .inr (.inl ⟨letters, h, rfl⟩)

/-- Quotes around a text that has none are trimmed, and nothing else. -/
theorem trimQuotes_eq {front letters back : List Char} (hfront : ∀ c ∈ front, (c == '"') = true)
    (hback : ∀ c ∈ back, (c == '"') = true) (hletters : '"' ∉ letters) (hne : letters ≠ []) :
    trimQuotes (front ++ letters ++ back) = letters := by
  have hstops {cs more : List Char} (hcs : '"' ∉ cs) (hne : cs ≠ []) :
      Stops (· == '"') (cs ++ more) := by
    obtain ⟨c, others, rfl⟩ := List.exists_cons_of_ne_nil hne
    rw [List.cons_append, stops_cons, beq_eq_false_iff_ne]
    rintro rfl
    exact hcs List.mem_cons_self
  have hleft : (front ++ letters ++ back).dropWhile (· == '"') = letters ++ back := by
    rw [List.append_assoc]
    exact dropWhile_append_of_stop hfront (hstops hletters hne)
  have hright : (letters ++ back).reverse.dropWhile (· == '"') = letters.reverse := by
    rw [List.reverse_append]
    refine dropWhile_append_of_stop (fun c hc => hback c (List.mem_reverse.1 hc)) ?_
    rw [← List.append_nil letters.reverse]
    exact hstops (by simpa using hletters) (by simpa using hne)
  rw [trimQuotes, hleft, hright, List.reverse_reverse]

/-- A text that folds to one of the two words has no quote. -/
theorem IsFolded.quote_not_mem {letters : List Char} (h : IsFolded letters) : '"' ∉ letters := by
  intro hquote
  have hbare := h.isBareString.2.2 _ hquote
  revert hbare
  decide

/-- A text without quotes is converted as it is. -/
theorem IsFolded.convert_bare {letters : List Char} (h : IsFolded letters) :
    boolean.convert letters = truthValue? letters := by
  have hnone : ∀ c ∈ ([] : List Char), (c == '"') = true := by simp
  have htrim := trimQuotes_eq hnone hnone h.quote_not_mem h.isBareString.1
  rw [List.nil_append, List.append_nil] at htrim
  exact congrArg truthValue? htrim

/-- A text in quotes is converted without them. -/
theorem IsFolded.convert_quoted {letters : List Char} (h : IsFolded letters) :
    boolean.convert ('"' :: letters ++ ['"']) = truthValue? letters := by
  have hquote : ∀ c ∈ ['"'], (c == '"') = true := by simp
  have htrim := trimQuotes_eq hquote hquote h.quote_not_mem h.isBareString.1
  exact congrArg truthValue? htrim

/-- The rule for truth values recognises them. -/
theorem lexeme?_boolean : boolean.lexeme? = boolean? := by
  refine recognise_eq (recognises_of_fits recognises_string isEmpty_run_blankOrStop ?_ ?_)
    recognises_boolean
  · intro token rest h
    obtain ⟨letters, hfolded, rfl | rfl⟩ := fits_boolean.1 h
    · exact hfolded.isBareString.isString
    · exact ⟨_, .quoted hfolded.quote_not_mem⟩
  · intro token rest b
    rw [fits_boolean]
    constructor
    · rintro ⟨⟨letters, hfolded, rfl | rfl⟩, hconvert⟩
      · rw [hfolded.convert_bare, truthValue?_eq_some_iff] at hconvert
        exact .bare hconvert
      · rw [hfolded.convert_quoted, truthValue?_eq_some_iff] at hconvert
        exact .quoted hconvert
    · intro h
      cases h with
      | bare htruth =>
        have hfolded := isFolded_of_spellsTruth htruth
        refine ⟨⟨token, hfolded, .inl rfl⟩, ?_⟩
        rwa [hfolded.convert_bare, truthValue?_eq_some_iff]
      | @quoted letters _ htruth =>
        have hfolded := isFolded_of_spellsTruth htruth
        refine ⟨⟨letters, hfolded, .inr rfl⟩, ?_⟩
        rwa [hfolded.convert_quoted, truthValue?_eq_some_iff]

-- The pattern takes a long s for the letter, and the conversion refuses it.
example : boolean.capture? "fal\u017Fe # x".toList = some "fal\u017Fe".toList ∧
    boolean.matches? "fal\u017Fe # x".toList = none := by decide

end TokenRule

/-! ## All rules -/

namespace Lexeme.Kind

/-- The rule of a kind. -/
def rule : (kind : Kind) → TokenRule kind.Value
  | operator => TokenRule.operator
  | number => TokenRule.number
  | boolean => TokenRule.boolean
  | word => TokenRule.word
  | string => TokenRule.string

/-- The rule of a kind answers the value of the lexeme that the recogniser of the kind answers, and
how many bytes it has. -/
theorem matches?_rule (kind : Kind) (cs : List Char) :
    kind.rule.matches? cs =
      (kind.recognise cs).map fun lexeme => (lexeme.value, byteLength lexeme.text) := by
  have hlexeme : kind.rule.lexeme? = kind.recognise := by
    cases kind with
    | operator => exact TokenRule.lexeme?_operator
    | number => exact TokenRule.lexeme?_number
    | boolean => exact TokenRule.lexeme?_boolean
    | word => exact TokenRule.lexeme?_word
    | string => exact TokenRule.lexeme?_string
  rw [TokenRule.matches?_eq, hlexeme]

end Lexeme.Kind

/-- The table of rules announces the kind that the recognisers announce. -/
theorem TokenRule.kind?_eq (cs : List Char) : TokenRule.kind? cs = Lexeme.kind? cs := by
  have hprobe (kind : Kind) : kind.rule.probe cs = (kind.recognise cs).isSome := by
    rw [probe, Kind.matches?_rule, Option.isSome_map]
  have hoperator : operator.probe cs = (operator? cs).isSome := hprobe .operator
  have hnumber : number.probe cs = (number? cs).isSome := hprobe .number
  have hboolean : boolean.probe cs = (boolean? cs).isSome := hprobe .boolean
  have hword : word.probe cs = (word? cs).isSome := hprobe .word
  have hstring : string.probe cs = (string? cs).isSome := hprobe .string
  unfold TokenRule.kind? Lexeme.kind? priority
  simp only [List.find?_cons, List.find?_nil, hoperator, hnumber, hboolean, hword, hstring]
  grind [operator, number, boolean, word, string]

end ItemFilter
