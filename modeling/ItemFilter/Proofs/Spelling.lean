import ItemFilter.Lexeme
import ItemFilter.Proofs.Text

/-!
# Spelling

Which texts spell which values, written down without reference to how a text is read: integers of
any size, words, truth values, strings and operators. Every recogniser answers exactly the tokens of
its class (`Recognises`): a spelling at the start of the text, followed by a blank or the end, or,
behind an operator, by anything but a further comparison sign.

A recogniser that tests the first run of characters that are not blank is treated once
(`recognises_run`); the quoted string, which may hold blanks, and the operator, which may be
followed by its argument directly, have arguments of their own. A number is the integer that is
spelled, brought into the range of 64 bits (`recognises_number`), and every integer, word and truth
value is also a string (`SpellsInteger.isString` and its like), so that a text starts with one
argument at most, whatever kind of argument is looked for.
-/

namespace ItemFilter.Lexeme

open Text

/-! ## Characters -/

/-- No visible ASCII character is blank. -/
theorem isBlank_of_visible {c : Char} (hlo : 0x21 ≤ c.toNat) (hhi : c.toNat ≤ 0x7E) :
    isBlank c = false := by
  simp only [isBlank, blankIntervals, List.any_cons, List.any_nil, Bool.or_false,
    Bool.or_eq_false_iff, Bool.and_eq_false_iff, decide_eq_false_iff_not]
  omega

/-- A digit has a code between those of `0` and `9`. -/
theorem toNat_of_isDigit {c : Char} (h : c.isDigit = true) : 0x30 ≤ c.toNat ∧ c.toNat ≤ 0x39 := by
  simp only [Char.isDigit, Bool.and_eq_true, decide_eq_true_eq, ge_iff_le,
    UInt32.le_iff_toNat_le] at h
  exact h

/-- An ASCII letter has a code between those of `A` and `z`. -/
theorem toNat_of_isAlpha {c : Char} (h : c.isAlpha = true) : 0x41 ≤ c.toNat ∧ c.toNat ≤ 0x7A := by
  simp only [Char.isAlpha, Char.isUpper, Char.isLower, Bool.or_eq_true, Bool.and_eq_true,
    decide_eq_true_eq, ge_iff_le, UInt32.le_iff_toNat_le] at h
  change (0x41 ≤ c.toNat ∧ c.toNat ≤ 0x5A) ∨ (0x61 ≤ c.toNat ∧ c.toNat ≤ 0x7A) at h
  omega

/-- The comparison signs. -/
theorem isComparison_iff {c : Char} :
    isComparison c = true ↔ c = '<' ∨ c = '=' ∨ c = '>' := by
  simp [isComparison, or_assoc]

/-- A blank is no comparison sign. -/
theorem isComparison_of_isBlank {c : Char} (h : isBlank c = true) : isComparison c = false := by
  by_contra hcomparison
  rcases isComparison_iff.1 (Bool.eq_true_of_not_eq_false hcomparison) with rfl | rfl | rfl
  all_goals exact absurd h (by decide)

/-- A character may stand in a bare string when it is not blank, no quote and no comparison sign. -/
theorem isBare_iff {c : Char} :
    isBare c = true ↔ isBlank c = false ∧ c ≠ '"' ∧ isComparison c = false := by
  simp [isBare, and_assoc]

/-- A visible ASCII character behind `>` may stand in a bare string. -/
theorem isBare_of_gt {c : Char} (hlo : 0x3F ≤ c.toNat) (hhi : c.toNat ≤ 0x7E) :
    isBare c = true := by
  refine isBare_iff.2 ⟨isBlank_of_visible (by omega) hhi, ?_, ?_⟩
  · rintro rfl
    revert hlo
    decide
  · rw [← Bool.not_eq_true, isComparison_iff]
    rintro (rfl | rfl | rfl) <;> revert hlo <;> decide

/-- A letter may stand in a bare string. -/
theorem isBare_of_isLetter {c : Char} (h : isLetter c = true) : isBare c = true := by
  simp only [isLetter, Bool.or_eq_true, beq_iff_eq] at h
  rcases h with halpha | rfl
  · obtain ⟨hlo, hhi⟩ := toNat_of_isAlpha halpha
    exact isBare_of_gt (by omega) (by omega)
  · decide

/-- A digit may stand in a bare string. -/
theorem isBare_of_isDigit {c : Char} (h : c.isDigit = true) : isBare c = true := by
  obtain ⟨hlo, hhi⟩ := toNat_of_isDigit h
  refine isBare_iff.2 ⟨isBlank_of_visible (by omega) (by omega), ?_, ?_⟩
  · rintro rfl
    revert hlo
    decide
  · rw [← Bool.not_eq_true, isComparison_iff]
    rintro (rfl | rfl | rfl) <;> revert hhi <;> decide

/-- A letter stays what it is when the case of ASCII letters is ignored. -/
theorem isLetter_of_toLower {c : Char} (h : c.toLower.isAlpha = true) : isLetter c = true := by
  by_cases hupper : c.isUpper = true
  · simp [isLetter, Char.isAlpha, hupper]
  · -- Only capital letters change.
    have hsame : c.toLower = c := by
      simp only [Char.isUpper, decide_eq_true_eq] at hupper
      rw [Char.toLower, dif_neg hupper]
    rw [hsame] at h
    simp [isLetter, h]

/-! ## Spellings -/

/-- A text of one or more digits. -/
def IsDigits (ds : List Char) : Prop := ds ≠ [] ∧ ∀ d ∈ ds, d.isDigit = true

/-- A text spells an integer: one or more digits, which may have a sign in front. -/
inductive SpellsInteger : List Char → Int → Prop
  | unsigned {ds : List Char} : IsDigits ds → SpellsInteger ds (digitsValue ds)
  | positive {ds : List Char} : IsDigits ds → SpellsInteger ('+' :: ds) (digitsValue ds)
  | negative {ds : List Char} : IsDigits ds → SpellsInteger ('-' :: ds) (-(digitsValue ds : Int))

/-- A text spells a number token: the integer of 64 bits nearest to the one it denotes. -/
def SpellsNumber (token : List Char) (n : Int) : Prop :=
  ∃ m, SpellsInteger token m ∧ n = clampInt64 m

/-- A text of one or more letters spells itself as a word. -/
def SpellsWord (token : List Char) (word : String) : Prop :=
  token ≠ [] ∧ (∀ c ∈ token, isLetter c = true) ∧ word = String.ofList token

/-- A text is `true` or `false`, whatever the case of its letters. -/
def SpellsTruth (token : List Char) (b : Bool) : Prop :=
  token.map Char.toLower = (if b then "true" else "false").toList

/-- A text spells a truth value, bare or in one pair of quotes. -/
inductive SpellsBoolean : List Char → Bool → Prop
  | bare {token : List Char} {b : Bool} : SpellsTruth token b → SpellsBoolean token b
  | quoted {inner : List Char} {b : Bool} :
    SpellsTruth inner b → SpellsBoolean ('"' :: inner ++ ['"']) b

/-- A text that spells itself as a bare string: it holds no blank, no quote and no comparison sign,
and does not start like a comment. -/
def IsBareString (token : List Char) : Prop :=
  token ≠ [] ∧ token.head? ≠ some '#' ∧ ∀ c ∈ token, isBare c = true

/-- A text spells a string: in quotes, of which the string itself holds none, or bare. -/
inductive SpellsString : List Char → String → Prop
  | quoted {inner : List Char} :
    '"' ∉ inner → SpellsString ('"' :: inner ++ ['"']) (String.ofList inner)
  | bare {token : List Char} : IsBareString token → SpellsString token (String.ofList token)

/-- A string holds no quote, and no character but those of its token. -/
theorem SpellsString.mem_token {token : List Char} {value : String} (h : SpellsString token value)
    {c : Char} (hc : c ∈ value.toList) : c ≠ '"' ∧ c ∈ token := by
  cases h with
  | @quoted inner hinner =>
    rw [String.toList_ofList] at hc
    refine ⟨?_, by simp [hc]⟩
    rintro rfl
    exact hinner hc
  | bare hbare =>
    rw [String.toList_ofList] at hc
    exact ⟨(isBare_iff.1 (hbare.2.2 c hc)).2.1, hc⟩

/-- A text is the symbol of an operator. -/
def SpellsOperator (token : List Char) (op : Operator) : Prop := token = op.symbol.toList

/-! ## Every argument is a string -/

/-- A text that spells some string. -/
def IsString (token : List Char) : Prop := ∃ value, SpellsString token value

/-- A bare string is a string. -/
theorem IsBareString.isString {token : List Char} (h : IsBareString token) : IsString token :=
  ⟨_, .bare h⟩

/-- A string starts with a character that is no blank, no comparison sign and opens no comment. -/
theorem IsString.exists_cons {token : List Char} (h : IsString token) :
    ∃ c cs, token = c :: cs ∧ isBlank c = false ∧ isComparison c = false ∧ c ≠ '#' := by
  obtain ⟨value, hspells⟩ := h
  cases hspells with
  | quoted _ => exact ⟨'"', _, rfl, by decide, by decide, by decide⟩
  | bare hbare =>
    obtain ⟨hne, hhead, hall⟩ := hbare
    obtain ⟨c, cs, rfl⟩ := List.exists_cons_of_ne_nil hne
    obtain ⟨hblank, -, hcomparison⟩ := isBare_iff.1 (hall c List.mem_cons_self)
    exact ⟨c, cs, rfl, hblank, hcomparison, by simpa using hhead⟩

/-- A token that starts with a character that is not blank. -/
def IsVisible (token : List Char) : Prop := ∃ c cs, token = c :: cs ∧ isBlank c = false

/-- A string is visible. -/
theorem IsString.isVisible {token : List Char} (h : IsString token) : IsVisible token := by
  obtain ⟨c, cs, rfl, hblank, -, -⟩ := h.exists_cons
  exact ⟨c, cs, rfl, hblank⟩

/-- Digits make a bare string. -/
theorem IsDigits.isBareString {ds : List Char} (h : IsDigits ds) : IsBareString ds := by
  obtain ⟨hne, hdigits⟩ := h
  refine ⟨hne, ?_, fun d hd => isBare_of_isDigit (hdigits d hd)⟩
  intro hhead
  have hdigit := hdigits _ (List.mem_of_head? hhead)
  revert hdigit
  decide

/-- A sign in front of digits makes a bare string. -/
theorem IsDigits.isBareString_cons {ds : List Char} {sign : Char} (h : IsDigits ds)
    (hsign : sign ≠ '#') (hbare : isBare sign = true) : IsBareString (sign :: ds) := by
  refine ⟨List.cons_ne_nil _ _, by simpa using hsign, ?_⟩
  rintro c (_ | ⟨_, hc⟩)
  · exact hbare
  · exact h.isBareString.2.2 c hc

/-- The spelling of an integer is a bare string. -/
theorem SpellsInteger.isBareString {token : List Char} {n : Int} (h : SpellsInteger token n) :
    IsBareString token := by
  cases h with
  | unsigned hds => exact hds.isBareString
  | positive hds => exact hds.isBareString_cons (by decide) (by decide)
  | negative hds => exact hds.isBareString_cons (by decide) (by decide)

/-- The spelling of an integer is a string. -/
theorem SpellsInteger.isString {token : List Char} {n : Int} (h : SpellsInteger token n) :
    IsString token := h.isBareString.isString

/-- A word is a bare string. -/
theorem SpellsWord.isBareString {token : List Char} {word : String} (h : SpellsWord token word) :
    IsBareString token := by
  obtain ⟨hne, hletters, -⟩ := h
  refine ⟨hne, ?_, fun c hc => isBare_of_isLetter (hletters c hc)⟩
  intro hhead
  have hletter := hletters _ (List.mem_of_head? hhead)
  revert hletter
  decide

/-- A bare truth value is a word. -/
theorem SpellsTruth.spellsWord {token : List Char} {b : Bool} (h : SpellsTruth token b) :
    SpellsWord token (String.ofList token) := by
  unfold SpellsTruth at h
  refine ⟨?_, ?_, rfl⟩
  · rintro rfl
    cases b <;> revert h <;> decide
  · intro c hc
    have hlower : c.toLower ∈ (if b then "true" else "false").toList :=
      h ▸ List.mem_map_of_mem hc
    have halpha : (if b then "true" else "false").toList.all Char.isAlpha = true := by
      cases b <;> decide
    exact isLetter_of_toLower (List.all_eq_true.1 halpha _ hlower)

/-- The spelling of a truth value is a string. -/
theorem SpellsBoolean.isString {token : List Char} {b : Bool} (h : SpellsBoolean token b) :
    IsString token := by
  cases h with
  | bare htruth => exact htruth.spellsWord.isBareString.isString
  | quoted htruth =>
    refine ⟨_, .quoted fun hquote => ?_⟩
    have hbare := htruth.spellsWord.isBareString.2.2 _ hquote
    revert hbare
    decide

/-! ## Recognisers -/

/-- A recogniser answers exactly the tokens of a class: what is spelled at the start of a text, if
the text may go on behind it as it does. -/
structure Recognises {α : Type} (recognise : List Char → Option (Lexeme α))
    (Spells : List Char → α → Prop) (Ends : List Char → Prop) : Prop where
  /-- What is answered is spelled at the start of the text. -/
  sound {cs : List Char} {lexeme : Lexeme α} : recognise cs = some lexeme →
    Spells lexeme.text lexeme.value ∧ ∃ rest, cs = lexeme.text ++ rest ∧ Ends rest
  /-- What is spelled at the start of the text is answered. -/
  complete {token rest : List Char} {value : α} : Spells token value → Ends rest →
    recognise (token ++ rest) = some ⟨value, token⟩

/-- A token spells one value at most, if it may stand at the end of a text. -/
theorem Recognises.unique {α : Type} {recognise : List Char → Option (Lexeme α)}
    {Spells : List Char → α → Prop} {Ends : List Char → Prop}
    (hrec : Recognises recognise Spells Ends) (hnil : Ends []) {token : List Char}
    {value value' : α} (h : Spells token value) (h' : Spells token value') : value = value' := by
  have hread := hrec.complete h hnil
  rw [hrec.complete h' hnil] at hread
  exact (congrArg Lexeme.value (Option.some.inj hread)).symm

/-- A text is at a boundary when it stops a run of characters that are not blank. -/
theorem stops_not_isBlank_iff {cs : List Char} :
    Stops (fun c => !isBlank c) cs ↔ atBoundary cs = true := by
  cases cs with
  | nil => simp [stops_nil, atBoundary]
  | cons c cs => simp [stops_cons, atBoundary]

/-- A test on the first run of characters that are not blank recognises the spellings that pass
it, provided that these hold no blank. -/
theorem recognises_run {α : Type} {read : List Char → Option α} {Spells : List Char → α → Prop}
    (hread : ∀ token value, read token = some value ↔ Spells token value)
    (hvisible : ∀ token value, Spells token value → ∀ c ∈ token, isBlank c = false) :
    Recognises (fun cs => (read (firstRun cs)).map fun value => ⟨value, firstRun cs⟩) Spells
      (fun rest => atBoundary rest) where
  sound := by
    intro cs lexeme h
    obtain ⟨value, hvalue, rfl⟩ := Option.map_eq_some_iff.1 h
    refine ⟨(hread _ _).1 hvalue, cs.dropWhile fun c => !isBlank c, ?_, ?_⟩
    · exact List.takeWhile_append_dropWhile.symm
    · exact stops_not_isBlank_iff.1 (stops_dropWhile _ _)
  complete := by
    intro token rest value hspells hends
    have hrun : firstRun (token ++ rest) = token :=
      takeWhile_append_of_stop (fun c hc => by simp [hvisible _ _ hspells c hc])
        (stops_not_isBlank_iff.2 hends)
    simp only [hrun, (hread _ _).2 hspells, Option.map_some]

/-- The same for a recogniser that answers the run itself if it passes a test. -/
theorem recognises_test (test : List Char → Bool) {Spells : List Char → String → Prop}
    (htest : ∀ token value,
      Spells token value ↔ test token = true ∧ value = String.ofList token)
    (hvisible : ∀ token value, Spells token value → ∀ c ∈ token, isBlank c = false) :
    Recognises
      (fun cs =>
        if test (firstRun cs) then some ⟨String.ofList (firstRun cs), firstRun cs⟩ else none)
      Spells (fun rest => atBoundary rest) := by
  have hread (token : List Char) (value : String) :
      (if test token then some (String.ofList token) else none) = some value ↔
        Spells token value := by
    rw [htest, Option.ite_none_right_eq_some, Option.some.injEq, eq_comm (a := value)]
  have heq : (fun cs => if test (firstRun cs) then
        some ⟨String.ofList (firstRun cs), firstRun cs⟩ else none) = fun cs =>
      (if test (firstRun cs) then some (String.ofList (firstRun cs)) else none).map
        fun value => (⟨value, firstRun cs⟩ : Lexeme String) := by
    funext cs
    rw [apply_ite (Option.map _), Option.map_some, Option.map_none]
  rw [heq]
  exact recognises_run hread hvisible

/-- A bare string holds no blank. -/
theorem IsBareString.isBlank_eq_false {token : List Char} (h : IsBareString token) :
    ∀ c ∈ token, isBlank c = false :=
  fun c hc => (isBare_iff.1 (h.2.2 c hc)).1

/-! ### Numbers -/

/-- A natural number is read off one or more digits. -/
theorem natural?_eq_some_iff {ds : List Char} {n : Nat} :
    natural? ds = some n ↔ IsDigits ds ∧ n = digitsValue ds := by
  simp only [natural?, IsDigits, Option.ite_none_right_eq_some, Bool.and_eq_true,
    Bool.not_eq_true', List.isEmpty_eq_false_iff, List.all_eq_true, Option.some.injEq]
  rw [eq_comm (a := n)]

/-- An integer is read off its spellings, and off nothing else. -/
theorem integer?_eq_some_iff {token : List Char} {n : Int} :
    integer? token = some n ↔ SpellsInteger token n := by
  constructor
  · intro h
    unfold integer? at h
    split at h
    all_goals
      obtain ⟨m, hm, rfl⟩ := Option.map_eq_some_iff.1 h
      obtain ⟨hds, rfl⟩ := natural?_eq_some_iff.1 hm
    · exact .negative hds
    · exact .positive hds
    · exact .unsigned hds
  · intro h
    cases h with
    | unsigned hds =>
      unfold integer?
      split
      -- A sign is no digit, so that digits alone are not taken for a signed number.
      · exact absurd (hds.2 '-' List.mem_cons_self) (by decide)
      · exact absurd (hds.2 '+' List.mem_cons_self) (by decide)
      · rw [natural?_eq_some_iff.2 ⟨hds, rfl⟩, Option.map_some, Int.ofNat_eq_natCast]
    | positive hds => simp [integer?, natural?_eq_some_iff.2 ⟨hds, rfl⟩]
    | negative hds => simp [integer?, natural?_eq_some_iff.2 ⟨hds, rfl⟩]

/-- A text spells one integer at most. -/
theorem SpellsInteger.unique {token : List Char} {n m : Int} (hn : SpellsInteger token n)
    (hm : SpellsInteger token m) : n = m :=
  Option.some.inj ((integer?_eq_some_iff.2 hn).symm.trans (integer?_eq_some_iff.2 hm))

/-- The number recogniser answers integers, brought into the range of 64 bits. -/
theorem recognises_number :
    Recognises number? SpellsNumber (fun rest => atBoundary rest) := by
  have hread (token : List Char) (n : Int) :
      (integer? token).map clampInt64 = some n ↔ SpellsNumber token n := by
    simp only [Option.map_eq_some_iff, integer?_eq_some_iff, SpellsNumber, eq_comm (a := n)]
  have heq : number? = fun cs =>
      ((integer? (firstRun cs)).map clampInt64).map fun n => ⟨n, firstRun cs⟩ := by
    funext cs
    simp only [number?, Option.map_map, Function.comp_def]
  rw [heq]
  refine recognises_run hread ?_
  rintro token n ⟨m, hm, -⟩
  exact hm.isBareString.isBlank_eq_false

/-! ### Words and truth values -/

/-- The word recogniser answers words. -/
theorem recognises_word : Recognises word? SpellsWord (fun rest => atBoundary rest) := by
  refine recognises_test (fun run => !run.isEmpty && run.all isLetter) ?_
    fun _ _ h => h.isBareString.isBlank_eq_false
  intro token word
  simp only [SpellsWord, Bool.and_eq_true, Bool.not_eq_true', List.isEmpty_eq_false_iff,
    List.all_eq_true, and_assoc]

/-- A truth value is read off its spellings without quotes. -/
theorem truthValue?_eq_some_iff {token : List Char} {b : Bool} :
    truthValue? token = some b ↔ SpellsTruth token b := by
  unfold truthValue? SpellsTruth
  generalize token.map Char.toLower = lower
  have hlist (text : String) : String.ofList lower = text ↔ lower = text.toList := by
    constructor
    · rintro rfl
      exact String.toList_ofList.symm
    · rintro rfl
      exact String.ofList_toList
  simp only [beq_iff_eq, hlist]
  -- The two words are tried one after the other.
  by_cases htrue : lower = "true".toList
  · cases b <;> simp [htrue]
  · by_cases hfalse : lower = "false".toList
    · cases b <;> simp [hfalse]
    · rw [if_neg htrue, if_neg hfalse]
      cases b
      · exact iff_of_false nofun hfalse
      · exact iff_of_false nofun htrue

/-- A text in quotes loses them. -/
theorem unquote_quoted (inner : List Char) : unquote ('"' :: inner ++ ['"']) = inner := by
  simp [unquote]

/-- A text that is not in quotes stays as it is. -/
theorem unquote_eq_self {cs : List Char} (h : ∀ inner, cs ≠ '"' :: inner ++ ['"']) :
    unquote cs = cs := by
  unfold unquote
  split
  · rename_i inner
    split_ifs with hlast
    · obtain ⟨front, rfl⟩ := List.getLast?_eq_some_iff.1 (beq_iff_eq.1 hlast)
      exact absurd rfl (h front)
    · rfl
  · rfl

/-- The boolean recogniser answers truth values. -/
theorem recognises_boolean : Recognises boolean? SpellsBoolean (fun rest => atBoundary rest) := by
  have hread (token : List Char) (b : Bool) :
      truthValue? (unquote token) = some b ↔ SpellsBoolean token b := by
    rw [truthValue?_eq_some_iff]
    -- A token in quotes spells what is between them, any other what it is itself.
    by_cases hquoted : ∃ inner, token = '"' :: inner ++ ['"']
    · obtain ⟨inner, rfl⟩ := hquoted
      rw [unquote_quoted]
      refine ⟨.quoted, fun h => ?_⟩
      generalize htoken : '"' :: inner ++ ['"'] = token at h
      cases h with
      | bare htruth =>
        -- A quote is no letter.
        have hbare := htruth.spellsWord.isBareString.2.2 '"' (htoken ▸ List.mem_cons_self)
        exact absurd hbare (by decide)
      | quoted htruth =>
        have hinner := List.append_cancel_right (List.cons.inj htoken).2
        exact hinner ▸ htruth
    · rw [unquote_eq_self (fun inner h => hquoted ⟨inner, h⟩)]
      refine ⟨.bare, fun h => ?_⟩
      cases h with
      | bare htruth => exact htruth
      | quoted _ => exact absurd ⟨_, rfl⟩ hquoted
  refine recognises_run hread ?_
  rintro token b (htruth | htruth)
  · exact htruth.spellsWord.isBareString.isBlank_eq_false
  · intro c hc
    rw [List.cons_append, List.mem_cons, List.mem_append, List.mem_singleton] at hc
    rcases hc with rfl | hc | rfl
    · decide
    · exact htruth.spellsWord.isBareString.isBlank_eq_false c hc
    · decide

/-! ### Strings -/

/-- What stands in front of the first quote is the run of characters that are no quotes. -/
theorem takeWhile_of_quote {inner rest : List Char} (h : '"' ∉ inner) :
    ((inner ++ '"' :: rest).takeWhile fun c => c != '"') = inner := by
  refine takeWhile_append_of_stop (fun c hc => ?_) (stops_cons.2 (by decide))
  rw [bne_iff_ne]
  rintro rfl
  exact h hc

/-- A quoted string is answered whole. -/
theorem quotedString?_of_quote {inner rest : List Char} (h : '"' ∉ inner)
    (hrest : atBoundary rest = true) :
    quotedString? (inner ++ '"' :: rest) =
      some ⟨String.ofList inner, '"' :: inner ++ ['"']⟩ := by
  simp only [quotedString?, takeWhile_of_quote h, List.drop_left, hrest, if_true]

/-- What is answered behind an opening quote is closed by the next quote, which a boundary
follows. -/
theorem quotedString?_eq_some {cs : List Char} {lexeme : Lexeme String}
    (h : quotedString? cs = some lexeme) :
    ∃ inner rest, cs = inner ++ '"' :: rest ∧ '"' ∉ inner ∧ atBoundary rest = true ∧
      lexeme = ⟨String.ofList inner, '"' :: inner ++ ['"']⟩ := by
  -- The text is what stands in front of its first quote, and what is left from there.
  obtain ⟨inner, after, rfl, hinner, hafter⟩ := exists_run (fun c => c != '"') cs
  have hrun : (inner ++ after).takeWhile (fun c => c != '"') = inner :=
    takeWhile_append_of_stop hinner hafter
  unfold quotedString? at h
  simp only [hrun, List.drop_left] at h
  split at h
  · rename_i rest
    split_ifs at h with hrest
    refine ⟨inner, rest, rfl, ?_, hrest, (Option.some.inj h).symm⟩
    intro hquote
    have hne := hinner _ hquote
    revert hne
    decide
  · cases h

/-- The recogniser of bare strings answers bare strings. -/
theorem recognises_bareString :
    Recognises bareString? (fun token value => IsBareString token ∧ value = String.ofList token)
      (fun rest => atBoundary rest) := by
  refine recognises_test (fun run => !run.isEmpty && run.head? != some '#' && run.all isBare) ?_
    fun _ _ h => h.1.isBlank_eq_false
  intro token value
  simp only [IsBareString, Bool.and_eq_true, Bool.not_eq_true', List.isEmpty_eq_false_iff,
    bne_iff_ne, List.all_eq_true, and_assoc]

/-- A text that does not start with a quote is read as a bare string. -/
theorem string?_eq_bareString? {cs : List Char} (h : cs.head? ≠ some '"') :
    string? cs = bareString? cs := by
  unfold string?
  split
  · exact absurd rfl h
  · rfl

/-- The string recogniser answers strings, quoted and bare. -/
theorem recognises_string : Recognises string? SpellsString (fun rest => atBoundary rest) where
  sound := by
    intro cs lexeme h
    unfold string? at h
    split at h
    · obtain ⟨inner, rest, rfl, hinner, hrest, rfl⟩ := quotedString?_eq_some h
      exact ⟨.quoted hinner, rest, by simp, hrest⟩
    · obtain ⟨⟨hbare, hvalue⟩, hsplit⟩ := recognises_bareString.sound h
      exact ⟨hvalue ▸ .bare hbare, hsplit⟩
  complete := by
    intro token rest value hspells hrest
    cases hspells with
    | @quoted inner hinner =>
      have htext : '"' :: inner ++ ['"'] ++ rest = '"' :: (inner ++ '"' :: rest) := by simp
      rw [htext]
      exact quotedString?_of_quote hinner hrest
    | bare hbare =>
      rw [string?_eq_bareString?]
      · exact recognises_bareString.complete ⟨hbare, rfl⟩ hrest
      · -- A quote may not stand in a bare string.
        obtain ⟨c, cs, rfl⟩ := List.exists_cons_of_ne_nil hbare.1
        have hquote := (isBare_iff.1 (hbare.2.2 c List.mem_cons_self)).2.1
        simpa using hquote

/-! ### Operators -/

/-- In a table where every entry is found by its own name, a text finds the entry that it names. -/
theorem find?_name_eq_some_iff {α : Type} {table : List α} {name : α → String}
    (hself : ∀ x, table.find? (fun y => name y == name x) = some x) {text : String} {x : α} :
    table.find? (fun y => name y == text) = some x ↔ text = name x := by
  constructor
  · intro h
    have hfound := List.find?_some h
    exact (beq_iff_eq.1 hfound).symm
  · rintro rfl
    exact hself x

/-- An operator is found by its symbol. -/
theorem ofSymbol?_eq_some_iff {text : String} {op : Operator} :
    Operator.ofSymbol? text = some op ↔ text = op.symbol :=
  find?_name_eq_some_iff fun op => by cases op <;> decide

/-- The symbol of an operator is made of comparison signs. -/
theorem isComparison_of_mem_symbol (op : Operator) :
    ∀ c ∈ op.symbol.toList, isComparison c = true := by
  rw [← List.all_eq_true]
  cases op <;> decide

/-- The symbol of an operator is visible. -/
theorem isVisible_symbol (op : Operator) : IsVisible op.symbol.toList := by
  cases op <;> exact ⟨_, _, rfl, by decide⟩

/-- The operator recogniser answers the symbols that no further comparison sign follows. -/
theorem recognises_operator : Recognises operator? SpellsOperator (Stops isComparison) where
  sound := by
    intro cs lexeme h
    obtain ⟨op, hop, rfl⟩ := Option.map_eq_some_iff.1 h
    refine ⟨?_, cs.dropWhile isComparison, List.takeWhile_append_dropWhile.symm,
      stops_dropWhile _ _⟩
    have hsymbol := ofSymbol?_eq_some_iff.1 hop
    show cs.takeWhile isComparison = op.symbol.toList
    rw [← hsymbol, String.toList_ofList]
  complete := by
    rintro token rest op rfl hrest
    have hrun := takeWhile_append_of_stop (isComparison_of_mem_symbol op) hrest
    simp only [operator?, hrun, String.ofList_toList, ofSymbol?_eq_some_iff.2 rfl, Option.map_some]

end ItemFilter.Lexeme
