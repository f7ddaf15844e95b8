import ItemFilter.Proofs.Names
import Mathlib.Data.Nat.Digits.Defs

/-!
# Numbers within bounds

A numeral may have any number of digits, but a number token has 64 bits, and what is stored of it
has 8 or 16. A numeral denotes the integer that its digits have in the decimal system
(`digitsValue_eq`); the token is the nearest integer of 64 bits. Bounds lie well inside that range,
so that they tell the same of the token as of the integer (`Bounds.contains_clampInt64`), and every
number within them can be converted.

The numbers of a rule stand one behind the other, each in a slot with its own bounds
(`RuleName.numbers`). Reading one of them moves the cursor on and reports the number if it is out of
bounds (`Draft.Counts`). All other errors are in front of these numbers or behind them, so that the
errors in the place of a number are about its bounds alone (`filter_errors`), and if there is no
error at all, every number is stored as what it denotes (`Line.parse_numbers`).
-/

namespace ItemFilter

open Text Lexeme

/-! ## What a numeral denotes -/

namespace Lexeme

/-- A text is a numeral: one or more digits, which may have a sign in front. -/
def IsNumeral (token : List Char) : Prop :=
  ∃ sign ds, token = sign ++ ds ∧ (sign = [] ∨ sign = ['+'] ∨ sign = ['-']) ∧ IsDigits ds

/-- The number that digits have in the decimal system. -/
def decimal (ds : List Char) : Nat := Nat.ofDigits 10 (ds.reverse.map fun d => d.toNat - '0'.toNat)

/-- The integer that a numeral denotes. -/
def denoted : List Char → Int
  | '-' :: ds => -(decimal ds : Int)
  | '+' :: ds => decimal ds
  | ds => decimal ds

/-- Reading digits from the left gives their number in the decimal system. -/
theorem digitsValue_eq (ds : List Char) : digitsValue ds = decimal ds := by
  have hstep : (fun (d : Char) (n : Nat) => 10 * n + (d.toNat - '0'.toNat)) =
      fun d n => (d.toNat - '0'.toNat) + 10 * n := by
    funext d n
    rw [Nat.add_comm]
  unfold digitsValue decimal
  -- Over the reversed digits, of which the last comes first, the fold is one from the right.
  rw [Nat.ofDigits_eq_foldr, List.foldr_map, List.foldl_eq_foldr_reverse, hstep]
  rfl

/-- Digits denote their number. -/
theorem denoted_of_isDigits {ds : List Char} (h : IsDigits ds) : denoted ds = decimal ds := by
  unfold denoted
  split
  -- A sign is no digit.
  · exact absurd (h.2 '-' List.mem_cons_self) (by decide)
  · exact absurd (h.2 '+' List.mem_cons_self) (by decide)
  · rfl

/-- The spellings of an integer are the numerals that denote it. -/
theorem spellsInteger_iff {token : List Char} {n : Int} :
    SpellsInteger token n ↔ IsNumeral token ∧ n = denoted token := by
  constructor
  · intro h
    cases h with
    | unsigned hds =>
      refine ⟨⟨[], token, rfl, .inl rfl, hds⟩, ?_⟩
      rw [denoted_of_isDigits hds, digitsValue_eq]
    | @positive ds hds =>
      exact ⟨⟨['+'], ds, rfl, .inr (.inl rfl), hds⟩, by rw [digitsValue_eq]; rfl⟩
    | @negative ds hds =>
      exact ⟨⟨['-'], ds, rfl, .inr (.inr rfl), hds⟩, by rw [digitsValue_eq]; rfl⟩
  · rintro ⟨⟨sign, ds, rfl, rfl | rfl | rfl, hds⟩, rfl⟩
    · rw [List.nil_append, denoted_of_isDigits hds, ← digitsValue_eq]
      exact .unsigned hds
    · show SpellsInteger ('+' :: ds) (decimal ds)
      rw [← digitsValue_eq]
      exact .positive hds
    · show SpellsInteger ('-' :: ds) (-(decimal ds : Int))
      rw [← digitsValue_eq]
      exact .negative hds

/-- A number token is a numeral, and its value the nearest integer of 64 bits to the one that is
denoted. -/
theorem spellsNumber_iff {token : List Char} {n : Int} :
    SpellsNumber token n ↔ IsNumeral token ∧ n = clampInt64 (denoted token) := by
  unfold SpellsNumber
  simp only [spellsInteger_iff]
  constructor
  · rintro ⟨_, ⟨hnumeral, rfl⟩, rfl⟩
    exact ⟨hnumeral, rfl⟩
  · rintro ⟨hnumeral, rfl⟩
    exact ⟨_, ⟨hnumeral, rfl⟩, rfl⟩

/-- A numeral in front of a blank or the end is answered with the nearest integer of 64 bits. -/
theorem number?_of_isNumeral {token rest : List Char} (h : IsNumeral token)
    (hrest : atBoundary rest = true) :
    number? (token ++ rest) = some ⟨max (-2 ^ 63) (min (denoted token) (2 ^ 63 - 1)), token⟩ :=
  recognises_number.complete (spellsNumber_iff.2 ⟨h, rfl⟩) hrest

end Lexeme

/-! ## The numbers of a rule -/

/-- The bounds of the numbers that a rule takes, in order. The last number of a colour and that of
an alert sound may be missing. -/
def RuleName.slots : RuleName → List Bounds
  | .condition .itemLevel | .condition .dropLevel => [.between 0 200]
  | .condition .quality => [.between 0 100]
  | .condition .sockets => [.between 0 6]
  | .condition .linkedSockets => [.oneOf [0, 2, 3, 4, 5, 6]]
  | .condition .height => [.between 1 4]
  | .condition .width => [.between 1 2]
  | .action .setFontSize => [.between 18 45]
  | .action .setBorderColor | .action .setTextColor | .action .setBackgroundColor =>
    [.between 0 255, .between 0 255, .between 0 255, .between 0 255]
  | .action .playAlertSound | .action .playAlertSoundPositional =>
    [.between 1 16, .between 0 300]
  | _ => []

/-- Numbers that stand one behind the other in front of the cursor, each with the bounds of its
slot, up to the first slot that no number fills. -/
def Cursor.numbers (c : Cursor) : List Bounds → List (Token Int × Bounds)
  | [] => []
  | bounds :: slots =>
    match c.next number? with
    | none => []
    | some (number, c') => (number, bounds) :: c'.numbers slots

/-- The numbers of an alert sound: its own and that of its volume. A name may take the place of the
first. -/
def Cursor.soundNumbers (c : Cursor) : List (Token Int × Bounds) :=
  match c.next number?, c.next string? with
  | none, some (_, c') => c'.numbers [.between 0 300]
  | _, _ => c.numbers [.between 1 16, .between 0 300]

/-- The numbers of a rule, each with its bounds, where the cursor stands behind the operator. -/
def RuleName.numbers (name : RuleName) (c : Cursor) : List (Token Int × Bounds) :=
  match name with
  | .action .playAlertSound | .action .playAlertSoundPositional => c.soundNumbers
  | _ => c.numbers name.slots

/-- The number of a sound, if it has no name. -/
def SoundId.number? : SoundId → Option Int
  | numbered number => some number.toNat
  | named _ => none

/-- The numbers of an argument. -/
def Argument.numbers : Argument → List Int
  | .number token | .fontSize token => (token.map Token.value).toList
  | .color (some k) =>
    [(k.red.value.toNat : Int), k.green.value.toNat, k.blue.value.toNat] ++
      (k.alpha.map fun t => (t.value.toNat : Int)).toList
  | .sound (some s) =>
    s.id.value.number?.toList ++ (s.volume.map fun t => (t.value.toNat : Int)).toList
  | _ => []

/-- The numbers that a line stores. -/
def Line.numbers (line : Line) : List Int :=
  (line.rule?.map fun rule => rule.argument.numbers).getD []

/-- Whether the ends of an interval, or the members of a list, lie between 0 and 300. -/
def Bounds.areSmall : Bounds → Bool
  | between least greatest => 0 ≤ least && greatest ≤ 300
  | oneOf values => values.all fun value => 0 ≤ value && value ≤ 300

/-- Small bounds accept small integers only. -/
theorem Bounds.le_of_areSmall {bounds : Bounds} (h : bounds.areSmall = true) {n : Int}
    (hn : bounds.contains n = true) : 0 ≤ n ∧ n ≤ 300 := by
  cases bounds with
  | between least greatest =>
    simp only [areSmall, contains, Bool.and_eq_true, decide_eq_true_eq] at h hn
    omega
  | oneOf values =>
    have hsmall := List.all_eq_true.1 h n (List.elem_iff.1 hn)
    simpa using hsmall

/-- The bounds of all rules are small. -/
theorem RuleName.areSmall_of_mem_slots {name : RuleName} {bounds : Bounds}
    (h : bounds ∈ name.slots) : bounds.areSmall = true := by
  have hall : name.slots.all Bounds.areSmall = true := by
    cases name with
    | condition c => cases c <;> rfl
    | action a => cases a <;> rfl
  exact List.all_eq_true.1 hall bounds h

/-! ### Where numbers stand -/

/-- The text of every number spells its value, and its bounds are those of a slot. -/
theorem Cursor.mem_numbers {c : Cursor} {slots : List Bounds} {x : Token Int × Bounds}
    (h : x ∈ c.numbers slots) : SpellsNumber (x.1.range.cut c.text) x.1.value ∧ x.2 ∈ slots := by
  induction slots generalizing c with
  | nil => cases h
  | cons bounds slots ih =>
    unfold numbers at h
    split at h
    · cases h
    · rename_i number c' hnext
      obtain ⟨hmoves, hspells⟩ := next_reaches recognises_number
        (fun hspells => (Draft.reads_number.isString hspells).isVisible) hnext
      rcases List.mem_cons.1 h with rfl | h
      · exact ⟨hspells, List.mem_cons_self⟩
      · -- The numbers behind the first one stand in the same text.
        obtain ⟨hrest, hslot⟩ := ih h
        rw [hmoves.text_eq] at hrest
        exact ⟨hrest, List.mem_cons_of_mem _ hslot⟩

/-- The same for the numbers of an alert sound. -/
theorem Cursor.mem_soundNumbers {c : Cursor} {x : Token Int × Bounds} (h : x ∈ c.soundNumbers) :
    SpellsNumber (x.1.range.cut c.text) x.1.value ∧
      x.2 ∈ [Bounds.between 1 16, Bounds.between 0 300] := by
  unfold soundNumbers at h
  split at h
  · -- Behind the name of a sound, the cursor is still on the same text.
    rename_i hname
    obtain ⟨hmoves, -⟩ := next_reaches recognises_string
      (fun hspells => IsString.isVisible ⟨_, hspells⟩) hname
    obtain ⟨hspells, hslot⟩ := mem_numbers h
    rw [hmoves.text_eq] at hspells
    exact ⟨hspells, List.mem_cons_of_mem _ hslot⟩
  · exact mem_numbers h

/-- The same for the numbers of a rule. -/
theorem RuleName.mem_numbers {name : RuleName} {c : Cursor} {x : Token Int × Bounds}
    (h : x ∈ name.numbers c) :
    SpellsNumber (x.1.range.cut c.text) x.1.value ∧ x.2 ∈ name.slots := by
  unfold numbers at h
  split at h
  · exact Cursor.mem_soundNumbers h
  · exact Cursor.mem_soundNumbers h
  · exact Cursor.mem_numbers h

/-! ## Reading numbers -/

namespace Draft

variable {α : Type} {d d' d'' : Draft} {numbers numbers' : List (Token Int × Bounds)}

/-- The reports of numbers that are out of bounds, each on its own range. -/
def boundsErrors (keyword : String) (file : Option String)
    (numbers : List (Token Int × Bounds)) : List Diagnostic :=
  (numbers.filter fun x => !x.2.contains x.1.value).map fun x =>
    (Problem.outOfBounds keyword x.2).diagnostic file x.1.range

/-- A draft moves on over numbers, and those out of bounds are reported. -/
structure Counts (d : Draft) (numbers : List (Token Int × Bounds)) (d' : Draft) : Prop where
  keyword_eq : d'.keyword = d.keyword
  file_eq : d'.file = d.file
  /-- The cursor moves over the numbers. -/
  reaches : d.cursor.Reaches (numbers.map fun x => x.1.range) d'.cursor
  /-- These are the first numbers in front of the cursor, and the next ones come behind them. -/
  found : ∀ slots,
    d.cursor.numbers (numbers.map Prod.snd ++ slots) = numbers ++ d'.cursor.numbers slots
  errors_eq : d'.messages.errors = d.messages.errors ++ boundsErrors d.keyword d.file numbers

namespace Counts

/-- A draft moves over no numbers by staying where it is. -/
theorem refl (d : Draft) : d.Counts [] d :=
  ⟨rfl, rfl, .refl d.cursor, fun _ => rfl, (List.append_nil _).symm⟩

/-- Moving on over further numbers. -/
theorem trans (h : d.Counts numbers d') (h' : d'.Counts numbers' d'') :
    d.Counts (numbers ++ numbers') d'' where
  keyword_eq := h'.keyword_eq.trans h.keyword_eq
  file_eq := h'.file_eq.trans h.file_eq
  reaches := by
    rw [List.map_append]
    exact h.reaches.trans h'.reaches
  found slots := by
    rw [List.map_append, List.append_assoc, h.found, h'.found, List.append_assoc]
  errors_eq := by
    rw [h'.errors_eq, h.errors_eq, h.keyword_eq, h.file_eq, List.append_assoc]
    simp only [boundsErrors, List.filter_append, List.map_append]

/-- Without an error behind the numbers there was none before. -/
theorem clean (h : d.Counts numbers d') (hclean : d'.Clean) : d.Clean := by
  rw [Clean, h.errors_eq] at hclean
  exact (List.append_eq_nil_iff.1 hclean).1

/-- The numbers in front of the cursor are those that were moved over, if no number follows in the
next slot. -/
theorem numbers_eq (h : d.Counts numbers d') {slots : List Bounds}
    (hend : d'.cursor.numbers slots = []) :
    d.cursor.numbers (numbers.map Prod.snd ++ slots) = numbers := by
  rw [h.found, hend, List.append_nil]

end Counts

/-- Every number within bounds can be converted, and what it is converted to stands for it. -/
def Exact (bounds : Bounds) (convert? : Int → Option α) (Is : α → Int → Prop) : Prop :=
  ∀ n, bounds.contains n = true → ∃ value, convert? n = some value ∧ Is value n

/-- Colour channels are bytes. -/
theorem exact_channel : Exact Bounds.channel toByte? fun byte n => (byte.toNat : Int) = n := by
  intro n hn
  obtain ⟨byte, hbyte⟩ := converts_channel.total n hn
  exact ⟨byte, hbyte, toNat_of_toByte? hbyte⟩

/-- Numbers of sounds are bytes. -/
theorem exact_soundNumber :
    Exact Bounds.soundNumber toByte? fun byte n => (byte.toNat : Int) = n := by
  intro n hn
  obtain ⟨id, hid⟩ := converts_soundNumber.total n hn
  obtain ⟨byte, hbyte, -⟩ := Option.map_eq_some_iff.1 hid
  exact ⟨byte, hbyte, toNat_of_toByte? hbyte⟩

/-- Volumes are 16-bit words. -/
theorem exact_volume : Exact Bounds.volume toWord16? fun word n => (word.toNat : Int) = n := by
  intro n hn
  obtain ⟨word, hword⟩ := converts_volume.total n hn
  exact ⟨word, hword, toNat_of_toWord16? hword⟩

section Steps

variable {t : Token Int} {c : Cursor} {bounds : Bounds}

/-- Checking the bounds of the number that is read next. -/
theorem counts_checkBounds (h : d.cursor.next number? = some (t, c)) (bounds : Bounds) :
    d.Counts [(t, bounds)] (({ d with cursor := c } : Draft).checkBounds t bounds) := by
  obtain ⟨hmoves, -⟩ := Cursor.next_reaches recognises_number
    (fun hspells => (reads_number.isString hspells).isVisible) h
  have hfound (slots : List Bounds) :
      d.cursor.numbers (bounds :: slots) = (t, bounds) :: c.numbers slots := by
    rw [Cursor.numbers, h]
  unfold checkBounds
  by_cases hcontains : bounds.contains t.value = true
  · rw [if_pos hcontains]
    refine ⟨rfl, rfl, hmoves, hfound, ?_⟩
    simp [boundsErrors, hcontains]
  · rw [if_neg hcontains]
    refine ⟨rfl, rfl, hmoves, hfound, ?_⟩
    show (d.messages.report d.file (.outOfBounds d.keyword bounds) t.range).errors = _
    rw [Messages.report_error rfl]
    simp [boundsErrors, hcontains]

/-- Converting the number that is read next. Without an error it is kept. -/
theorem counts_bounded (h : d.cursor.next number? = some (t, c)) {convert? : Int → Option α}
    {Is : α → Int → Prop} (hexact : Exact bounds convert? Is) :
    ∃ value e, ({ d with cursor := c } : Draft).bounded t bounds convert? = (value, e) ∧
      d.Counts [(t, bounds)] e ∧
      (e.Clean → ∃ v, value = some ⟨v, t.range⟩ ∧ Is v t.value) := by
  have hcounts := counts_checkBounds h bounds
  unfold bounded
  by_cases hcontains : bounds.contains t.value = true
  · obtain ⟨v, hv, his⟩ := hexact _ hcontains
    rw [checkBounds, if_pos hcontains] at hcounts
    rw [if_pos hcontains, hv]
    exact ⟨some ⟨v, t.range⟩, _, rfl, hcounts, fun _ => ⟨v, rfl, his⟩⟩
  · -- A number that is not kept is reported.
    rw [if_neg hcontains]
    refine ⟨none, _, rfl, hcounts, fun hclean => ?_⟩
    exact absurd (clean_checkBounds_iff.1 hclean).2 hcontains

end Steps

/-- A required colour channel is counted, or missing and reported. -/
theorem channel_counts (d : Draft) :
    (∃ t value e, d.channel = (some value, e) ∧ d.Counts [(t, Bounds.channel)] e ∧
      (e.Clean → ∃ v : UInt8, value = some ⟨v, t.range⟩ ∧ (v.toNat : Int) = t.value)) ∨
    (d.cursor.next number? = none ∧ d.channel = (none, d.missing (.expected .number))) := by
  unfold channel require take
  cases hnext : d.cursor.next number? with
  | none => exact .inr ⟨rfl, rfl⟩
  | some found =>
    obtain ⟨t, c⟩ := found
    obtain ⟨value, e, hbounded, hcounts, hkept⟩ := counts_bounded hnext exact_channel
    dsimp only
    rw [hbounded]
    exact .inl ⟨t, value, e, rfl, hcounts, hkept⟩

/-- An optional number is counted if it is there. -/
theorem optional_counts (d : Draft) {bounds : Bounds} {convert? : Int → Option α}
    {toInt : α → Int} (hexact : Exact bounds convert? fun v n => toInt v = n) :
    ∃ numbers value e, d.optional bounds convert? = (value, e) ∧ d.Counts numbers e ∧
      d.cursor.numbers [bounds] = numbers ∧
      (e.Clean → ∃ a : Option (Token α), value = a.map some ∧
        (a.map fun v => toInt v.value).toList = numbers.map fun x => x.1.value) := by
  unfold optional take
  cases hnext : d.cursor.next number? with
  | none =>
    refine ⟨[], none, d, rfl, .refl d, ?_, fun _ => ⟨none, rfl, rfl⟩⟩
    rw [Cursor.numbers, hnext]
  | some found =>
    obtain ⟨t, c⟩ := found
    obtain ⟨value, e, hbounded, hcounts, hkept⟩ := counts_bounded hnext hexact
    dsimp only
    rw [hbounded]
    refine ⟨[(t, bounds)], some value, e, rfl, hcounts, hcounts.numbers_eq rfl, fun hclean => ?_⟩
    obtain ⟨v, rfl, hv⟩ := hkept hclean
    exact ⟨some ⟨v, t.range⟩, rfl, by simp [hv]⟩

end Draft

/-! ## Outcomes -/

/-- The outcome of a rule with these numbers. -/
structure Outcome.Checks (keyword : String) (file : Option String)
    (numbers : List (Token Int × Bounds)) (o : Outcome Argument) : Prop where
  /-- Between a place in front of the numbers and one behind them, the errors are the reports of
  those that are out of bounds. -/
  reported : ∃ (first last : Cursor) (earlier final : List Diagnostic),
    first.Reaches (numbers.map fun x => x.1.range) last ∧
    (∀ e ∈ earlier, e.range.stop.column ≤ first.column) ∧
    (∀ e ∈ final, last.column ≤ e.range.start.column) ∧
    o.messages.errors = earlier ++ Draft.boundsErrors keyword file numbers ++ final
  /-- Without an error, the numbers are stored. -/
  stored : o.Clean → o.value.numbers = numbers.map fun x => x.1.value

namespace Draft

variable {d d' : Draft} {numbers : List (Token Int × Bounds)}

/-- Where there is no number, none is reported or stored. -/
theorem checks_nil {o : Outcome Argument} (h : o.value.numbers = []) (keyword : String)
    (file : Option String) : o.Checks keyword file [] where
  reported := ⟨⟨0, [], 0⟩, ⟨0, [], 0⟩, [], o.messages.errors, .refl _, nofun,
    fun _ _ => Nat.zero_le _, rfl⟩
  stored _ := h

namespace Counts

/-- A rule that ends behind its numbers. -/
theorem finish (h : d.Counts numbers d') (hordered : d.Ordered) {argument : Argument}
    (hstored : d'.Clean → argument.numbers = numbers.map fun x => x.1.value) :
    (d'.finish argument).Checks d.keyword d.file numbers where
  reported := by
    have hbehind (e : Diagnostic) (he : e ∈ d.messages.errors) :
        e.range.stop.column ≤ d.cursor.column := (hordered.behind e he).1.stop_le
    rw [messages_finish]
    split_ifs
    · exact ⟨d.cursor, d'.cursor, d.messages.errors, [], h.reaches, hbehind, nofun,
        by rw [h.errors_eq, List.append_nil]⟩
    · -- What follows the numbers is the last error.
      rw [Messages.report_error rfl]
      exact ⟨d.cursor, d'.cursor, d.messages.errors, _, h.reaches, hbehind,
        List.forall_mem_singleton.2 d'.cursor.column_le_nextColumn, by rw [h.errors_eq]⟩
  stored hclean := by
    rw [value_finish]
    exact hstored (clean_finish_iff.1 hclean).1

/-- A rule that ends behind its numbers where a further argument is missing. -/
theorem missing (h : d.Counts numbers d') (hordered : d.Ordered) (problem : Problem)
    (herror : problem.severity = .error) (argument : Argument) :
    ((d'.missing problem).abort argument).Checks d.keyword d.file numbers where
  reported := by
    refine ⟨d.cursor, d'.cursor, d.messages.errors,
      [problem.diagnostic d'.file d'.cursor.restOfLine], h.reaches, ?_, ?_, ?_⟩
    · exact fun e he => (hordered.behind e he).1.stop_le
    · exact List.forall_mem_singleton.2 d'.cursor.column_le_nextColumn
    · show (d'.messages.report d'.file problem d'.cursor.restOfLine).errors = _
      rw [Messages.report_error herror, ← h.errors_eq]
  stored hclean := absurd hclean (not_clean_report herror)

end Counts

/-- A rule with one number. -/
theorem checks_number (hordered : d.Ordered) (bounds : Bounds)
    {o : Outcome (Option (Token Int))}
    (hnone : ∀ e, d.require .number number? = (none, e) → o = e.abort none)
    (hsome : ∀ t e, d.require .number number? = (some t, e) →
      o = (e.checkBounds t bounds).finish (some t))
    (k : Option (Token Int) → Argument) (hk : ∀ t, (k (some t)).numbers = [t.value]) :
    (o.map k).Checks d.keyword d.file (d.cursor.numbers [bounds]) := by
  unfold require take at hnone hsome
  cases hnext : d.cursor.next number? with
  | none =>
    rw [hnext] at hnone
    rw [hnone _ rfl, Cursor.numbers, hnext]
    exact (Counts.refl d).missing hordered (.expected .number) rfl (k none)
  | some found =>
    obtain ⟨t, c⟩ := found
    have hcounts := counts_checkBounds hnext bounds
    have hnumbers : d.cursor.numbers [bounds] = [(t, bounds)] := hcounts.numbers_eq rfl
    rw [hnext] at hsome
    rw [hsome t _ rfl, map_finish, hnumbers]
    exact hcounts.finish hordered fun _ => hk t

/-- A number behind any operator. -/
theorem checks_numeric (hordered : d.anyOperator.Ordered) (bounds : Bounds) :
    ((d.numeric bounds).map .number).Checks d.anyOperator.keyword d.anyOperator.file
      (d.anyOperator.cursor.numbers [bounds]) := by
  refine checks_number hordered bounds ?_ ?_ .number fun _ => rfl
  · intro e hrequire
    unfold numeric
    rw [hrequire]
  · intro t e hrequire
    unfold numeric
    rw [hrequire]

/-- A font size. -/
theorem checks_fontSize (hordered : d.noOperator.Ordered) :
    (d.fontSize.map .fontSize).Checks d.noOperator.keyword d.noOperator.file
      (d.noOperator.cursor.numbers [Bounds.fontSize]) := by
  refine checks_number hordered Bounds.fontSize ?_ ?_ .fontSize fun _ => rfl
  · intro e hrequire
    unfold fontSize
    rw [hrequire]
  · intro t e hrequire
    unfold fontSize
    rw [hrequire]

/-- A colour. -/
theorem checks_color (hordered : d.equalityOperator.Ordered) :
    (d.color.map .color).Checks d.equalityOperator.keyword d.equalityOperator.file
      (d.equalityOperator.cursor.numbers
        [Bounds.channel, Bounds.channel, Bounds.channel, Bounds.channel]) := by
  unfold color
  generalize d.equalityOperator = d₀ at hordered
  -- The channels in front of the first one that is missing are counted.
  have hmissing {numbers : List (Token Int × Bounds)} {e : Draft} (hcounts : d₀.Counts numbers e)
      (hnone : e.cursor.next number? = none) (slots : List Bounds) :
      (((e.missing (.expected .number)).abort none).map Argument.color).Checks d₀.keyword d₀.file
        (d₀.cursor.numbers (numbers.map Prod.snd ++ Bounds.channel :: slots)) := by
    have hend : e.cursor.numbers (Bounds.channel :: slots) = [] := by
      rw [Cursor.numbers, hnone]
    rw [hcounts.numbers_eq hend]
    exact hcounts.missing hordered (.expected .number) rfl (.color none)
  obtain ⟨t₁, red, d₁, hred, hcounts₁, hkept₁⟩ | ⟨hnone, hred⟩ := channel_counts d₀
  rotate_left
  · rw [hred]
    exact hmissing (.refl d₀) hnone _
  rw [hred]
  dsimp only
  obtain ⟨t₂, green, d₂, hgreen, hstep₂, hkept₂⟩ | ⟨hnone, hgreen⟩ := channel_counts d₁
  rotate_left
  · rw [hgreen]
    exact hmissing hcounts₁ hnone _
  rw [hgreen]
  dsimp only
  have hcounts₂ := hcounts₁.trans hstep₂
  obtain ⟨t₃, blue, d₃, hblue, hstep₃, hkept₃⟩ | ⟨hnone, hblue⟩ := channel_counts d₂
  rotate_left
  · rw [hblue]
    exact hmissing hcounts₂ hnone _
  rw [hblue]
  dsimp only
  have hcounts₃ := hcounts₂.trans hstep₃
  obtain ⟨numbers, alpha, d₄, halpha, hstep₄, hnumbers, hkept₄⟩ :=
    optional_counts d₃ exact_channel
  rw [halpha]
  dsimp only
  rw [map_finish]
  have hfound : d₀.cursor.numbers
      [Bounds.channel, Bounds.channel, Bounds.channel, Bounds.channel] = _ :=
    hcounts₃.found [Bounds.channel]
  rw [hfound, hnumbers]
  refine (hcounts₃.trans hstep₄).finish hordered fun hclean => ?_
  -- Without an error every channel is kept.
  obtain ⟨a, rfl, ha⟩ := hkept₄ hclean
  obtain ⟨v₃, rfl, hv₃⟩ := hkept₃ (hstep₄.clean hclean)
  obtain ⟨v₂, rfl, hv₂⟩ := hkept₂ (hstep₃.clean (hstep₄.clean hclean))
  obtain ⟨v₁, rfl, hv₁⟩ := hkept₁ (hstep₂.clean (hstep₃.clean (hstep₄.clean hclean)))
  have hsome : colorOf (some ⟨v₁, t₁.range⟩) (some ⟨v₂, t₂.range⟩) (some ⟨v₃, t₃.range⟩)
      (a.map some) = some ⟨⟨v₁, t₁.range⟩, ⟨v₂, t₂.range⟩, ⟨v₃, t₃.range⟩, a⟩ :=
    colorOf_eq_some_iff.2 ⟨rfl, rfl, rfl, rfl⟩
  rw [hsome]
  simp [Argument.numbers, hv₁, hv₂, hv₃, ha]

/-- The volume behind a sound, which is kept if there is no error so far. -/
theorem checks_volume (hordered : d.Ordered) (h : d.Counts numbers d')
    {id : Option (Token SoundId)}
    (hid : d'.Clean → ∃ i, id = some i ∧
      i.value.number?.toList = numbers.map fun x => x.1.value) :
    (((d'.optional Bounds.volume toWord16?).2.finish
      (alertSoundOf id (d'.optional Bounds.volume toWord16?).1)).map .sound).Checks d.keyword d.file
      (numbers ++ d'.cursor.numbers [Bounds.volume]) := by
  obtain ⟨numbers', volume, e, hvolume, hstep, hnumbers, hkept⟩ := optional_counts d' exact_volume
  rw [hvolume, map_finish, hnumbers]
  refine (h.trans hstep).finish hordered fun hclean => ?_
  obtain ⟨a, rfl, ha⟩ := hkept hclean
  obtain ⟨i, rfl, hi⟩ := hid (hstep.clean hclean)
  have hsome : alertSoundOf (some i) (a.map some) = some ⟨i, a⟩ :=
    alertSoundOf_eq_some_iff.2 ⟨rfl, rfl⟩
  rw [hsome]
  simp [Argument.numbers, hi, ha]

/-- An alert sound. -/
theorem checks_alertSound (hordered : d.equalityOperator.Ordered) (vocabulary : Vocabulary) :
    ((d.alertSound vocabulary).map .sound).Checks d.equalityOperator.keyword
      d.equalityOperator.file d.equalityOperator.cursor.soundNumbers := by
  have hexact : Exact Bounds.soundNumber (fun n => (toByte? n).map SoundId.numbered)
      fun id n => id.number? = some n := by
    intro n hn
    obtain ⟨byte, hbyte, hvalue⟩ := exact_soundNumber n hn
    exact ⟨.numbered byte, Option.map_eq_some_iff.2 ⟨byte, hbyte, rfl⟩, congrArg some hvalue⟩
  unfold alertSound soundId take Cursor.soundNumbers
  generalize d.equalityOperator = d₀ at hordered
  cases hnumber : d₀.cursor.next number? with
  | some found =>
    -- The sound is given by its number, and the volume comes behind it.
    obtain ⟨t, c⟩ := found
    obtain ⟨id, e, hbounded, hcounts, hkept⟩ := counts_bounded hnumber hexact
    have hfound : d₀.cursor.numbers [Bounds.soundNumber, Bounds.volume] = _ :=
      hcounts.found [Bounds.volume]
    dsimp only
    rw [hbounded]
    show Outcome.Checks _ _ (d₀.cursor.numbers [Bounds.soundNumber, Bounds.volume]) _
    rw [hfound]
    refine checks_volume hordered hcounts fun hclean => ?_
    obtain ⟨v, rfl, hv⟩ := hkept hclean
    exact ⟨_, rfl, by simp [hv]⟩
  | none =>
    dsimp only
    cases hname : d₀.cursor.next string? with
    | some found =>
      obtain ⟨t, c⟩ := found
      obtain ⟨hmoves, -⟩ := Cursor.next_reaches recognises_string
        (fun hspells => IsString.isVisible ⟨_, hspells⟩) hname
      dsimp only
      -- The name is behind the cursor when the volume is read, whether it is known or not.
      split_ifs
      · have hmoved := hordered.move hmoves d₀.operator
        exact checks_volume hmoved (.refl _) fun _ => ⟨_, rfl, rfl⟩
      · have herror : (Problem.unknownSound d₀.keyword t.value).severity = .error := rfl
        have hreported := hordered.report hmoves d₀.operator herror
        exact checks_volume hreported (.refl _) fun hclean => absurd hclean (not_clean_report rfl)
    | none =>
      have hnumbers : d₀.cursor.numbers [Bounds.soundNumber, Bounds.volume] = [] := by
        rw [Cursor.numbers, hnumber]
      show Outcome.Checks _ _ (d₀.cursor.numbers [Bounds.soundNumber, Bounds.volume]) _
      rw [hnumbers]
      exact (Counts.refl d₀).missing hordered .expectedSound rfl (.sound none)

/-- Whatever follows the operator of a rule, its numbers are checked. -/
theorem checks_argument {name : RuleName} (hordered : (d.readOperator name).Ordered)
    (vocabulary : Vocabulary) :
    (d.argument vocabulary name).Checks (d.readOperator name).keyword (d.readOperator name).file
      (name.numbers (d.readOperator name).cursor) := by
  cases name with
  | condition condition =>
    cases condition with
    | itemLevel | dropLevel | quality | sockets | linkedSockets | height | width =>
      exact checks_numeric hordered _
    | socketGroup | rarity | itemClass | baseType | identified | corrupted | elderItem | shaperItem
    | shapedMap | elderMap => exact checks_nil rfl _ _
  | action action =>
    cases action with
    | setBorderColor | setTextColor | setBackgroundColor => exact checks_color hordered
    | playAlertSound | playAlertSoundPositional => exact checks_alertSound hordered vocabulary
    | setFontSize => exact checks_fontSize hordered
    | disableDropSound | customAlertSound => exact checks_nil rfl _ _

end Draft

/-- A draft that was just started, behind the operator of its rule. -/
theorem Draft.readOperator_start {c behind : Cursor} {operator : Option (Token Operator)}
    (h : c.Passes operator behind) (keyword : String) (file : Option String) (name : RuleName) :
    ((start c keyword file).readOperator name).cursor = behind ∧
      ((start c keyword file).readOperator name).keyword = keyword ∧
      ((start c keyword file).readOperator name).file = file := by
  cases h with
  | absent hnone =>
    rw [readOperator_of_none (d := start c keyword file) hnone]
    exact ⟨rfl, rfl, rfl⟩
  | present hsome =>
    rw [readOperator_of_some (d := start c keyword file) hsome]
    split
    · exact ⟨rfl, rfl, rfl⟩
    · exact ⟨rfl, rfl, rfl⟩

/-! ## The errors in the place of a number -/

/-- Of numbers in different places, one is in the place of a given one. -/
theorem filter_range_eq {numbers : List (Token Int × Bounds)}
    (hnodup : (numbers.map fun x => x.1.range).Nodup) {x : Token Int × Bounds} (hx : x ∈ numbers) :
    (numbers.filter fun y => y.1.range = x.1.range) = [x] := by
  -- A number is known by its place.
  have hplace (y : Token Int × Bounds) (hy : y ∈ numbers) :
      decide (y.1.range = x.1.range) = decide (y = x) := by
    rw [decide_eq_decide]
    exact ⟨List.inj_on_of_nodup_map hnodup hy hx, fun h => h ▸ rfl⟩
  rw [List.filter_congr hplace, List.filter_eq, List.count_eq_one_of_mem hnodup.of_map hx]
  rfl

/-- If all other errors are in front of the numbers or behind them, the errors in the place of a
number are about its bounds. -/
theorem filter_errors {first last : Cursor} {numbers : List (Token Int × Bounds)}
    {earlier final : List Diagnostic} {keyword : String} {file : Option String}
    (hreaches : first.Reaches (numbers.map fun x => x.1.range) last)
    (hearlier : ∀ e ∈ earlier, e.range.stop.column ≤ first.column)
    (hfinal : ∀ e ∈ final, last.column ≤ e.range.start.column) {x : Token Int × Bounds}
    (hx : x ∈ numbers) :
    ((earlier ++ Draft.boundsErrors keyword file numbers ++ final).filter fun e =>
      e.range = x.1.range) =
      if x.2.contains x.1.value then []
      else [(Problem.outOfBounds keyword x.2).diagnostic file x.1.range] := by
  obtain ⟨-, hstart, hlt, hstop⟩ :=
    hreaches.tiled.mem (List.mem_map_of_mem (f := fun x => x.1.range) hx)
  have hearlier' : (earlier.filter fun e => e.range = x.1.range) = [] := by
    rw [List.filter_eq_nil_iff]
    intro e he heq
    have hbefore := hearlier e he
    rw [of_decide_eq_true heq] at hbefore
    omega
  have hfinal' : (final.filter fun e => e.range = x.1.range) = [] := by
    rw [List.filter_eq_nil_iff]
    intro e he heq
    have hbehind := hfinal e he
    rw [of_decide_eq_true heq] at hbehind
    omega
  -- Of the numbers, only the given one can be reported in its place.
  have hbounds : ((Draft.boundsErrors keyword file numbers).filter fun e => e.range = x.1.range) =
      (([x].filter fun y => !y.2.contains y.1.value).map fun y =>
        (Problem.outOfBounds keyword y.2).diagnostic file y.1.range) := by
    rw [← filter_range_eq hreaches.tiled.nodup hx, Draft.boundsErrors, List.filter_map,
      List.filter_comm]
    rfl
  rw [List.filter_append, List.filter_append, hearlier', hfinal', hbounds, List.nil_append,
    List.append_nil]
  by_cases hcontains : x.2.contains x.1.value = true
  · simp [hcontains]
  · simp [hcontains]

namespace Line

/-- A line of a rule checks these numbers, which stand in its text. -/
structure ChecksNumbers (text : List Char) (file : Option String) (name : RuleName)
    (numbers : List (Token Int × Bounds)) (line : Line) : Prop where
  /-- The text of a number is a numeral. -/
  numeral : ∀ x ∈ numbers, IsNumeral (x.1.range.cut text)
  /-- The bounds of a number are among those of the rule. -/
  slot : ∀ x ∈ numbers, x.2 ∈ name.slots
  /-- A number is reported if the integer that it denotes is out of bounds, and nothing else is
  reported in its place. -/
  reported : ∀ x ∈ numbers, (line.messages.errors.filter fun e => e.range = x.1.range) =
    if x.2.contains (denoted (x.1.range.cut text)) then []
    else [(Problem.outOfBounds name.name x.2).diagnostic file x.1.range]
  /-- Without an error, all numbers are stored as what they denote. -/
  stored : line.invalid = false →
    line.numbers = numbers.map fun x => denoted (x.1.range.cut text)

/-- The numbers that are checked in the text of a row, with what they denote. -/
theorem value_of_mem_numbers {name : RuleName} {c : Cursor} {x : Token Int × Bounds}
    (h : x ∈ name.numbers c) :
    IsNumeral (x.1.range.cut c.text) ∧ x.2 ∈ name.slots ∧
      x.2.contains x.1.value = x.2.contains (denoted (x.1.range.cut c.text)) ∧
      (x.2.contains x.1.value = true → x.1.value = denoted (x.1.range.cut c.text)) := by
  obtain ⟨hspells, hslot⟩ := RuleName.mem_numbers h
  obtain ⟨hnumeral, hvalue⟩ := spellsNumber_iff.1 hspells
  have hsmall := RuleName.areSmall_of_mem_slots hslot
  refine ⟨hnumeral, hslot, ?_, fun hcontains => ?_⟩
  · rw [hvalue]
    refine Bounds.contains_clampInt64 (fun n hn => ?_) _
    obtain ⟨hlo, hhi⟩ := Bounds.le_of_areSmall hsmall hn
    unfold int64Min int64Max
    omega
  · -- An end of the range of 64 bits would be out of bounds.
    obtain ⟨hlo, hhi⟩ := Bounds.le_of_areSmall hsmall hcontains
    rw [hvalue] at hlo hhi ⊢
    unfold clampInt64 int64Min int64Max at *
    omega

/-- A row that starts with the keyword of a rule checks the numbers behind the operator. -/
theorem checksNumbers_recognised {c behind : Cursor} {operator : Option (Token Operator)}
    (hpasses : c.Passes operator behind) {word : Token String} {name : RuleName}
    (hname : word.value = name.name) (file : Option String) (vocabulary : Vocabulary) :
    (recognised c word (.rule name) file vocabulary).ChecksNumbers c.text file name
      (name.numbers behind) := by
  have hordered : ((Draft.start c word.value file).readOperator name).Ordered :=
    ((Draft.Ordered.start c word.value file).readOperator name).1
  have hchecks := Draft.checks_argument hordered vocabulary
  obtain ⟨hcursor, hkeyword, hfile⟩ := Draft.readOperator_start hpasses word.value file name
  rw [hcursor, hkeyword, hfile] at hchecks
  obtain ⟨⟨first, last, earlier, final, hreaches, hearlier, hfinal, herrors⟩, hstored⟩ := hchecks
  have hvalue {x : Token Int × Bounds} (hx : x ∈ name.numbers behind) := value_of_mem_numbers hx
  rw [hpasses.reaches.text_eq] at hvalue
  have hreported {x : Token Int × Bounds} (hx : x ∈ name.numbers behind) :
      (((Draft.start c word.value file).argument vocabulary name).messages.errors.filter fun e =>
        e.range = x.1.range) =
        if x.2.contains x.1.value then []
        else [(Problem.outOfBounds name.name x.2).diagnostic file x.1.range] := by
    rw [herrors, hname]
    exact filter_errors hreaches hearlier hfinal hx
  refine ⟨fun x hx => (hvalue hx).1, fun x hx => (hvalue hx).2.1, fun x hx => ?_, fun hvalid => ?_⟩
  · rw [← (hvalue hx).2.2.1]
    exact hreported hx
  · have hclean := invalid_make_eq_false_iff.1 hvalid
    show ((Draft.start c word.value file).argument vocabulary name).value.numbers = _
    rw [hstored hclean]
    refine List.map_congr_left fun x hx => (hvalue hx).2.2.2 ?_
    -- Nothing is reported in the place of the number, and so it is within bounds.
    by_contra hcontains
    have hnone := hreported hx
    rw [hclean, if_neg hcontains] at hnone
    cases hnone

/-- A numeral in front of a blank or the end is read as the integer that it denotes, brought into
the range of 64 bits. In a row that starts with the keyword of a rule, a number that the rule takes
is reported as out of bounds exactly if the integer that it denotes is out of bounds, whatever its
size; without an error, every number is stored as what it denotes. A number within the bounds of a
colour channel, a sound or a volume always has the 8 or 16 bits that are stored of it. -/
theorem parse_numbers :
    (∀ token rest, IsNumeral token → atBoundary rest = true →
      number? (token ++ rest) =
        some ⟨max (-2 ^ 63) (min (denoted token) (2 ^ 63 - 1)), token⟩) ∧
    (∀ (text : String) (row : Nat) (word : Token String) (c : Cursor) (name : RuleName)
      (file : Option String) (vocabulary : Vocabulary), IsRow text →
      (⟨row, text.toList, 0⟩ : Cursor).next word? = some (word, c) → word.value = name.name →
      ∃ operator behind line, c.Passes operator behind ∧
        parse text row file vocabulary = .ok line ∧
        line.ChecksNumbers text.toList file name (name.numbers behind)) ∧
    ∀ n : Int,
      (Bounds.channel.contains n = true → ∃ byte, toByte? n = some byte ∧ (byte.toNat : Int) = n) ∧
      (Bounds.soundNumber.contains n = true →
        ∃ byte, toByte? n = some byte ∧ (byte.toNat : Int) = n) ∧
      (Bounds.volume.contains n = true →
        ∃ word, toWord16? n = some word ∧ (word.toNat : Int) = n) := by
  refine ⟨fun token rest => number?_of_isNumeral, ?_, fun n =>
    ⟨Draft.exact_channel n, Draft.exact_soundNumber n, Draft.exact_volume n⟩⟩
  intro text row word c name file vocabulary htext hword hname
  obtain ⟨operator, behind, hpasses⟩ := c.exists_passes
  obtain ⟨hmoves, -⟩ := Cursor.next_reaches recognises_word
    (fun hspells => hspells.isBareString.isString.isVisible) hword
  have hkeyword : Keyword.ofName? word.value = some (.rule name) :=
    Keyword.ofName?_eq_some_iff.2 hname
  refine ⟨operator, behind, _, hpasses, Source.parse_eq_ok ⟨file, vocabulary, 0⟩ htext row, ?_⟩
  have hsame : c.text = text.toList := hmoves.text_eq
  show (read ⟨row, text.toList, 0⟩ file vocabulary).ChecksNumbers _ _ _ _
  rw [read_of_keyword hword hkeyword, ← hsame]
  exact checksNumbers_recognised hpasses hname file vocabulary

/-- A colour with two channels far out of bounds. The first of these two has the low 64 bits of a
channel within bounds. -/
def wideColor : String := "SetTextColor = +007 18446744073709551871 -9999999999999999999 0255"

/-- The two channels are reported, each on itself, and no other. -/
theorem parse_numbers_wideColor :
    (IsRow wideColor ∧ (⟨2, wideColor.toList, 0⟩ : Cursor).next word? =
      some (⟨"SetTextColor", .onRow 2 0 12⟩, ⟨2, wideColor.toList, 12⟩)) ∧
    ∃ operator behind line, (⟨2, wideColor.toList, 12⟩ : Cursor).Passes operator behind ∧
      parse wideColor 2 none .builtin = .ok line ∧
      line.ChecksNumbers wideColor.toList none (.action .setTextColor)
        ((RuleName.action .setTextColor).numbers behind) ∧
      line.messages.errors.map Diagnostic.range = [.onRow 2 20 40, .onRow 2 41 61] := by
  have hrow : IsRow wideColor := by decide
  have hword : (⟨2, wideColor.toList, 0⟩ : Cursor).next word? =
      some (⟨"SetTextColor", .onRow 2 0 12⟩, ⟨2, wideColor.toList, 12⟩) := by decide +kernel
  have hread : (parse wideColor 2 none .builtin).map
      (fun line => line.messages.errors.map Diagnostic.range) =
      .ok [.onRow 2 20 40, .onRow 2 41 61] := by decide +kernel
  obtain ⟨operator, behind, line, hpasses, hline, hchecks⟩ :=
    parse_numbers.2.1 wideColor 2 _ _ (.action .setTextColor) none .builtin hrow hword rfl
  rw [hline] at hread
  exact ⟨⟨hrow, hword⟩, operator, behind, line, hpasses, hline, hchecks, Except.ok.inj hread⟩

end Line

end ItemFilter
