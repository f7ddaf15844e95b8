import ItemFilter.Line.Parse
import ItemFilter.Proofs.Reading
import ItemFilter.Proofs.Splice

/-!
# Validity of rows

Reading a row reports an error exactly when the row is not one of the grammar.

For every shape of rule there is one lemma: the outcome is clean exactly when the text behind the
keyword is accepted. Rules with one argument are treated together (`Draft.clean_single_iff`); the
others go through their arguments one by one, each of which fills its slot. The keywords are found
by their names (`Keyword.ofName?_eq_some_iff`), so that a row with a keyword can be right in one way
only, and `Line.read` follows by the word that the row starts with.
-/

namespace ItemFilter

open Text Lexeme

/-! ## Bounds -/

namespace Bounds

/-- The check of bounds inside the range of 64 bits sees through the change that brings an integer
into that range. -/
theorem contains_clampInt64 {bounds : Bounds}
    (h : ∀ n, bounds.contains n = true → int64Min < n ∧ n < int64Max) (n : Int) :
    bounds.contains (clampInt64 n) = bounds.contains n := by
  -- An integer that is changed becomes an end of the range, which is out of bounds.
  have hsame (hin : (int64Min < clampInt64 n ∧ clampInt64 n < int64Max) ∨
      (int64Min < n ∧ n < int64Max)) : clampInt64 n = n := by
    unfold clampInt64 int64Min int64Max at *
    omega
  rw [Bool.eq_iff_iff]
  constructor
  · intro hcontains
    rwa [hsame (.inl (h _ hcontains))] at hcontains
  · intro hcontains
    rwa [hsame (.inr (h _ hcontains))]

/-- Bounds, which are checked on numbers of 64 bits, accept exactly given integers of any size. -/
def Checks (bounds : Bounds) (values : Set Int) : Prop :=
  ∀ n, bounds.contains (clampInt64 n) = true ↔ n ∈ values

/-- An interval inside the range of 64 bits accepts the integers between its ends. -/
theorem checks_between {least greatest : Int} (hlo : int64Min < least)
    (hhi : greatest < int64Max) : (between least greatest).Checks (Set.Icc least greatest) := by
  have hiff (n : Int) :
      (between least greatest).contains n = true ↔ n ∈ Set.Icc least greatest := by
    simp [contains]
  intro n
  rw [contains_clampInt64 _ n, hiff]
  intro m hm
  obtain ⟨hleast, hgreatest⟩ := (hiff m).1 hm
  omega

/-- A list of integers inside the range of 64 bits accepts its members. -/
theorem checks_oneOf {values : List Int} (h : ∀ v ∈ values, int64Min < v ∧ v < int64Max) :
    (oneOf values).Checks {n | n ∈ values} := by
  have hiff (n : Int) : (oneOf values).contains n = true ↔ n ∈ values := List.elem_iff
  intro n
  rw [contains_clampInt64 (fun m hm => h m ((hiff m).1 hm)) n, hiff]
  exact Iff.rfl

/-- An integer slot takes the tokens whose numbers pass the check. -/
theorem Checks.takes_iff {bounds : Bounds} {values : Set Int} (h : bounds.Checks values)
    {token : List Char} {n : Int} (hspells : SpellsNumber token n) :
    (Slot.integer values).Takes token ↔ bounds.contains n = true := by
  obtain ⟨m, hm, rfl⟩ := hspells
  rw [h m]
  constructor
  · rintro ⟨m', hm', hmem⟩
    rwa [hm.unique hm']
  · intro hmem
    exact ⟨m, hm, hmem⟩

end Bounds

/-- The tokens of an integer slot are numbers. -/
theorem Slot.exists_spellsNumber {values : Set Int} (token : List Char)
    (h : (Slot.integer values).Takes token) : ∃ n, SpellsNumber token n := by
  obtain ⟨m, hm, -⟩ := h
  exact ⟨clampInt64 m, m, hm, rfl⟩

/-- A string slot takes the tokens whose strings are among the given ones. -/
theorem Slot.string_takes_iff {values : Set String} {token : List Char} {value : String}
    (hspells : SpellsString token value) : (Slot.string values).Takes token ↔ value ∈ values := by
  constructor
  · rintro ⟨value', hspells', hmem⟩
    rwa [recognises_string.unique rfl hspells hspells']
  · intro hmem
    exact ⟨value, hspells, hmem⟩

/-! ## Rules with one argument -/

namespace Draft

variable {α β : Type} {d : Draft}

/-- A rule with one required argument is clean when the argument is laid out for its slot, given
that a missing argument ends the rule and that, behind an argument, the rule is clean when the
argument fits the slot and nothing follows. -/
theorem clean_single_iff {recognise : List Char → Option (Lexeme α)}
    {Spells : List Char → α → Prop} (hreads : Reads recognise Spells) {slot : Slot}
    (hslot : ∀ token, slot.Takes token → ∃ value, Spells token value) (kind : Kind)
    {o : Outcome β}
    (hnone : ∀ d', d.require kind recognise = (none, d') → (o.Clean ↔ d'.Clean))
    (hsome : ∀ t d' token, d.require kind recognise = (some t, d') → Spells token t.value →
      (o.Clean ↔ (d'.Clean ∧ slot.Takes token) ∧ Laid [] d'.rest)) :
    o.Clean ↔ d.Clean ∧ Laid [slot] d.rest := by
  obtain ⟨t, d', token, hrequire, hspells, hpasses⟩ | ⟨d', hrequire, hreported, hlacks⟩ :=
    require_cases hreads kind d
  · rw [hsome t d' token hrequire hspells]
    exact hpasses.clean_and_laid_iff []
  · -- The absence is reported, and no argument of the slot stands there.
    rw [hnone d' hrequire]
    exact iff_of_false hreported fun h => hlacks.not_laid hslot [] h.2

/-- A rule with one number is clean when the number is within bounds and nothing follows. -/
theorem clean_number_iff {bounds : Bounds} {values : Set Int} (h : bounds.Checks values)
    {o : Outcome (Option (Token Int))}
    (hnone : ∀ d', d.require .number number? = (none, d') → o = d'.abort none)
    (hsome : ∀ t d', d.require .number number? = (some t, d') →
      o = (d'.checkBounds t bounds).finish (some t)) :
    o.Clean ↔ d.Clean ∧ Laid [.integer values] d.rest := by
  refine clean_single_iff reads_number Slot.exists_spellsNumber .number ?_ ?_
  · intro d' hrequire
    rw [hnone d' hrequire]
    exact Iff.rfl
  · intro t d' token hrequire hspells
    rw [hsome t d' hrequire, clean_finish_iff, clean_checkBounds_iff, rest_checkBounds,
      h.takes_iff hspells]

/-- A number behind any operator. -/
theorem clean_numeric_iff {bounds : Bounds} {values : Set Int} (h : bounds.Checks values) :
    (d.numeric bounds).Clean ↔ d.Clean ∧ (Shape.measure values).Accepts d.rest := by
  rw [Shape.measure, ← settles_anyOperator d, Shape.arranged_singleton_iff]
  refine clean_number_iff h ?_ ?_
  · intro d' hrequire
    unfold numeric
    rw [hrequire]
  · intro t d' hrequire
    unfold numeric
    rw [hrequire]

/-- A font size, in front of which no operator stands. -/
theorem clean_fontSize_iff :
    d.fontSize.Clean ↔
      d.Clean ∧ Shape.Accepts ⟨∅, {[.integer (Set.Icc 18 45)]}⟩ d.rest := by
  have hchecks : Bounds.fontSize.Checks (Set.Icc 18 45) :=
    Bounds.checks_between (by decide) (by decide)
  rw [← settles_noOperator d, Shape.arranged_singleton_iff]
  refine clean_number_iff hchecks ?_ ?_
  · intro d' hrequire
    unfold fontSize
    rw [hrequire]
  · intro t d' hrequire
    unfold fontSize
    rw [hrequire]

/-- A truth value. -/
theorem clean_boolean_iff : d.boolean.Clean ↔ d.Clean ∧ Shape.truth.Accepts d.rest := by
  have hslot : ∀ token, Slot.boolean.Takes token → ∃ b, SpellsBoolean token b := fun _ h => h
  rw [Shape.truth, ← settles_equalityOperator d, Shape.arranged_singleton_iff]
  refine clean_single_iff reads_boolean hslot .boolean ?_ ?_
  · intro d' hrequire
    unfold boolean
    rw [hrequire]
    exact Iff.rfl
  · intro t d' token hrequire hspells
    unfold boolean
    rw [hrequire]
    have htakes : Slot.boolean.Takes token := ⟨t.value, hspells⟩
    show (d'.finish (some t)).Clean ↔ _
    simp only [clean_finish_iff, htakes, and_true]

/-- A rule with one string is clean when the string is among the right ones and nothing follows. -/
theorem clean_string_iff {values : Set String} {o : Outcome β}
    (hnone : ∀ d', d.require .string string? = (none, d') → (o.Clean ↔ d'.Clean))
    (hsome : ∀ t d', d.require .string string? = (some t, d') →
      (o.Clean ↔ (d'.Clean ∧ t.value ∈ values) ∧ Laid [] d'.rest)) :
    o.Clean ↔ d.Clean ∧ Laid [.string values] d.rest := by
  refine clean_single_iff reads_string ?_ .string hnone ?_
  · rintro token ⟨value, hspells, -⟩
    exact ⟨value, hspells⟩
  · intro t d' token hrequire hspells
    rw [hsome t d' hrequire, Slot.string_takes_iff hspells]

/-- A rule that ends behind a reported argument is not clean. -/
theorem not_clean_finish_report {problem : Problem} {range : Range} {value : β}
    (h : problem.severity = .error) : ¬ ((d.report problem range).finish value).Clean := by
  rw [clean_finish_iff]
  exact fun hclean => not_clean_report h hclean.1

/-- A rarity is found by its name. -/
theorem ofName?_rarity_eq_some_iff {text : String} {r : Rarity} :
    Rarity.ofName? text = some r ↔ text = r.name :=
  find?_name_eq_some_iff fun r => by cases r <;> decide

/-- The names of the rarities. -/
theorem mem_rarities_iff {text : String} :
    text ∈ ({"Normal", "Magic", "Rare", "Unique"} : Set String) ↔
      ∃ r, Rarity.ofName? text = some r := by
  simp only [ofName?_rarity_eq_some_iff, Set.mem_insert_iff, Set.mem_singleton_iff]
  constructor
  · rintro (rfl | rfl | rfl | rfl)
    exacts [⟨.normal, rfl⟩, ⟨.magic, rfl⟩, ⟨.rare, rfl⟩, ⟨.unique, rfl⟩]
  · rintro ⟨r, rfl⟩
    cases r <;> simp [Rarity.name]

/-- A rarity behind any operator. -/
theorem clean_rarity_iff :
    d.rarity.Clean ↔ d.Clean ∧
      Shape.Accepts ⟨Set.univ, {[.string {"Normal", "Magic", "Rare", "Unique"}]}⟩ d.rest := by
  rw [← settles_anyOperator d, Shape.arranged_singleton_iff]
  refine clean_string_iff ?_ ?_
  · intro d' hrequire
    unfold rarity
    rw [hrequire]
    exact Iff.rfl
  · intro t d' hrequire
    unfold rarity
    rw [hrequire, mem_rarities_iff]
    dsimp only
    cases hname : Rarity.ofName? t.value with
    | none =>
      refine iff_of_false (not_clean_finish_report rfl) ?_
      rintro ⟨⟨-, r, hr⟩, -⟩
      cases hr
    | some r =>
      have hfound : ∃ r', some r = some r' := ⟨r, rfl⟩
      simp only [clean_finish_iff, hfound, and_true]

/-- A capital letter is the capital form of itself and of the small letter. -/
theorem eq_or_eq_of_toUpper {c small : Char} (hsmall : 'a'.val ≤ small.val ∧ small.val ≤ 'z'.val)
    (h : c.toUpper = small.toUpper) : c = small.toUpper ∨ c = small := by
  by_cases hc : 'a'.val ≤ c.val ∧ c.val ≤ 'z'.val
  · rw [Char.toUpper, Char.toUpper, dif_pos hc, dif_pos hsmall] at h
    exact .inr (Char.ext (UInt32.add_left_inj _ |>.1 (congrArg Char.val h)))
  · rw [Char.toUpper, dif_neg hc] at h
    exact .inl h

/-- A character names a socket colour when it is one of eight letters. -/
theorem isSocketColor_iff {c : Char} : isSocketColor c = true ↔ c ∈ "RGBWrgbw".toList := by
  constructor
  · intro h
    have hcapital : c.toUpper ∈ ['r', 'g', 'b', 'w'].map Char.toUpper := List.elem_iff.1 h
    obtain ⟨small, hsmall, heq⟩ := List.mem_map.1 hcapital
    have hcases : small = 'r' ∨ small = 'g' ∨ small = 'b' ∨ small = 'w' := by simpa using hsmall
    rcases hcases with rfl | rfl | rfl | rfl
    all_goals
      rcases eq_or_eq_of_toUpper (by decide) heq.symm with rfl | rfl <;> decide
  · intro h
    have hall : "RGBWrgbw".toList.all isSocketColor = true := by decide
    exact List.all_eq_true.1 hall c h

/-- The check of socket groups accepts groups of one to six socket colours. -/
theorem isSocketGroup_iff {text : String} :
    isSocketGroup text.toList = true ↔ IsSocketGroup text := by
  simp only [isSocketGroup, IsSocketGroup, Bool.and_eq_true, Bool.not_eq_true',
    List.isEmpty_eq_false_iff, decide_eq_true_eq, List.all_eq_true, isSocketColor_iff,
    Nat.one_le_iff_ne_zero, ne_eq, List.length_eq_zero_iff, and_assoc]

/-- A socket group. -/
theorem clean_socketGroup_iff :
    d.socketGroup.Clean ↔ d.Clean ∧
      Shape.Accepts ⟨{.equal}, {[.string {text | IsSocketGroup text}]}⟩ d.rest := by
  rw [← settles_equalityOperator d, Shape.arranged_singleton_iff]
  refine clean_string_iff ?_ ?_
  · intro d' hrequire
    unfold socketGroup
    rw [hrequire]
    exact Iff.rfl
  · intro t d' hrequire
    unfold socketGroup
    rw [hrequire, Set.mem_ofPred_eq, ← isSocketGroup_iff]
    dsimp only
    split_ifs with hgroup
    · simp only [clean_finish_iff, hgroup, and_true]
    · exact iff_of_false (not_clean_finish_report rfl) fun h => hgroup h.1.2

/-- Nothing is left of a text without the blanks at its ends exactly when it is blank. -/
theorem isEmpty_trim_iff {cs : List Char} :
    (trim cs).isEmpty = false ↔ ∃ c ∈ cs, isBlank c = false := by
  have htrim : (trim cs).isEmpty = false ↔ ∃ c ∈ trimStart cs, isBlank c = false := by
    simp [trim, trimEnd, trimStart]
  rw [htrim]
  constructor
  · rintro ⟨c, hc, hvisible⟩
    exact ⟨c, (List.dropWhile_suffix _).subset hc, hvisible⟩
  · rintro ⟨c, hc, hvisible⟩
    rw [← List.takeWhile_append_dropWhile (p := isBlank) (l := cs), List.mem_append] at hc
    rcases hc with hblank | hc
    · rw [List.mem_takeWhile_imp hblank] at hvisible
      cases hvisible
    · exact ⟨c, hc, hvisible⟩

/-- The path of a sound file. -/
theorem clean_soundFile_iff :
    d.soundFile.Clean ↔ d.Clean ∧
      Shape.Accepts ⟨{.equal}, {[.string {path | ∃ c ∈ path.toList, isBlank c = false}]}⟩
        d.rest := by
  rw [← settles_equalityOperator d, Shape.arranged_singleton_iff]
  refine clean_string_iff ?_ ?_
  · intro d' hrequire
    unfold soundFile
    rw [hrequire]
    exact Iff.rfl
  · intro t d' hrequire
    unfold soundFile
    rw [hrequire, Set.mem_ofPred_eq, ← isEmpty_trim_iff]
    dsimp only
    split_ifs with hblank
    · exact iff_of_false (not_clean_finish_report rfl) fun h => by simp [hblank] at h
    · simp only [clean_finish_iff, hblank, and_true]

/-- A rule without arguments. -/
theorem clean_flag_iff : d.flag.Clean ↔ d.Clean ∧ Shape.Accepts ⟨∅, {[]}⟩ d.rest := by
  rw [← settles_noOperator d, Shape.arranged_singleton_iff]
  exact clean_finish_iff

/-! ## Rules with several arguments -/

/-- A number that is passed over and converted fills an integer slot. -/
theorem PassesOver.fills_bounded {bounds : Bounds} {values : Set Int} (h : bounds.Checks values)
    {token : List Char} {number : Token Int} {d' : Draft} (hpasses : d.PassesOver token d')
    (hspells : SpellsNumber token number.value) (convert? : Int → Option α) :
    d.Fills (.integer values) (d'.bounded number bounds convert?).2 := by
  apply hpasses.fills rest_bounded
  rw [clean_bounded_iff, h.takes_iff hspells]

/-- Colour channels are the integers from 0 to 255. -/
theorem checks_channel : Bounds.channel.Checks (Set.Icc 0 255) :=
  Bounds.checks_between (by decide) (by decide)

/-- A required colour channel fills its slot, or is missing and reported. -/
theorem channel_cases (d : Draft) :
    (∃ channel d', d.channel = (some channel, d') ∧ d.Fills (.integer (Set.Icc 0 255)) d') ∨
    (∃ d', d.channel = (none, d') ∧ ¬ d'.Clean ∧
      ∀ slots, ¬ Laid (.integer (Set.Icc 0 255) :: slots) d.rest) := by
  obtain ⟨t, d', token, hrequire, hspells, hpasses⟩ | ⟨d', hrequire, hreported, hlacks⟩ :=
    require_cases reads_number .number d
  · refine .inl ⟨(d'.bounded t Bounds.channel toByte?).1, _, ?_,
      hpasses.fills_bounded checks_channel hspells toByte?⟩
    rw [channel, hrequire]
  · refine .inr ⟨d', ?_, hreported, hlacks.not_laid Slot.exists_spellsNumber⟩
    rw [channel, hrequire]

/-- Behind an optional number, nothing may be left: neither before it nor, if it is there and within
bounds, behind it. -/
theorem clean_optional_iff {bounds : Bounds} {values : Set Int} (h : bounds.Checks values)
    (convert? : Int → Option α) :
    (d.optional bounds convert?).2.Clean ∧ Laid [] (d.optional bounds convert?).2.rest ↔
      d.Clean ∧ (Laid [] d.rest ∨ Laid [.integer values] d.rest) := by
  obtain ⟨t, d', token, htake, hspells, hpasses⟩ | ⟨htake, hlacks⟩ := take_cases reads_number d
  · have hsecond : (d.optional bounds convert?).2 = (d'.bounded t bounds convert?).2 := by
      rw [optional, htake]
    rw [hsecond, hpasses.fills_bounded h hspells convert? [], or_iff_right hpasses.not_laid_nil]
  · have hsecond : (d.optional bounds convert?).2 = d := by
      rw [optional, htake]
    rw [hsecond, or_iff_left (hlacks.not_laid Slot.exists_spellsNumber [])]

/-- A colour of three or four channels. -/
theorem clean_color_iff : d.color.Clean ↔ d.Clean ∧ Shape.color.Accepts d.rest := by
  rw [Shape.color, ← settles_equalityOperator d, Shape.arranged_pair_iff]
  -- Each channel is read in turn; the first that is missing ends the rule.
  generalize hstart : d.equalityOperator = d₀
  unfold color
  rw [hstart]
  obtain ⟨red, d₁, hred, hfills₁⟩ | ⟨d₁, hred, hreported, hlaid⟩ := channel_cases d₀
  · rw [hred, ← hfills₁.or]
    dsimp only
    obtain ⟨green, d₂, hgreen, hfills₂⟩ | ⟨d₂, hgreen, hreported, hlaid⟩ := channel_cases d₁
    · rw [hgreen, ← hfills₂.or]
      dsimp only
      obtain ⟨blue, d₃, hblue, hfills₃⟩ | ⟨d₃, hblue, hreported, hlaid⟩ := channel_cases d₂
      · rw [hblue, ← hfills₃.or]
        dsimp only
        rw [clean_finish_iff, clean_optional_iff checks_channel]
      · rw [hblue]
        exact iff_of_false hreported fun h => h.2.elim (hlaid _) (hlaid _)
    · rw [hgreen]
      exact iff_of_false hreported fun h => h.2.elim (hlaid _) (hlaid _)
  · rw [hred]
    exact iff_of_false hreported fun h => h.2.elim (hlaid _) (hlaid _)

/-- A sound fills its slot, or is missing and reported. -/
theorem soundId_cases (vocabulary : Vocabulary) (d : Draft) :
    (∃ id d', d.soundId vocabulary = (some id, d') ∧ d.Fills (.sound vocabulary) d') ∨
    (∃ d', d.soundId vocabulary = (none, d') ∧ ¬ d'.Clean ∧
      ∀ slots, ¬ Laid (.sound vocabulary :: slots) d.rest) := by
  have hchecks : Bounds.soundNumber.Checks (Set.Icc 1 16) :=
    Bounds.checks_between (by decide) (by decide)
  obtain ⟨t, d', token, htake, hspells, hpasses⟩ | ⟨htake, hlacks⟩ := take_cases reads_number d
  · -- A token that spells an integer is the number of a sound and not the name of one.
    let convert? (n : Int) : Option SoundId := (toByte? n).map .numbered
    refine .inl ⟨(d'.bounded t Bounds.soundNumber convert?).1,
      (d'.bounded t Bounds.soundNumber convert?).2, ?_, ?_⟩
    · rw [soundId, htake]
    · apply hpasses.fills rest_bounded
      obtain ⟨n, hn, -⟩ := id hspells
      have hsound : (Slot.sound vocabulary).Takes token ↔
          (Slot.integer (Set.Icc 1 16)).Takes token :=
        or_iff_left fun h => h.1 ⟨n, hn⟩
      rw [clean_bounded_iff, hsound, hchecks.takes_iff hspells]
  · obtain ⟨t, d', token, htake', hspells, hpasses⟩ | ⟨htake', hlacks'⟩ :=
      take_cases reads_string d
    · -- A string that is looked at spells no integer, since that would have been found first.
      have hnumber : ¬ ∃ n, SpellsInteger token n := by
        rintro ⟨n, hn⟩
        exact hlacks ⟨n, hn, rfl⟩ hpasses.atBoundary hpasses.startsWith
      have hsound : (Slot.sound vocabulary).Takes token ↔ vocabulary.isSound t.value = true := by
        have hinteger : ¬ (Slot.integer (Set.Icc 1 16)).Takes token :=
          fun ⟨n, hn, _⟩ => hnumber ⟨n, hn⟩
        calc (Slot.sound vocabulary).Takes token
            ↔ (Slot.string {name | name ∈ vocabulary.validSounds}).Takes token :=
              (or_iff_right hinteger).trans (and_iff_right hnumber)
          _ ↔ t.value ∈ vocabulary.validSounds := Slot.string_takes_iff hspells
          _ ↔ vocabulary.isSound t.value = true := List.elem_iff.symm
      by_cases hknown : vocabulary.isSound t.value = true
      · refine .inl ⟨some (t.map .named), d', ?_, ?_⟩
        · rw [soundId, htake]
          simp only [htake', hknown, if_true]
        · exact hpasses.fills rfl (by rw [hsound, and_iff_left hknown])
      · refine .inl ⟨none, d'.report (.unknownSound d'.keyword t.value) t.range, ?_, ?_⟩
        · rw [soundId, htake]
          simp only [htake', hknown]
          rfl
        · refine hpasses.fills rfl (iff_of_false (not_clean_report rfl) ?_)
          exact fun h => hknown (hsound.1 h.2)
    · refine .inr ⟨d.missing .expectedSound, ?_, not_clean_report rfl, ?_⟩
      · rw [soundId, htake]
        simp only [htake']
      · exact hlacks'.not_laid fun token htakes => (Slot.sound vocabulary).isString htakes

/-- An alert sound with an optional volume. -/
theorem clean_alertSound_iff {vocabulary : Vocabulary} :
    (d.alertSound vocabulary).Clean ↔ d.Clean ∧ (Shape.alert vocabulary).Accepts d.rest := by
  have hchecks : Bounds.volume.Checks (Set.Icc 0 300) :=
    Bounds.checks_between (by decide) (by decide)
  rw [Shape.alert, ← settles_equalityOperator d, Shape.arranged_pair_iff]
  generalize hstart : d.equalityOperator = d₀
  unfold alertSound
  rw [hstart]
  obtain ⟨id, d₁, hid, hfills⟩ | ⟨d₁, hid, hreported, hlaid⟩ := soundId_cases vocabulary d₀
  · rw [hid, ← hfills.or]
    dsimp only
    rw [clean_finish_iff, clean_optional_iff hchecks]
  · rw [hid]
    exact iff_of_false hreported fun h => h.2.elim (hlaid _) (hlaid _)

/-! ## Names of a vocabulary -/

/-- The strings that are read one after the other are the arguments of as many string slots: the
text is laid out for these slots, and for no other number of them, when every string is among the
right ones and nothing is left behind the last. -/
theorem laid_replicate_iff {values : Set String} (c : Cursor) (n : Nat) :
    Laid (List.replicate n (.string values)) c.remaining ↔
      n = c.strings.1.length ∧ (∀ t ∈ c.strings.1, t.value ∈ values) ∧
        Laid [] c.strings.2.remaining := by
  fun_induction Cursor.strings c generalizing n with
  | case1 c hnone =>
    cases n with
    | zero => simp
    | succ n =>
      -- A slot is left over where no string stands.
      refine iff_of_false ?_ (by simp)
      rw [List.replicate_succ]
      intro hlaid
      cases hlaid with
      | cons hstarts htakes hrest _ =>
        have hstring := (Slot.string values).isString htakes
        obtain ⟨value, hspells⟩ := id hstring
        exact Cursor.next_eq_none recognises_string hnone hspells hstring.isVisible hrest hstarts
  | case2 c t c' hsome tokens last hstrings ih =>
    obtain ⟨token, hspells, hstarts, hrest⟩ := Cursor.next_eq_some recognises_string hsome
    have hstring : IsString token := ⟨_, hspells⟩
    cases n with
    | zero =>
      -- A string is left over where no slot is.
      refine iff_of_false ?_ (by simp)
      rw [List.replicate_zero, laid_nil_iff]
      exact fun hignorable => hignorable.not_startsWith hstring hstarts
    | succ n =>
      rw [List.replicate_succ, laid_cons_iff hstarts hstring hrest, ih n, hstrings,
        Slot.string_takes_iff hspells]
      simp only [List.length_cons, List.forall_mem_cons, Nat.add_right_cancel_iff]
      tauto

/-- One or more names are laid out when there is a string, every string is among the right ones and
nothing is left behind the last. -/
theorem arranged_listing_iff {names : Set String} (c : Cursor) :
    Shape.Arranged ⟨{.equal}, {form | ∃ n, form = List.replicate (n + 1) (.string names)}⟩
      c.remaining ↔
      c.strings.1 ≠ [] ∧ (∀ t ∈ c.strings.1, t.value ∈ names) ∧ Laid [] c.strings.2.remaining := by
  constructor
  · rintro ⟨form, ⟨n, rfl⟩, hlaid⟩
    obtain ⟨hlength, hrest⟩ := (laid_replicate_iff c (n + 1)).1 hlaid
    exact ⟨List.ne_nil_of_length_eq_add_one hlength.symm, hrest⟩
  · rintro ⟨hne, hrest⟩
    obtain ⟨n, hn⟩ := Nat.exists_eq_succ_of_ne_zero (List.length_eq_zero_iff.not.2 hne)
    exact ⟨_, ⟨n, rfl⟩, (laid_replicate_iff c (n + 1)).2 ⟨hn.symm, hrest⟩⟩

/-- Reporting rejected names keeps a draft clean only if there are none. -/
theorem clean_reportRejected_iff {lexicon : Lexicon} {rejected : List (Token String)} :
    (d.reportRejected lexicon rejected).Clean ↔ d.Clean ∧ rejected = [] := by
  induction rejected generalizing d with
  | nil => simp [reportRejected]
  | cons t rejected ih =>
    have hcons : d.reportRejected lexicon (t :: rejected) =
        (d.report (.notListed d.keyword t.value lexicon) t.range).reportRejected lexicon
          rejected := rfl
    rw [hcons, ih]
    exact iff_of_false (fun h => not_clean_report rfl h.1) (by simp)

/-- Reading an operator that may be the equality sign either reports nothing or an error. -/
theorem messages_equalityOperator (h : d.equalityOperator.Clean) :
    d.equalityOperator.messages = d.messages := by
  have hmessages := (anyOperator_cases d).1
  revert h
  unfold equalityOperator
  dsimp only
  split
  · exact fun _ => hmessages
  · split_ifs
    · exact fun _ => hmessages
    · exact fun h => absurd h (not_clean_report rfl)

/-- One or more names of a vocabulary. That there is no name is reported only where nothing else is,
so the draft has to be one without any message. -/
theorem clean_names_iff (hmessages : d.messages = .none) {lexicon : Lexicon}
    {vocabulary : Vocabulary} {names : Set String}
    (hnames : ∀ name, lexicon.accepts vocabulary name = true ↔ name ∈ names) :
    (d.names lexicon vocabulary).Clean ↔ d.Clean ∧ (Shape.listing names).Accepts d.rest := by
  have hsilent (h : d.equalityOperator.Clean) : d.equalityOperator.messages.isEmpty = true := by
    rw [messages_equalityOperator h, hmessages]
    rfl
  rw [Shape.listing, ← settles_equalityOperator d, Draft.names_eq]
  generalize d.equalityOperator = d₀ at hsilent
  rw [rest, arranged_listing_iff]
  dsimp only
  generalize d₀.cursor.strings = found
  obtain ⟨tokens, last⟩ := found
  by_cases hnone : tokens = []
  · -- Without a name, the absence is reported, or an operator was.
    subst hnone
    refine iff_of_false ?_ (by simp)
    simp only [List.isEmpty_nil, Bool.true_and, List.filter_nil]
    split_ifs with hempty
    · exact not_clean_report rfl
    · rw [clean_finish_iff]
      exact fun h => hempty (hsilent h.1)
  · -- With names, the rejected ones are reported.
    rw [if_neg (by simp [hnone]), clean_finish_iff, ← Draft.reportRejected_cursor]
    show (d₀.reportRejected lexicon _).Clean ∧ Laid [] last.remaining ↔ _
    rw [clean_reportRejected_iff, List.filter_eq_nil_iff]
    simp [hnames, hnone, and_assoc]

/-! ## All rules -/

/-- The argument of a condition is clean when the text behind the keyword is accepted. -/
theorem clean_condition_iff (hmessages : d.messages = .none) (vocabulary : Vocabulary)
    (c : Condition) :
    (d.condition vocabulary c).Clean ↔ d.Clean ∧ (c.shape vocabulary).Accepts d.rest := by
  -- What is left after replacing the value is the outcome of one reader.
  cases c <;> simp only [condition, Condition.shape, Outcome.clean_map_iff]
  case itemLevel | dropLevel | quality | sockets | height | width =>
    exact clean_numeric_iff (Bounds.checks_between (by decide) (by decide))
  case linkedSockets =>
    have hvalues : ({0, 2, 3, 4, 5, 6} : Set Int) = {n | n ∈ [0, 2, 3, 4, 5, 6]} := by
      ext n
      simp
    rw [hvalues]
    exact clean_numeric_iff (Bounds.checks_oneOf (by decide))
  case socketGroup => exact clean_socketGroup_iff
  case rarity => exact clean_rarity_iff
  case itemClass =>
    refine clean_names_iff hmessages fun name => ?_
    simp [Lexicon.accepts, Vocabulary.isClass]
  case baseType =>
    refine clean_names_iff hmessages fun name => ?_
    simp [Lexicon.accepts, Vocabulary.isBase]
  case identified | corrupted | elderItem | shaperItem | shapedMap | elderMap =>
    exact clean_boolean_iff

/-- The argument of an action is clean when the text behind the keyword is accepted. -/
theorem clean_action_iff (vocabulary : Vocabulary) (a : Action) :
    (d.action vocabulary a).Clean ↔ d.Clean ∧ (a.shape vocabulary).Accepts d.rest := by
  cases a <;> simp only [action, Action.shape, Outcome.clean_map_iff]
  case setBorderColor | setTextColor | setBackgroundColor => exact clean_color_iff
  case playAlertSound | playAlertSoundPositional => exact clean_alertSound_iff
  case setFontSize => exact clean_fontSize_iff
  case disableDropSound => exact clean_flag_iff
  case customAlertSound => exact clean_soundFile_iff

/-- The argument of a rule is clean when the text behind the keyword is accepted. -/
theorem clean_argument_iff (hmessages : d.messages = .none) (vocabulary : Vocabulary)
    (name : RuleName) :
    (d.argument vocabulary name).Clean ↔ (name.shape vocabulary).Accepts d.rest := by
  have hclean : d.Clean := by rw [Clean, hmessages]; rfl
  cases name with
  | condition c =>
    simp only [argument, RuleName.shape, clean_condition_iff hmessages, hclean, true_and]
  | action a =>
    simp only [argument, RuleName.shape, clean_action_iff, hclean, true_and]

end Draft

/-! ## Rows -/

namespace Line

/-- A line is valid when no error was reported. -/
theorem invalid_make_eq_false_iff {range : Range} {kind : LineKind} {messages : Messages} :
    (make range kind messages).invalid = false ↔ messages.errors = [] := by
  simp [make, Messages.hasErrors]

/-- A row that starts with no word is invalid. -/
theorem invalid_unreadable (c : Cursor) (file : Option String) :
    (unreadable c file).invalid = true := rfl

/-- A row that starts with a word other than a keyword is valid. -/
theorem invalid_unrecognised (c : Cursor) (word : Token String) (file : Option String)
    (policy : UnknownKeywords) : (unrecognised c word file policy).invalid = false := by
  cases policy <;> rfl

/-- A row that starts with a block header is valid. -/
theorem invalid_recognised_block (c : Cursor) (word : Token String) (visibility : Visibility)
    (file : Option String) (vocabulary : Vocabulary) :
    (recognised c word (.block visibility) file vocabulary).invalid = false :=
  invalid_make_eq_false_iff.2 (Draft.clean_header_iff.2 rfl)

/-- A row that starts with the keyword of a rule is valid when the text behind the keyword is
accepted. -/
theorem invalid_recognised_rule_iff (c : Cursor) (word : Token String) (name : RuleName)
    (file : Option String) (vocabulary : Vocabulary) :
    (recognised c word (.rule name) file vocabulary).invalid = false ↔
      (name.shape vocabulary).Accepts c.remaining :=
  invalid_make_eq_false_iff.trans (Draft.clean_argument_iff rfl vocabulary name)

/-- A row is valid exactly when it is one of the grammar. -/
theorem invalid_read_eq_false_iff (c : Cursor) (file : Option String) (vocabulary : Vocabulary) :
    (read c file vocabulary).invalid = false ↔ Accepted vocabulary c.remaining := by
  by_cases hignored : c.isIgnored = true
  · have haccepted : Accepted vocabulary c.remaining := .ignored (Cursor.isIgnored_iff.1 hignored)
    refine iff_of_true ?_ haccepted
    unfold read
    split_ifs with hempty
    · rfl
    · have hcommented : c.isCommented = true := by
        simpa [Cursor.isIgnored, hempty] using hignored
      simp [Cursor.comment, hcommented, make, Messages.hasErrors, Messages.none]
  · have hignorable : ¬ Ignorable c.remaining := fun h => hignored (Cursor.isIgnored_iff.2 h)
    obtain ⟨hempty, hcommented⟩ : ¬ c.isEmpty = true ∧ ¬ c.isCommented = true := by
      rwa [Cursor.isIgnored, Bool.or_eq_true, not_or] at hignored
    have hcomment : c.comment = none := if_neg hcommented
    unfold read
    rw [if_neg hempty, hcomment]
    dsimp only
    cases hnext : c.next word? with
    | none =>
      -- Every right row that cannot be ignored starts with a word.
      refine iff_of_false (by simp [invalid_unreadable]) fun haccepted => ?_
      rcases haccepted.ignorable_or_word with h | ⟨token, rest, word, hspells, hstarts, hrest⟩
      · exact hignorable h
      · exact Cursor.next_eq_none recognises_word hnext hspells
          hspells.isBareString.isString.isVisible hrest hstarts
    | some found =>
      obtain ⟨word, c'⟩ := found
      obtain ⟨token, hspells, hstarts, hrest⟩ := Cursor.next_eq_some recognises_word hnext
      dsimp only
      cases hkeyword : Keyword.ofName? word.value with
      | none =>
        have hunknown (keyword : Keyword) : word.value ≠ keyword.name := by
          intro hname
          rw [Keyword.ofName?_eq_some_iff.2 hname] at hkeyword
          cases hkeyword
        exact iff_of_true (invalid_unrecognised _ _ _ _) (.skipped hspells hstarts hrest
          (fun visibility => hunknown (.block visibility)) fun name => hunknown (.rule name))
      | some keyword =>
        -- The token is the keyword, letter by letter.
        have htoken : token = keyword.name.toList := by
          rw [← Keyword.ofName?_eq_some_iff.1 hkeyword, hspells.2.2, String.toList_ofList]
        subst htoken
        cases keyword with
        | block visibility =>
          exact iff_of_true (invalid_recognised_block _ _ _ _ _) (.header visibility hstarts hrest)
        | rule name => rw [invalid_recognised_rule_iff, accepted_iff_of_rule hstarts hrest]

/-- Every text without line breaks is read, on whatever row, and its line is valid exactly when the
text is a row of the grammar. -/
theorem parse_valid_iff {text : String} (h : IsRow text) (row : Nat) (file : Option String)
    (vocabulary : Vocabulary) :
    ∃ line, parse text row file vocabulary = .ok line ∧
      (line.invalid = false ↔ Accepted vocabulary text.toList) := by
  let source : Source := ⟨file, vocabulary, 0⟩
  exact ⟨source.line text row, source.parse_eq_ok h row, invalid_read_eq_false_iff _ _ _⟩

/-- A sign of equality and a quoted sound without a blank between them, a signed volume with a
leading zero and an empty comment make a right row; a volume of 301 does not. -/
theorem parse_valid_iff_alert :
    (IsRow "\tPlayAlertSound =\"ShVaal\" +0300 #" ∧ IsRow "\tPlayAlertSound =\"ShVaal\" +0301 #") ∧
      Accepted .builtin "\tPlayAlertSound =\"ShVaal\" +0300 #".toList ∧
      ¬ Accepted .builtin "\tPlayAlertSound =\"ShVaal\" +0301 #".toList := by
  have hrow : IsRow "\tPlayAlertSound =\"ShVaal\" +0300 #" := by decide
  have hrow' : IsRow "\tPlayAlertSound =\"ShVaal\" +0301 #" := by decide
  have hread : (parse "\tPlayAlertSound =\"ShVaal\" +0300 #" 7 none .builtin).map invalid =
      .ok false := by decide +kernel
  have hread' : (parse "\tPlayAlertSound =\"ShVaal\" +0301 #" 7 none .builtin).map invalid =
      .ok true := by decide +kernel
  obtain ⟨line, hline, hvalid⟩ := parse_valid_iff hrow 7 none .builtin
  obtain ⟨line', hline', hvalid'⟩ := parse_valid_iff hrow' 7 none .builtin
  rw [hline] at hread
  rw [hline'] at hread'
  refine ⟨⟨hrow, hrow'⟩, hvalid.1 (Except.ok.inj hread), fun haccepted => ?_⟩
  have hfalse := hvalid'.2 haccepted
  rw [show line'.invalid = true from Except.ok.inj hread'] at hfalse
  cases hfalse

end Line

end ItemFilter
