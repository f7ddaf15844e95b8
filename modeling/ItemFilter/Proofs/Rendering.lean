import ItemFilter.Proofs.Solutions
import ItemFilter.Proofs.Storage

/-!
# Summaries can be read again

The summary of a valid rule, without the word in front that says whether it is a condition or an
action, is itself a row, and says the same as the row that was summed up (`Line.parse_summary`).

Each part of a summary spells the part of the argument that it was made of: numbers in the decimal
system (`spellsInteger_toString`), strings in quotes (`spellsString_quoted`), and the others as they
are. So the parts of an argument spell that argument (`Pattern.Spells.render`), and since one blank
is enough between tokens, a text that says something can be written anew from what it says
(`RuleName.Says.render`). The name of a sound is written without quotes, which is why it has to be
one that needs none (`IsPlainName`).
-/

namespace ItemFilter

open Text Lexeme

/-! ## Spelling -/

namespace Lexeme

/-- The decimal digits of a natural number spell it. -/
theorem isDigits_repr (n : Nat) : IsDigits n.repr.toList ∧ digitsValue n.repr.toList = n := by
  rw [Nat.repr_eq_ofList_toDigits, String.toList_ofList]
  refine ⟨⟨Nat.toDigits_ne_nil, fun d hd => Nat.isDigit_of_mem_toDigits (by omega) (by omega) hd⟩,
    ?_⟩
  rw [digitsValue, ← Nat.ofDigitChars_eq_foldl, Nat.ofDigitChars_ten_toDigits]

/-- An integer is spelled by its decimal numeral. -/
theorem spellsInteger_toString (n : Int) : SpellsInteger (toString n).toList n := by
  rw [Int.toString_eq_repr]
  cases n with
  | ofNat m =>
    obtain ⟨hdigits, hvalue⟩ := isDigits_repr m
    have hspells := SpellsInteger.unsigned hdigits
    rwa [hvalue] at hspells
  | negSucc m =>
    obtain ⟨hdigits, hvalue⟩ := isDigits_repr (m + 1)
    have hspells := SpellsInteger.negative hdigits
    rw [hvalue] at hspells
    show SpellsInteger ("-" ++ (m + 1).repr).toList (Int.negSucc m)
    rw [String.toList_append]
    exact hspells

/-- The value of a number token is spelled by its decimal numeral. -/
theorem SpellsNumber.toString {token : List Char} {n : Int} (h : SpellsNumber token n) :
    SpellsNumber (toString n).toList n := by
  obtain ⟨m, -, rfl⟩ := h
  refine ⟨_, spellsInteger_toString _, ?_⟩
  unfold clampInt64 int64Min int64Max
  omega

/-- The value of a number token is spelled by its digits if it is a natural number. -/
theorem SpellsNumber.toString_nat {token : List Char} {n : Nat} (h : SpellsNumber token n) :
    SpellsNumber (ToString.toString n).toList n := h.toString

/-- A string holds no quote. -/
theorem SpellsString.not_mem_quote {token : List Char} {value : String}
    (h : SpellsString token value) : '"' ∉ value.toList :=
  fun hquote => (h.mem_token hquote).1 rfl

/-- A bare string spells itself. -/
theorem spellsString_of_isBareString {value : String} (h : IsBareString value.toList) :
    SpellsString value.toList value := by
  have hspells := SpellsString.bare h
  rwa [String.ofList_toList] at hspells

end Lexeme

/-- The capital letters of a group of sockets are a group of sockets, are a bare string and are
their own capital letters. -/
theorem IsSocketGroup.capitals {group : String} (h : IsSocketGroup group) :
    IsSocketGroup (String.ofList (group.toList.map Char.toUpper)) ∧
      IsBareString (group.toList.map Char.toUpper) ∧
      (group.toList.map Char.toUpper).map Char.toUpper = group.toList.map Char.toUpper := by
  obtain ⟨hpos, hlength, hcolors⟩ := h
  have hall : "RGBWrgbw".toList.all (fun c => "RGBWrgbw".toList.elem c.toUpper &&
      isBare c.toUpper && c.toUpper != '#' && c.toUpper.toUpper == c.toUpper) = true := by
    decide
  have hcapital (c : Char) (hc : c ∈ group.toList) :
      c.toUpper ∈ "RGBWrgbw".toList ∧ isBare c.toUpper = true ∧ c.toUpper ≠ '#' ∧
        c.toUpper.toUpper = c.toUpper := by
    have hchecked := List.all_eq_true.1 hall c (hcolors c hc)
    simpa only [Bool.and_eq_true, List.elem_eq_mem, decide_eq_true_eq, bne_iff_ne, beq_iff_eq,
      and_assoc] using hchecked
  have hmem {P : Char → Prop} (h : ∀ c ∈ group.toList, P c.toUpper) :
      ∀ c ∈ group.toList.map Char.toUpper, P c := List.forall_mem_map.2 h
  refine ⟨⟨?_, ?_, ?_⟩, ⟨?_, ?_, ?_⟩, ?_⟩
  · rwa [String.toList_ofList, List.length_map]
  · rwa [String.toList_ofList, List.length_map]
  · rw [String.toList_ofList]
    exact hmem fun c hc => (hcapital c hc).1
  · rw [← List.length_pos_iff, List.length_map]
    exact hpos
  · intro hhead
    exact hmem (P := (· ≠ '#')) (fun c hc => (hcapital c hc).2.2.1) '#'
      (List.mem_of_head? hhead) rfl
  · exact hmem fun c hc => (hcapital c hc).2.1
  · rw [List.map_map]
    exact List.map_congr_left fun c hc => (hcapital c hc).2.2.2

/-- A name can stand in the place of a sound without quotes: it is not empty, holds no blank and no
comparison sign, does not start like a comment, and does not spell an integer. -/
def IsPlainName (name : String) : Prop :=
  name ≠ "" ∧ (∀ c ∈ name.toList, isBlank c = false ∧ isComparison c = false) ∧
    name.toList.head? ≠ some '#' ∧ ¬ ∃ n, SpellsInteger name.toList n

/-- A plain name without quotes is a bare string. -/
theorem IsPlainName.isBareString {name : String} (h : IsPlainName name)
    (hquote : '"' ∉ name.toList) : IsBareString name.toList := by
  obtain ⟨hne, hchars, hhash, -⟩ := h
  refine ⟨fun hnil => hne (String.toList_eq_nil_iff.1 hnil), hhash, fun c hc => ?_⟩
  obtain ⟨hblank, hcomparison⟩ := hchars c hc
  refine isBare_iff.2 ⟨hblank, ?_, hcomparison⟩
  rintro rfl
  exact hquote hc

/-! ## Arguments -/

/-- The name of the sound that an argument is, if it is a sound that has a name. -/
def Argument.soundName? : Argument → Option String
  | .sound (some ⟨⟨.named name, _⟩, _⟩) => some name
  | _ => none

/-- The name of a sound does not depend on where it stands. -/
theorem Argument.soundName?_unplaced (a : Argument) : a.unplaced.soundName? = a.soundName? := by
  cases a with
  | sound s =>
    rcases s with _ | ⟨⟨_ | _, _⟩, _⟩
    · rfl
    · rfl
    · rfl
  | _ => rfl

/-- The parts of a list of names are the names in quotes. -/
theorem Argument.parts_names {values : List String} (hne : values ≠ []) :
    (Argument.names (values.map .nowhere)).parts = values.map quoted := by
  obtain ⟨value, values, rfl⟩ := List.exists_cons_of_ne_nil hne
  simp [parts, Token.nowhere, Function.comp_def]

/-- The parts of a colour are its channels in the decimal system. -/
theorem Argument.parts_color (r g b : UInt8) (alpha : Option UInt8) :
    (Argument.color (some ⟨.nowhere r, .nowhere g, .nowhere b, alpha.map .nowhere⟩)).parts =
      ([r, g, b] ++ alpha.toList).map fun n => toString n.toNat := by
  cases alpha <;> rfl

/-- The parts of an alert sound are the sound and its volume in the decimal system. -/
theorem Argument.parts_sound (id : SoundId) (volume : Option UInt16) :
    (Argument.sound (some ⟨.nowhere id, volume.map .nowhere⟩)).parts =
      id.text :: volume.toList.map fun n => toString n.toNat := by
  cases volume <;> rfl

namespace Pattern.Spells

variable {vocabulary : Vocabulary} {pattern : Pattern} {tokens : List (List Char)} {a : Argument}

/-- If a value that has a token is written as a token of it, so are all values of a list. -/
theorem render_all {α : Type} {Spells : List Char → α → Prop} {write : α → List Char}
    {values : List α} (h : List.Forall₂ Spells tokens values)
    (hwrite : ∀ token value, Spells token value → Spells (write value) value) :
    List.Forall₂ Spells (values.map write) values := by
  induction h with
  | nil => exact .nil
  | cons hspells _ ih => exact .cons (hwrite _ _ hspells) ih

/-- The text of a sound spells it. -/
theorem render_sound {token : List Char} {id : SoundId} (h : vocabulary.SpellsSound token id)
    (hplain : ∀ name, id = .named name → IsPlainName name) :
    vocabulary.SpellsSound id.text.toList id := by
  cases h with
  | numbered hspells hcontains => exact .numbered hspells.toString hcontains
  | named _ hspells hknown =>
    have hname := hplain _ rfl
    exact .named hname.2.2.2
      (spellsString_of_isBareString (hname.isBareString hspells.not_mem_quote)) hknown

/-- The parts of an argument spell the argument. -/
theorem render (h : pattern.Spells vocabulary tokens a)
    (hplain : ∀ name ∈ a.soundName?, IsPlainName name) :
    pattern.Spells vocabulary (a.parts.map String.toList) a := by
  cases h with
  | number hspells hcontains => exact .number hspells.toString hcontains
  | rarity hspells => exact .rarity (Rarity.spellsString_name _)
  | @socketGroup _ group hspells hgroup =>
    obtain ⟨hcapitals, hbare, hsame⟩ := hgroup.capitals
    generalize group.toList.map Char.toUpper = letters at hcapitals hbare hsame ⊢
    rw [← String.toList_ofList (l := letters)] at hbare hsame
    have hwritten : Pattern.socketGroup.Spells vocabulary _ _ :=
      .socketGroup (spellsString_of_isBareString hbare) hcapitals
    rw [hsame, String.ofList_toList] at hwritten
    exact hwritten
  | @boolean _ b hspells =>
    refine .boolean (.bare ?_)
    cases b
    · rfl
    · rfl
  | @names _ _ values hspells hne haccepts =>
    rw [Argument.parts_names hne, List.map_map]
    exact .names (render_all hspells fun _ _ h => spellsString_quoted h.not_mem_quote) hne haccepts
  | @color _ _ _ _ r g b alpha hred hgreen hblue halpha =>
    rw [Argument.parts_color, List.map_map]
    exact .color hred.toString_nat hgreen.toString_nat hblue.toString_nat
      (render_all halpha fun _ _ h => SpellsNumber.toString_nat h)
  | @sound _ _ id volume hid hvolume hcontains =>
    rw [Argument.parts_sound, List.map_cons, List.map_map]
    refine .sound (render_sound hid fun name hname => ?_)
      (render_all hvolume fun _ _ h => SpellsNumber.toString_nat h) hcontains
    subst hname
    exact hplain name rfl
  | fontSize hspells hcontains => exact .fontSize hspells.toString hcontains
  | soundFile hspells hvisible =>
    exact .soundFile (spellsString_quoted hspells.not_mem_quote) hvisible
  | flag => exact .flag

/-- Every value that tokens spell is spelled by one of them. -/
theorem exists_token {values : List String} (h : List.Forall₂ SpellsString tokens values)
    {value : String} (hvalue : value ∈ values) : ∃ token ∈ tokens, SpellsString token value := by
  induction h with
  | nil => cases hvalue
  | @cons token _ tokens _ hspells _ ih =>
    rcases List.mem_cons.1 hvalue with rfl | hvalue
    · exact ⟨token, List.mem_cons_self, hspells⟩
    · obtain ⟨token, htoken, hstring⟩ := ih hvalue
      exact ⟨token, List.mem_cons_of_mem _ htoken, hstring⟩

/-- Each character of a part of an argument is one that is not blank, or one of a token that spells
the argument. -/
theorem mem_parts (h : pattern.Spells vocabulary tokens a)
    (hplain : ∀ name ∈ a.soundName?, IsPlainName name) :
    ∀ part ∈ a.parts, ∀ c ∈ part.toList, isBlank c = false ∨ ∃ token ∈ tokens, c ∈ token := by
  have hnumeral (n : Int) : ∀ c ∈ (toString n).toList, isBlank c = false :=
    (spellsInteger_toString n).isBareString.isBlank_eq_false
  have hquoted {token : List Char} {value : String} (hspells : SpellsString token value) :
      ∀ c ∈ (quoted value).toList, isBlank c = false ∨ c ∈ token := by
    intro c hc
    rcases mem_quoted_iff.1 hc with rfl | hc
    · exact .inl (by decide)
    · exact .inr (hspells.mem_token hc).2
  intro part hpart c hc
  cases h with
  | number _ _ | fontSize _ _ =>
    obtain rfl := List.mem_singleton.1 hpart
    exact .inl (hnumeral _ c hc)
  | rarity hspells =>
    obtain rfl := List.mem_singleton.1 hpart
    exact .inr ⟨_, List.mem_singleton_self _, (hspells.mem_token hc).2⟩
  | socketGroup _ hgroup =>
    obtain rfl := List.mem_singleton.1 hpart
    have hletter : c ∈ (String.ofList _).toList := hc
    rw [String.toList_ofList] at hletter
    exact .inl (hgroup.capitals.2.1.isBlank_eq_false c hletter)
  | @boolean _ b _ =>
    obtain rfl := List.mem_singleton.1 hpart
    have hall : (if b then "true" else "false").toList.all (fun c => !isBlank c) = true := by
      cases b <;> decide
    exact .inl (by simpa using List.all_eq_true.1 hall c hc)
  | names hspells hne _ =>
    rw [Argument.parts_names hne] at hpart
    obtain ⟨value, hvalue, rfl⟩ := List.mem_map.1 hpart
    obtain ⟨token, htoken, hstring⟩ := exists_token hspells hvalue
    rcases hquoted hstring c hc with hvisible | hmem
    · exact .inl hvisible
    · exact .inr ⟨token, htoken, hmem⟩
  | color _ _ _ _ =>
    rw [Argument.parts_color] at hpart
    obtain ⟨channel, -, rfl⟩ := List.mem_map.1 hpart
    exact .inl (hnumeral channel.toNat c hc)
  | sound hid _ _ =>
    rw [Argument.parts_sound] at hpart
    rcases List.mem_cons.1 hpart with rfl | hpart
    · cases hid with
      | @numbered number _ _ => exact .inl (hnumeral number.toNat c hc)
      | @named name _ _ _ => exact .inl ((hplain name rfl).2.1 c hc).1
    · obtain ⟨volume, -, rfl⟩ := List.mem_map.1 hpart
      exact .inl (hnumeral volume.toNat c hc)
  | soundFile hspells _ =>
    obtain rfl := List.mem_singleton.1 hpart
    rcases hquoted hspells c hc with hvisible | hmem
    · exact .inl hvisible
    · exact .inr ⟨_, List.mem_singleton_self _, hmem⟩
  | flag => cases hpart

end Pattern.Spells

/-! ## Rules -/

/-- The comment of a text, behind one blank, is the comment of what it is written in now. -/
theorem comment?_spaced {cs : List Char} {comment : Option String} (h : comment? cs = comment) :
    comment? (spaced comment.toList) = comment ∧ Ignorable (spaced comment.toList) := by
  cases comment with
  | none => exact ⟨rfl, [], [], nofun, rfl, .inl rfl⟩
  | some text =>
    unfold comment? at h
    split_ifs at h with hhash
    obtain rfl := Option.some.inj h
    generalize trimStart cs = body at hhash
    -- The sign at the start is not among the blanks that are trimmed at the end.
    have hhead : (trimEnd body).head? = some '#' := head?_trimEnd hhash (by decide)
    have hspaced : spaced (some (String.ofList (trimEnd body))).toList =
        [' '] ++ trimEnd body := by
      simp [spaced]
    have hstart : trimStart ([' '] ++ trimEnd body) = trimEnd body := by
      refine dropWhile_append_of_stop (List.forall_mem_singleton.2 (by decide)) fun c hc => ?_
      obtain rfl : '#' = c := Option.some.inj (hhead.symm.trans hc)
      decide
    rw [hspaced]
    refine ⟨?_, [' '], trimEnd body, List.forall_mem_singleton.2 (by decide), rfl, .inr hhead⟩
    rw [comment?, hstart, if_pos hhead, trimEnd_eq_self (getLast?_trimEnd body)]

namespace RuleName.Says

variable {name : RuleName} {vocabulary : Vocabulary} {cs : List Char} {operator : Option Operator}
  {a : Argument} {comment : Option String}

/-- What is said behind a keyword, part by part. -/
def parts (operator : Option Operator) (a : Argument) (comment : Option String) : List String :=
  (operator.map Operator.symbol).toList ++ (a.parts ++ comment.toList)

/-- What a text says is said by its parts with one blank in front of each. -/
theorem render (h : name.Says vocabulary cs operator a comment)
    (hplain : ∀ sound ∈ a.soundName?, IsPlainName sound) :
    name.Says vocabulary (spaced (parts operator a comment)) operator a comment := by
  obtain ⟨rest, tokens, tail, hheads, hspells, -, -, hcomment⟩ := h
  obtain ⟨hsame, hignorable⟩ := comment?_spaced hcomment
  have hboundary : atBoundary (spaced comment.toList) = true := by
    rw [← List.append_nil (spaced comment.toList)]
    exact atBoundary_spaced comment.toList rfl
  have hlined : Lined (a.parts.map String.toList) (spaced (a.parts ++ comment.toList))
      (spaced comment.toList) := by
    have hspaced : spaced (a.parts ++ comment.toList) =
        spaced a.parts ++ spaced comment.toList := List.flatMap_append
    rw [hspaced]
    exact lined_spaced a.parts hboundary
  refine ⟨spaced (a.parts ++ comment.toList), _, _, ?_, hspells.render hplain, hlined, hignorable,
    hsame⟩
  cases hheads with
  | absent => exact .absent
  | @present op _ hpermitted _ _ =>
    refine .present hpermitted ⟨[' '], List.forall_mem_singleton.2 (by decide), ?_⟩ ?_
    · simp [parts, spaced]
    · -- A blank or the end is behind the operator.
      cases a.parts ++ comment.toList with
      | nil => exact stops_nil
      | cons part rest => exact stops_cons.2 (by decide)

/-- Each character of what is said is one that is not blank, or one of the text. -/
theorem mem_parts (h : name.Says vocabulary cs operator a comment)
    (hplain : ∀ sound ∈ a.soundName?, IsPlainName sound) :
    ∀ part ∈ parts operator a comment, ∀ c ∈ part.toList, isBlank c = false ∨ c ∈ cs := by
  obtain ⟨rest, tokens, tail, hheads, hspells, hlined, -, hcomment⟩ := h
  have hrest {c : Char} (hc : c ∈ rest) : c ∈ cs := by
    cases hheads with
    | absent => exact hc
    | present _ hstarts _ =>
      obtain ⟨blanks, -, rfl⟩ := hstarts
      exact List.mem_append_right _ hc
  intro part hpart c hc
  rcases List.mem_append.1 hpart with hpart | hpart
  · -- An operator is made of comparison signs.
    cases operator with
    | none => cases hpart
    | some op =>
      obtain rfl := List.mem_singleton.1 hpart
      have hcomparison := isComparison_of_mem_symbol op c hc
      refine .inl (Bool.eq_false_of_not_eq_true fun hblank => ?_)
      rw [isComparison_of_isBlank hblank] at hcomparison
      cases hcomparison
  · rcases List.mem_append.1 hpart with hpart | hpart
    · rcases hspells.mem_parts hplain part hpart c hc with hvisible | htoken
      · exact .inl hvisible
      · exact .inr (hrest (hlined.mem (.inl htoken)))
    · -- A comment is a part of the tail.
      obtain rfl := Option.mem_toList.1 hpart
      unfold comment? at hcomment
      split_ifs at hcomment
      obtain rfl := Option.some.inj hcomment
      rw [String.toList_ofList] at hc
      obtain ⟨blanks, hbody, -⟩ := exists_trimEnd (trimStart tail)
      have hmem : c ∈ trimStart tail := by
        rw [hbody]
        exact List.mem_append_left _ hc
      exact .inr (hrest (hlined.mem (.inr ((List.dropWhile_suffix _).subset hmem))))

end RuleName.Says

/-! ## Rows -/

namespace Line

/-- The parts of what is said on a row, behind the keyword and with one blank in front of each, make
a row. -/
theorem isRow_render {name : RuleName} {vocabulary : Vocabulary} {cs : List Char}
    {operator : Option Operator} {a : Argument} {comment : Option String}
    (h : name.Says vocabulary cs operator a comment)
    (hplain : ∀ sound ∈ a.soundName?, IsPlainName sound)
    (hrow : ∀ c ∈ cs, isLineBreak c = false) :
    IsRow (" ".intercalate (name.name :: RuleName.Says.parts operator a comment)) := by
  refine isRow_intercalate (isRow_name name) fun part hpart c hc => ?_
  rcases h.mem_parts hplain part hpart c hc with hvisible | hmem
  · exact isLineBreak_of_visible hvisible
  · exact hrow c hmem

/-- The summary of a valid rule, without its first word, is read without a report, on whatever row
and of whatever file. It is the same rule with the same operator, argument and comment, and has the
same summary. Excepted are sounds whose name needs quotes. -/
theorem parse_summary {text : String} {row : Nat} {file : Option String} {vocabulary : Vocabulary}
    {line : Line} {r : Rule} (hline : parse text row file vocabulary = .ok line)
    (hrule : line.kind = .rule r) (hvalid : line.invalid = false)
    (hplain : ∀ sound ∈ r.argument.soundName?, IsPlainName sound) :
    ∃ summed, line.summary = r.name.value.family ++ " " ++ summed ∧
      ∀ row' file', ∃ line', parse summed row' file' vocabulary = .ok line' ∧
        line'.messages = .none ∧ line'.kind.unplaced = line.kind.unplaced ∧
        line'.summary = line.summary := by
  obtain ⟨hrow, rfl⟩ := eq_read_of_parse hline
  obtain ⟨cs, operator, a, comment, hstarts, hsaid, hkind⟩ := exists_said hrule hvalid
  have hargument : r.argument.unplaced = a :=
    congrArg Rule.argument (LineKind.rule.inj hkind)
  rw [← r.argument.soundName?_unplaced, hargument] at hplain
  have hbreaks : ∀ c ∈ cs, isLineBreak c = false := by
    obtain ⟨blanks, -, htext⟩ := hstarts
    intro c hc
    refine hrow c ?_
    rw [show text.toList = blanks ++ r.name.value.name.toList ++ cs from htext]
    exact List.mem_append_right _ hc
  refine ⟨" ".intercalate (r.name.value.name :: RuleName.Says.parts operator a comment), ?_, ?_⟩
  · -- The summary is made of the same parts, behind its first word.
    have hparts : (LineKind.rule r).parts =
        r.name.value.family :: r.name.value.name :: RuleName.Says.parts operator a comment := by
      rw [← LineKind.parts_unplaced, hkind]
      cases operator <;> cases comment <;> simp [LineKind.parts, Rule.said, RuleName.Says.parts,
        Token.nowhere]
    rw [summary, hrule, hvalid, hparts, if_neg Bool.false_ne_true, List.append_nil]
    exact String.intercalate_cons_cons
  · intro row' file'
    obtain ⟨line', hline', hvalid', hmessages, hkind'⟩ :=
      parse_of_said r.name.value (isRow_render hsaid hplain hbreaks) (hsaid.render hplain) row'
        file'
    have hsame : line'.kind.unplaced =
        (read ⟨row, text.toList, 0⟩ file vocabulary).kind.unplaced := by
      rw [hkind', hrule, hkind]
    exact ⟨line', hline', hmessages, hsame,
      summary_of_unplaced hsame (hvalid'.trans hvalid.symm)⟩

/-- A sound whose name is in quotes, a volume with needless digits, and a comment between blanks. -/
def quotedSound : String := "\tPlayAlertSound =\"ShVaal\"  +0150 \t# a \"b  "

/-- The rule of this row. -/
def quotedSoundRule : Rule :=
  ⟨⟨.action .playAlertSound, .onRow 2 1 15⟩, some ⟨.equal, .onRow 2 16 17⟩,
    .sound (some ⟨⟨.named "ShVaal", .onRow 2 17 25⟩, some ⟨150, .onRow 2 27 32⟩⟩),
    some ⟨"# a \"b", .onRow 2 34 40⟩⟩

/-- The summary has the name without quotes and the volume in its shortest form, and is read as the
same alert sound. -/
theorem parse_summary_quotedSound :
    ∃ line, (parse quotedSound 2 none .builtin = .ok line ∧ line.kind = .rule quotedSoundRule ∧
      line.invalid = false ∧ ∀ sound ∈ quotedSoundRule.argument.soundName?, IsPlainName sound) ∧
      line.summary = "action PlayAlertSound = ShVaal 150 # a \"b" ∧
      ∃ line', parse "PlayAlertSound = ShVaal 150 # a \"b" 9 (some "f") .builtin = .ok line' ∧
        line'.messages = .none ∧ line'.kind.unplaced = (LineKind.rule quotedSoundRule).unplaced ∧
        line'.summary = line.summary := by
  have hline := Source.parse_eq_ok ⟨none, .builtin, 0⟩ (show IsRow quotedSound by decide) 2
  have hkind :
      ((⟨none, .builtin, 0⟩ : Source).line quotedSound 2).kind = .rule quotedSoundRule := by
    decide +kernel
  have hvalid : ((⟨none, .builtin, 0⟩ : Source).line quotedSound 2).invalid = false := by
    decide +kernel
  have hplain : ∀ sound ∈ quotedSoundRule.argument.soundName?, IsPlainName sound := by
    rintro _ ⟨⟩
    have hchars : "ShVaal".toList.all (fun c => !isBlank c && !isComparison c) = true := by decide
    refine ⟨by decide, fun c hc => ?_, by decide, ?_⟩
    · simpa using List.all_eq_true.1 hchars c hc
    · rintro ⟨n, hn⟩
      cases integer?_eq_some_iff.2 hn
  have hsummary : ((⟨none, .builtin, 0⟩ : Source).line quotedSound 2).summary =
      "action PlayAlertSound = ShVaal 150 # a \"b" := by
    decide +kernel
  obtain ⟨summed, hsummed, hread⟩ := parse_summary hline hkind hvalid hplain
  have htext : "PlayAlertSound = ShVaal 150 # a \"b" = summed := by
    rw [hsummary] at hsummed
    exact String.append_right_inj "action " |>.1 hsummed
  subst htext
  rw [hkind] at hread
  exact ⟨_, ⟨hline, hkind, hvalid, hplain⟩, hsummary, hread 9 (some "f")⟩

end Line

end ItemFilter
