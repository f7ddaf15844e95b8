import ItemFilter.Line.Ranges
import ItemFilter.Proofs.Tiling
import ItemFilter.Proofs.Validity

/-!
# Where the parts of a rule stand

What is stored of a rule is spelled where it is said to stand, and what is not stored was reported.

A draft traces the text behind its keyword (`Draft.Traces`): the operator and the arguments that
were read tile what is behind the cursor, whether they can be used or not, and no report leaves the
row. Every step of reading keeps this, and a step that reads an argument adds its range. Where an
argument may turn out to be of no use, the step also says that it is kept unless an error is
reported (`Draft.Gains`).

The outcome of a rule is traced in turn (`Outcome.Traced`): the ranges that it stores are among the
tiles, and they are all of the tiles if there is no error. There is one lemma for each shape of
rule, and `Draft.traced_argument` puts them together.
-/

namespace ItemFilter

open Text Lexeme

/-! ## Spelling in place -/

/-- A text spells a group of sockets: letters, bare or in one pair of quotes, whose capital forms
are the group. -/
def SpellsSockets (token : List Char) (group : String) : Prop :=
  ∃ letters, SpellsString token (String.ofList letters) ∧ (∀ c ∈ letters, c.isAlpha = true) ∧
    group = String.ofList (letters.map Char.toUpper)

/-- A text spells the value of a colour channel. -/
def SpellsChannel (token : List Char) (n : UInt8) : Prop := SpellsNumber token n.toNat

/-- A text spells a volume. -/
def SpellsVolume (token : List Char) (n : UInt16) : Prop := SpellsNumber token n.toNat

/-- A text spells a sound by its number or by its name. -/
def SpellsSound (token : List Char) : SoundId → Prop
  | .named name => SpellsString token name
  | .numbered number => SpellsNumber token number.toNat

/-- The text in the range of a token spells the token's value. -/
def Token.Spelled {α : Type} (text : List Char) (Spells : List Char → α → Prop) (t : Token α) :
    Prop :=
  Spells (t.range.cut text) t.value

/-- Every token of an argument is spelled in its range. -/
def Argument.Spelled (text : List Char) : Argument → Prop
  | number token => ∀ t ∈ token, t.Spelled text SpellsNumber
  | rarity token => ∀ t ∈ token, t.Spelled text fun cs rarity => SpellsString cs rarity.name
  | socketGroup token => ∀ t ∈ token, t.Spelled text SpellsSockets
  | boolean token => ∀ t ∈ token, t.Spelled text SpellsBoolean
  | names tokens => ∀ t ∈ tokens, t.Spelled text SpellsString
  | color c =>
    ∀ k ∈ c, ∀ t ∈ [k.red, k.green, k.blue] ++ k.alpha.toList, t.Spelled text SpellsChannel
  | sound s =>
    ∀ k ∈ s, k.id.Spelled text SpellsSound ∧ ∀ t ∈ k.volume, t.Spelled text SpellsVolume
  | fontSize token => ∀ t ∈ token, t.Spelled text SpellsNumber
  | soundFile token => ∀ t ∈ token, t.Spelled text SpellsString
  | flag => True

/-! ## Messages on a row -/

namespace Messages

/-- All diagnostics lie on a row of a given width. -/
def Within (row width : Nat) (m : Messages) : Prop :=
  ∀ x ∈ m.toList, x.2.range.Within row width

/-- Where nothing is reported, everything lies on the row. -/
theorem within_none (row width : Nat) : Messages.none.Within row width := nofun

/-- What is there after a report was there before, or is what is reported. -/
theorem mem_toList_report {m : Messages} {file : Option String} {problem : Problem} {range : Range}
    {x : Severity × Diagnostic} (h : x ∈ (m.report file problem range).toList) :
    x ∈ m.toList ∨ x = (problem.severity, problem.diagnostic file range) := by
  unfold report at h
  cases hseverity : problem.severity <;> rw [hseverity] at h
  all_goals
    simp only [push, toList, List.map_append, List.mem_append, List.map_cons, List.map_nil,
      List.mem_singleton] at h ⊢
    tauto

/-- A report on the row keeps all diagnostics there. -/
theorem Within.report {row width : Nat} {m : Messages} (h : m.Within row width)
    {range : Range} (hrange : range.Within row width) (file : Option String) (problem : Problem) :
    (m.report file problem range).Within row width := by
  intro x hx
  rcases mem_toList_report hx with hold | rfl
  · exact h x hold
  · exact hrange

end Messages

/-! ## Drafts -/

namespace Draft

variable {α : Type} {c : Cursor} {values : List Range} {d d' : Draft}

/-- The ranges of the operator of a rule, of which there is one at most. -/
def operatorRanges (operator : Option (Token Operator)) : List Range :=
  (operator.map Token.range).toList

/-- A draft traces the text from a place behind the keyword: it has moved over an operator or none,
and then over arguments with these ranges. -/
structure Traces (c : Cursor) (values : List Range) (d : Draft) : Prop where
  /-- The operator and the arguments tile what is behind the cursor. -/
  reaches : c.Reaches (operatorRanges d.operator ++ values) d.cursor
  /-- The cursor is on the row. -/
  column_le : d.cursor.column ≤ c.text.length
  /-- The operator is spelled where it stands. -/
  operator : ∀ op ∈ d.operator, op.Spelled c.text SpellsOperator
  /-- All reports lie on the row. -/
  within : d.messages.Within c.row c.text.length
  /-- Nothing but errors is reported. -/
  quiet : d.Clean → d.messages = .none

/-- A draft that was just started traces nothing. -/
theorem traces_start (hcolumn : c.column ≤ c.text.length) (keyword : String)
    (file : Option String) : (Draft.start c keyword file).Traces c [] where
  reaches := .refl c
  column_le := hcolumn
  operator := nofun
  within := Messages.within_none _ _
  quiet _ := rfl

namespace Traces

/-- What was read lies on the row. -/
theorem within_of_mem (h : d.Traces c values) {r : Range}
    (hr : r ∈ operatorRanges d.operator ++ values) : r.Within c.row c.text.length :=
  (h.reaches.tiled.mem hr).1

/-- An argument that was read lies on the row. -/
theorem within_value (h : d.Traces c values) {r : Range} (hr : r ∈ values) :
    r.Within c.row c.text.length :=
  h.within_of_mem (List.mem_append_right _ hr)

/-- An operator that was read lies on the row. -/
theorem within_operator (h : d.Traces c values) {op : Token Operator} (hop : d.operator = some op) :
    op.range.Within c.row c.text.length :=
  h.within_of_mem (List.mem_append_left _ (by rw [hop]; exact List.mem_singleton_self _))

/-- Reporting an error on the row. -/
theorem report (h : d.Traces c values) {problem : Problem} {range : Range}
    (hseverity : problem.severity = .error) (hrange : range.Within c.row c.text.length) :
    (d.report problem range).Traces c values where
  reaches := h.reaches
  column_le := h.column_le
  operator := h.operator
  within := h.within.report hrange _ _
  quiet hclean := absurd hclean (not_clean_report hseverity)

/-- Reporting that something is missing. -/
theorem missing (h : d.Traces c values) {problem : Problem}
    (hseverity : problem.severity = .error) : (d.missing problem).Traces c values := by
  apply h.report hseverity
  have hcolumn : d.cursor.column ≤ d.cursor.text.length := by
    rw [h.reaches.text_eq]
    exact h.column_le
  have hrange : d.cursor.restOfLine.Within d.cursor.row d.cursor.text.length :=
    Range.within_onRow (Cursor.nextColumn_le_length hcolumn) le_rfl
  rw [← h.reaches.row_eq, ← h.reaches.text_eq]
  exact hrange

/-! ### Operators -/

/-- Reading an operator in front of all arguments. -/
theorem anyOperator (h : d.Traces c []) (hnone : d.operator = none) :
    d.anyOperator.Traces c [] := by
  have hreaches : c.Reaches [] d.cursor := by
    have hreaches := h.reaches
    rwa [hnone] at hreaches
  unfold Draft.anyOperator Draft.take
  cases hnext : d.cursor.next operator? with
  | none => exact ⟨hreaches, h.column_le, nofun, h.within, h.quiet⟩
  | some found =>
    obtain ⟨op, cursor⟩ := found
    obtain ⟨hmoves, hspells⟩ :=
      Cursor.next_reaches recognises_operator (fun hop => hop ▸ isVisible_symbol _) hnext
    have htrans := hreaches.trans hmoves
    have hcolumn : cursor.column ≤ c.text.length := by
      have hle := hmoves.tiled.le_length (by rw [hreaches.text_eq]; exact h.column_le)
      rwa [hreaches.text_eq] at hle
    refine ⟨htrans, hcolumn, ?_, h.within, h.quiet⟩
    rintro op' ⟨⟩
    rw [Token.Spelled, ← hreaches.text_eq]
    exact hspells

/-- Reading an operator that may be the equality sign only. -/
theorem equalityOperator (h : d.Traces c []) (hnone : d.operator = none) :
    d.equalityOperator.Traces c [] := by
  have hany := h.anyOperator hnone
  unfold Draft.equalityOperator
  dsimp only
  split
  · exact hany
  · rename_i op hop
    split_ifs
    · exact hany
    · exact hany.report rfl (hany.within_operator hop)

/-- Reading an operator where there may be none. -/
theorem noOperator (h : d.Traces c []) (hnone : d.operator = none) :
    d.noOperator.Traces c [] := by
  have hany := h.anyOperator hnone
  unfold Draft.noOperator
  dsimp only
  split
  · exact hany
  · rename_i op hop
    exact hany.report rfl (hany.within_operator hop)

/-! ### Arguments -/

/-- Moving on over further arguments. -/
theorem move (h : d.Traces c values) {ranges : List Range} {cursor : Cursor}
    (hmoves : d.cursor.Reaches ranges cursor) :
    ({ d with cursor } : Draft).Traces c (values ++ ranges) where
  reaches := by
    have htrans := h.reaches.trans hmoves
    rwa [List.append_assoc] at htrans
  column_le := by
    have hle := hmoves.tiled.le_length (by rw [h.reaches.text_eq]; exact h.column_le)
    rwa [h.reaches.text_eq] at hle
  operator := h.operator
  within := h.within
  quiet := h.quiet

variable {recognise : List Char → Option (Lexeme α)} {Spells : List Char → α → Prop}

/-- Reading an argument that may be missing. -/
theorem take (h : d.Traces c values) (hreads : Reads recognise Spells) :
    (∃ t d', d.take recognise = (some t, d') ∧ d'.Traces c (values ++ [t.range]) ∧
      d'.messages = d.messages ∧ t.Spelled c.text Spells) ∨
    d.take recognise = (none, d) := by
  unfold Draft.take
  cases hnext : d.cursor.next recognise with
  | none => exact .inr rfl
  | some found =>
    obtain ⟨t, cursor⟩ := found
    obtain ⟨hmoves, hspells⟩ := Cursor.next_reaches hreads.recognises
      (fun hspells => (hreads.isString hspells).isVisible) hnext
    rw [h.reaches.text_eq] at hspells
    exact .inl ⟨t, { d with cursor }, rfl, h.move hmoves, rfl, hspells⟩

/-- Reading an argument that has to be there. -/
theorem require (h : d.Traces c values) (hreads : Reads recognise Spells) (kind : Kind) :
    (∃ t d', d.require kind recognise = (some t, d') ∧ d'.Traces c (values ++ [t.range]) ∧
      d'.messages = d.messages ∧ t.Spelled c.text Spells) ∨
    ∃ d', d.require kind recognise = (none, d') ∧ d'.Traces c values ∧ ¬ d'.Clean := by
  obtain ⟨t, d', htake, htraces, hmessages, hspelled⟩ | htake := h.take hreads
  · refine .inl ⟨t, d', ?_, htraces, hmessages, hspelled⟩
    simp only [Draft.require, htake]
  · refine .inr ⟨d.missing (.expected kind), ?_, h.missing rfl, not_clean_report rfl⟩
    simp only [Draft.require, htake]

/-- Checking the bounds of a number that was read. -/
theorem checkBounds (h : d.Traces c values) {number : Token Int} (hnumber : number.range ∈ values)
    (bounds : Bounds) : (d.checkBounds number bounds).Traces c values := by
  unfold Draft.checkBounds
  split_ifs
  · exact h
  · exact h.report rfl (h.within_value hnumber)

end Traces

/-- A step reads an argument in a further range. The argument is kept if it can be used; if it is
not kept, an error is reported. -/
structure Gains (c : Cursor) (values : List Range) (Spells : List Char → α → Prop) (d : Draft)
    (r : Range) (argument : Option (Token α)) (d' : Draft) : Prop where
  /-- The range is added to those that were read. -/
  traces : d'.Traces c (values ++ [r])
  /-- What is kept is spelled in the range. -/
  spelled : ∀ t ∈ argument, t.range = r ∧ t.Spelled c.text Spells
  /-- Without an error, the argument is kept, and there was no error before. -/
  kept : d'.Clean → d.Clean ∧ ∃ t, argument = some t

/-- A number within bounds can be converted, and what it is converted to is spelled by the same
texts. -/
structure Converts (bounds : Bounds) (convert? : Int → Option α) (Spells : List Char → α → Prop) :
    Prop where
  total : ∀ n, bounds.contains n = true → ∃ value, convert? n = some value
  spells : ∀ n value, convert? n = some value → ∀ token, SpellsNumber token n → Spells token value

/-- Converting a number that was just read. -/
theorem gains_bounded {bounds : Bounds} {convert? : Int → Option α} {Spells : List Char → α → Prop}
    (hconverts : Converts bounds convert? Spells) {number : Token Int}
    (h : d'.Traces c (values ++ [number.range])) (hmessages : d'.messages = d.messages)
    (hspelled : number.Spelled c.text SpellsNumber) :
    d.Gains c values Spells number.range (d'.bounded number bounds convert?).1
      (d'.bounded number bounds convert?).2 := by
  unfold bounded
  split_ifs with hcontains
  · refine ⟨h, ?_, fun hclean => ⟨(clean_congr hmessages).1 hclean, ?_⟩⟩
    · intro t ht
      obtain ⟨value, hvalue, rfl⟩ := Option.map_eq_some_iff.1 ht
      exact ⟨rfl, hconverts.spells _ _ hvalue _ hspelled⟩
    · obtain ⟨value, hvalue⟩ := hconverts.total _ hcontains
      exact ⟨⟨value, number.range⟩, by rw [hvalue]; rfl⟩
  · refine ⟨h.checkBounds (by simp) bounds, nofun, fun hclean => ?_⟩
    exact absurd (clean_checkBounds_iff.1 hclean).2 hcontains

end Draft

/-! ## Outcomes -/

/-- The outcome of a rule whose keyword a cursor stands behind is traced: what it stores is spelled
where it stands, is among what was read, and is all of the row if no error is reported. -/
structure Outcome.Traced (c : Cursor) (o : Outcome Argument) : Prop where
  /-- The operator, the arguments that were read and the comment are tiled. The stored arguments are
  among those that were read. Without an error these are the same, and only blanks follow. -/
  tiled : ∃ values stop,
    Tiled c.row c.text c.column
      (Draft.operatorRanges o.operator ++ values ++ (o.comment.map Token.range).toList) stop ∧
    o.value.ranges.Sublist values ∧
    (o.Clean → o.value.ranges = values ∧ BlankBetween c.text stop c.text.length)
  /-- The operator is spelled where it stands. -/
  operator : ∀ op ∈ o.operator, op.Spelled c.text SpellsOperator
  /-- The argument is spelled where it stands. -/
  argument : o.value.Spelled c.text
  /-- The comment is spelled where it stands. -/
  comment : ∀ t ∈ o.comment, t.Spelled c.text SpellsComment
  /-- All reports lie on the row. -/
  within : o.messages.Within c.row c.text.length
  /-- Nothing but errors is reported. -/
  quiet : o.Clean → o.messages = .none

namespace Draft

variable {α : Type} {c : Cursor} {values : List Range} {d d' : Draft}

namespace Traces

/-- Ending a rule behind its last argument. What is stored has to be among what was read, and to be
all of it unless an error is reported. -/
theorem finish (h : d.Traces c values) {argument : Argument}
    (hstored : argument.ranges.Sublist values) (hspelled : argument.Spelled c.text)
    (hkept : d.Clean → argument.ranges = values) : (d.finish argument).Traced c := by
  have htext := h.reaches.text_eq
  unfold Draft.finish close
  cases hcomment : d.cursor.comment with
  | some found =>
    obtain ⟨comment, last⟩ := found
    obtain ⟨hmoves, hblank, hspells⟩ := Cursor.comment_reaches hcomment
    rw [htext] at hblank hspells
    have htiled := (h.reaches.trans hmoves).tiled
    refine ⟨⟨values, last.column, htiled, hstored, fun hclean => ⟨hkept hclean, hblank⟩⟩,
      h.operator, hspelled, ?_, h.within, h.quiet⟩
    rintro t ⟨⟩
    exact hspells
  | none =>
    dsimp only
    have htiled := h.reaches.tiled
    rw [← List.append_nil (operatorRanges d.operator ++ values)] at htiled
    split_ifs with hempty
    · -- Nothing is left but blanks.
      have hblank := Cursor.blankBetween_of_isEmpty hempty
      rw [htext] at hblank
      exact ⟨⟨values, _, htiled, hstored, fun hclean => ⟨hkept hclean, hblank⟩⟩,
        h.operator, hspelled, nofun, h.within, h.quiet⟩
    · -- What is left is reported.
      obtain ⟨hrest, -⟩ := Cursor.tiled_restOfText (Bool.eq_false_of_not_eq_true hempty)
      have hwithin := (hrest.mem List.mem_cons_self).1
      rw [h.reaches.row_eq, htext] at hwithin
      have hreport : (d.report .trailingText d.cursor.restOfText).Traces c values :=
        h.report rfl hwithin
      have hreported : ¬ (d.report .trailingText d.cursor.restOfText).Clean := not_clean_report rfl
      exact ⟨⟨values, _, htiled, hstored, fun hclean => absurd hclean hreported⟩,
        h.operator, hspelled, nofun, hreport.within, hreport.quiet⟩

/-- Ending a rule of which everything is stored that was read. -/
theorem finish_all (h : d.Traces c values) {argument : Argument}
    (hranges : argument.ranges = values) (hspelled : argument.Spelled c.text) :
    (d.finish argument).Traced c :=
  h.finish (hranges ▸ List.Sublist.refl _) hspelled fun _ => hranges

/-- Ending a rule with an error of which no argument is stored. -/
theorem finish_none (h : d.Traces c values) (hreported : ¬ d.Clean) {argument : Argument}
    (hranges : argument.ranges = []) (hspelled : argument.Spelled c.text) :
    (d.finish argument).Traced c :=
  h.finish (hranges ▸ List.nil_sublist _) hspelled fun hclean => absurd hclean hreported

/-- Ending a rule with one argument that is rejected. -/
theorem finish_rejected {r : Range} (h : d.Traces c [r]) {problem : Problem}
    (hseverity : problem.severity = .error) {argument : Argument} (hranges : argument.ranges = [])
    (hspelled : argument.Spelled c.text) : ((d.report problem r).finish argument).Traced c :=
  (h.report hseverity (h.within_value (List.mem_singleton_self r))).finish_none
    (not_clean_report hseverity) hranges hspelled

/-- Ending a rule at a missing argument, which was reported. -/
theorem abort (h : d.Traces c values) (hreported : ¬ d.Clean) {argument : Argument}
    (hranges : argument.ranges = []) (hspelled : argument.Spelled c.text) :
    (d.abort argument).Traced c := by
  have htiled := h.reaches.tiled
  rw [← List.append_nil (operatorRanges d.operator ++ values)] at htiled
  refine ⟨⟨values, _, htiled, ?_, fun hclean => absurd hclean hreported⟩, h.operator, hspelled,
    nofun, h.within, h.quiet⟩
  exact hranges ▸ List.nil_sublist _

end Traces

/-! ### Rules with one argument -/

/-- A rule with one required argument, given what becomes of it when the argument is missing and
when it was read. -/
theorem traced_single {recognise : List Char → Option (Lexeme α)} {Spells : List Char → α → Prop}
    (h : d.Traces c []) (hreads : Reads recognise Spells) (kind : Kind) {o : Outcome Argument}
    (missing : Argument) (hranges : missing.ranges = []) (hspelled : missing.Spelled c.text)
    (hnone : ∀ d', d.require kind recognise = (none, d') → o = d'.abort missing)
    (hsome : ∀ t d', d.require kind recognise = (some t, d') → d'.Traces c [t.range] →
      t.Spelled c.text Spells → o.Traced c) : o.Traced c := by
  obtain ⟨t, d', hrequire, htraces, -, hspells⟩ | ⟨d', hrequire, htraces, hreported⟩ :=
    h.require hreads kind
  · exact hsome t d' hrequire htraces hspells
  · rw [hnone d' hrequire]
    exact htraces.abort hreported hranges hspelled

section Shapes

variable (h : d.Traces c []) (hop : d.operator = none)
include h hop

/-- A number behind any operator is stored, also if it is out of bounds. -/
theorem traced_numeric (bounds : Bounds) : ((d.numeric bounds).map .number).Traced c := by
  refine traced_single (h.anyOperator hop) reads_number .number (.number none) rfl
    nofun ?_ ?_
  · intro d' hrequire
    unfold numeric
    rw [hrequire]
    rfl
  · intro t d' hrequire htraces hspelled
    unfold numeric
    rw [hrequire]
    dsimp only
    rw [map_finish]
    refine (htraces.checkBounds (List.mem_singleton_self _) bounds).finish_all rfl ?_
    rintro t' ⟨⟩
    exact hspelled

/-- A font size is stored, also if it is out of bounds. -/
theorem traced_fontSize : (d.fontSize.map .fontSize).Traced c := by
  refine traced_single (h.noOperator hop) reads_number .number (.fontSize none) rfl
    nofun ?_ ?_
  · intro d' hrequire
    unfold fontSize
    rw [hrequire]
    rfl
  · intro t d' hrequire htraces hspelled
    unfold fontSize
    rw [hrequire]
    dsimp only
    rw [map_finish]
    refine (htraces.checkBounds (List.mem_singleton_self _) Bounds.fontSize).finish_all rfl ?_
    rintro t' ⟨⟩
    exact hspelled

/-- A truth value is stored. -/
theorem traced_boolean : (d.boolean.map .boolean).Traced c := by
  refine traced_single (h.equalityOperator hop) reads_boolean .boolean (.boolean none)
    rfl nofun ?_ ?_
  · intro d' hrequire
    unfold boolean
    rw [hrequire]
    rfl
  · intro t d' hrequire htraces hspelled
    unfold boolean
    rw [hrequire]
    dsimp only
    rw [map_finish]
    refine htraces.finish_all rfl ?_
    rintro t' ⟨⟩
    exact hspelled

/-- A rarity is stored if its name is known. -/
theorem traced_rarity : (d.rarity.map .rarity).Traced c := by
  refine traced_single (h.anyOperator hop) reads_string .string (.rarity none) rfl
    nofun ?_ ?_
  · intro d' hrequire
    unfold rarity
    rw [hrequire]
    rfl
  · intro t d' hrequire htraces hspelled
    unfold rarity
    rw [hrequire]
    dsimp only
    cases hname : Rarity.ofName? t.value with
    | some r =>
      dsimp only
      rw [map_finish]
      refine htraces.finish_all rfl ?_
      rintro t' ⟨⟩
      have hvalue : SpellsString (t.range.cut c.text) t.value := hspelled
      rwa [ofName?_rarity_eq_some_iff.1 hname] at hvalue
    | none =>
      dsimp only
      rw [map_finish]
      exact htraces.finish_rejected rfl rfl nofun

/-- A group of sockets is stored in capital letters. -/
theorem traced_socketGroup : (d.socketGroup.map .socketGroup).Traced c := by
  refine traced_single (h.equalityOperator hop) reads_string .string
    (.socketGroup none) rfl nofun ?_ ?_
  · intro d' hrequire
    unfold socketGroup
    rw [hrequire]
    rfl
  · intro t d' hrequire htraces hspelled
    unfold socketGroup
    rw [hrequire]
    dsimp only
    split_ifs with hgroup
    · rw [map_finish]
      refine htraces.finish_all rfl ?_
      rintro t' ⟨⟩
      refine ⟨t.value.toList, ?_, ?_, rfl⟩
      · rw [String.ofList_toList]
        exact hspelled
      · -- All socket colours are letters.
        have hletters : "RGBWrgbw".toList.all Char.isAlpha = true := by decide
        obtain ⟨-, -, hcolors⟩ := isSocketGroup_iff.1 hgroup
        exact fun ch hch => List.all_eq_true.1 hletters ch (hcolors ch hch)
    · rw [map_finish]
      exact htraces.finish_rejected rfl rfl nofun

/-- The path of a sound file is stored if it is not blank. -/
theorem traced_soundFile : (d.soundFile.map .soundFile).Traced c := by
  refine traced_single (h.equalityOperator hop) reads_string .string (.soundFile none)
    rfl nofun ?_ ?_
  · intro d' hrequire
    unfold soundFile
    rw [hrequire]
    rfl
  · intro t d' hrequire htraces hspelled
    unfold soundFile
    rw [hrequire]
    dsimp only
    split_ifs with hblank
    · rw [map_finish]
      exact htraces.finish_rejected rfl rfl nofun
    · rw [map_finish]
      refine htraces.finish_all rfl ?_
      rintro t' ⟨⟩
      exact hspelled

/-- A rule without arguments. -/
theorem traced_flag : (d.flag.map fun _ => Argument.flag).Traced c := by
  unfold flag
  rw [map_finish]
  exact (h.noOperator hop).finish_all rfl trivial

end Shapes

/-! ### Rules with several arguments -/

/-- A byte is the integer from which it is converted. -/
theorem toNat_of_toByte? {n : Int} {value : UInt8} (h : toByte? n = some value) :
    (value.toNat : Int) = n := by
  unfold toByte? at h
  split_ifs at h with hrange
  cases h
  rw [UInt8.toNat_ofNat']
  omega

/-- A 16-bit word is the integer from which it is converted. -/
theorem toNat_of_toWord16? {n : Int} {value : UInt16} (h : toWord16? n = some value) :
    (value.toNat : Int) = n := by
  unfold toWord16? at h
  split_ifs at h with hrange
  cases h
  rw [UInt16.toNat_ofNat']
  omega

/-- Colour channels are bytes. -/
theorem converts_channel : Converts Bounds.channel toByte? SpellsChannel where
  total n hcontains := by
    simp only [Bounds.channel, Bounds.contains, Bool.and_eq_true, decide_eq_true_eq] at hcontains
    exact ⟨_, if_pos ⟨hcontains.1, by omega⟩⟩
  spells n value hvalue token hspells := by
    rw [SpellsChannel, toNat_of_toByte? hvalue]
    exact hspells

/-- Numbers of sounds are bytes. -/
theorem converts_soundNumber :
    Converts Bounds.soundNumber (fun n => (toByte? n).map .numbered) SpellsSound where
  total n hcontains := by
    simp only [Bounds.soundNumber, Bounds.contains, Bool.and_eq_true, decide_eq_true_eq]
      at hcontains
    have hbyte : toByte? n = some (UInt8.ofNat n.toNat) := if_pos ⟨by omega, by omega⟩
    exact ⟨_, by rw [hbyte]; rfl⟩
  spells n value hvalue token hspells := by
    obtain ⟨byte, hbyte, rfl⟩ := Option.map_eq_some_iff.1 hvalue
    rw [SpellsSound, toNat_of_toByte? hbyte]
    exact hspells

/-- Volumes are 16-bit words. -/
theorem converts_volume : Converts Bounds.volume toWord16? SpellsVolume where
  total n hcontains := by
    simp only [Bounds.volume, Bounds.contains, Bool.and_eq_true, decide_eq_true_eq] at hcontains
    exact ⟨_, if_pos ⟨hcontains.1, by omega⟩⟩
  spells n value hvalue token hspells := by
    rw [SpellsVolume, toNat_of_toWord16? hvalue]
    exact hspells

/-- A colour channel is gained, or missing and reported. -/
theorem Traces.channel (h : d.Traces c values) :
    (∃ r channel d', d.channel = (some channel, d') ∧
      d.Gains c values SpellsChannel r channel d') ∨
    ∃ d', d.channel = (none, d') ∧ d'.Traces c values ∧ ¬ d'.Clean := by
  obtain ⟨t, d', hrequire, htraces, hmessages, hspelled⟩ | ⟨d', hrequire, htraces, hreported⟩ :=
    h.require reads_number .number
  · refine .inl ⟨t.range, _, _, ?_, gains_bounded converts_channel htraces hmessages hspelled⟩
    rw [Draft.channel, hrequire]
  · refine .inr ⟨d', ?_, htraces, hreported⟩
    rw [Draft.channel, hrequire]

/-- An optional number is not there, or it is gained. Its value is an optional token except where
the number that is there cannot be used, and that is reported. -/
theorem Traces.optional (h : d.Traces c values) {bounds : Bounds} {convert? : Int → Option α}
    {Spells : List Char → α → Prop} (hconverts : Converts bounds convert? Spells) :
    ∃ ranges value d', d.optional bounds convert? = (value, d') ∧
      d'.Traces c (values ++ ranges) ∧
      (∀ a : Option (Token α), value = a.map some →
        (a.map Token.range).toList = ranges ∧ ∀ t ∈ a, t.Spelled c.text Spells) ∧
      (d'.Clean → d.Clean ∧ ∃ a : Option (Token α), value = a.map some) := by
  obtain ⟨t, d', htake, htraces, hmessages, hspelled⟩ | htake := h.take reads_number
  · have hgains : d.Gains c values Spells t.range _ _ :=
      gains_bounded hconverts htraces hmessages hspelled
    refine ⟨[t.range], some (d'.bounded t bounds convert?).1, (d'.bounded t bounds convert?).2, ?_,
      hgains.traces, ?_, ?_⟩
    · rw [Draft.optional, htake]
    · intro a ha
      obtain ⟨number, rfl, hnumber⟩ := Option.map_eq_some_iff.1 ha.symm
      obtain ⟨hrange, hspells⟩ := hgains.spelled number hnumber.symm
      refine ⟨by rw [← hrange]; rfl, ?_⟩
      rintro t' ⟨⟩
      exact hspells
    · intro hclean
      obtain ⟨hbefore, number, hnumber⟩ := hgains.kept hclean
      exact ⟨hbefore, some number, by rw [hnumber]; rfl⟩
  · refine ⟨[], none, d, by rw [Draft.optional, htake], by rwa [List.append_nil], ?_, ?_⟩
    · intro a ha
      obtain rfl : a = none := Option.map_eq_none_iff.1 ha.symm
      exact ⟨rfl, fun t ht => absurd ht (Option.not_mem_none t)⟩
    · exact fun hclean => ⟨hclean, none, rfl⟩

/-- A sound is gained by its number or by its name, or missing and reported. -/
theorem Traces.soundId (h : d.Traces c values) (vocabulary : Vocabulary) :
    (∃ r id d', d.soundId vocabulary = (some id, d') ∧ d.Gains c values SpellsSound r id d') ∨
    ∃ d', d.soundId vocabulary = (none, d') ∧ d'.Traces c values ∧ ¬ d'.Clean := by
  obtain ⟨t, d', htake, htraces, hmessages, hspelled⟩ | htake := h.take reads_number
  · refine .inl ⟨t.range, _, _, ?_, gains_bounded converts_soundNumber htraces hmessages hspelled⟩
    rw [Draft.soundId, htake]
  · obtain ⟨t, d', htake', htraces, hmessages, hspelled⟩ | htake' := h.take reads_string
    · by_cases hknown : vocabulary.isSound t.value = true
      · refine .inl ⟨t.range, some (t.map .named), d', ?_, htraces, ?_, ?_⟩
        · rw [Draft.soundId, htake]
          simp only [htake', hknown, if_true]
        · rintro t' ⟨⟩
          exact ⟨rfl, hspelled⟩
        · exact fun hclean => ⟨(clean_congr hmessages).1 hclean, _, rfl⟩
      · have hwithin := htraces.within_value (List.mem_append_right _ (List.mem_singleton_self _))
        refine .inl ⟨t.range, none, d'.report (.unknownSound d'.keyword t.value) t.range, ?_,
          htraces.report rfl hwithin, fun t ht => absurd ht (Option.not_mem_none t),
          fun hclean => absurd hclean (not_clean_report rfl)⟩
        rw [Draft.soundId, htake]
        simp only [htake', hknown]
        rfl
    · refine .inr ⟨d.missing .expectedSound, ?_, h.missing rfl, not_clean_report rfl⟩
      rw [Draft.soundId, htake]
      simp only [htake']

/-- A colour is made of channels that are all there, but for the opacity. -/
theorem colorOf_eq_some_iff {red green blue : Option (Token UInt8)}
    {alpha : Option (Option (Token UInt8))} {color : Color} :
    colorOf red green blue alpha = some color ↔ red = some color.red ∧ green = some color.green ∧
      blue = some color.blue ∧ alpha = color.alpha.map some := by
  obtain ⟨red', green', blue', alpha'⟩ := color
  rcases red with _ | red <;> rcases green with _ | green <;> rcases blue with _ | blue <;>
    rcases alpha with _ | _ | alpha <;> rcases alpha' with _ | alpha' <;> simp [colorOf]

/-- An alert sound is made of a sound that is there, and a volume. -/
theorem alertSoundOf_eq_some_iff {id : Option (Token SoundId)}
    {volume : Option (Option (Token UInt16))} {sound : AlertSound} :
    alertSoundOf id volume = some sound ↔ id = some sound.id ∧ volume = sound.volume.map some := by
  obtain ⟨id', volume'⟩ := sound
  rcases id with _ | id <;> rcases volume with _ | _ | volume <;>
    rcases volume' with _ | volume' <;> simp [alertSoundOf]

section Shapes

variable (h : d.Traces c []) (hop : d.operator = none)
include h hop

/-- A colour is stored if all channels that are there can be used. -/
theorem traced_color : (d.color.map .color).Traced c := by
  unfold color
  obtain ⟨r₁, red, d₁, hred, hgains₁⟩ | ⟨d₁, hred, htraces, hreported⟩ :=
    (h.equalityOperator hop).channel
  rotate_left
  · rw [hred]
    exact htraces.abort hreported rfl nofun
  rw [hred]
  dsimp only
  obtain ⟨r₂, green, d₂, hgreen, hgains₂⟩ | ⟨d₂, hgreen, htraces, hreported⟩ :=
    hgains₁.traces.channel
  rotate_left
  · rw [hgreen]
    exact htraces.abort hreported rfl nofun
  rw [hgreen]
  dsimp only
  obtain ⟨r₃, blue, d₃, hblue, hgains₃⟩ | ⟨d₃, hblue, htraces, hreported⟩ :=
    hgains₂.traces.channel
  rotate_left
  · rw [hblue]
    exact htraces.abort hreported rfl nofun
  rw [hblue]
  dsimp only
  obtain ⟨ranges, alpha, d₄, halpha, htraces, hspelled, hkept⟩ :=
    hgains₃.traces.optional converts_channel
  rw [halpha]
  dsimp only
  rw [map_finish]
  cases hcolor : colorOf red green blue alpha with
  | some color =>
    -- All channels are kept, each in the range in which it was read.
    obtain ⟨rfl, rfl, rfl, hopacity⟩ := colorOf_eq_some_iff.1 hcolor
    obtain ⟨hrange₁, hspells₁⟩ := hgains₁.spelled _ rfl
    obtain ⟨hrange₂, hspells₂⟩ := hgains₂.spelled _ rfl
    obtain ⟨hrange₃, hspells₃⟩ := hgains₃.spelled _ rfl
    obtain ⟨rfl, hspells₄⟩ := hspelled color.alpha hopacity
    refine htraces.finish_all ?_ ?_
    · rw [← hrange₁, ← hrange₂, ← hrange₃]
      rfl
    · rintro k ⟨⟩
      simpa using ⟨hspells₁, hspells₂, hspells₃, hspells₄⟩
  | none =>
    -- A channel is not kept, so that an error is reported.
    refine htraces.finish_none (fun hclean => ?_) rfl nofun
    obtain ⟨hclean₃, a, rfl⟩ := hkept hclean
    obtain ⟨hclean₂, b, rfl⟩ := hgains₃.kept hclean₃
    obtain ⟨hclean₁, g, rfl⟩ := hgains₂.kept hclean₂
    obtain ⟨-, r, rfl⟩ := hgains₁.kept hclean₁
    have hsome : colorOf (some r) (some g) (some b) (a.map some) = some ⟨r, g, b, a⟩ :=
      colorOf_eq_some_iff.2 ⟨rfl, rfl, rfl, rfl⟩
    rw [hsome] at hcolor
    cases hcolor

/-- An alert sound is stored if both the sound and the volume that is there can be used. -/
theorem traced_alertSound (vocabulary : Vocabulary) :
    ((d.alertSound vocabulary).map .sound).Traced c := by
  unfold alertSound
  obtain ⟨r, id, d₁, hid, hgains⟩ | ⟨d₁, hid, htraces, hreported⟩ :=
    (h.equalityOperator hop).soundId vocabulary
  rotate_left
  · rw [hid]
    exact htraces.abort hreported rfl nofun
  rw [hid]
  dsimp only
  obtain ⟨ranges, volume, d₂, hvolume, htraces, hspelled, hkept⟩ :=
    hgains.traces.optional converts_volume
  rw [hvolume]
  dsimp only
  rw [map_finish]
  cases hsound : alertSoundOf id volume with
  | some sound =>
    obtain ⟨rfl, hloudness⟩ := alertSoundOf_eq_some_iff.1 hsound
    obtain ⟨hrange, hspells⟩ := hgains.spelled _ rfl
    obtain ⟨rfl, hspells'⟩ := hspelled sound.volume hloudness
    refine htraces.finish_all ?_ ?_
    · rw [← hrange]
      rfl
    · rintro k ⟨⟩
      exact ⟨hspells, hspells'⟩
  | none =>
    refine htraces.finish_none (fun hclean => ?_) rfl nofun
    obtain ⟨hclean₁, v, rfl⟩ := hkept hclean
    obtain ⟨-, i, rfl⟩ := hgains.kept hclean₁
    have hsome : alertSoundOf (some i) (v.map some) = some ⟨i, v⟩ :=
      alertSoundOf_eq_some_iff.2 ⟨rfl, rfl⟩
    rw [hsome] at hsound
    cases hsound

end Shapes

/-! ### Names of a vocabulary -/

/-- Reporting rejected names that were read. -/
theorem Traces.reportRejected (h : d.Traces c values) (lexicon : Lexicon)
    {rejected : List (Token String)} (hmem : ∀ t ∈ rejected, t.range ∈ values) :
    (d.reportRejected lexicon rejected).Traces c values := by
  induction rejected generalizing d with
  | nil => exact h
  | cons t rejected ih =>
    obtain ⟨hfirst, hrest⟩ := List.forall_mem_cons.1 hmem
    exact ih (h.report rfl (h.within_value hfirst)) hrest

/-- Reading strings one after the other. -/
theorem Traces.strings (h : d.Traces c []) :
    ({ d with cursor := d.cursor.strings.2 } : Draft).Traces c
        (d.cursor.strings.1.map Token.range) ∧
      ∀ t ∈ d.cursor.strings.1, t.Spelled c.text SpellsString := by
  obtain ⟨hmoves, hspelled⟩ := d.cursor.strings_reaches
  rw [h.reaches.text_eq] at hspelled
  exact ⟨h.move hmoves, hspelled⟩

/-- The accepted ones of the names that were read are stored. -/
theorem traced_names (h : d.Traces c []) (hop : d.operator = none) (lexicon : Lexicon)
    (vocabulary : Vocabulary) : ((d.names lexicon vocabulary).map .names).Traced c := by
  have hequality := h.equalityOperator hop
  rw [names_eq]
  generalize d.equalityOperator = d₀ at hequality
  obtain ⟨htraces, hspelled⟩ := hequality.strings
  -- Rejected names are reported where they were read.
  have hmem : ∀ t ∈ d₀.cursor.strings.1.filter fun t => !lexicon.accepts vocabulary t.value,
      t.range ∈ d₀.cursor.strings.1.map Token.range :=
    fun t ht => List.mem_map_of_mem (List.mem_of_mem_filter ht)
  have hrejected := htraces.reportRejected lexicon hmem
  dsimp only
  split_ifs
  · show (abort _ (Argument.names [])).Traced c
    exact (hrejected.missing rfl).abort (not_clean_report rfl) rfl nofun
  · rw [map_finish]
    refine hrejected.finish (List.filter_sublist.map _) ?_ fun hclean => ?_
    · exact fun t ht => hspelled t (List.mem_of_mem_filter ht)
    · -- Without an error, no name was rejected.
      have hnone := (clean_reportRejected_iff.1 hclean).2
      have hall : ∀ t ∈ d₀.cursor.strings.1, lexicon.accepts vocabulary t.value = true := by
        simpa [List.filter_eq_nil_iff] using hnone
      exact congrArg (List.map Token.range) (List.filter_eq_self.2 hall)

/-! ### All rules -/

/-- Whatever follows the keyword of a rule, its outcome is traced. -/
theorem traced_argument (h : d.Traces c []) (hop : d.operator = none) (vocabulary : Vocabulary)
    (name : RuleName) : (d.argument vocabulary name).Traced c := by
  cases name with
  | condition condition =>
    cases condition with
    | itemLevel | dropLevel | quality | sockets | linkedSockets | height | width =>
      exact traced_numeric h hop _
    | socketGroup => exact traced_socketGroup h hop
    | rarity => exact traced_rarity h hop
    | itemClass | baseType => exact traced_names h hop _ vocabulary
    | identified | corrupted | elderItem | shaperItem | shapedMap | elderMap =>
      exact traced_boolean h hop
  | action action =>
    cases action with
    | setBorderColor | setTextColor | setBackgroundColor => exact traced_color h hop
    | playAlertSound | playAlertSoundPositional => exact traced_alertSound h hop vocabulary
    | setFontSize => exact traced_fontSize h hop
    | disableDropSound => exact traced_flag h hop
    | customAlertSound => exact traced_soundFile h hop

end Draft

end ItemFilter
