import ItemFilter.Proofs.Grammar
import ItemFilter.Proofs.Strings

/-!
# Steps of reading

What one step of reading a rule does, in terms of the text that is left in front of the cursor. A
query finds a token of its class exactly when the text starts with one (`Cursor.next_eq_some`,
`Cursor.next_eq_none`). A draft is clean as long as no error is reported; every check keeps it clean
exactly when the check is passed.

The two steps that all rules are made of are stated once, each as an equivalence between the draft
before and behind it. Reading an operator settles it (`Draft.Settles`): the draft is clean and what
is left arranged behind it exactly when the draft was clean and the text accepted before it. Reading
an argument fills its slot (`Draft.Fills`): the draft is clean and the rest laid out for the further
slots exactly when the draft was clean and the text laid out for all of them.
-/

namespace ItemFilter

open Text Lexeme

/-! ## Queries -/

namespace Cursor

variable {α : Type} {recognise : List Char → Option (Lexeme α)} {Spells : List Char → α → Prop}
  {Ends : List Char → Prop}

/-- A query that finds a token moves behind it. -/
theorem next_eq_some (hrec : Recognises recognise Spells Ends) {c c' : Cursor} {t : Token α}
    (h : c.next recognise = some (t, c')) :
    ∃ token, Spells token t.value ∧ StartsWith c.remaining token c'.remaining ∧
      Ends c'.remaining := by
  obtain ⟨lexeme, hlexeme, heq⟩ := Option.map_eq_some_iff.1 h
  obtain ⟨rfl, rfl⟩ := Prod.mk.inj heq
  obtain ⟨hspells, rest, hahead, hends⟩ := hrec.sound hlexeme
  -- The cursor moves over the blanks and over as many characters as the token has.
  have hrest : (Cursor.mk c.row c.text (c.nextColumn + lexeme.text.length)).remaining = rest := by
    rw [remaining, ← List.drop_drop, ← ahead_eq_drop, hahead, List.drop_left]
  rw [hrest]
  exact ⟨lexeme.text, hspells, .of_trimStart hahead, hends⟩

/-- A query that finds nothing stands in front of no token of its class. -/
theorem next_eq_none (hrec : Recognises recognise Spells Ends) {c : Cursor}
    (h : c.next recognise = none) {token rest : List Char} {value : α}
    (hspells : Spells token value) (hvisible : IsVisible token) (hends : Ends rest) :
    ¬ StartsWith c.remaining token rest := by
  intro hstarts
  have hahead : c.ahead = token ++ rest := hstarts.trimStart_eq hvisible
  rw [next, hahead, hrec.complete hspells hends] at h
  cases h

/-- Only blanks and a comment are left in front of the cursor exactly when the text that is left
can be ignored. -/
theorem isIgnored_iff {c : Cursor} : c.isIgnored = true ↔ Ignorable c.remaining := by
  rw [ignorable_iff]
  simp [isIgnored, isEmpty, isCommented, ahead]

end Cursor

/-! ## Clean drafts -/

namespace Outcome

/-- No error was reported. -/
def Clean {α : Type} (o : Outcome α) : Prop := o.messages.errors = []

/-- Replacing the value of an outcome reports nothing. -/
theorem clean_map_iff {α β : Type} {f : α → β} {o : Outcome α} : (o.map f).Clean ↔ o.Clean :=
  Iff.rfl

end Outcome

namespace Draft

variable {α : Type} {d : Draft}

/-- The text in front of the cursor. -/
def rest (d : Draft) : List Char := d.cursor.remaining

/-- No error was reported so far. -/
def Clean (d : Draft) : Prop := d.messages.errors = []

/-- Whether a draft is clean can be seen from its messages. -/
theorem clean_congr {d' : Draft} (h : d'.messages = d.messages) : d'.Clean ↔ d.Clean := by
  rw [Clean, Clean, h]

/-- A draft with an error in it is not clean. -/
theorem not_clean_report {problem : Problem} {range : Range} (h : problem.severity = .error) :
    ¬ (d.report problem range).Clean := by
  simp [Clean, report, Messages.report, Messages.push, h]

/-- A warning leaves a draft clean. -/
theorem clean_report_of_warning {problem : Problem} {range : Range}
    (h : problem.severity = .warning) : (d.report problem range).Clean ↔ d.Clean := by
  simp [Clean, report, Messages.report, Messages.push, h]

/-- A rule that ends behind its last argument is clean when nothing but blanks and a comment is
left. -/
theorem clean_finish_iff {value : α} : (d.finish value).Clean ↔ d.Clean ∧ Laid [] d.rest := by
  rw [laid_nil_iff, rest, ← Cursor.isIgnored_iff, finish, close]
  by_cases hcommented : d.cursor.isCommented = true
  · -- A comment ends the rule, whatever it holds.
    simp [Cursor.comment, Cursor.isIgnored, hcommented, Outcome.Clean, Clean]
  · by_cases hempty : d.cursor.isEmpty = true
    · simp [Cursor.comment, Cursor.isIgnored, hcommented, hempty, Outcome.Clean, Clean]
    · have hreport : ¬ (d.report .trailingText d.cursor.restOfText).Clean := not_clean_report rfl
      simpa [Cursor.comment, Cursor.isIgnored, hcommented, hempty, Outcome.Clean, Clean]
        using hreport

/-- A block header is clean whatever follows it. -/
theorem clean_header_iff : d.header.Clean ↔ d.Clean := by
  rw [header, close]
  split
  · exact Iff.rfl
  · split_ifs
    · exact Iff.rfl
    · exact clean_report_of_warning rfl

/-- The check of bounds is passed by the numbers within them. -/
theorem clean_checkBounds_iff {number : Token Int} {bounds : Bounds} :
    (d.checkBounds number bounds).Clean ↔ d.Clean ∧ bounds.contains number.value = true := by
  unfold checkBounds
  split_ifs with hcontains
  · simp [hcontains]
  · exact iff_of_false (not_clean_report rfl) fun h => hcontains h.2

/-- The check of bounds does not move the cursor. -/
theorem rest_checkBounds {number : Token Int} {bounds : Bounds} :
    (d.checkBounds number bounds).rest = d.rest := by
  unfold checkBounds
  split_ifs <;> rfl

/-- A number that is converted passes the same check. -/
theorem clean_bounded_iff {number : Token Int} {bounds : Bounds} {convert? : Int → Option α} :
    (d.bounded number bounds convert?).2.Clean ↔
      d.Clean ∧ bounds.contains number.value = true := by
  unfold bounded
  split_ifs with hcontains
  · simp [hcontains]
  · exact clean_checkBounds_iff

/-- Converting a number does not move the cursor. -/
theorem rest_bounded {number : Token Int} {bounds : Bounds} {convert? : Int → Option α} :
    (d.bounded number bounds convert?).2.rest = d.rest := by
  unfold bounded
  split_ifs
  · rfl
  · exact rest_checkBounds

/-! ## Operators -/

/-- Reading an operator settles it: what is left is arranged, and the draft still clean, exactly
when the text was accepted behind the keyword. -/
def Settles (operators : Set Operator) (d d' : Draft) : Prop :=
  ∀ forms, d'.Clean ∧ Shape.Arranged ⟨operators, forms⟩ d'.rest ↔
    d.Clean ∧ Shape.Accepts ⟨operators, forms⟩ d.rest

/-- Reading an operator reports nothing. If there is one, the cursor moves behind it; else it stays
where it is. -/
theorem anyOperator_cases (d : Draft) :
    d.anyOperator.messages = d.messages ∧
      ((∃ op, d.anyOperator.operator = some op ∧
          StartsWith d.rest op.value.symbol.toList d.anyOperator.rest ∧
          Stops isComparison d.anyOperator.rest) ∨
        (d.anyOperator.operator = none ∧ d.anyOperator.rest = d.rest ∧
          ∀ op : Operator, ∀ rest, Stops isComparison rest →
            ¬ StartsWith d.rest op.symbol.toList rest)) := by
  unfold anyOperator take
  cases hnext : d.cursor.next operator? with
  | none =>
    -- The draft is as before, and no operator can have been missed.
    refine ⟨rfl, .inr ⟨rfl, rfl, fun op rest hstops => ?_⟩⟩
    exact Cursor.next_eq_none recognises_operator hnext (show SpellsOperator _ op from rfl)
      (isVisible_symbol op) hstops
  | some found =>
    obtain ⟨op, cursor⟩ := found
    obtain ⟨token, hspells, hstarts, hstops⟩ := Cursor.next_eq_some recognises_operator hnext
    refine ⟨rfl, .inl ⟨op, rfl, ?_, hstops⟩⟩
    rwa [show token = op.value.symbol.toList from hspells] at hstarts

/-- A step that reads an operator and reports it unless it is permitted settles it. -/
theorem settles_of_report {operators : Set Operator} {d' : Draft}
    (hrest : d'.rest = d.anyOperator.rest)
    (hnone : d.anyOperator.operator = none → d' = d.anyOperator)
    (hsome : ∀ op, d.anyOperator.operator = some op →
      (d'.Clean ↔ d.anyOperator.Clean ∧ op.value ∈ operators)) :
    d.Settles operators d' := by
  intro forms
  obtain ⟨hmessages, ⟨op, hop, hstarts, hstops⟩ | ⟨hop, hstays, hlacks⟩⟩ := anyOperator_cases d
  · -- There is an operator: it has to be permitted, and the arguments start behind it.
    rw [hsome op hop, clean_congr hmessages, hrest,
      Shape.accepts_iff_of_operator hstarts hstops, and_assoc]
  · -- There is none: the arguments start where the cursor stands.
    rw [hnone hop, clean_congr hmessages, hstays, Shape.accepts_iff_of_no_operator hlacks]

/-- A rule that takes any operator. -/
theorem settles_anyOperator (d : Draft) : d.Settles Set.univ d.anyOperator :=
  settles_of_report rfl (fun _ => rfl) fun _ _ => by simp

/-- A rule that takes no operator but the equality sign. -/
theorem settles_equalityOperator (d : Draft) : d.Settles {.equal} d.equalityOperator := by
  apply settles_of_report
  · unfold equalityOperator
    dsimp only
    split
    · rfl
    · split_ifs <;> rfl
  · intro hnone
    simp only [equalityOperator, hnone]
  · intro op hop
    simp only [equalityOperator, hop, Set.mem_singleton_iff]
    split_ifs with hequal
    · simp [hequal]
    · exact iff_of_false (not_clean_report rfl) fun h => hequal h.2

/-- A rule that takes no operator at all. -/
theorem settles_noOperator (d : Draft) : d.Settles ∅ d.noOperator := by
  apply settles_of_report
  · unfold noOperator
    dsimp only
    split <;> rfl
  · intro hnone
    simp only [noOperator, hnone]
  · intro op hop
    simp only [noOperator, hop, Set.mem_empty_iff_false, and_false, iff_false]
    exact not_clean_report rfl

/-! ## Arguments -/

/-- A step that reports nothing and moves the cursor over one argument. -/
structure PassesOver (d : Draft) (token : List Char) (d' : Draft) : Prop where
  messages_eq : d'.messages = d.messages
  startsWith : StartsWith d.rest token d'.rest
  isString : IsString token
  atBoundary : atBoundary d'.rest = true

/-- No token of a class stands in front of the cursor. -/
def Lacks (d : Draft) (Spells : List Char → α → Prop) : Prop :=
  ∀ {token rest value}, Spells token value → atBoundary rest = true →
    ¬ StartsWith d.rest token rest

/-- Nothing is laid out for a slot whose tokens are all of a class that is lacking. -/
theorem Lacks.not_laid {Spells : List Char → α → Prop} (h : d.Lacks Spells) {slot : Slot}
    (hslot : ∀ token, slot.Takes token → ∃ value, Spells token value) (slots : List Slot) :
    ¬ Laid (slot :: slots) d.rest := by
  intro hlaid
  cases hlaid with
  | cons hstarts htakes hrest _ =>
    obtain ⟨value, hspells⟩ := hslot _ htakes
    exact h hspells hrest hstarts

/-- A class of arguments, each of them a string, and its recogniser. -/
structure Reads (recognise : List Char → Option (Lexeme α)) (Spells : List Char → α → Prop) :
    Prop where
  recognises : Recognises recognise Spells fun rest => Text.atBoundary rest
  isString {token : List Char} {value : α} : Spells token value → IsString token

/-- Numbers are arguments. -/
theorem reads_number : Reads number? SpellsNumber where
  recognises := recognises_number
  isString := fun ⟨_, hinteger, _⟩ => hinteger.isString

/-- Truth values are arguments. -/
theorem reads_boolean : Reads boolean? SpellsBoolean where
  recognises := recognises_boolean
  isString := SpellsBoolean.isString

/-- Strings are arguments. -/
theorem reads_string : Reads string? SpellsString where
  recognises := recognises_string
  isString := fun hspells => ⟨_, hspells⟩

variable {recognise : List Char → Option (Lexeme α)} {Spells : List Char → α → Prop}

/-- An argument that may be missing is passed over, or lacking. -/
theorem take_cases (hreads : Reads recognise Spells) (d : Draft) :
    (∃ t d' token, d.take recognise = (some t, d') ∧ Spells token t.value ∧
      d.PassesOver token d') ∨
    (d.take recognise = (none, d) ∧ d.Lacks Spells) := by
  unfold take
  cases hnext : d.cursor.next recognise with
  | none =>
    refine .inr ⟨rfl, fun hspells hrest => ?_⟩
    exact Cursor.next_eq_none hreads.recognises hnext hspells
      (hreads.isString hspells).isVisible hrest
  | some found =>
    obtain ⟨t, cursor⟩ := found
    obtain ⟨token, hspells, hstarts, hrest⟩ := Cursor.next_eq_some hreads.recognises hnext
    exact .inl ⟨t, { d with cursor }, token, rfl, hspells,
      ⟨rfl, hstarts, hreads.isString hspells, hrest⟩⟩

/-- A required argument is passed over, or lacking and reported. -/
theorem require_cases (hreads : Reads recognise Spells) (kind : Kind) (d : Draft) :
    (∃ t d' token, d.require kind recognise = (some t, d') ∧ Spells token t.value ∧
      d.PassesOver token d') ∨
    (∃ d', d.require kind recognise = (none, d') ∧ ¬ d'.Clean ∧ d.Lacks Spells) := by
  obtain ⟨t, d', token, htake, hspells, hpasses⟩ | ⟨htake, hlacks⟩ := take_cases hreads d
  · refine .inl ⟨t, d', token, ?_, hspells, hpasses⟩
    simp only [require, htake]
  · refine .inr ⟨d.missing (.expected kind), ?_, not_clean_report rfl, hlacks⟩
    simp only [require, htake]

/-- Reading an argument fills a slot: the rest is laid out for the further slots, and the draft
still clean, exactly when the text was laid out for all of them. -/
def Fills (slot : Slot) (d d' : Draft) : Prop :=
  ∀ slots, d'.Clean ∧ Laid slots d'.rest ↔ d.Clean ∧ Laid (slot :: slots) d.rest

/-- The text was laid out for a slot and further ones exactly when the argument that is passed over
is one of the slot and the rest is laid out for the others. -/
theorem PassesOver.clean_and_laid_iff {slot : Slot} {token : List Char} {d' : Draft}
    (h : d.PassesOver token d') (slots : List Slot) :
    (d'.Clean ∧ slot.Takes token) ∧ Laid slots d'.rest ↔
      d.Clean ∧ Laid (slot :: slots) d.rest := by
  rw [clean_congr h.messages_eq, laid_cons_iff h.startsWith h.isString h.atBoundary, and_assoc]

/-- An argument that is passed over and then checked fills the slot that the check is for. -/
theorem PassesOver.fills {slot : Slot} {token : List Char} {d' d'' : Draft}
    (h : d.PassesOver token d') (hrest : d''.rest = d'.rest)
    (hclean : d''.Clean ↔ d'.Clean ∧ slot.Takes token) : d.Fills slot d'' := by
  intro slots
  rw [hclean, hrest]
  exact h.clean_and_laid_iff slots

/-- Where an argument is passed over, something is laid out. -/
theorem PassesOver.not_laid_nil {token : List Char} {d' : Draft} (h : d.PassesOver token d') :
    ¬ Laid [] d.rest :=
  fun hlaid => (laid_nil_iff.1 hlaid).not_startsWith h.isString h.startsWith

/-- A filled slot in front of either of two lists of slots. -/
theorem Fills.or {slot : Slot} {d' : Draft} (h : d.Fills slot d') (slots slots' : List Slot) :
    d'.Clean ∧ (Laid slots d'.rest ∨ Laid slots' d'.rest) ↔
      d.Clean ∧ (Laid (slot :: slots) d.rest ∨ Laid (slot :: slots') d.rest) := by
  rw [and_or_left, and_or_left, h slots, h slots']

end Draft

end ItemFilter
