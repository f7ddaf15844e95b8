import ItemFilter.Line.Ranges
import ItemFilter.Proofs.Reading

/-!
# What reading keeps

Two drafts are read in step as long as they find the same arguments, whatever else they hold. A
`Likeness` says what two such drafts have in common: reading an argument keeps it, so does a report
on the argument that was just read, and two rules that are alike end alike. Whatever follows the
operators of two rules of the same name, their outcomes are then alike (`Likeness.argument`); this
is the one walk over the shapes of rules on which statements about two readings rest.

A statement about one reading is a likeness of a draft with itself (`Invariant.likeness`): what is
kept by a single argument and its report is kept by every rule (`Invariant.argument`).
-/

namespace ItemFilter

open Text Lexeme

/-! ## Operators in front of arguments -/

/-- Reads the operator of a rule, and reports it where the rule does not take it. -/
def Draft.readOperator (d : Draft) : RuleName → Draft
  | .condition .itemLevel | .condition .dropLevel | .condition .quality | .condition .sockets
  | .condition .linkedSockets | .condition .height | .condition .width | .condition .rarity =>
    d.anyOperator
  | .action .setFontSize | .action .disableDropSound => d.noOperator
  | _ => d.equalityOperator

/-- What is wrong with an operator in front of the arguments of a rule, if anything is. -/
def RuleName.operatorProblem? (name : RuleName) (keyword : String) (op : Operator) :
    Option Problem :=
  match name with
  | .condition .itemLevel | .condition .dropLevel | .condition .quality | .condition .sockets
  | .condition .linkedSockets | .condition .height | .condition .width | .condition .rarity => none
  | .action .setFontSize | .action .disableDropSound => some (.operatorNotPermitted keyword op)
  | _ => if op = .equal then none else some (.invalidOperator keyword op)

/-- An operator is wrong because the rule takes none, or because it is not the equality sign, which
the rule takes. -/
theorem RuleName.operatorProblem?_eq_some {name : RuleName} {keyword : String} {op : Operator}
    {problem : Problem} (h : name.operatorProblem? keyword op = some problem) :
    problem = .operatorNotPermitted keyword op ∨
      problem = .invalidOperator keyword op ∧ name.operatorProblem? keyword .equal = none := by
  unfold operatorProblem? at h ⊢
  split at h
  case h_11 =>
    split_ifs at h
    exact .inr ⟨(Option.some.inj h).symm, rfl⟩
  case h_9 | h_10 => exact .inl (Option.some.inj h).symm
  all_goals cases h

/-- What is wrong with an operator is an error. -/
theorem RuleName.severity_operatorProblem? {name : RuleName} {keyword : String} {op : Operator}
    {problem : Problem} (h : name.operatorProblem? keyword op = some problem) :
    problem.severity = .error := by
  obtain rfl | ⟨rfl, -⟩ := operatorProblem?_eq_some h
  · rfl
  · rfl

namespace Draft

variable {d : Draft} {op : Token Operator} {c : Cursor}

/-- Where there is an operator, it is read. -/
theorem anyOperator_of_some (h : d.cursor.next operator? = some (op, c)) :
    d.anyOperator = { d with cursor := c, operator := some op } := by
  unfold anyOperator take
  rw [h]

/-- Where there is no operator, the draft has none. -/
theorem anyOperator_of_none (h : d.cursor.next operator? = none) :
    d.anyOperator = { d with operator := none } := by
  unfold anyOperator take
  rw [h]

/-- A rule takes any operator, or none but the equality sign, or none at all. -/
theorem readOperator_cases (d : Draft) (name : RuleName) :
    (d.readOperator name = d.anyOperator ∧ ∀ k op, name.operatorProblem? k op = none) ∨
    (d.readOperator name = d.equalityOperator ∧ ∀ k op, name.operatorProblem? k op =
      if op = .equal then none else some (.invalidOperator k op)) ∨
    (d.readOperator name = d.noOperator ∧
      ∀ k op, name.operatorProblem? k op = some (.operatorNotPermitted k op)) := by
  cases name with
  | condition condition =>
    cases condition with
    | itemLevel | dropLevel | quality | sockets | linkedSockets | height | width | rarity =>
      exact .inl ⟨rfl, fun _ _ => rfl⟩
    | socketGroup | itemClass | baseType | identified | corrupted | elderItem | shaperItem
    | shapedMap | elderMap => exact .inr (.inl ⟨rfl, fun _ _ => rfl⟩)
  | action action =>
    cases action with
    | setBorderColor | setTextColor | setBackgroundColor | playAlertSound
    | playAlertSoundPositional | customAlertSound => exact .inr (.inl ⟨rfl, fun _ _ => rfl⟩)
    | setFontSize | disableDropSound => exact .inr (.inr ⟨rfl, fun _ _ => rfl⟩)

/-- Where there is an operator, a rule reads it and reports what is wrong with it. -/
theorem readOperator_of_some (h : d.cursor.next operator? = some (op, c)) (name : RuleName) :
    d.readOperator name = match name.operatorProblem? d.keyword op.value with
      | none => { d with cursor := c, operator := some op }
      | some problem =>
        ({ d with cursor := c, operator := some op } : Draft).report problem op.range := by
  have hany := anyOperator_of_some h
  obtain ⟨hread, hproblem⟩ | ⟨hread, hproblem⟩ | ⟨hread, hproblem⟩ := readOperator_cases d name
  · rw [hread, hproblem, hany]
  · rw [hread, hproblem]
    unfold equalityOperator
    rw [hany]
    dsimp only
    split_ifs
    · rfl
    · rfl
  · rw [hread, hproblem]
    unfold noOperator
    rw [hany]

/-- Where there is no operator, no rule reports any. -/
theorem readOperator_of_none (h : d.cursor.next operator? = none) (name : RuleName) :
    d.readOperator name = { d with operator := none } := by
  have hany := anyOperator_of_none h
  obtain ⟨hread, -⟩ | ⟨hread, -⟩ | ⟨hread, -⟩ := readOperator_cases d name
  · rw [hread, hany]
  · rw [hread]
    unfold equalityOperator
    rw [hany]
  · rw [hread]
    unfold noOperator
    rw [hany]

end Draft

/-- A rule lists names of a vocabulary. -/
def RuleName.Lists (name : RuleName) : Prop :=
  name = .condition .itemClass ∨ name = .condition .baseType

/-! ## The end of a rule -/

namespace Draft

/-- Replacing the value of a rule that ends is ending it with that value. -/
theorem map_finish {α β : Type} (d : Draft) (f : α → β) (value : α) :
    (d.finish value).map f = d.finish (f value) := by
  unfold finish close
  cases d.cursor.comment with
  | none => rfl
  | some found => rfl

/-- What ends behind its last part has the comment that follows, and reports other text. -/
theorem close_eq {α : Type} (d : Draft) (trailing : Problem) (value : α) :
    d.close trailing value = ⟨value, d.operator, d.cursor.comment.map Prod.fst,
      if d.cursor.isIgnored then d.messages
      else d.messages.report d.file trailing d.cursor.restOfText⟩ := by
  unfold close Cursor.comment Cursor.isIgnored
  by_cases hcommented : d.cursor.isCommented = true
  · rw [if_pos hcommented, hcommented, Bool.or_true]
    rfl
  · rw [if_neg hcommented, Bool.eq_false_of_not_eq_true hcommented, Bool.or_false]
    dsimp only
    split_ifs
    · rfl
    · rfl

/-- A rule that ends behind its last argument reports what follows it, unless that can be
ignored. -/
theorem finish_eq {α : Type} (d : Draft) (value : α) :
    d.finish value = ⟨value, d.operator, (d.finish value).comment,
      if d.cursor.isIgnored then d.messages
      else d.messages.report d.file .trailingText d.cursor.restOfText⟩ := by
  rw [finish, close_eq]

/-- The messages of a rule that ends behind its last argument. -/
theorem messages_finish {α : Type} (d : Draft) (value : α) :
    (d.finish value).messages = if d.cursor.isIgnored then d.messages
      else d.messages.report d.file .trailingText d.cursor.restOfText := by
  rw [finish_eq]

/-- The value of a rule that ends behind its last argument. -/
theorem value_finish {α : Type} (d : Draft) (value : α) : (d.finish value).value = value := by
  rw [finish_eq]

end Draft

/-! ## What problems repeat -/

namespace Problem

/-- What a problem repeats of the row that it is about. -/
def texts : Problem → List String
  | invalidOperator keyword _ | operatorNotPermitted keyword _ | outOfBounds keyword _ => [keyword]
  | unknownRarity text => [text]
  | notListed keyword name _ | unknownSound keyword name => [keyword, name]
  | unknownKeyword word => [word]
  | expected _ | expectedSound | invalidSocketGroup | blankSoundFile | trailingText | ignoredText
  | unreadableKeyword _ => []

/-- All that a problem repeats is the keyword of a draft, or made of characters of its row. -/
def IsFrom (problem : Problem) (d : Draft) : Prop :=
  ∀ text ∈ problem.texts, text = d.keyword ∨ text.toList ⊆ d.cursor.text

variable {problem : Problem} {d : Draft}

/-- A problem that repeats nothing. -/
theorem isFrom_fixed (h : problem.texts = []) : problem.IsFrom d := by
  rw [IsFrom, h]
  exact List.forall_mem_nil _

/-- A problem that repeats the keyword. -/
theorem isFrom_keyword (h : problem.texts = [d.keyword]) : problem.IsFrom d := by
  rw [IsFrom, h]
  exact List.forall_mem_singleton.2 (.inl rfl)

/-- A problem that repeats a text of the row. -/
theorem isFrom_text {text : String} (h : problem.texts = [text])
    (htext : text.toList ⊆ d.cursor.text) : problem.IsFrom d := by
  rw [IsFrom, h]
  exact List.forall_mem_singleton.2 (.inr htext)

/-- A problem that repeats the keyword and a text of the row. -/
theorem isFrom_keyword_text {text : String} (h : problem.texts = [d.keyword, text])
    (htext : text.toList ⊆ d.cursor.text) : problem.IsFrom d := by
  rw [IsFrom, h]
  exact List.forall_mem_cons.2 ⟨.inl rfl, List.forall_mem_singleton.2 (.inr htext)⟩

end Problem

/-- A string that is read is made of characters of the row. -/
theorem Cursor.subset_of_next {c c' : Cursor} {t : Token String}
    (h : c.next string? = some (t, c')) : t.value.toList ⊆ c'.text := by
  obtain ⟨lexeme, hlexeme, heq⟩ := Option.map_eq_some_iff.1 h
  obtain ⟨rfl, rfl⟩ := Prod.mk.inj heq
  obtain ⟨hspells, rest, hahead, -⟩ := recognises_string.sound hlexeme
  intro ch hch
  have hmem : ch ∈ c.ahead := by
    rw [hahead]
    exact List.mem_append_left _ (hspells.mem_token hch).2
  rw [ahead_eq_drop] at hmem
  exact List.mem_of_mem_drop hmem

/-- So it is when the string may be missing. -/
theorem Draft.subset_of_take {d e : Draft} {t : Token String}
    (h : d.take string? = (some t, e)) : t.value.toList ⊆ e.cursor.text := by
  unfold take at h
  split at h
  · cases h
  · rename_i hnext
    cases h
    exact Cursor.subset_of_next hnext

/-- So it is when the string has to be there. -/
theorem Draft.subset_of_require {d e : Draft} {kind : Kind} {t : Token String}
    (h : d.require kind string? = (some t, e)) : t.value.toList ⊆ e.cursor.text := by
  unfold require at h
  split at h
  · rename_i htake
    cases h
    exact subset_of_take htake
  · cases h

/-! ## Values with other ranges -/

namespace Draft

/-- The colour of channels whose ranges are changed. -/
theorem colorOf_mapRange (f : Range → Range) (red green blue : Option (Token UInt8))
    (alpha : Option (Option (Token UInt8))) :
    colorOf (red.map (·.mapRange f)) (green.map (·.mapRange f)) (blue.map (·.mapRange f))
        (alpha.map (Option.map (·.mapRange f))) =
      (colorOf red green blue alpha).map (·.mapRanges f) := by
  rcases red with _ | red <;> rcases green with _ | green <;> rcases blue with _ | blue <;>
    rcases alpha with _ | _ | alpha <;> rfl

/-- The alert sound of parts whose ranges are changed. -/
theorem alertSoundOf_mapRange (f : Range → Range) (id : Option (Token SoundId))
    (volume : Option (Option (Token UInt16))) :
    alertSoundOf (id.map (·.mapRange f)) (volume.map (Option.map (·.mapRange f))) =
      (alertSoundOf id volume).map (·.mapRanges f) := by
  rcases id with _ | id <;> rcases volume with _ | _ | volume <;> rfl

end Draft

/-! ## Likenesses -/

/-- A likeness of drafts that reading keeps. -/
structure Likeness where
  /-- Where a range of the first draft is found in the second. -/
  move : Range → Range
  /-- Two drafts are alike. -/
  Alike : Draft → Draft → Prop
  /-- Two rules ended alike. -/
  Ended : Outcome Unit → Outcome Unit → Prop
  /-- The problems that may be reported on an argument. -/
  Permits : Problem → Prop
  /-- An error without a solution may always be reported. -/
  permits {problem : Problem} :
    problem.severity = .error → problem.solution = none → Permits problem
  keyword_eq {d d' : Draft} : Alike d d' → d'.keyword = d.keyword
  /-- Drafts that are alike find the same argument or none. They are alike behind it, whether it is
  reported or not. -/
  next {α : Type} {recognise : List Char → Option (Lexeme α)} {Spells : List Char → α → Prop}
    {d d' : Draft} : Draft.Reads recognise Spells → Alike d d' →
      (d.cursor.next recognise = none ∧ d'.cursor.next recognise = none) ∨
      ∃ t c c', d.cursor.next recognise = some (t, c) ∧
        d'.cursor.next recognise = some (t.mapRange move, c') ∧
        Alike { d with cursor := c } { d' with cursor := c' } ∧
        ∀ problem, Permits problem → problem.IsFrom { d with cursor := c } →
          Alike (({ d with cursor := c } : Draft).report problem t.range)
            (({ d' with cursor := c' } : Draft).report problem (move t.range))
  /-- Rules that are alike end alike behind their last argument. -/
  finish {d d' : Draft} : Alike d d' → Ended (d.finish ()) (d'.finish ())
  /-- Rules that are alike end alike where an argument is missing. -/
  missing {d d' : Draft} {problem : Problem} : Alike d d' → problem.severity = .error →
    problem.solution = none → problem.texts = [] →
    Ended ((d.missing problem).abort ()) ((d'.missing problem).abort ())

namespace Likeness

variable {α β : Type} (L : Likeness) {d d' : Draft}

/-- Two drafts are alike behind an argument, whether it is reported or not. -/
structure Passed (r : Range) (d d' : Draft) : Prop where
  alike : L.Alike d d'
  report {problem : Problem} : L.Permits problem → problem.IsFrom d →
    L.Alike (d.report problem r) (d'.report problem (L.move r))

/-- Two outcomes are alike: their rules ended alike, and the value of the second is that of the
first with its ranges moved. -/
structure Outcomes (f : α → α) (o o' : Outcome α) : Prop where
  value_eq : o'.value = f o.value
  ended : L.Ended (o.map fun _ => ()) (o'.map fun _ => ())

variable {L}

/-- Outcomes stay alike when their values are replaced alike. -/
theorem Outcomes.map {f : α → α} {g : β → β} {o o' : Outcome α} (h : L.Outcomes f o o')
    (k : α → β) (hcomm : ∀ a, k (f a) = g (k a)) : L.Outcomes g (o.map k) (o'.map k) where
  value_eq := by
    show k o'.value = g (k o.value)
    rw [h.value_eq, hcomm]
  ended := h.ended

/-- Rules that are alike have outcomes that are alike behind their last argument. -/
theorem finish_outcomes (h : L.Alike d d') (f : α → α) (value : α) :
    L.Outcomes f (d.finish value) (d'.finish (f value)) where
  value_eq := by rw [Draft.value_finish, Draft.value_finish]
  ended := by
    rw [Draft.map_finish, Draft.map_finish]
    exact L.finish h

/-- The same for a rule that stores one token or none. -/
theorem finish_token (h : L.Alike d d') (token : Option (Token α)) :
    L.Outcomes (Option.map (·.mapRange L.move)) (d.finish token)
      (d'.finish (token.map (·.mapRange L.move))) :=
  finish_outcomes h (Option.map (·.mapRange L.move)) token

/-- Rules that end alike at a missing argument have outcomes that are alike. -/
theorem abort_outcomes {f : α → α} {value : α} (hvalue : f value = value)
    (h : L.Ended (d.abort ()) (d'.abort ())) : L.Outcomes f (d.abort value) (d'.abort value) :=
  ⟨hvalue.symm, h⟩

/-! ### Steps -/

section Steps

variable {recognise : List Char → Option (Lexeme α)} {Spells : List Char → α → Prop}

/-- Drafts that are alike both read an argument that may be missing, or neither does. -/
theorem take (h : L.Alike d d') (hreads : Draft.Reads recognise Spells) :
    (∃ t e e', d.take recognise = (some t, e) ∧
      d'.take recognise = (some (t.mapRange L.move), e') ∧ L.Passed t.range e e') ∨
    (d.take recognise = (none, d) ∧ d'.take recognise = (none, d')) := by
  unfold Draft.take
  obtain ⟨hnone, hnone'⟩ | ⟨t, c, c', hsome, hsome', halike, hreport⟩ := L.next hreads h
  · rw [hnone, hnone']
    exact .inr ⟨rfl, rfl⟩
  · rw [hsome, hsome']
    exact .inl ⟨t, _, _, rfl, rfl, halike, fun hpermits hfrom => hreport _ hpermits hfrom⟩

/-- Drafts that are alike both read an argument that has to be there, or both end where it is
missing. -/
theorem require (h : L.Alike d d') (hreads : Draft.Reads recognise Spells) (kind : Kind) :
    (∃ t e e', d.require kind recognise = (some t, e) ∧
      d'.require kind recognise = (some (t.mapRange L.move), e') ∧ L.Passed t.range e e') ∨
    ∃ e e', d.require kind recognise = (none, e) ∧ d'.require kind recognise = (none, e') ∧
      L.Ended (e.abort ()) (e'.abort ()) := by
  obtain ⟨t, e, e', htake, htake', hpassed⟩ | ⟨htake, htake'⟩ := take h hreads
  · refine .inl ⟨t, e, e', ?_, ?_, hpassed⟩
    · simp only [Draft.require, htake]
    · simp only [Draft.require, htake']
  · refine .inr ⟨d.missing (.expected kind), d'.missing (.expected kind), ?_, ?_, ?_⟩
    · simp only [Draft.require, htake]
    · simp only [Draft.require, htake']
    · exact L.missing h rfl rfl rfl

end Steps

variable {number : Token Int} {bounds : Bounds}

/-- The check of bounds keeps drafts alike behind the number that is checked. -/
theorem Passed.checkBounds (h : L.Passed number.range d d') (bounds : Bounds) :
    L.Alike (d.checkBounds number bounds) (d'.checkBounds (number.mapRange L.move) bounds) := by
  have hkeyword := L.keyword_eq h.alike
  unfold Draft.checkBounds
  by_cases hin : bounds.contains number.value = true
  · have hin' : bounds.contains (number.mapRange L.move).value = true := hin
    rw [if_pos hin, if_pos hin']
    exact h.alike
  · have hin' : ¬bounds.contains (number.mapRange L.move).value = true := hin
    rw [if_neg hin, if_neg hin', hkeyword]
    exact h.report (L.permits rfl rfl) (Problem.isFrom_keyword rfl)

/-- A number is converted alike in both drafts. -/
theorem Passed.bounded (h : L.Passed number.range d d') (bounds : Bounds)
    (convert? : Int → Option α) :
    ∃ value e e', d.bounded number bounds convert? = (value, e) ∧
      d'.bounded (number.mapRange L.move) bounds convert? =
        (value.map (·.mapRange L.move), e') ∧ L.Alike e e' := by
  have hchecked := h.checkBounds bounds
  unfold Draft.bounded
  by_cases hin : bounds.contains number.value = true
  · have hin' : bounds.contains (number.mapRange L.move).value = true := hin
    rw [if_pos hin, if_pos hin']
    refine ⟨_, d, d', rfl, ?_, h.alike⟩
    rw [Option.map_map]
    rfl
  · have hin' : ¬bounds.contains (number.mapRange L.move).value = true := hin
    rw [if_neg hin, if_neg hin']
    exact ⟨none, _, _, rfl, rfl, hchecked⟩

/-! ### Rules with one argument -/

/-- Numbers within bounds. -/
theorem numeric (h : L.Alike d.anyOperator d'.anyOperator) (bounds : Bounds) :
    L.Outcomes (Option.map (·.mapRange L.move)) (d.numeric bounds) (d'.numeric bounds) := by
  unfold Draft.numeric
  obtain ⟨t, e, e', hd, hd', hpassed⟩ | ⟨e, e', hd, hd', hended⟩ :=
    require h Draft.reads_number .number
  · rw [hd, hd']
    exact finish_token (hpassed.checkBounds bounds) (some t)
  · rw [hd, hd']
    exact abort_outcomes rfl hended

/-- Font sizes. -/
theorem fontSize (h : L.Alike d.noOperator d'.noOperator) :
    L.Outcomes (Option.map (·.mapRange L.move)) d.fontSize d'.fontSize := by
  unfold Draft.fontSize
  obtain ⟨t, e, e', hd, hd', hpassed⟩ | ⟨e, e', hd, hd', hended⟩ :=
    require h Draft.reads_number .number
  · rw [hd, hd']
    exact finish_token (hpassed.checkBounds Bounds.fontSize) (some t)
  · rw [hd, hd']
    exact abort_outcomes rfl hended

/-- Rarities, where a text that names none may be reported. -/
theorem rarity (h : L.Alike d.anyOperator d'.anyOperator)
    (hpermits : ∀ text, L.Permits (.unknownRarity text)) :
    L.Outcomes (Option.map (·.mapRange L.move)) d.rarity d'.rarity := by
  unfold Draft.rarity
  obtain ⟨t, e, e', hd, hd', hpassed⟩ | ⟨e, e', hd, hd', hended⟩ :=
    require h Draft.reads_string .string
  · have hfrom : (Problem.unknownRarity t.value).IsFrom e :=
      Problem.isFrom_text rfl (Draft.subset_of_require hd)
    rw [hd, hd']
    dsimp only [Token.mapRange]
    cases Rarity.ofName? t.value with
    | some r => exact finish_token hpassed.alike (some ⟨r, t.range⟩)
    | none => exact finish_token (hpassed.report (hpermits t.value) hfrom) none
  · rw [hd, hd']
    exact abort_outcomes rfl hended

/-- Groups of sockets. -/
theorem socketGroup (h : L.Alike d.equalityOperator d'.equalityOperator) :
    L.Outcomes (Option.map (·.mapRange L.move)) d.socketGroup d'.socketGroup := by
  unfold Draft.socketGroup
  obtain ⟨t, e, e', hd, hd', hpassed⟩ | ⟨e, e', hd, hd', hended⟩ :=
    require h Draft.reads_string .string
  · rw [hd, hd']
    dsimp only [Token.mapRange]
    split_ifs
    · exact finish_token hpassed.alike (some ⟨_, t.range⟩)
    · exact finish_token (hpassed.report (L.permits rfl rfl) (Problem.isFrom_fixed rfl)) none
  · rw [hd, hd']
    exact abort_outcomes rfl hended

/-- Truth values. -/
theorem boolean (h : L.Alike d.equalityOperator d'.equalityOperator) :
    L.Outcomes (Option.map (·.mapRange L.move)) d.boolean d'.boolean := by
  unfold Draft.boolean
  obtain ⟨t, e, e', hd, hd', hpassed⟩ | ⟨e, e', hd, hd', hended⟩ :=
    require h Draft.reads_boolean .boolean
  · rw [hd, hd']
    exact finish_token hpassed.alike (some t)
  · rw [hd, hd']
    exact abort_outcomes rfl hended

/-- Paths of sound files. -/
theorem soundFile (h : L.Alike d.equalityOperator d'.equalityOperator) :
    L.Outcomes (Option.map (·.mapRange L.move)) d.soundFile d'.soundFile := by
  unfold Draft.soundFile
  obtain ⟨t, e, e', hd, hd', hpassed⟩ | ⟨e, e', hd, hd', hended⟩ :=
    require h Draft.reads_string .string
  · rw [hd, hd']
    dsimp only [Token.mapRange]
    split_ifs
    · exact finish_token (hpassed.report (L.permits rfl rfl) (Problem.isFrom_fixed rfl)) none
    · exact finish_token hpassed.alike (some t)
  · rw [hd, hd']
    exact abort_outcomes rfl hended

/-! ### Rules with several arguments -/

/-- Both drafts read a colour channel, or both end where it is missing. -/
theorem channel (h : L.Alike d d') :
    (∃ value e e', d.channel = (some value, e) ∧
      d'.channel = (some (value.map (·.mapRange L.move)), e') ∧ L.Alike e e') ∨
    ∃ e e', d.channel = (none, e) ∧ d'.channel = (none, e') ∧
      L.Ended (e.abort ()) (e'.abort ()) := by
  unfold Draft.channel
  obtain ⟨t, e, e', hd, hd', hpassed⟩ | ⟨e, e', hd, hd', hended⟩ :=
    require h Draft.reads_number .number
  · obtain ⟨value, e₁, e₁', hbounded, hbounded', halike⟩ :=
      hpassed.bounded Bounds.channel toByte?
    rw [hd, hd']
    dsimp only
    rw [hbounded, hbounded']
    exact .inl ⟨value, e₁, e₁', rfl, rfl, halike⟩
  · rw [hd, hd']
    exact .inr ⟨e, e', rfl, rfl, hended⟩

/-- Both drafts read an optional number, or neither does. -/
theorem optional (h : L.Alike d d') (bounds : Bounds) (convert? : Int → Option α) :
    ∃ value e e', d.optional bounds convert? = (value, e) ∧
      d'.optional bounds convert? = (value.map (Option.map (·.mapRange L.move)), e') ∧
      L.Alike e e' := by
  unfold Draft.optional
  obtain ⟨t, e, e', hd, hd', hpassed⟩ | ⟨hd, hd'⟩ := take h Draft.reads_number
  · obtain ⟨value, e₁, e₁', hbounded, hbounded', halike⟩ := hpassed.bounded bounds convert?
    rw [hd, hd']
    dsimp only
    rw [hbounded, hbounded']
    exact ⟨some value, e₁, e₁', rfl, rfl, halike⟩
  · rw [hd, hd']
    exact ⟨none, d, d', rfl, rfl, h⟩

/-- Colours. -/
theorem color (h : L.Alike d.equalityOperator d'.equalityOperator) :
    L.Outcomes (Option.map (·.mapRanges L.move)) d.color d'.color := by
  unfold Draft.color
  obtain ⟨red, e₁, e₁', hred, hred', h₁⟩ | ⟨e, e', hred, hred', hended⟩ := channel h
  rotate_left
  · rw [hred, hred']
    exact abort_outcomes rfl hended
  rw [hred, hred']
  dsimp only
  obtain ⟨green, e₂, e₂', hgreen, hgreen', h₂⟩ | ⟨e, e', hgreen, hgreen', hended⟩ := channel h₁
  rotate_left
  · rw [hgreen, hgreen']
    exact abort_outcomes rfl hended
  rw [hgreen, hgreen']
  dsimp only
  obtain ⟨blue, e₃, e₃', hblue, hblue', h₃⟩ | ⟨e, e', hblue, hblue', hended⟩ := channel h₂
  rotate_left
  · rw [hblue, hblue']
    exact abort_outcomes rfl hended
  rw [hblue, hblue']
  dsimp only
  obtain ⟨alpha, e₄, e₄', halpha, halpha', h₄⟩ := optional h₃ Bounds.channel toByte?
  rw [halpha, halpha']
  dsimp only
  rw [Draft.colorOf_mapRange]
  exact finish_outcomes h₄ _ _

/-- Both drafts read a sound, or both end where it is missing. -/
theorem soundId (h : L.Alike d d') (vocabulary : Vocabulary) :
    (∃ value e e', d.soundId vocabulary = (some value, e) ∧
      d'.soundId vocabulary = (some (value.map (·.mapRange L.move)), e') ∧ L.Alike e e') ∨
    ∃ e e', d.soundId vocabulary = (none, e) ∧ d'.soundId vocabulary = (none, e') ∧
      L.Ended (e.abort ()) (e'.abort ()) := by
  unfold Draft.soundId
  obtain ⟨t, e, e', hd, hd', hpassed⟩ | ⟨hd, hd'⟩ := take h Draft.reads_number
  · obtain ⟨value, e₁, e₁', hbounded, hbounded', halike⟩ :=
      hpassed.bounded Bounds.soundNumber fun n => (toByte? n).map SoundId.numbered
    rw [hd, hd']
    dsimp only
    rw [hbounded, hbounded']
    exact .inl ⟨value, e₁, e₁', rfl, rfl, halike⟩
  · rw [hd, hd']
    dsimp only
    obtain ⟨t, e, e', hname, hname', hpassed⟩ | ⟨hname, hname'⟩ := take h Draft.reads_string
    · have hkeyword := L.keyword_eq hpassed.alike
      have hfrom : (Problem.unknownSound e.keyword t.value).IsFrom e :=
        Problem.isFrom_keyword_text rfl (Draft.subset_of_take hname)
      rw [hname, hname']
      dsimp only [Token.mapRange]
      rw [hkeyword]
      split_ifs
      · exact .inl ⟨some (t.map .named), e, e', rfl, rfl, hpassed.alike⟩
      · exact .inl ⟨none, _, _, rfl, rfl, hpassed.report (L.permits rfl rfl) hfrom⟩
    · rw [hname, hname']
      exact .inr ⟨_, _, rfl, rfl, L.missing h rfl rfl rfl⟩

/-- Alert sounds. -/
theorem alertSound (h : L.Alike d.equalityOperator d'.equalityOperator)
    (vocabulary : Vocabulary) :
    L.Outcomes (Option.map (·.mapRanges L.move)) (d.alertSound vocabulary)
      (d'.alertSound vocabulary) := by
  unfold Draft.alertSound
  obtain ⟨id, e₁, e₁', hid, hid', h₁⟩ | ⟨e, e', hid, hid', hended⟩ := soundId h vocabulary
  · rw [hid, hid']
    dsimp only
    obtain ⟨volume, e₂, e₂', hvolume, hvolume', h₂⟩ := optional h₁ Bounds.volume toWord16?
    rw [hvolume, hvolume']
    dsimp only
    rw [Draft.alertSoundOf_mapRange]
    exact finish_outcomes h₂ _ _
  · rw [hid, hid']
    exact abort_outcomes rfl hended

/-! ### Names of a vocabulary -/

/-- Both drafts read the same strings one after the other, and are alike behind them when the
rejected ones are reported. -/
theorem strings (h : L.Alike d d') (lexicon : Lexicon) (accepts : String → Bool) :
    d'.cursor.strings.1 = d.cursor.strings.1.map (·.mapRange L.move) ∧
      L.Alike
        (({ d with cursor := d.cursor.strings.2 } : Draft).reportRejected lexicon
          (d.cursor.strings.1.filter fun t => !accepts t.value))
        (({ d' with cursor := d'.cursor.strings.2 } : Draft).reportRejected lexicon
          (d'.cursor.strings.1.filter fun t => !accepts t.value)) := by
  generalize hcursor : d.cursor = c
  induction c using Cursor.strings.induct generalizing d d' with
  | case1 c hnone =>
    obtain ⟨-, hnone'⟩ | ⟨t, _, _, hsome, -⟩ := L.next Draft.reads_string h
    · rw [Cursor.strings_of_none hnone, Cursor.strings_of_none hnone', ← hcursor]
      exact ⟨rfl, h⟩
    · rw [hcursor, hnone] at hsome
      cases hsome
  | case2 c t c₁ hsome _ _ _ ih =>
    obtain ⟨hnone, -⟩ | ⟨t₀, c₀, c₁', hfound, hfound', halike, hreport⟩ :=
      L.next Draft.reads_string h
    · rw [hcursor, hsome] at hnone
      cases hnone
    rw [hcursor, hsome] at hfound
    cases hfound
    rw [Cursor.strings_of_some hsome, Cursor.strings_of_some hfound']
    by_cases haccepted : accepts t.value = true
    · -- The first string is accepted, and the others are read behind it.
      obtain ⟨htokens, hrest⟩ := ih halike rfl
      refine ⟨congrArg (_ :: ·) htokens, ?_⟩
      rw [List.filter_cons_of_neg (by simp [haccepted]),
        List.filter_cons_of_neg (by simp [Token.mapRange, haccepted])]
      exact hrest
    · -- The first string is reported, which does not depend on how far the cursor has moved.
      have hfrom : (Problem.notListed d.keyword t.value lexicon).IsFrom { d with cursor := c₁ } :=
        Problem.isFrom_keyword_text rfl (Cursor.subset_of_next hsome)
      obtain ⟨htokens, hrest⟩ := ih (hreport _ (L.permits rfl rfl) hfrom) rfl
      refine ⟨congrArg (_ :: ·) htokens, ?_⟩
      rw [List.filter_cons_of_pos (by simp [haccepted]),
        List.filter_cons_of_pos (by simp [Token.mapRange, haccepted])]
      have hproblem : Problem.notListed d'.keyword t.value lexicon =
          .notListed d.keyword t.value lexicon := by rw [L.keyword_eq h]
      unfold Draft.reportRejected at hrest ⊢
      rw [List.foldl_cons, List.foldl_cons]
      dsimp only [Token.mapRange]
      rw [hproblem]
      exact hrest

/-- Names of a vocabulary. Without any name it matters whether something is reported already. -/
theorem names (h : L.Alike d.equalityOperator d'.equalityOperator)
    (hempty : d.equalityOperator.cursor.next string? = none →
      d'.equalityOperator.messages.isEmpty = d.equalityOperator.messages.isEmpty)
    (lexicon : Lexicon) (vocabulary : Vocabulary) :
    L.Outcomes (List.map (·.mapRange L.move)) (d.names lexicon vocabulary)
      (d'.names lexicon vocabulary) := by
  obtain ⟨htokens, halike⟩ := strings h lexicon (lexicon.accepts vocabulary)
  have hnext : d.equalityOperator.cursor.next string? = none ↔
      d'.equalityOperator.cursor.next string? = none := by
    obtain ⟨hnone, hnone'⟩ | ⟨t, _, _, hsome, hsome', -⟩ := L.next Draft.reads_string h
    · exact iff_of_true hnone hnone'
    · exact iff_of_false (by rw [hsome]; nofun) (by rw [hsome']; nofun)
  by_cases hmissing : d.equalityOperator.cursor.next string? = none ∧
      d.equalityOperator.messages.isEmpty = true
  · obtain ⟨hnone, hnothing⟩ := hmissing
    have hnothing' := (hempty hnone).trans hnothing
    rw [Draft.names_of_none hnone hnothing, Draft.names_of_none (hnext.1 hnone) hnothing']
    exact abort_outcomes rfl (L.missing h rfl rfl rfl)
  · have hmissing' : ¬(d'.equalityOperator.cursor.next string? = none ∧
        d'.equalityOperator.messages.isEmpty = true) := by
      rintro ⟨hnone', hnothing'⟩
      exact hmissing ⟨hnext.2 hnone', (hempty (hnext.2 hnone')).symm.trans hnothing'⟩
    rw [Draft.names_of_some hmissing, Draft.names_of_some hmissing']
    -- Whether a name is accepted does not depend on where it stands.
    have haccepted : (d'.equalityOperator.cursor.strings.1.filter fun t =>
          lexicon.accepts vocabulary t.value) =
        (d.equalityOperator.cursor.strings.1.filter fun t =>
          lexicon.accepts vocabulary t.value).map (·.mapRange L.move) := by
      rw [htokens]
      exact List.filter_map
    rw [haccepted]
    exact finish_outcomes halike _ _

/-! ### All rules -/

/-- Rules of the same name have outcomes that are alike if they are alike behind their operators. -/
theorem argument {name : RuleName} (h : L.Alike (d.readOperator name) (d'.readOperator name))
    (hrarity : name = .condition .rarity → ∀ text, L.Permits (.unknownRarity text))
    (hempty : name.Lists → (d.readOperator name).cursor.next string? = none →
      (d'.readOperator name).messages.isEmpty = (d.readOperator name).messages.isEmpty)
    (vocabulary : Vocabulary) :
    L.Outcomes (Argument.mapRanges L.move) (d.argument vocabulary name)
      (d'.argument vocabulary name) := by
  cases name with
  | condition condition =>
    cases condition with
    | itemLevel | dropLevel | quality | sockets | linkedSockets | height | width =>
      exact (numeric h _).map Argument.number fun _ => rfl
    | socketGroup => exact (socketGroup h).map Argument.socketGroup fun _ => rfl
    | rarity => exact (rarity h (hrarity rfl)).map Argument.rarity fun _ => rfl
    | itemClass => exact (names h (hempty (.inl rfl)) _ _).map Argument.names fun _ => rfl
    | baseType => exact (names h (hempty (.inr rfl)) _ _).map Argument.names fun _ => rfl
    | identified | corrupted | elderItem | shaperItem | shapedMap | elderMap =>
      exact (boolean h).map Argument.boolean fun _ => rfl
  | action action =>
    cases action with
    | setBorderColor | setTextColor | setBackgroundColor =>
      exact (color h).map Argument.color fun _ => rfl
    | playAlertSound | playAlertSoundPositional =>
      exact (alertSound h vocabulary).map Argument.sound fun _ => rfl
    | setFontSize => exact (fontSize h).map Argument.fontSize fun _ => rfl
    | disableDropSound =>
      have hflag : L.Outcomes id d.flag d'.flag := finish_outcomes h id ()
      exact hflag.map (fun _ => Argument.flag) fun _ => rfl
    | customAlertSound => exact (soundFile h).map Argument.soundFile fun _ => rfl

end Likeness

/-! ## Invariants -/

/-- A property of drafts that reading keeps. -/
structure Invariant where
  /-- The draft has the property. -/
  Holds : Draft → Prop
  /-- The rule ended with the property. -/
  Ended : Outcome Unit → Prop
  /-- The problems that may be reported on an argument. -/
  Permits : Problem → Prop
  /-- An error without a solution may always be reported. -/
  permits {problem : Problem} :
    problem.severity = .error → problem.solution = none → Permits problem
  /-- The property is kept by reading an argument, whether it is reported or not. -/
  next {α : Type} {recognise : List Char → Option (Lexeme α)} {Spells : List Char → α → Prop}
    {d : Draft} {t : Token α} {c : Cursor} : Draft.Reads recognise Spells → Holds d →
      d.cursor.next recognise = some (t, c) →
      Holds { d with cursor := c } ∧
        ∀ problem, Permits problem → problem.IsFrom { d with cursor := c } →
          Holds (({ d with cursor := c } : Draft).report problem t.range)
  finish {d : Draft} : Holds d → Ended (d.finish ())
  missing {d : Draft} {problem : Problem} : Holds d → problem.severity = .error →
    problem.solution = none → problem.texts = [] → Ended ((d.missing problem).abort ())

namespace Invariant

/-- A draft is like itself if it has the property. -/
def likeness (I : Invariant) : Likeness where
  move := id
  Alike d d' := d' = d ∧ I.Holds d
  Ended o o' := o' = o ∧ I.Ended o
  Permits := I.Permits
  permits := I.permits
  keyword_eq := fun ⟨hsame, _⟩ => by rw [hsame]
  next := by
    rintro α recognise Spells _ d hreads ⟨rfl, h⟩
    cases hnext : d.cursor.next recognise with
    | none => exact .inl ⟨rfl, rfl⟩
    | some found =>
      obtain ⟨t, c⟩ := found
      obtain ⟨hholds, hreport⟩ := I.next hreads h hnext
      exact .inr ⟨t, c, c, rfl, rfl, ⟨rfl, hholds⟩,
        fun problem hpermits hfrom => ⟨rfl, hreport problem hpermits hfrom⟩⟩
  finish := by
    rintro _ d ⟨rfl, h⟩
    exact ⟨rfl, I.finish h⟩
  missing := by
    rintro _ d problem ⟨rfl, h⟩ hseverity hsolution htexts
    exact ⟨rfl, I.missing h hseverity hsolution htexts⟩

/-- A rule that has the property behind its operator ends with it. -/
theorem argument (I : Invariant) {d : Draft} {name : RuleName} (h : I.Holds (d.readOperator name))
    (hrarity : name = .condition .rarity → ∀ text, I.Permits (.unknownRarity text))
    (vocabulary : Vocabulary) : I.Ended ((d.argument vocabulary name).map fun _ => ()) := by
  have hself : I.likeness.Alike (d.readOperator name) (d.readOperator name) := ⟨rfl, h⟩
  exact (Likeness.argument hself hrarity (fun _ _ => rfl) vocabulary).ended.2

end Invariant

end ItemFilter
