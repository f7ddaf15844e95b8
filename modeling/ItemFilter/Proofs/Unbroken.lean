import ItemFilter.Proofs.Coverage
import ItemFilter.Proofs.Rendering

/-!
# No text of a line is broken

A line stores texts in many places: comments, names and sounds are taken from the row, a diagnostic
repeats the keyword and the argument that it is about, and an explanation or a solution may come
with it. The texts taken from a row are made of its characters, and all others are fixed or spell
numbers. So no text of a line holds a line break, unless it is the name of the file.

What a line is made of was traced in the row before (`Line.traced_read`). For its diagnostics,
`Problem.Unbroken.diagnostic` says that a diagnostic has no line break if what its problem repeats
has none. A problem repeats only the keyword and texts of the row (`Problem.IsFrom`), so that
nothing broken is reported while a rule is read (`Invariant.unbroken`). `Line.isRow_of_mem_texts`
puts both together.
-/

namespace ItemFilter

open Text Lexeme

/-! ## Rows made of rows -/

/-- Two rows, one behind the other, make a row. -/
theorem IsRow.append {text text' : String} (h : IsRow text) (h' : IsRow text') :
    IsRow (text ++ text') := by
  unfold IsRow at h h' ⊢
  rw [String.toList_append]
  exact List.forall_mem_append.2 ⟨h, h'⟩

/-- A text whose characters are looked at one by one. -/
theorem isRow_ofList {cs : List Char} (h : cs.any isLineBreak = false) :
    IsRow (String.ofList cs) := by
  intro c hc
  rw [String.toList_ofList] at hc
  exact Bool.eq_false_of_not_eq_true (List.any_eq_false.1 h c hc)

/-- A row that goes on with a row and then with a fixed text. -/
theorem IsRow.fill {before text : String} {after : List Char} (hbefore : IsRow before)
    (htext : IsRow text) (hafter : after.any isLineBreak = false) :
    IsRow (before ++ text ++ String.ofList after) :=
  (hbefore.append htext).append (isRow_ofList hafter)

/-- A text without blanks is a row. -/
theorem isRow_of_visible {text : String} (h : ∀ c ∈ text.toList, isBlank c = false) : IsRow text :=
  fun c hc => Line.isLineBreak_of_visible (h c hc)

/-- An integer is written on one row. -/
theorem isRow_int (n : Int) : IsRow (toString n) :=
  isRow_of_visible (spellsInteger_toString n).isBareString.isBlank_eq_false

/-- A natural number is written on one row. -/
theorem isRow_nat (n : Nat) : IsRow (toString n) := isRow_int n

/-- Rows with rows between them make a row. -/
theorem isRow_intercalate_of_forall {separator : String} (hseparator : IsRow separator)
    {parts : List String} (h : ∀ part ∈ parts, IsRow part) :
    IsRow (separator.intercalate parts) := by
  induction parts with
  | nil => exact nofun
  | cons part parts ih =>
    obtain ⟨hfirst, hrest⟩ := List.forall_mem_cons.1 h
    cases parts with
    | nil =>
      rw [String.intercalate_singleton]
      exact hfirst
    | cons next parts =>
      rw [String.intercalate_cons_cons]
      exact (hfirst.append hseparator).append (ih hrest)

/-! ### What a row spells -/

/-- A group of sockets is a row, since its letters stay letters as capitals. -/
theorem isRow_of_spellsSockets {token : List Char} {text : String} (h : SpellsSockets token text) :
    IsRow text := by
  obtain ⟨letters, -, hletters, rfl⟩ := h
  refine isRow_of_visible fun c hc => ?_
  rw [String.toList_ofList] at hc
  obtain ⟨letter, hmem, rfl⟩ := List.mem_map.1 hc
  have hcapital : isLetter letter.toUpper = true := by
    rw [isLetter, Char.isAlpha_toUpper_eq_isAlpha, hletters letter hmem, Bool.true_or]
  exact (isBare_iff.1 (isBare_of_isLetter hcapital)).1

section Cut

variable {cs : List Char} (hcs : ∀ c ∈ cs, isLineBreak c = false)
include hcs

/-- What is made of characters in a range of a row is a row. -/
theorem isRow_of_cut {text : String} {r : Range} (h : text.toList ⊆ r.cut cs) : IsRow text :=
  fun c hc => hcs c (List.mem_of_mem_take (List.mem_of_mem_drop (h hc)))

/-- A string that is spelled on a row is a row. -/
theorem isRow_of_spellsString {text : String} {r : Range} (h : SpellsString (r.cut cs) text) :
    IsRow text :=
  isRow_of_cut hcs fun _ hc => (h.mem_token hc).2

/-- A comment that is spelled on a row is a row. -/
theorem isRow_of_spellsComment {text : String} {r : Range} (h : SpellsComment (r.cut cs) text) :
    IsRow text :=
  isRow_of_cut hcs fun _ hc => h.1 ▸ hc

/-- A word that is spelled on a row is a row. -/
theorem isRow_of_spellsWord {text : String} {r : Range} (h : SpellsWord (r.cut cs) text) :
    IsRow text := by
  refine isRow_of_cut (r := r) hcs ?_
  rw [h.2.2, String.toList_ofList]
  exact List.Subset.refl _

end Cut

/-! ## The texts of diagnostics -/

namespace Lexeme.Kind

/-- A kind is described on one row. -/
theorem isRow_describe (kind : Kind) : IsRow kind.describe := by
  cases kind <;> exact isRow_ofList rfl

end Lexeme.Kind

/-- Bounds are described on one row. -/
theorem Bounds.isRow_describe (bounds : Bounds) : IsRow bounds.describe := by
  cases bounds with
  | between least greatest =>
    exact ((isRow_int least).append (by decide)).append (isRow_int greatest)
  | oneOf values =>
    simp only [describe]
    split
    · decide
    · exact isRow_int _
    · have hfirst : IsRow (", ".intercalate (values.dropLast.map toString)) :=
        isRow_intercalate_of_forall (by decide) (List.forall_mem_map.2 fun n _ => isRow_int n)
      exact hfirst.append (.append (by decide) (isRow_int _))

/-- An operator is written on one row. -/
theorem Operator.isRow_symbol (op : Operator) : IsRow op.symbol := by
  cases op <;> exact isRow_ofList rfl

/-- A rarity is named on one row. -/
theorem Rarity.isRow_name (rarity : Rarity) : IsRow rarity.name := by
  cases rarity <;> exact isRow_ofList rfl

namespace Solution

/-- The texts of a solution. -/
def texts (s : Solution) : List String := s.current.toList ++ [s.replacement]

end Solution

namespace Diagnostic

/-- All that a diagnostic says: its excerpt, its description, its page and its solution. -/
def texts (d : Diagnostic) : List String :=
  d.excerpt :: d.description.toList ++ d.url.toList ++ d.solution.toList.flatMap Solution.texts

/-- Nothing that a diagnostic says is broken. -/
def Unbroken (d : Diagnostic) : Prop := ∀ text ∈ d.texts, IsRow text

end Diagnostic

namespace Problem

/-- Nothing that a problem repeats is broken. -/
def Unbroken (problem : Problem) : Prop := ∀ text ∈ problem.texts, IsRow text

variable {problem : Problem}

/-- The excerpt of a problem is one row if what it repeats is. -/
theorem Unbroken.isRow_excerpt (h : problem.Unbroken) : IsRow problem.excerpt := by
  -- The fixed texts are looked at character by character, and rows are put into the gaps.
  cases problem with
  | invalidOperator keyword op | operatorNotPermitted keyword op =>
    have hkeyword : IsRow keyword := h keyword List.mem_cons_self
    exact .fill (isRow_ofList rfl) hkeyword rfl
  | expected kind => exact .fill (isRow_ofList rfl) kind.isRow_describe rfl
  | outOfBounds keyword bounds =>
    have hkeyword : IsRow keyword := h keyword List.mem_cons_self
    exact .fill (.fill (isRow_ofList rfl) hkeyword rfl) bounds.isRow_describe rfl
  | notListed keyword name lexicon =>
    have hkeyword : IsRow keyword := h keyword List.mem_cons_self
    have hname : IsRow name := h name (List.mem_cons_of_mem _ List.mem_cons_self)
    have hnoun : IsRow lexicon.noun := by cases lexicon <;> exact isRow_ofList rfl
    exact .fill (.fill (.fill (isRow_ofList rfl) hkeyword rfl) hname rfl) hnoun rfl
  | unknownSound keyword name =>
    have hkeyword : IsRow keyword := h keyword List.mem_cons_self
    have hname : IsRow name := h name (List.mem_cons_of_mem _ List.mem_cons_self)
    exact .fill (.fill (isRow_ofList rfl) hkeyword rfl) hname rfl
  | unknownKeyword word =>
    have hword : IsRow word := h word List.mem_cons_self
    exact .fill (isRow_ofList rfl) hword rfl
  | unknownRarity text =>
    have hnames : ∀ name ∈ Rarity.all.map Rarity.name, IsRow name :=
      List.forall_mem_map.2 fun rarity _ => rarity.isRow_name
    exact .fill (isRow_ofList rfl) (isRow_intercalate_of_forall (isRow_ofList rfl) hnames) rfl
  | unreadableKeyword _ | expectedSound | invalidSocketGroup | blankSoundFile | trailingText
  | ignoredText => exact isRow_ofList rfl

/-- The description of a problem is one row. -/
theorem isRow_description {text : String} (h : text ∈ problem.description) : IsRow text := by
  cases problem with
  | invalidOperator keyword op | notListed keyword name lexicon =>
    cases h
    exact isRow_ofList rfl
  | unreadableKeyword found =>
    cases h
    have hfound : IsRow (foundText found) := by
      rcases found with _ | kind
      · exact isRow_ofList rfl
      · cases kind <;> exact isRow_ofList rfl
    exact .fill (isRow_ofList rfl) hfound rfl
  | _ => cases h

/-- The solution of a problem replaces a text that the problem repeats or an operator, and puts
something fixed in its place. -/
theorem Unbroken.isRow_solution (h : problem.Unbroken) {s : Solution} (hs : s ∈ problem.solution)
    {text : String} (htext : text ∈ s.texts) : IsRow text := by
  cases problem with
  | invalidOperator keyword op =>
    cases hs
    rcases List.mem_pair.1 htext with rfl | rfl
    · exact op.isRow_symbol
    · exact Operator.equal.isRow_symbol
  | operatorNotPermitted keyword op =>
    cases hs
    rcases List.mem_pair.1 htext with rfl | rfl
    · exact op.isRow_symbol
    · exact nofun
  | unknownRarity text' =>
    obtain ⟨rarity, -, rfl⟩ := Option.map_eq_some_iff.1 hs
    rcases List.mem_pair.1 htext with rfl | rfl
    · exact h text List.mem_cons_self
    · exact rarity.isRow_name
  | _ => cases hs

/-- The diagnostic of a problem is unbroken if what the problem repeats is. -/
theorem Unbroken.diagnostic (h : problem.Unbroken) (file : Option String) (range : Range) :
    (problem.diagnostic file range).Unbroken := by
  intro text htext
  -- No problem has a page.
  rw [Diagnostic.texts, show (problem.diagnostic file range).url.toList = [] from rfl,
    List.append_nil] at htext
  rcases List.mem_append.1 htext with hsaid | hsolution
  · rcases List.mem_cons.1 hsaid with rfl | hdescription
    · exact h.isRow_excerpt
    · exact isRow_description (Option.mem_toList.1 hdescription)
  · obtain ⟨s, hs, htext⟩ := List.mem_flatMap.1 hsolution
    exact h.isRow_solution (Option.mem_toList.1 hs) htext

end Problem

/-! ## Drafts -/

namespace Messages

/-- No diagnostic is broken. -/
def Unbroken (m : Messages) : Prop := ∀ x ∈ m.toList, x.2.Unbroken

/-- Where nothing is reported, nothing is broken. -/
theorem unbroken_none : Messages.none.Unbroken := nofun

/-- A report of an unbroken problem breaks nothing. -/
theorem Unbroken.report {m : Messages} (h : m.Unbroken) {problem : Problem}
    (hproblem : problem.Unbroken) (file : Option String) (range : Range) :
    (m.report file problem range).Unbroken := by
  intro x hx
  rcases mem_toList_report hx with hold | rfl
  · exact h x hold
  · exact hproblem.diagnostic file range

end Messages

namespace Draft

variable {d : Draft} {problem : Problem}

/-- Nothing is broken in a draft: it is on a row, behind a keyword that is one, and has not reported
anything broken. -/
structure Unbroken (d : Draft) : Prop where
  /-- The cursor is on a row. -/
  isRow : ∀ c ∈ d.cursor.text, isLineBreak c = false
  keyword : IsRow d.keyword
  messages : d.messages.Unbroken

namespace Unbroken

/-- Reporting a problem that repeats the keyword and texts of the row. -/
theorem report (h : d.Unbroken) (hfrom : problem.IsFrom d) (range : Range) :
    (d.report problem range).Unbroken := by
  have hproblem : problem.Unbroken := by
    intro text htext
    rcases hfrom text htext with rfl | hrow
    · exact h.keyword
    · exact fun c hc => h.isRow c (hrow hc)
  exact ⟨h.isRow, h.keyword, h.messages.report hproblem d.file range⟩

/-- Reading a lexeme does not leave the row. -/
theorem next {α : Type} (h : d.Unbroken) {recognise : List Char → Option (Lexeme α)} {t : Token α}
    {c : Cursor} (hnext : d.cursor.next recognise = some (t, c))
    (operator : Option (Token Operator)) :
    ({ d with cursor := c, operator := operator } : Draft).Unbroken := by
  obtain ⟨lexeme, -, heq⟩ := Option.map_eq_some_iff.1 hnext
  obtain ⟨-, rfl⟩ := Prod.mk.inj heq
  exact ⟨h.isRow, h.keyword, h.messages⟩

/-- Ending behind the last argument. -/
theorem close {α : Type} (h : d.Unbroken) {trailing : Problem} (htrailing : trailing.texts = [])
    (value : α) : (d.close trailing value).messages.Unbroken := by
  rw [close_eq]
  dsimp only
  split_ifs
  · exact h.messages
  · exact (h.report (Problem.isFrom_fixed htrailing) d.cursor.restOfText).messages

/-- Reading the operator of a rule, which is reported where the rule does not take it. -/
theorem readOperator (h : d.Unbroken) (name : RuleName) : (d.readOperator name).Unbroken := by
  cases hop : d.cursor.next operator? with
  | none =>
    rw [readOperator_of_none hop]
    exact ⟨h.isRow, h.keyword, h.messages⟩
  | some found =>
    obtain ⟨op, c⟩ := found
    have hread := h.next hop (some op)
    rw [readOperator_of_some hop]
    split
    · exact hread
    · rename_i problem hproblem
      refine hread.report (Problem.isFrom_keyword ?_) op.range
      obtain rfl | ⟨rfl, -⟩ := RuleName.operatorProblem?_eq_some hproblem
      · rfl
      · rfl

end Unbroken

end Draft

/-- A rule in which nothing is broken goes on to report nothing broken. -/
def Invariant.unbroken : Invariant where
  Holds := Draft.Unbroken
  Ended o := o.messages.Unbroken
  Permits _ := True
  permits _ _ := trivial
  next {_ _ _ d _ _} _ h hnext :=
    ⟨h.next hnext d.operator, fun _ _ hfrom => (h.next hnext d.operator).report hfrom _⟩
  finish h := h.close rfl ()
  missing h _ _ htexts := (h.report (Problem.isFrom_fixed htexts) _).messages

/-- Whatever rule is read, nothing broken is reported. -/
theorem Draft.Unbroken.argument {d : Draft} (h : d.Unbroken) (vocabulary : Vocabulary)
    (name : RuleName) : (d.argument vocabulary name).messages.Unbroken :=
  Invariant.unbroken.argument (h.readOperator name) (fun _ _ => trivial) vocabulary

/-! ## Lines -/

namespace Argument

/-- The texts that an argument stores. -/
def texts : Argument → List String
  | socketGroup token | soundFile token => (token.map Token.value).toList
  | names tokens => tokens.map Token.value
  | sound (some ⟨⟨.named name, _⟩, _⟩) => [name]
  | number _ | rarity _ | boolean _ | color _ | sound _ | fontSize _ | flag => []

end Argument

namespace LineKind

/-- The texts that a line stores, its keyword and its operator among them. -/
def texts : LineKind → List String
  | empty => []
  | comment text => [text.value]
  | block header => header.keyword.value.name :: (header.comment.map Token.value).toList
  | rule r =>
    r.name.value.name :: (r.operator.map fun t => t.value.symbol).toList ++ r.argument.texts ++
      (r.comment.map Token.value).toList
  | unknown word => (word.map Token.value).toList

end LineKind

/-- All texts of a line: those of its tokens and those of its diagnostics. The name of the file is
not one of them. -/
def Line.texts (line : Line) : List String :=
  line.kind.texts ++ line.messages.toList.flatMap fun x => x.2.texts

section Spelled

variable {cs : List Char} (hcs : ∀ c ∈ cs, isLineBreak c = false)
include hcs

/-- The texts of an argument that is spelled on a row are rows. -/
theorem Argument.Spelled.isRow {a : Argument} (h : a.Spelled cs) :
    ∀ text ∈ a.texts, IsRow text := by
  intro text htext
  cases a with
  | socketGroup token =>
    obtain ⟨t, ht, rfl⟩ := Option.mem_map.1 (Option.mem_toList.1 htext)
    exact isRow_of_spellsSockets (h t ht)
  | soundFile token =>
    obtain ⟨t, ht, rfl⟩ := Option.mem_map.1 (Option.mem_toList.1 htext)
    exact isRow_of_spellsString hcs (h t ht)
  | names tokens =>
    obtain ⟨t, ht, rfl⟩ := List.mem_map.1 htext
    exact isRow_of_spellsString hcs (h t ht)
  | sound s =>
    rcases s with _ | ⟨⟨id, range⟩, volume⟩
    · cases htext
    · cases id with
      | numbered number => cases htext
      | named name =>
        obtain rfl := List.mem_singleton.1 htext
        exact isRow_of_spellsString hcs (h _ rfl).1
  | number _ | rarity _ | boolean _ | color _ | fontSize _ | flag => cases htext

/-- The texts of a line whose tokens are spelled on a row are rows. -/
theorem LineKind.Spelled.isRow {kind : LineKind} (h : kind.Spelled cs) :
    ∀ text ∈ kind.texts, IsRow text := by
  have hkeyword (keyword : Keyword) : IsRow keyword.name :=
    isRow_of_visible keyword.spellsWord_name.isBareString.isBlank_eq_false
  have hcomment {comment : Option (Token String)}
      (hspelled : ∀ t ∈ comment, t.Spelled cs SpellsComment) :
      ∀ text ∈ (comment.map Token.value).toList, IsRow text := by
    intro text htext
    obtain ⟨t, ht, rfl⟩ := Option.mem_map.1 (Option.mem_toList.1 htext)
    exact isRow_of_spellsComment hcs (hspelled t ht)
  intro text htext
  cases kind with
  | empty => cases htext
  | comment t =>
    obtain rfl := List.mem_singleton.1 htext
    exact isRow_of_spellsComment hcs h
  | block header =>
    rcases List.mem_cons.1 htext with rfl | htext
    · exact hkeyword (.block _)
    · exact hcomment h.2 text htext
  | rule r =>
    obtain ⟨-, -, hargument, hspelled⟩ := h
    rcases List.mem_append.1 htext with htext | htext
    · rcases List.mem_append.1 htext with htext | htext
      · rcases List.mem_cons.1 htext with rfl | htext
        · exact hkeyword (.rule _)
        · obtain ⟨op, -, rfl⟩ := Option.mem_map.1 (Option.mem_toList.1 htext)
          exact op.value.isRow_symbol
      · exact hargument.isRow hcs text htext
    · exact hcomment hspelled text htext
  | unknown word =>
    obtain ⟨t, ht, rfl⟩ := Option.mem_map.1 (Option.mem_toList.1 htext)
    exact isRow_of_spellsWord hcs (h t ht)

end Spelled

namespace Line

/-- Nothing broken is reported on a row. -/
theorem unbroken_read {row : Nat} {cs : List Char} (hcs : ∀ c ∈ cs, isLineBreak c = false)
    (file : Option String) (vocabulary : Vocabulary) :
    (read ⟨row, cs, 0⟩ file vocabulary).messages.Unbroken := by
  unfold read
  split_ifs
  · exact Messages.unbroken_none
  split
  · exact Messages.unbroken_none
  split
  · have hproblem : (Problem.unreadableKeyword (Cursor.peek ⟨row, cs, 0⟩)).Unbroken :=
      List.forall_mem_nil _
    exact Messages.unbroken_none.report hproblem file _
  rename_i word c hnext
  -- The word is repeated by the reports on it and on the rule that it names.
  obtain ⟨hmoves, hspells⟩ := Cursor.next_reaches recognises_word
    (fun hspells => hspells.isBareString.isString.isVisible) hnext
  have hword : IsRow word.value := isRow_of_spellsWord hcs hspells
  split
  · have hproblem : (Problem.unknownKeyword word.value).Unbroken :=
      List.forall_mem_singleton.2 hword
    unfold unrecognised
    cases vocabulary.unknownKeywords with
    | ignore => exact Messages.unbroken_none
    | warn => exact Messages.unbroken_none.report hproblem file _
  · rename_i keyword _
    have hstart : (Draft.start c word.value file).Unbroken :=
      ⟨hmoves.text_eq ▸ hcs, hword, Messages.unbroken_none⟩
    cases keyword with
    | block visibility => exact hstart.close rfl ()
    | rule name => exact hstart.argument vocabulary name

/-- No text of the line of a row is broken. -/
theorem isRow_of_mem_texts {row : Nat} {cs : List Char} (hcs : ∀ c ∈ cs, isLineBreak c = false)
    (file : Option String) (vocabulary : Vocabulary) {text : String}
    (htext : text ∈ (read ⟨row, cs, 0⟩ file vocabulary).texts) : IsRow text := by
  rcases List.mem_append.1 htext with hkind | hmessages
  · exact (traced_read row cs file vocabulary).spelled.isRow hcs text hkind
  · obtain ⟨x, hx, htext⟩ := List.mem_flatMap.1 hmessages
    exact unbroken_read hcs file vocabulary x hx text htext

end Line

end ItemFilter
