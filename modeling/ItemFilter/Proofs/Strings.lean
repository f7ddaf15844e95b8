import ItemFilter.Rule.Argument

/-!
# Names one after the other

The names of a rule are read in a loop that counts them, collects the accepted ones and reports the
others as it goes. What it comes to can be said without the loop: all strings in front of the cursor
are read first (`Cursor.strings`), the accepted ones are those that pass the filter, and the others
are reported in their order (`Draft.reportRejected`). `Draft.readNames_eq` says so for any state of
the loop, and `Draft.names_eq` for the rule.
-/

namespace ItemFilter

open Lexeme

/-! ## All strings -/

namespace Cursor

/-- The strings in front of the cursor in order, and the cursor behind the last of them. -/
def strings (c : Cursor) : List (Token String) × Cursor :=
  match _h : c.next string? with
  | none => ([], c)
  | some (token, c') =>
    let (tokens, last) := strings c'
    (token :: tokens, last)
termination_by c.remaining.length
decreasing_by exact length_remaining_lt string?_ne_nil _h

/-- Without a string in front of the cursor none is read. -/
theorem strings_of_none {c : Cursor} (h : c.next string? = none) : c.strings = ([], c) := by
  rw [strings]
  split
  · rfl
  · rename_i hsome
    rw [h] at hsome
    cases hsome

/-- With a string in front of the cursor, it is read first. -/
theorem strings_of_some {c c' : Cursor} {t : Token String} (h : c.next string? = some (t, c')) :
    c.strings = (t :: c'.strings.1, c'.strings.2) := by
  rw [strings]
  split
  · rename_i hnone
    rw [h] at hnone
    cases hnone
  · rename_i hsome
    rw [h] at hsome
    cases hsome
    rfl

end Cursor

namespace Draft

variable {d : Draft} {lexicon : Lexicon} {vocabulary : Vocabulary}

/-! ## The loop -/

/-- Reports rejected names, each on itself. -/
def reportRejected (d : Draft) (lexicon : Lexicon) (rejected : List (Token String)) : Draft :=
  rejected.foldl
    (fun d token => d.report (.notListed d.keyword token.value lexicon) token.range) d

/-- Reporting rejected names and then moving the cursor is moving it first. -/
theorem reportRejected_cursor (lexicon : Lexicon) (rejected : List (Token String))
    (cursor : Cursor) :
    { d.reportRejected lexicon rejected with cursor } =
      ({ d with cursor } : Draft).reportRejected lexicon rejected := by
  induction rejected generalizing d with
  | nil => rfl
  | cons t rejected ih =>
    exact ih (d := d.report (.notListed d.keyword t.value lexicon) t.range)

/-- The loop sees all strings, adds the accepted ones to those that it has, and reports the others
in their order. -/
theorem readNames_eq (d : Draft) (lexicon : Lexicon) (vocabulary : Vocabulary) (seen : Nat)
    (accepted : List (Token String)) :
    d.readNames lexicon vocabulary seen accepted =
      (seen + d.cursor.strings.1.length,
        accepted ++ d.cursor.strings.1.filter fun t => lexicon.accepts vocabulary t.value,
        ({ d with cursor := d.cursor.strings.2 } : Draft).reportRejected lexicon
          (d.cursor.strings.1.filter fun t => !lexicon.accepts vocabulary t.value)) := by
  fun_induction readNames d lexicon vocabulary seen accepted with
  | case1 d seen accepted hnone =>
    rw [Cursor.strings_of_none hnone]
    simp [reportRejected]
  | case2 d seen accepted t c hsome e haccepted ih =>
    rw [ih, Cursor.strings_of_some hsome]
    simp [e, haccepted, Nat.add_assoc, Nat.add_comm 1]
  | case3 d seen accepted t c hsome e hrejected ih =>
    -- A rejected name is reported before the names behind it are read.
    rw [ih, Cursor.strings_of_some hsome]
    simp [e, hrejected, Nat.add_assoc, Nat.add_comm 1, reportRejected, report]

/-- Names of a vocabulary: all strings are read, the rejected ones are reported, and the accepted
ones are kept. -/
theorem names_eq (d : Draft) (lexicon : Lexicon) (vocabulary : Vocabulary) :
    d.names lexicon vocabulary =
      let e := d.equalityOperator
      let tokens := e.cursor.strings.1
      let reported := ({ e with cursor := e.cursor.strings.2 } : Draft).reportRejected lexicon
        (tokens.filter fun t => !lexicon.accepts vocabulary t.value)
      if tokens.isEmpty && reported.messages.isEmpty then
        (reported.missing (.expected .string)).abort []
      else reported.finish (tokens.filter fun t => lexicon.accepts vocabulary t.value) := by
  unfold names
  rw [readNames_eq]
  dsimp only
  generalize d.equalityOperator.cursor.strings.1 = tokens
  cases tokens with
  | nil => rfl
  | cons t tokens => simp

/-- Without any name and without a report so far, the names of a rule are missing. -/
theorem names_of_none (h : d.equalityOperator.cursor.next string? = none)
    (hempty : d.equalityOperator.messages.isEmpty = true) (lexicon : Lexicon)
    (vocabulary : Vocabulary) :
    d.names lexicon vocabulary = (d.equalityOperator.missing (.expected .string)).abort [] := by
  rw [names_eq]
  dsimp only
  rw [Cursor.strings_of_none h]
  exact if_pos hempty

/-- With a name or a report, a rule ends behind its last name, and the rejected ones are
reported. -/
theorem names_of_some
    (h : ¬(d.equalityOperator.cursor.next string? = none ∧
      d.equalityOperator.messages.isEmpty = true)) (lexicon : Lexicon) (vocabulary : Vocabulary) :
    d.names lexicon vocabulary =
      (({ d.equalityOperator with cursor := d.equalityOperator.cursor.strings.2 } : Draft)
        |>.reportRejected lexicon (d.equalityOperator.cursor.strings.1.filter fun t =>
          !lexicon.accepts vocabulary t.value)
        |>.finish (d.equalityOperator.cursor.strings.1.filter fun t =>
          lexicon.accepts vocabulary t.value)) := by
  rw [names_eq]
  generalize d.equalityOperator = e at h
  dsimp only
  rw [if_neg]
  intro hcondition
  rw [Bool.and_eq_true] at hcondition
  obtain ⟨htokens, hmessages⟩ := hcondition
  apply h
  cases hnext : e.cursor.next string? with
  | none =>
    rw [Cursor.strings_of_none hnext] at hmessages
    exact ⟨rfl, hmessages⟩
  | some found =>
    obtain ⟨t, c⟩ := found
    rw [Cursor.strings_of_some hnext] at htokens
    cases htokens

end Draft

end ItemFilter
