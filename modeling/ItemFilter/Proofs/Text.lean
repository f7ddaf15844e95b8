import ItemFilter.Text.Blank
import Mathlib

/-!
# Runs of characters

A run is the longest beginning of a text whose characters satisfy a test. Every text is its run and
a rest that does not go on with the run (`exists_run`), and there is only one way to split it so
(`takeWhile_append_of_stop`, `dropWhile_append_of_stop`). Blanks at the end of a text are a run from
the other side: a text is what `trimEnd` leaves of it and blanks (`exists_trimEnd`), and `trimEnd`
looks at no more than the last part that is not blank (`trimEnd_append_blanks`,
`trimEnd_append_visible`).
-/

namespace ItemFilter.Text

variable {p : Char → Bool}

/-- A text stops a run when it is empty or its first character fails the test. -/
def Stops (p : Char → Bool) (cs : List Char) : Prop := ∀ c ∈ cs.head?, p c = false

/-- The empty text stops every run. -/
theorem stops_nil : Stops p [] := by simp [Stops]

/-- A text stops a run when its first character fails the test. -/
theorem stops_cons {c : Char} {cs : List Char} : Stops p (c :: cs) ↔ p c = false := by
  simp [Stops]

/-- What is left behind a run stops it. -/
theorem stops_dropWhile (p : Char → Bool) (cs : List Char) : Stops p (cs.dropWhile p) := by
  intro c hc
  obtain ⟨rest, hrest⟩ := List.head?_eq_some_iff.1 hc
  have hne : cs.dropWhile p ≠ [] := by rw [hrest]; simp
  have hnot := List.head_dropWhile_not p hne
  simpa [hrest] using hnot

/-- A run in front of a text that stops it is found whole. -/
theorem takeWhile_append_of_stop {u v : List Char} (hu : ∀ c ∈ u, p c = true) (hv : Stops p v) :
    (u ++ v).takeWhile p = u := by
  rw [List.takeWhile_append_of_pos hu]
  cases v with
  | nil => simp
  | cons c v =>
    rw [List.takeWhile_cons_of_neg (by simp [stops_cons.1 hv]), List.append_nil]

/-- Behind a run in front of a text that stops it, that text is left. -/
theorem dropWhile_append_of_stop {u v : List Char} (hu : ∀ c ∈ u, p c = true) (hv : Stops p v) :
    (u ++ v).dropWhile p = v := by
  rw [List.dropWhile_append_of_pos hu]
  cases v with
  | nil => simp
  | cons c v => rw [List.dropWhile_cons_of_neg (by simp [stops_cons.1 hv])]

/-- Every text is a run and a rest that stops it. -/
theorem exists_run (p : Char → Bool) (cs : List Char) :
    ∃ run rest, cs = run ++ rest ∧ (∀ c ∈ run, p c = true) ∧ Stops p rest :=
  ⟨cs.takeWhile p, cs.dropWhile p, List.takeWhile_append_dropWhile.symm,
    fun _ hc => List.mem_takeWhile_imp hc, stops_dropWhile p cs⟩

/-! ## Blanks at the end -/

/-- A text is what is left of it without its trailing blanks, and blanks. -/
theorem exists_trimEnd (cs : List Char) :
    ∃ blanks, cs = trimEnd cs ++ blanks ∧ ∀ c ∈ blanks, isBlank c = true :=
  ⟨cs.rtakeWhile isBlank, List.rdropWhile_append_rtakeWhile.symm,
    fun _ hc => List.mem_rtakeWhile_imp hc⟩

/-- Further blanks at the end are trimmed as well. -/
theorem trimEnd_append_blanks {blanks : List Char} (h : ∀ c ∈ blanks, isBlank c = true)
    (cs : List Char) : trimEnd (cs ++ blanks) = trimEnd cs := by
  have hreverse : ∀ c ∈ blanks.reverse, isBlank c = true := fun c hc => h c (List.mem_reverse.1 hc)
  rw [trimEnd, List.reverse_append, List.dropWhile_append_of_pos hreverse, trimEnd]

/-- A text whose last character is not blank stays as it is. -/
theorem trimEnd_eq_self {cs : List Char} (h : ∀ c ∈ cs.getLast?, isBlank c = false) :
    trimEnd cs = cs := by
  have hstops : Stops isBlank cs.reverse := by
    intro c hc
    rw [List.head?_reverse] at hc
    exact h c hc
  have hdrop : cs.reverse.dropWhile isBlank = cs.reverse :=
    dropWhile_append_of_stop (u := []) nofun hstops
  rw [trimEnd, hdrop, List.reverse_reverse]

/-- What is left of a text without its trailing blanks ends with a character that is not blank. -/
theorem getLast?_trimEnd (cs : List Char) : ∀ c ∈ (trimEnd cs).getLast?, isBlank c = false := by
  intro c hc
  rw [trimEnd, List.getLast?_reverse] at hc
  exact stops_dropWhile isBlank cs.reverse c hc

/-- Without the blanks at its end, a text starts with the same character unless this is blank. -/
theorem head?_trimEnd {c : Char} {cs : List Char} (h : cs.head? = some c)
    (hc : isBlank c = false) : (trimEnd cs).head? = some c := by
  obtain ⟨blanks, hcs, hblanks⟩ := exists_trimEnd cs
  cases htrim : trimEnd cs with
  | nil =>
    rw [htrim, List.nil_append] at hcs
    rw [hblanks c (hcs ▸ List.mem_of_head? h)] at hc
    cases hc
  | cons d trimmed =>
    rw [hcs, htrim] at h
    exact h

/-- What stands in front of a character that is not blank is not trimmed. -/
theorem trimEnd_append_visible {v : List Char} (h : ∃ c ∈ v, isBlank c = false) (u : List Char) :
    trimEnd (u ++ v) = u ++ trimEnd v := by
  obtain ⟨blanks, hv, hblanks⟩ := exists_trimEnd v
  have hne : trimEnd v ≠ [] := by
    intro hnil
    obtain ⟨c, hc, hvisible⟩ := h
    rw [hv, hnil, List.nil_append] at hc
    rw [hblanks c hc] at hvisible
    cases hvisible
  have hlast : trimEnd (u ++ trimEnd v) = u ++ trimEnd v := by
    apply trimEnd_eq_self
    rw [List.getLast?_append_of_ne_nil u hne]
    exact getLast?_trimEnd v
  calc trimEnd (u ++ v) = trimEnd (u ++ trimEnd v ++ blanks) := by rw [List.append_assoc, ← hv]
    _ = trimEnd (u ++ trimEnd v) := trimEnd_append_blanks hblanks _
    _ = u ++ trimEnd v := hlast

end ItemFilter.Text
