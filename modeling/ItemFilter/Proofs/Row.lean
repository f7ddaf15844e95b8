import ItemFilter.Change
import ItemFilter.Proofs.Text

/-!
# Rows and where a text can be cut

`rows` splits a text at its terminators and `terminators` counts them, each by a scan of its own.
The two agree (`length_rows`), and no row holds a line break (`isLineBreak_of_mem_rows`).

What an edit does to the rows comes down to cutting a text. A cut after a closed part, which is
empty or ends with a line break, is clean unless it falls between the two characters of one
terminator. Across a clean cut the terminators add up (`terminators_append`), and the rows of the
whole are those of the first part, without the empty row that its last terminator opens, followed
by those of the second (`rows_append`).
-/

namespace ItemFilter

open Text

/-- The two line breaks. -/
theorem isLineBreak_iff {c : Char} : isLineBreak c = true ↔ c = '\n' ∨ c = '\r' := by
  simp [isLineBreak]

/-- A place lies inside a terminator exactly when a carriage return stands before it and a line
feed behind it. -/
theorem insideTerminator_iff {before after : List Char} :
    Change.insideTerminator before after = true ↔
      before.getLast? = some '\r' ∧ after.head? = some '\n' := by
  simp [Change.insideTerminator]

/-- Whether a place lies inside a terminator is seen from the last character before it. -/
theorem insideTerminator_cons_cons (a b : Char) (before after : List Char) :
    Change.insideTerminator (a :: b :: before) after =
      Change.insideTerminator (b :: before) after := by
  unfold Change.insideTerminator
  rw [List.getLast?_cons_cons]

/-! ## One character more -/

/-- There is always a row. -/
theorem rows_ne_nil (cs : List Char) : rows cs ≠ [] := by
  fun_cases rows cs <;> simp_all

/-- The rows of a text are a first row and the rows below it. -/
theorem exists_rows_eq_cons (cs : List Char) : ∃ row below, rows cs = row :: below :=
  List.exists_cons_of_ne_nil (rows_ne_nil cs)

/-- A carriage return and a line feed end a row together. -/
theorem rows_cons_pair (cs : List Char) : rows ('\r' :: '\n' :: cs) = [] :: rows cs := by
  rw [rows]

/-- A line break ends a row, unless it is the first half of a terminator. -/
theorem rows_cons_lineBreak {c : Char} {cs : List Char} (hc : isLineBreak c = true)
    (h : Change.insideTerminator [c] cs = false) : rows (c :: cs) = [] :: rows cs := by
  rw [rows, if_pos hc]
  rintro rest rfl rfl
  simp [Change.insideTerminator] at h

/-- Any other character belongs to the first row of what follows. -/
theorem rows_cons_text {c : Char} {cs row : List Char} {below : List (List Char)}
    (hc : isLineBreak c = false) (h : rows cs = row :: below) :
    rows (c :: cs) = (c :: row) :: below := by
  rw [rows, if_neg (by simp [hc]), h]
  rintro rest rfl rfl
  simp [isLineBreak] at hc

/-- A line break counts, unless it is the first half of a terminator. -/
theorem terminators_cons_lineBreak {c : Char} {cs : List Char} (hc : isLineBreak c = true)
    (h : Change.insideTerminator [c] cs = false) :
    terminators (c :: cs) = terminators cs + 1 := by
  rcases isLineBreak_iff.1 hc with rfl | rfl
  · rw [terminators]
  · have hne : cs.head? ≠ some '\n' := by simpa [Change.insideTerminator] using h
    rw [terminators, if_neg hne]

/-- The first half of a terminator does not count. -/
theorem terminators_cons_pair (cs : List Char) :
    terminators ('\r' :: '\n' :: cs) = terminators cs + 1 := by
  simp [terminators]

/-- No other character counts. -/
theorem terminators_cons_text {c : Char} {cs : List Char} (hc : isLineBreak c = false) :
    terminators (c :: cs) = terminators cs := by
  rw [terminators]
  · rintro rfl; simp [isLineBreak] at hc
  · rintro rfl; simp [isLineBreak] at hc

/-- A text is read from the left in four ways: it is at its end, or a terminator of two characters
comes, or one of a single character, or a character of a row. -/
theorem rowsInduction {motive : List Char → Prop} (nil : motive [])
    (pair : ∀ cs, motive cs → motive ('\r' :: '\n' :: cs))
    (lineBreak : ∀ c cs, isLineBreak c = true → Change.insideTerminator [c] cs = false →
      motive cs → motive (c :: cs))
    (text : ∀ c cs, isLineBreak c = false → motive cs → motive (c :: cs)) :
    ∀ cs, motive cs := by
  intro cs
  fun_induction rows cs with
  | case1 => exact nil
  | case2 cs ih => exact pair cs ih
  | case3 c cs hpair hc ih =>
    -- A carriage return in front of a line feed was the case before.
    refine lineBreak c cs hc ?_ ih
    by_contra hin
    rw [Bool.not_eq_false, insideTerminator_iff] at hin
    obtain ⟨rest, rfl⟩ := List.head?_eq_some_iff.1 hin.2
    exact hpair rest (by simpa using hin.1) rfl
  | case4 c cs hpair hc hrows ih => exact text c cs (by simpa using hc) ih
  | case5 c cs hpair hc row below hrows ih => exact text c cs (by simpa using hc) ih

/-! ## All rows -/

/-- There is one row more than there are terminators. -/
theorem length_rows (cs : List Char) : (rows cs).length = terminators cs + 1 := by
  induction cs using rowsInduction with
  | nil => rfl
  | pair cs ih => rw [rows_cons_pair, terminators_cons_pair, List.length_cons, ih]
  | lineBreak c cs hc hin ih =>
    rw [rows_cons_lineBreak hc hin, terminators_cons_lineBreak hc hin, List.length_cons, ih]
  | text c cs hc ih =>
    obtain ⟨row, below, hrows⟩ := exists_rows_eq_cons cs
    rw [rows_cons_text hc hrows, terminators_cons_text hc, ← ih, hrows]
    rfl

/-- No row holds a line break. -/
theorem isLineBreak_of_mem_rows {cs row : List Char} (hrow : row ∈ rows cs) :
    ∀ c ∈ row, isLineBreak c = false := by
  induction cs using rowsInduction generalizing row with
  | nil =>
    obtain rfl : row = [] := by simpa [rows] using hrow
    simp
  | pair cs ih =>
    rw [rows_cons_pair] at hrow
    rcases List.mem_cons.1 hrow with rfl | hbelow
    · simp
    · exact ih hbelow
  | lineBreak c cs hc hin ih =>
    rw [rows_cons_lineBreak hc hin] at hrow
    rcases List.mem_cons.1 hrow with rfl | hbelow
    · simp
    · exact ih hbelow
  | text c cs hc ih =>
    obtain ⟨first, below, hrows⟩ := exists_rows_eq_cons cs
    -- The character joins the first row, which is a row of the rest without it.
    rw [rows_cons_text hc hrows] at hrow
    rw [hrows] at ih
    rcases List.mem_cons.1 hrow with rfl | hbelow
    · intro d hd
      rcases List.mem_cons.1 hd with rfl | hd
      · exact hc
      · exact ih List.mem_cons_self d hd
    · exact ih (List.mem_cons_of_mem _ hbelow)

/-! ## Cutting a text -/

/-- A text ends a row when it is empty or its last character is a line break. -/
def EndsRow (cs : List Char) : Prop := ∀ c ∈ cs.getLast?, isLineBreak c = true

/-- The empty text ends a row. -/
theorem endsRow_nil : EndsRow [] := by simp [EndsRow]

/-- What ends a row still does so without its first character. -/
theorem EndsRow.of_cons {c : Char} {cs : List Char} (h : EndsRow (c :: cs)) : EndsRow cs := by
  cases cs with
  | nil => exact endsRow_nil
  | cons d ds => simpa only [EndsRow, List.getLast?_cons_cons] using h

/-- A text that ends a row holds more than a character of a row. -/
theorem EndsRow.ne_nil_of_cons {c : Char} {cs : List Char} (h : EndsRow (c :: cs))
    (hc : isLineBreak c = false) : cs ≠ [] := by
  rintro rfl
  have hbreak : isLineBreak c = true := h c (by simp)
  rw [hc] at hbreak
  cases hbreak

/-- A cut that is clean behind a text is clean behind the text without its first character. -/
theorem insideTerminator_of_cons {c : Char} {u v : List Char}
    (h : Change.insideTerminator (c :: u) v = false) : Change.insideTerminator u v = false := by
  cases u with
  | nil => rfl
  | cons d u => rwa [insideTerminator_cons_cons] at h

/-- A line break that ends a row of a text also does so when the text goes on behind a clean
cut. -/
theorem insideTerminator_singleton_append {c : Char} {u v : List Char}
    (hc : Change.insideTerminator [c] u = false)
    (h : Change.insideTerminator (c :: u) v = false) :
    Change.insideTerminator [c] (u ++ v) = false := by
  cases u with
  | nil => exact h
  | cons d u => exact hc

/-- A text that is not empty and ends a row has a terminator. -/
theorem terminators_pos {cs : List Char} (h : EndsRow cs) (hne : cs ≠ []) :
    0 < terminators cs := by
  induction cs using rowsInduction with
  | nil => exact absurd rfl hne
  | pair cs ih => rw [terminators_cons_pair]; omega
  | lineBreak c cs hc hin ih => rw [terminators_cons_lineBreak hc hin]; omega
  | text c cs hc ih =>
    rw [terminators_cons_text hc]
    exact ih h.of_cons (h.ne_nil_of_cons hc)

/-- The terminators of two texts add up across a clean cut. -/
theorem terminators_append {u v : List Char} (h : Change.insideTerminator u v = false) :
    terminators (u ++ v) = terminators u + terminators v := by
  induction u using rowsInduction with
  | nil => simp [terminators]
  | pair u ih =>
    have hu := insideTerminator_of_cons (insideTerminator_of_cons h)
    rw [List.cons_append, List.cons_append, terminators_cons_pair, terminators_cons_pair, ih hu]
    omega
  | lineBreak c u hc hin ih =>
    -- The line break stays a terminator of its own, whatever follows the cut.
    have hu := insideTerminator_of_cons h
    have hcut := insideTerminator_singleton_append hin h
    rw [List.cons_append, terminators_cons_lineBreak hc hcut, terminators_cons_lineBreak hc hin,
      ih hu]
    omega
  | text c u hc ih =>
    rw [List.cons_append, terminators_cons_text hc, terminators_cons_text hc,
      ih (insideTerminator_of_cons h)]

/-- Behind a clean cut that ends a row the rows of the second text follow those of the first, whose
last terminator opens no row of its own. -/
theorem rows_append {u v : List Char} (hu : EndsRow u)
    (h : Change.insideTerminator u v = false) :
    rows (u ++ v) = (rows u).dropLast ++ rows v := by
  induction u using rowsInduction with
  | nil => rfl
  | pair u ih =>
    rw [List.cons_append, List.cons_append, rows_cons_pair, rows_cons_pair,
      ih hu.of_cons.of_cons (insideTerminator_of_cons (insideTerminator_of_cons h)),
      List.dropLast_cons_of_ne_nil (rows_ne_nil u)]
    rfl
  | lineBreak c u hc hin ih =>
    rw [List.cons_append, rows_cons_lineBreak hc (insideTerminator_singleton_append hin h),
      rows_cons_lineBreak hc hin, ih hu.of_cons (insideTerminator_of_cons h),
      List.dropLast_cons_of_ne_nil (rows_ne_nil u)]
    rfl
  | text c u hc ih =>
    -- The character joins the first row of `u`, which is not its last one.
    have hrow := ih hu.of_cons (insideTerminator_of_cons h)
    have hpos := terminators_pos hu.of_cons (hu.ne_nil_of_cons hc)
    have hlen := length_rows u
    obtain ⟨row, below, hrows⟩ := exists_rows_eq_cons u
    rw [hrows, List.length_cons] at hlen
    have hbelow : below ≠ [] := List.length_pos_iff.1 (by omega)
    rw [hrows, List.dropLast_cons_of_ne_nil hbelow, List.cons_append] at hrow
    rw [List.cons_append, rows_cons_text hc hrow, rows_cons_text hc hrows,
      List.dropLast_cons_of_ne_nil hbelow, List.cons_append]

/-- The rows that a first text brings in are as many as its terminators. -/
theorem length_dropLast_rows (cs : List Char) : (rows cs).dropLast.length = terminators cs := by
  rw [List.length_dropLast, length_rows]
  rfl

end ItemFilter
