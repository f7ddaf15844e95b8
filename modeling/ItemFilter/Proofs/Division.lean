import ItemFilter.Listing
import ItemFilter.Proofs.Row

/-!
# Dividing a text into rows

A division of a text names its rows and the terminators between them. Rows hold no line breaks, and
a carriage return that ends one row does not meet a line feed that ends an empty row below, since
the two are one terminator (`Division.Divides`).

Every text has such a division (`Division.exists_divides`) and no other
(`Division.Divides.unique`), and its rows are those that `rows` finds
(`Division.Divides.rows_eq`). The terminators can therefore be counted without dividing the text,
and the rows do not depend on which terminators are used: rows that are joined again by one
terminator throughout are divided into the same rows (`Division.divides_joined`).
-/

namespace ItemFilter

open Text

/-- What ends a row. -/
inductive Terminator where
  | lineFeed
  | carriageReturn
  /-- A carriage return and a line feed. -/
  | pair
deriving DecidableEq, Repr

namespace Terminator

/-- The characters of a terminator. -/
def text : Terminator → List Char
  | lineFeed => ['\n']
  | carriageReturn => ['\r']
  | pair => ['\r', '\n']

/-- Rows joined by the same terminator throughout. -/
def join (t : Terminator) (rows : List String) : String :=
  (String.ofList t.text).intercalate rows

/-- A terminator ends an empty row, unless it is a carriage return that meets a line feed. -/
theorem rows_text_append {t : Terminator} {cs : List Char}
    (h : t = carriageReturn → cs.head? ≠ some '\n') : rows (t.text ++ cs) = [] :: rows cs := by
  cases t with
  | lineFeed => exact rows_cons_lineBreak (by decide) (by simp [Change.insideTerminator])
  | carriageReturn =>
    exact rows_cons_lineBreak (by decide) (by simpa [Change.insideTerminator] using h rfl)
  | pair => exact rows_cons_pair cs

/-- A text that starts with either of two terminators starts with the same one, if a carriage
return is a terminator only where no line feed follows. -/
theorem eq_of_text_append {t t' : Terminator} {cs cs' : List Char}
    (ht : t = carriageReturn → cs.head? ≠ some '\n')
    (ht' : t' = carriageReturn → cs'.head? ≠ some '\n') (h : t.text ++ cs = t'.text ++ cs') :
    t = t' ∧ cs = cs' := by
  cases t <;> cases t'
  case carriageReturn.pair =>
    obtain rfl : cs = '\n' :: cs' := by simpa [text] using h
    exact absurd rfl (ht rfl)
  case pair.carriageReturn =>
    obtain rfl : '\n' :: cs = cs' := by simpa [text] using h
    exact absurd rfl (ht' rfl)
  case lineFeed.lineFeed | carriageReturn.carriageReturn | pair.pair =>
    exact ⟨rfl, List.append_cancel_left h⟩
  all_goals simp [text] at h

end Terminator

/-- Text without line breaks belongs to the first row of what follows. -/
theorem rows_text_append {text cs row : List Char} {below : List (List Char)}
    (htext : ∀ c ∈ text, isLineBreak c = false) (h : rows cs = row :: below) :
    rows (text ++ cs) = (text ++ row) :: below := by
  induction text with
  | nil => exact h
  | cons c text ih =>
    obtain ⟨hc, htext⟩ := List.forall_mem_cons.1 htext
    exact rows_cons_text hc (ih htext)

/-- The rows of a text and the terminators between them. -/
inductive Division where
  /-- The last row, which no terminator ends. -/
  | last (row : List Char)
  /-- A row, its terminator and what is below. -/
  | above (row : List Char) (terminator : Terminator) (below : Division)
deriving DecidableEq, Repr

namespace Division

/-- The rows of a division. -/
def rows : Division → List (List Char)
  | last row => [row]
  | above row _ below => row :: below.rows

/-- The terminators of a division. -/
def terminators : Division → List Terminator
  | last _ => []
  | above _ t below => t :: below.terminators

/-- A division divides a text: rows and terminators make up the text, no row holds a line break, and
no carriage return is followed by an empty row and a line feed, which would be one terminator. -/
inductive Divides : Division → List Char → Prop where
  | last {row : List Char} (hrow : ∀ c ∈ row, isLineBreak c = false) : Divides (last row) row
  | above {row cs : List Char} {t : Terminator} {below : Division}
      (hrow : ∀ c ∈ row, isLineBreak c = false)
      (hunmerged : ∀ rest, ¬(t = .carriageReturn ∧ below = above [] .lineFeed rest))
      (hbelow : Divides below cs) : Divides (above row t below) (row ++ (t.text ++ cs))

/-! ## The rows of a division -/

/-- A divided text starts with a line feed exactly when its first row is empty and ends with one. -/
theorem Divides.head?_eq_lineFeed_iff {d : Division} {cs : List Char} (h : d.Divides cs) :
    cs.head? = some '\n' ↔ ∃ rest, d = Division.above [] .lineFeed rest := by
  have hne {c : Char} {row : List Char} (hrow : ∀ b ∈ c :: row, isLineBreak b = false) :
      c ≠ '\n' := by
    rintro rfl
    exact absurd (hrow '\n' List.mem_cons_self) (by decide)
  cases h with
  | last hrow =>
    cases cs with
    | nil => simp
    | cons c row => simp [hne hrow]
  | @above row cs t below hrow =>
    cases row with
    | nil => cases t <;> simp [Terminator.text]
    | cons c row => simp [hne hrow]

/-- Below a carriage return, the text does not start with a line feed. -/
theorem Divides.head?_ne_lineFeed {d : Division} {cs : List Char} {t : Terminator}
    (h : d.Divides cs)
    (hunmerged : ∀ rest, ¬(t = .carriageReturn ∧ d = Division.above [] .lineFeed rest))
    (ht : t = .carriageReturn) : cs.head? ≠ some '\n' := by
  intro hhead
  obtain ⟨rest, hd⟩ := h.head?_eq_lineFeed_iff.1 hhead
  exact hunmerged rest ⟨ht, hd⟩

/-- The rows of a text are those of every division of it. -/
theorem Divides.rows_eq {d : Division} {cs : List Char} (h : d.Divides cs) :
    ItemFilter.rows cs = d.rows := by
  induction h with
  | @last row hrow =>
    have hrows : ItemFilter.rows (row ++ []) = [row ++ []] := rows_text_append hrow rfl
    rwa [List.append_nil] at hrows
  | @above row cs t below hrow hunmerged hbelow ih =>
    have hends := t.rows_text_append (hbelow.head?_ne_lineFeed hunmerged)
    rw [rows_text_append hrow hends, List.append_nil, ih]
    rfl

/-- There is one row more than there are terminators. -/
theorem length_rows (d : Division) : d.rows.length = d.terminators.length + 1 := by
  induction d with
  | last row => rfl
  | above row t below ih => rw [rows, terminators, List.length_cons, List.length_cons, ih]

/-- One row is not a row with others below it. -/
theorem rows_last_ne_rows_above (row row' : List Char) (t : Terminator) (below : Division) :
    (last row).rows ≠ (above row' t below).rows := by
  intro h
  have hlength := congrArg List.length h
  rw [length_rows, length_rows, terminators, terminators, List.length_cons] at hlength
  cases hlength

/-- A division has as many terminators as a scan of the text counts. -/
theorem Divides.length_terminators {d : Division} {cs : List Char} (h : d.Divides cs) :
    d.terminators.length = ItemFilter.terminators cs := by
  have hrows := ItemFilter.length_rows cs
  rw [h.rows_eq, d.length_rows] at hrows
  exact Nat.succ.inj hrows

/-! ## Every text has one division -/

/-- Every text has a division. -/
theorem exists_divides (cs : List Char) : ∃ d : Division, d.Divides cs := by
  induction cs using rowsInduction with
  | nil => exact ⟨last [], .last nofun⟩
  | pair cs ih =>
    obtain ⟨d, hd⟩ := ih
    exact ⟨above [] .pair d, .above nofun (fun _ hmerged => nomatch hmerged.1) hd⟩
  | lineBreak c cs hc hin ih =>
    obtain ⟨d, hd⟩ := ih
    rcases isLineBreak_iff.1 hc with rfl | rfl
    · exact ⟨above [] .lineFeed d, .above nofun (fun _ hmerged => nomatch hmerged.1) hd⟩
    · -- The carriage return stands alone, so that no line feed follows it.
      have hhead : cs.head? ≠ some '\n' := by simpa [Change.insideTerminator] using hin
      refine ⟨above [] .carriageReturn d, .above nofun (fun rest hmerged => hhead ?_) hd⟩
      exact hd.head?_eq_lineFeed_iff.2 ⟨rest, hmerged.2⟩
  | text c cs hc ih =>
    obtain ⟨d, hd⟩ := ih
    cases hd with
    | last hrow => exact ⟨_, .last (List.forall_mem_cons.2 ⟨hc, hrow⟩)⟩
    | above hrow hunmerged hbelow =>
      exact ⟨_, .above (List.forall_mem_cons.2 ⟨hc, hrow⟩) hunmerged hbelow⟩

/-- A text has no two divisions. -/
theorem Divides.unique {d d' : Division} {cs : List Char} (h : d.Divides cs)
    (h' : d'.Divides cs) : d = d' := by
  have hrows : d.rows = d'.rows := h.rows_eq.symm.trans h'.rows_eq
  -- The rows are the same, so it remains to compare the terminators one by one.
  induction h generalizing d' with
  | last _ =>
    cases d' with
    | last row' => rw [List.singleton_inj.1 hrows]
    | above row' t' below' => exact absurd hrows (rows_last_ne_rows_above _ _ _ _)
  | @above row cs t below hrow hunmerged hbelow ih =>
    generalize htext : row ++ (t.text ++ cs) = text at h'
    cases h' with
    | last _ => exact absurd hrows.symm (rows_last_ne_rows_above _ _ _ _)
    | @above row' cs' t' below' _ hunmerged' hbelow' =>
      obtain ⟨rfl, hrest⟩ := List.cons.inj hrows
      obtain ⟨rfl, rfl⟩ := Terminator.eq_of_text_append (hbelow.head?_ne_lineFeed hunmerged)
        (hbelow'.head?_ne_lineFeed hunmerged') (List.append_cancel_left htext)
      rw [ih hbelow' hrest]

/-! ## Other terminators -/

/-- The division of rows that have the same terminator throughout. -/
def uniform (t : Terminator) : List Char → List (List Char) → Division
  | first, [] => last first
  | first, row :: others => above first t (uniform t row others)

/-- The rows are those that are given. -/
theorem rows_uniform (t : Terminator) (first : List Char) (others : List (List Char)) :
    (uniform t first others).rows = first :: others := by
  induction others generalizing first with
  | nil => rfl
  | cons row others ih => rw [uniform, rows, ih]

/-- Rows joined by one terminator are divided by it. -/
theorem divides_joined (t : Terminator) {first : List Char} {others : List (List Char)}
    (h : ∀ row ∈ first :: others, ∀ c ∈ row, isLineBreak c = false) :
    (uniform t first others).Divides
      (t.join ((first :: others).map String.ofList)).toList := by
  induction others generalizing first with
  | nil => simpa [uniform, Terminator.join] using Divides.last (h first List.mem_cons_self)
  | cons row others ih =>
    obtain ⟨hfirst, hothers⟩ := List.forall_mem_cons.1 h
    have hjoin : (t.join ((first :: row :: others).map String.ofList)).toList =
        first ++ (t.text ++ (t.join ((row :: others).map String.ofList)).toList) := by
      simp [Terminator.join]
    rw [hjoin]
    refine .above hfirst (fun rest hmerged => ?_) (ih hothers)
    -- One terminator is not both a carriage return and a line feed.
    obtain ⟨rfl, hmerged⟩ := hmerged
    cases others <;> cases hmerged

end Division

/-- Rows joined by one terminator are split into the same rows. -/
theorem splitRows_join (t : Terminator) (text : String) :
    splitRows (t.join (splitRows text)) = splitRows text := by
  obtain ⟨first, others, hrows⟩ := exists_rows_eq_cons text.toList
  have hbreaks : ∀ row ∈ first :: others, ∀ c ∈ row, isLineBreak c = false := by
    rw [← hrows]
    exact fun row hrow => isLineBreak_of_mem_rows hrow
  have hjoined := (Division.divides_joined t hbreaks).rows_eq
  have hsplit : splitRows text = (first :: others).map String.ofList := by rw [splitRows, hrows]
  rw [hsplit, splitRows, hjoined, Division.rows_uniform]

/-- The rows of a text are those of its one division: they hold no line breaks, and together with
the terminators between them, among which no carriage return and line feed could be one, they make
up the text. There are as many terminators as a scan of the text counts. Joined again by any one
terminator, the rows are split as before, and so read as before. -/
theorem splitRows_divides (text : String) :
    ∃ d : Division, d.Divides text.toList ∧ (∀ d' : Division, d'.Divides text.toList → d' = d) ∧
      splitRows text = d.rows.map String.ofList ∧
      d.terminators.length = terminators text.toList ∧
      ∀ t : Terminator, splitRows (t.join (splitRows text)) = splitRows text ∧
        ∀ source : Source, source.readAll (splitRows (t.join (splitRows text))) =
          source.readAll (splitRows text) := by
  obtain ⟨d, hd⟩ := Division.exists_divides text.toList
  refine ⟨d, hd, fun d' hd' => hd'.unique hd, ?_, hd.length_terminators, fun t => ?_⟩
  · rw [splitRows, hd.rows_eq]
  · have hsplit := splitRows_join t text
    exact ⟨hsplit, fun source => by rw [hsplit]⟩

end ItemFilter
