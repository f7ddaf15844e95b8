import ItemFilter.Proofs.Overlap
import ItemFilter.Proofs.Padding
import ItemFilter.Proofs.Scanning

/-!
# Asking a scanner again and again

A scanner is asked one question after the other, in any order. Some questions read a token off the
row, the others only look at it (`Query`). `Scanner.after_queries` states what holds after every
list of questions: no cut has failed, the scanner stands between two characters of the row and not
behind the last one that is not blank, it has moved exactly by the tokens that were found, and these
lie one behind the other.

The scanner of a cursor answers as the cursor does and moves with it (`Cursor.ask?_scanner`), so
that the facts are those of columns, carried over to bytes. One question moves the cursor over the
token that it finds, if it finds one (`Cursor.ask_reaches`), and the tokens of a whole list of
questions tile what the cursor has moved over (`Cursor.after_reaches`). A token holds a character,
so that there are no more tokens than characters (`Tiled.length_add_le`). A loop that goes on as
long as it finds a token therefore comes to an end, whatever it looks for in each round
(`Cursor.exists_rounds`).
-/

namespace ItemFilter

open Text Lexeme

/-! ## Questions and answers -/

/-- What can be read off a row. -/
inductive Extraction where
  | lexeme (kind : Kind)
  | comment
deriving DecidableEq, Repr

/-- What a token that was read off a row stands for. -/
def Extraction.Value : Extraction → Type
  | lexeme kind => kind.Value
  | comment => String

/-- What a cursor can be asked. -/
inductive Query where
  /-- Reads a token and moves behind it. -/
  | extract (extraction : Extraction)
  | remaining
  | isEmpty
  | isCommented
  | isIgnored
  | lineRange
  | trimmedRange
  | restOfLine
  | restOfText
  | peek
deriving DecidableEq, Repr

namespace Query

/-- What a question is answered with. -/
def Answer : Query → Type
  | extract extraction => Option (Token extraction.Value)
  | remaining => List Char
  | isEmpty | isCommented | isIgnored => Bool
  | lineRange | trimmedRange | restOfLine | restOfText => Range
  | peek => Option Kind

/-- The range of the token in an answer, if a token was asked for and found. -/
def found? : (query : Query) → query.Answer → Option Range
  | extract _, answer => Option.map Token.range answer
  | remaining, _ | isEmpty, _ | isCommented, _ | isIgnored, _ | lineRange, _ | trimmedRange, _
  | restOfLine, _ | restOfText, _ | peek, _ => none

end Query

/-! The same for a cursor, where nothing can fail. -/

namespace Cursor

/-- Reads a token and moves behind it. -/
def extract (c : Cursor) : (extraction : Extraction) → Option (Token extraction.Value × Cursor)
  | .lexeme kind => c.next kind.recognise
  | .comment => c.comment

/-- The answer to a question, and the cursor behind it. A cursor that finds no token stays where it
is. -/
def ask (c : Cursor) : (query : Query) → query.Answer × Cursor
  | .extract extraction =>
    ((c.extract extraction).map Prod.fst, ((c.extract extraction).map Prod.snd).getD c)
  | .remaining => (c.remaining, c)
  | .isEmpty => (c.isEmpty, c)
  | .isCommented => (c.isCommented, c)
  | .isIgnored => (c.isIgnored, c)
  | .lineRange => (c.lineRange, c)
  | .trimmedRange => (c.trimmedRange, c)
  | .restOfLine => (c.restOfLine, c)
  | .restOfText => (c.restOfText, c)
  | .peek => (c.peek, c)

/-- The range of the token that a question finds. -/
def found? (c : Cursor) (query : Query) : Option Range := query.found? (c.ask query).1

/-- The cursor after a list of questions. -/
def after (c : Cursor) (queries : List Query) : Cursor :=
  queries.foldl (fun c query => (c.ask query).2) c

/-- The ranges of the tokens that a list of questions finds, in the order of finding. -/
def found (c : Cursor) : List Query → List Range
  | [] => []
  | query :: queries => (c.found? query).toList ++ (c.ask query).2.found queries

end Cursor

namespace Scanner

/-- Reads a token, if there is one. -/
def extract? (s : Scanner) :
    (extraction : Extraction) → Option (Option (Token extraction.Value) × Scanner)
  | .lexeme kind => s.next? kind.rule
  | .comment => s.comment?

/-- The answer to a question, and the scanner behind it. -/
def ask? (s : Scanner) : (query : Query) → Option (query.Answer × Scanner)
  | .extract extraction => s.extract? extraction
  | .remaining => s.remaining?.map (·, s)
  | .isEmpty => s.isEmpty?.map (·, s)
  | .isCommented => s.isCommented?.map (·, s)
  | .isIgnored => s.isIgnored?.map (·, s)
  | .lineRange => s.lineRange?.map (·, s)
  | .trimmedRange => s.trimmedRange?.map (·, s)
  | .restOfLine => s.restOfLine?.map (·, s)
  | .restOfText => s.restOfText?.map (·, s)
  | .peek => s.peek?.map (·, s)

/-- The ranges of the tokens that a list of questions finds, in the order of finding, and the
scanner that is left. -/
def run? (s : Scanner) : List Query → Option (List Range × Scanner)
  | [] => some ([], s)
  | query :: queries => do
    let (answer, s') ← s.ask? query
    let (ranges, last) ← s'.run? queries
    return ((query.found? answer).toList ++ ranges, last)

end Scanner

/-! ## One question -/

namespace Lexeme.Kind

variable {kind : Kind} {token : List Char} {value : kind.Value}

/-- A token of any kind starts with a character that is not blank. -/
theorem isVisible_of_spells (h : kind.Spells token value) : IsVisible token := by
  by_cases hkind : kind = operator
  · subst hkind
    obtain rfl : token = (Operator.symbol value).toList := h
    exact isVisible_symbol _
  · exact (isString_of_spells hkind h).isVisible

/-- A token of any kind ends with a character that is not blank. -/
theorem isBlank_getLast?_of_spells (h : kind.Spells token value) :
    ∀ c ∈ token.getLast?, isBlank c = false := by
  by_cases hkind : kind = operator
  · subst hkind
    obtain rfl : token = (Operator.symbol value).toList := h
    exact getLast?_symbol _
  · exact (isString_of_spells hkind h).getLast?

end Lexeme.Kind

/-- Tiles take at least one column each. -/
theorem Tiled.length_add_le {row : Nat} {text : List Char} {column last : Nat}
    {ranges : List Range} (h : Tiled row text column ranges last) :
    ranges.length + column ≤ last := by
  induction h with
  | nil => simp
  | cons hle _ hlt _ _ ih =>
    rw [List.length_cons]
    omega

namespace Cursor

variable {c c' : Cursor} {extraction : Extraction} {t : Token extraction.Value}

/-- A place behind a character that is not blank is not behind the last such character. -/
theorem le_lastColumn_of_visible {c : Cursor} {column : Nat} {ch : Char}
    (hget : c.text[column]? = some ch) (hvisible : isBlank ch = false) :
    column + 1 ≤ c.lastColumn := by
  have hlt : column < c.text.length := (List.getElem?_eq_some_iff.1 hget).1
  have htrim : (trimEnd c.text).length ≤ c.lastColumn := Nat.le_max_left _ _
  by_contra hlast
  -- Behind the last character that is not blank there are only blanks.
  have hblank := blankBetween_trimEnd c.text column ch (by omega) hlt hget
  rw [hvisible] at hblank
  cases hblank

/-- Reading a token moves the cursor over its range. -/
theorem extract_reaches (h : c.extract extraction = some (t, c')) : c.Reaches [t.range] c' := by
  cases extraction with
  | lexeme kind => exact (next_reaches kind.recognises Kind.isVisible_of_spells h).1
  | comment => exact (comment_reaches h).1

/-- Behind a token that was read the cursor is not behind the last character that is not blank. -/
theorem column_le_lastColumn_of_extract (h : c.extract extraction = some (t, c')) :
    c'.column ≤ c.lastColumn := by
  cases extraction with
  | lexeme kind =>
    obtain ⟨lexeme, hlexeme, heq⟩ := Option.map_eq_some_iff.1 h
    obtain ⟨rfl, rfl⟩ := Prod.mk.inj heq
    obtain ⟨hspells, rest, hahead, -⟩ := kind.recognises.sound hlexeme
    obtain ⟨first, others, htext, -⟩ := Kind.isVisible_of_spells hspells
    have hne : lexeme.text ≠ [] := by rw [htext]; exact List.cons_ne_nil _ _
    have hpos : 0 < lexeme.text.length := List.length_pos_iff.2 hne
    -- The last character of the token stands in front of the cursor.
    have hget : c.text[c.nextColumn + (lexeme.text.length - 1)]? =
        some (lexeme.text.getLast hne) := by
      rw [← List.getElem?_drop, ← ahead_eq_drop, hahead,
        List.getElem?_append_left (by omega), ← List.getLast?_eq_getElem?,
        List.getLast?_eq_some_getLast hne]
    have hvisible := Kind.isBlank_getLast?_of_spells hspells _ (List.getLast?_eq_some_getLast hne)
    have hle := le_lastColumn_of_visible hget hvisible
    show c.nextColumn + lexeme.text.length ≤ c.lastColumn
    omega
  | comment =>
    unfold extract comment at h
    split_ifs at h with hcommented
    obtain ⟨rfl, rfl⟩ := Prod.mk.inj (Option.some.inj h)
    have hhash : c.ahead.head? = some '#' := beq_iff_eq.1 hcommented
    have hget : c.text[c.nextColumn]? = some '#' := by
      rw [← List.head?_drop, ← ahead_eq_drop, hhash]
    have hle := le_lastColumn_of_visible hget (by decide)
    show max c.lastColumn c.nextColumn ≤ c.lastColumn
    omega

/-- A question either finds no token and leaves the cursor where it was, or finds one that is read
off the row. -/
theorem ask_cases (c : Cursor) (query : Query) :
    (c.found? query = none ∧ (c.ask query).2 = c) ∨
      ∃ extraction t, query = .extract extraction ∧ c.found? query = some t.range ∧
        c.extract extraction = some (t, (c.ask query).2) := by
  cases query with
  | extract extraction =>
    cases hextract : c.extract extraction with
    | none =>
      left
      constructor
      · show Option.map Token.range ((c.extract extraction).map Prod.fst) = none
        rw [hextract, Option.map_none, Option.map_none]
      · show ((c.extract extraction).map Prod.snd).getD c = c
        rw [hextract, Option.map_none, Option.getD_none]
    | some read =>
      obtain ⟨t, c'⟩ := read
      have hmoved : (c.ask (.extract extraction)).2 = c' := by
        show ((c.extract extraction).map Prod.snd).getD c = c'
        rw [hextract, Option.map_some, Option.getD_some]
      have hfound : c.found? (.extract extraction) = some t.range := by
        show Option.map Token.range ((c.extract extraction).map Prod.fst) = some t.range
        rw [hextract, Option.map_some, Option.map_some]
      exact .inr ⟨extraction, t, rfl, hfound, by rw [hmoved, hextract]⟩
  | remaining | isEmpty | isCommented | isIgnored | lineRange | trimmedRange | restOfLine
  | restOfText | peek => exact .inl ⟨rfl, rfl⟩

/-- A question moves the cursor over the token that it finds. -/
theorem ask_reaches (c : Cursor) (query : Query) :
    c.Reaches (c.found? query).toList (c.ask query).2 := by
  rcases c.ask_cases query with ⟨hfound, hsame⟩ | ⟨extraction, t, -, hfound, hextract⟩
  · rw [hfound, hsame]
    exact .refl c
  · rw [hfound]
    exact extract_reaches hextract

/-! ## Many questions -/

/-- The tokens that are found one after the other tile what the cursor moves over. -/
theorem after_reaches (c : Cursor) (queries : List Query) :
    c.Reaches (c.found queries) (c.after queries) := by
  induction queries generalizing c with
  | nil => exact .refl c
  | cons query queries ih => exact (c.ask_reaches query).trans (ih (c.ask query).2)

/-- No list of questions moves the cursor behind the last character that is not blank. -/
theorem column_after_le (h : c.column ≤ c.lastColumn) (queries : List Query) :
    (c.after queries).column ≤ (c.after queries).lastColumn := by
  induction queries generalizing c with
  | nil => exact h
  | cons query queries ih =>
    have hnext : (c.ask query).2.column ≤ (c.ask query).2.lastColumn := by
      rcases c.ask_cases query with ⟨-, hsame⟩ | ⟨extraction, t, -, -, hextract⟩
      · rwa [hsame]
      · have hle := column_le_lastColumn_of_extract hextract
        have htext := (extract_reaches hextract).text_eq
        rwa [lastColumn, firstColumn, htext]
    exact ih hnext

/-- A cursor that moves over tokens stays on its row. -/
theorem Reaches.column_le_length {ranges : List Range} (h : c.Reaches ranges c')
    (hcolumn : c.column ≤ c.text.length) : c'.column ≤ c'.text.length := by
  rw [h.text_eq]
  exact h.tiled.le_length hcolumn

/-! ## The scanner of a cursor -/

/-- Reading a token with the scanner of a cursor is reading it with the cursor. -/
theorem extract?_scanner (h : c.column ≤ c.text.length) (extraction : Extraction) :
    c.scanner.extract? extraction = some ((c.ask (.extract extraction)).1,
      (c.ask (.extract extraction)).2.scanner) := by
  cases extraction with
  | lexeme kind => exact next?_scanner kind h
  | comment => exact comment?_scanner h

/-- Asking the scanner of a cursor is asking the cursor. -/
theorem ask?_scanner (h : c.column ≤ c.text.length) (query : Query) :
    c.scanner.ask? query = some ((c.ask query).1, (c.ask query).2.scanner) := by
  cases query with
  | extract extraction => exact extract?_scanner h extraction
  | remaining => rw [Scanner.ask?, remaining?_scanner]; rfl
  | isEmpty => rw [Scanner.ask?, isEmpty?_scanner]; rfl
  | isCommented => rw [Scanner.ask?, isCommented?_scanner]; rfl
  | isIgnored => rw [Scanner.ask?, isIgnored?_scanner]; rfl
  | lineRange => rw [Scanner.ask?, lineRange?_scanner]; rfl
  | trimmedRange => rw [Scanner.ask?, trimmedRange?_scanner]; rfl
  | restOfLine => rw [Scanner.ask?, restOfLine?_scanner h]; rfl
  | restOfText => rw [Scanner.ask?, restOfText?_scanner h]; rfl
  | peek => rw [Scanner.ask?, peek?_scanner]; rfl

/-- So it is for a list of questions. -/
theorem run?_scanner (h : c.column ≤ c.text.length) (queries : List Query) :
    c.scanner.run? queries = some (c.found queries, (c.after queries).scanner) := by
  induction queries generalizing c with
  | nil => rfl
  | cons query queries ih =>
    have hnext := (c.ask_reaches query).column_le_length h
    simp only [Scanner.run?, ask?_scanner h, bind, Option.bind_some, ih hnext]
    rfl

end Cursor

namespace Scanner

/-! ## Loops -/

/-- A token that was found in a loop, with what it was found as. -/
def Found : Type := (extraction : Extraction) × Token extraction.Value

/-- One round of a loop: it looks for a token, which may depend on all that was found before and on
the scanner. The loop goes on only if it finds one. -/
def round? (plan : List Found → Scanner → Extraction) (state : List Found × Scanner) :
    Option (List Found × Scanner) :=
  match state.2.extract? (plan state.1 state.2) with
  | some (some token, s) => some (state.1 ++ [⟨plan state.1 state.2, token⟩], s)
  | some (none, _) | none => none

/-- A number of rounds of a loop, if the loop goes on after each of them. -/
def rounds? (plan : List Found → Scanner → Extraction) :
    Nat → List Found × Scanner → Option (List Found × Scanner)
  | 0, state => some state
  | n + 1, state => (round? plan state).bind (rounds? plan n)

/-- A loop comes to its end: it looks for a token once more, and there is none. -/
def Ends (plan : List Found → Scanner → Extraction) (state : List Found × Scanner) : Prop :=
  state.2.extract? (plan state.1 state.2) = some (none, state.2)

end Scanner

namespace Cursor

variable {c c' : Cursor} {extraction : Extraction} {t : Token extraction.Value}

/-- Reading a token leaves fewer characters in front of the cursor. -/
theorem length_remaining_lt_of_extract (h : c.extract extraction = some (t, c')) :
    c'.remaining.length < c.remaining.length := by
  have hreaches := extract_reaches h
  obtain ⟨hwithin, hle, hlt, hstop⟩ := hreaches.tiled.mem List.mem_cons_self
  have hlength := hwithin.stop_le
  rw [remaining, remaining, hreaches.text_eq, List.length_drop, List.length_drop]
  omega

/-- A loop ends after at most as many rounds as there are characters in front of the cursor. -/
theorem exists_rounds (plan : List Scanner.Found → Scanner → Extraction)
    (found : List Scanner.Found) (h : c.column ≤ c.text.length) :
    ∃ n ≤ c.remaining.length, ∃ last,
      Scanner.rounds? plan n (found, c.scanner) = some last ∧ Scanner.Ends plan last := by
  -- The induction is on the number of characters that are left.
  induction hleft : c.remaining.length using Nat.strong_induction_on generalizing c found with
  | _ left ih =>
    have hask := extract?_scanner h (plan found c.scanner)
    cases hread : c.extract (plan found c.scanner) with
    | none =>
      refine ⟨0, Nat.zero_le _, _, rfl, ?_⟩
      show c.scanner.extract? (plan found c.scanner) = _
      rw [hask, ask, hread]
      rfl
    | some read =>
      obtain ⟨token, moved⟩ := read
      have hfewer : moved.remaining.length < left := hleft ▸ length_remaining_lt_of_extract hread
      have hmoved := (extract_reaches hread).column_le_length h
      have hround : Scanner.round? plan (found, c.scanner) =
          some (found ++ [⟨plan found c.scanner, token⟩], moved.scanner) := by
        rw [Scanner.round?, hask, ask, hread]
        rfl
      obtain ⟨n, hn, last, hlast, hends⟩ := ih _ hfewer _ hmoved rfl
      refine ⟨n + 1, by omega, last, ?_, hends⟩
      rw [Scanner.rounds?, hround, Option.bind_some]
      exact hlast

end Cursor

/-! ## Many questions -/

namespace Scanner

/-- A scanner stands at a place of the row of another one: only its offset differs, which falls
between two characters and is not past the last one that is not blank. -/
structure StandsOn (first s : Scanner) : Prop where
  eq_with : s = { first with offset := s.offset }
  /-- The row splits at the offset into what is read and what is left. -/
  splits : ∃ before rest, splitAtByte? s.offset s.text = some (before, rest) ∧
    s.remaining? = some rest
  offset_le : s.offset ≤ s.textEnd

/-- What one question does: it is answered, and moves the scanner exactly by the token that it
finds. -/
structure Moves (s : Scanner) (query : Query) (answer : query.Answer) (s' : Scanner) : Prop where
  ask_eq : s.ask? query = some (answer, s')
  /-- Where no token is found, or none is asked for, the scanner stays. -/
  stays : query.found? answer = none → s' = s
  /-- A token that is found is in front of the scanner, has a byte at least, and ends where the
  scanner stands then. Its range is that of its columns. -/
  advances : ∀ range, query.found? answer = some range →
    s.offset < s'.offset ∧ s' = { s with offset := s'.offset } ∧
    ∃ start, s.offset ≤ start ∧ start < s'.offset ∧ s.byteRange? start s'.offset = some range

end Scanner

namespace Cursor

variable {c : Cursor}

/-- Every question moves the scanner of a cursor by the token that it finds. -/
theorem moves_scanner (h : c.column ≤ c.text.length) (query : Query) :
    c.scanner.Moves query (c.ask query).1 (c.ask query).2.scanner where
  ask_eq := ask?_scanner h query
  stays hnone := by
    rcases c.ask_cases query with ⟨-, hsame⟩ | ⟨extraction, t, -, hfound, -⟩
    · rw [hsame]
    · rw [found?, hnone] at hfound
      cases hfound
  advances range hrange := by
    have hlength := (c.ask_reaches query).column_le_length h
    obtain ⟨hrow, htext, htiled⟩ := c.ask_reaches query
    rw [found?, hrange] at htiled
    clear hrange
    generalize (c.ask query).2 = c' at hlength hrow htext htiled ⊢
    obtain ⟨row', text', column'⟩ := c'
    obtain rfl : row' = c.row := hrow
    obtain rfl : text' = c.text := htext
    cases htiled with
    | @cons _ start stop _ _ hle _ hlt _ hnil =>
      cases hnil
      have hmoved : c.column < column' := lt_of_le_of_lt hle hlt
      have hstart : start ≤ c.text.length := hlt.le.trans hlength
      exact ⟨byteAt_lt hmoved hlength, rfl, c.byteAt start, c.byteAt_le hle,
        byteAt_lt hlt hlength, byteRange?_scanner hstart hlength⟩

/-- The scanner of a cursor that has moved over tokens stands on the row of the first one. -/
theorem standsOn_scanner {c' : Cursor} {ranges : List Range} (hreaches : c.Reaches ranges c')
    (hcolumn : c'.column ≤ c'.lastColumn) : c.scanner.StandsOn c'.scanner where
  eq_with := by
    obtain ⟨row', text', column'⟩ := c'
    obtain rfl : row' = c.row := hreaches.row_eq
    obtain rfl : text' = c.text := hreaches.text_eq
    rfl
  splits := ⟨_, _, c'.splitAtByte?_byteAt c'.column, c'.remaining?_scanner⟩
  offset_le := c'.byteAt_le hcolumn

end Cursor

namespace Scanner

/-- Every row has a scanner at its start. After any list of questions, none of which fails, it
stands at a place of the row, and every further question moves it exactly by the token that it
finds. The tokens that were found hold a character each and lie one behind the other, there are at
most as many as the row has characters, and every loop that goes on as long as it finds a token
comes to an end. -/
theorem after_queries {text : String} (htext : IsRow text) (row : Nat) :
    ∃ first, ofRow row text = .ok first ∧ ∀ queries, ∃ ranges last,
      first.run? queries = some (ranges, last) ∧
      first.StandsOn last ∧
      (∀ query, ∃ answer next, last.Moves query answer next) ∧
      (∀ range ∈ ranges, range.start < range.stop) ∧
      ranges.Pairwise (fun r s => r.start < s.start ∧ r.stop ≤ s.start) ∧
      ranges.length ≤ text.toList.length ∧
      ∀ plan, ∃ n ≤ text.toList.length, ∃ state,
        rounds? plan n ([], last) = some state ∧ Ends plan state := by
  have hstart := Cursor.ofRow_eq_ok htext row
  generalize hc : Cursor.mk row text.toList 0 = c at hstart
  obtain ⟨hrow, hcs, hzero⟩ : c.row = row ∧ c.text = text.toList ∧ c.column = 0 := by simp [← hc]
  refine ⟨c.scanner, by rw [Cursor.ofRow_scanner, hstart]; rfl, fun queries => ?_⟩
  have hle : c.column ≤ c.text.length := by omega
  have hreaches := c.after_reaches queries
  have hlast := hreaches.column_le_length hle
  have hcolumn := Cursor.column_after_le (c := c) (by omega) queries
  refine ⟨_, _, Cursor.run?_scanner hle queries, Cursor.standsOn_scanner hreaches hcolumn,
    fun query => ⟨_, _, Cursor.moves_scanner hlast query⟩, ?_, ?_, ?_, fun plan => ?_⟩
  · intro range hrange
    obtain ⟨hwithin, -, hlt, -⟩ := hreaches.tiled.mem hrange
    exact .inr ⟨hwithin.start_row.trans hwithin.stop_row.symm, hlt⟩
  · refine hreaches.tiled.pairwise.imp_of_mem fun {r s} hr hs hle => ⟨?_, hle⟩
    obtain ⟨hwithin, -, hlt, -⟩ := hreaches.tiled.mem hr
    obtain ⟨hwithin', -⟩ := hreaches.tiled.mem hs
    have hrows : r.start.row = s.start.row := hwithin.start_row.trans hwithin'.start_row.symm
    have hstops : r.stop.row = s.start.row := hwithin.stop_row.trans hwithin'.start_row.symm
    -- Both are on one row, so that the places are compared by their columns.
    rcases hle with hbelow | ⟨-, hcolumns⟩
    · omega
    · exact .inr ⟨hrows, by omega⟩
  · have htiles := hreaches.tiled.length_add_le
    rw [hreaches.text_eq, hcs] at hlast
    omega
  · obtain ⟨n, hn, state, hrounds⟩ := Cursor.exists_rounds plan [] hlast
    refine ⟨n, hn.trans ?_, state, hrounds⟩
    rw [Cursor.remaining, hreaches.text_eq, hcs, List.length_drop]
    exact Nat.sub_le _ _

/-- A row with two strings and a comment behind its keyword. -/
def questioned : String := " Class \"Bööts\" Gloves # x "

/-- The scanner at the start of that row. -/
def questionedScanner : Scanner := ⟨questioned.toList, 3, 0, 1, 27⟩

/-- Questions of which some find no token, and some ask for none. -/
def questions : List Query :=
  [.extract (.lexeme .word), .extract (.lexeme .number), .peek, .extract (.lexeme .string),
   .extract .comment, .extract (.lexeme .string), .restOfText, .extract .comment, .extract .comment]

/-- Four tokens are found on the row, and behind them there is nothing but a blank. -/
theorem after_queries_questioned :
    IsRow questioned ∧ ofRow 3 questioned = .ok questionedScanner ∧
      questionedScanner.run? questions =
        some ([.onRow 3 1 6, .onRow 3 7 14, .onRow 3 15 21, .onRow 3 22 25],
          { questionedScanner with offset := 27 }) ∧
      questionedScanner.StandsOn { questionedScanner with offset := 27 } := by
  have hrow : IsRow questioned := by decide
  have hstart : ofRow 3 questioned = .ok questionedScanner := by decide +kernel
  have hrun : questionedScanner.run? questions =
      some ([.onRow 3 1 6, .onRow 3 7 14, .onRow 3 15 21, .onRow 3 22 25],
        { questionedScanner with offset := 27 }) := by decide +kernel
  obtain ⟨first, hfirst, hafter⟩ := after_queries hrow 3
  obtain rfl : questionedScanner = first := Except.ok.inj (hstart.symm.trans hfirst)
  obtain ⟨ranges, last, hlast, hstands, -⟩ := hafter questions
  obtain ⟨-, rfl⟩ := Prod.mk.inj (Option.some.inj (hrun.symm.trans hlast))
  exact ⟨hrow, hstart, hrun, hstands⟩

end Scanner

end ItemFilter
