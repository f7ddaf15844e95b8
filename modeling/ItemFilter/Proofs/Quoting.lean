import ItemFilter.Proofs.Text
import ItemFilter.Toml.Token
import ItemFilter.Toml.Writer

/-!
# Strings that are written are read back

A string as it is written is one token, and the content of that token is the string, whatever
characters it holds and whichever of the four forms it takes (`quotes_quote`).

The reader and the scanner go through a basic string in the same steps. A character that is not a
quote is coded by itself, by a pair, or by a backslash and letters (`Codes`), and each of the two
passes such a code at once. Quotes are coded likewise on one line. On several lines a quote may
stand as it is, and means nothing yet as long as it is not known whether two more follow. So there
the induction carries the run of up to two quotes that was just passed (`multiBasic?_basicContent`,
`multiBasicExtent_basicContent`).
-/

namespace ItemFilter.Toml

open Text (Stops stops_nil stops_cons takeWhile_append_of_stop)

/-! ## Escapes -/

/-- The hexadecimal digit of a number below sixteen has its value. -/
theorem hexDigit?_hexChar {n : Nat} (h : n < 16) : hexDigit? (hexChar n) = some n := by
  interval_cases n <;> decide

/-- A hexadecimal digit is a letter or a digit. -/
theorem isAlphanum_hexChar {n : Nat} (h : n < 16) : (hexChar n).isAlphanum = true := by
  interval_cases n <;> decide

/-- The code point of a control character has seven bits. -/
theorem toNat_lt_of_isControl {c : Char} (h : isControl c = true) : c.toNat < 128 := by
  simp only [isControl, Bool.or_eq_true, Bool.and_eq_true, decide_eq_true_eq, beq_iff_eq] at h
  omega

/-- Two zeros and two hexadecimal digits stand for a control character. -/
theorem codePoint?_control {c : Char} (h : isControl c = true) :
    codePoint? 4 ['0', '0', hexChar (c.toNat / 16), hexChar (c.toNat % 16)] = some c := by
  have hlt := toNat_lt_of_isControl h
  have hhigh := hexDigit?_hexChar (n := c.toNat / 16) (by omega)
  have hlow := hexDigit?_hexChar (n := c.toNat % 16) (by omega)
  have hzero : hexDigit? '0' = some 0 := by decide
  have hvalue : 16 * (c.toNat / 16) + c.toNat % 16 = c.toNat := Nat.div_add_mod _ _
  simp [codePoint?, hhigh, hlow, hzero, hvalue, Char.ofNat_toNat]
  omega

/-- How a character stands in a basic string: as it is, behind a backslash, or by a backslash and a
code of letters and digits. -/
inductive Codes (isMulti : Bool) : Char → List Char → Prop where
  | plain {c : Char} (hquote : c ≠ '"') (hslash : c ≠ '\\')
      (hcontrol : isControl c = true → isMulti = true ∧ c = '\n') : Codes isMulti c [c]
  | quote : Codes isMulti '"' ['\\', '"']
  | slash : Codes isMulti '\\' ['\\', '\\']
  | code {c : Char} {code : List Char} (hne : code ≠ []) (hcode : ∀ x ∈ code, x.isAlphanum = true)
      (hescape : ∀ rest, escape? (code ++ rest) = some (c, code.length)) :
      Codes isMulti c ('\\' :: code)

/-- A letter behind a backslash codes what it stands for. -/
theorem Codes.letter {isMulti : Bool} {c x : Char} (hx : x.isAlphanum = true)
    (hescape : ∀ rest, escape? (x :: rest) = some (c, 1)) : Codes isMulti c ['\\', x] :=
  .code (by simp) (by simpa using hx) hescape

/-- Every character that is not a quote is written so. -/
theorem codes_escaped (isMulti : Bool) {c : Char} (h : c ≠ '"') :
    Codes isMulti c (escaped isMulti c) := by
  unfold escaped
  split_ifs with hb ht hn hmulti hf hr hslash hcontrol
  · subst hb; exact .letter (by decide) fun _ => rfl
  · subst ht; exact .letter (by decide) fun _ => rfl
  · subst hn; exact .plain (by decide) (by decide) fun _ => ⟨hmulti, rfl⟩
  · subst hn; exact .letter (by decide) fun _ => rfl
  · subst hf; exact .letter (by decide) fun _ => rfl
  · subst hr; exact .letter (by decide) fun _ => rfl
  · subst hslash; exact .slash
  · -- a control character without a letter of its own
    have hlt := toNat_lt_of_isControl hcontrol
    have hhigh := isAlphanum_hexChar (n := c.toNat / 16) (by omega)
    have hlow := isAlphanum_hexChar (n := c.toNat % 16) (by omega)
    have hu : 'u'.isAlphanum = true := by decide
    have hzero : '0'.isAlphanum = true := by decide
    refine .code (by simp) (by simp [hhigh, hlow, hu, hzero]) fun rest => ?_
    simp [escape?, codePoint?_control hcontrol]
  · exact .plain h hslash fun hc => absurd hc hcontrol

/-! ## Basic strings on one line -/

variable {c : Char} {w : List Char}

/-- An ordinary character does not end a string on one line. -/
theorem basicExtent_cons {x : Char} (hbreak : x ≠ '\n') (hquote : x ≠ '"') (hslash : x ≠ '\\')
    (rest : List Char) : basicExtent (x :: rest) = basicExtent rest + 1 :=
  basicExtent.eq_6 x rest hbreak hquote (fun _ h => absurd h hslash) fun _ h => absurd h hslash

/-- A letter or digit is not a character of another kind. -/
theorem ne_of_isAlphanum {x y : Char} (hx : x.isAlphanum = true) (hy : y.isAlphanum = false) :
    x ≠ y := by
  rintro rfl
  rw [hx] at hy
  cases hy

/-- Letters and digits do not end a string on one line. -/
theorem basicExtent_word {u : List Char} (h : ∀ x ∈ u, x.isAlphanum = true) (rest : List Char) :
    basicExtent (u ++ rest) = basicExtent rest + u.length := by
  induction u with
  | nil => rfl
  | cons x u ih =>
    obtain ⟨hx, hu⟩ := List.forall_mem_cons.1 h
    rw [List.cons_append, basicExtent_cons (ne_of_isAlphanum hx (by decide))
      (ne_of_isAlphanum hx (by decide)) (ne_of_isAlphanum hx (by decide)), ih hu,
      List.length_cons, Nat.add_assoc]

/-- What codes a character is read as that character. -/
theorem Codes.basic?_append (h : Codes false c w) (rest : List Char) :
    basic? (w ++ rest) = consContent c (basic? rest) := by
  cases h with
  | plain hquote hslash hcontrol =>
    have hfalse : isControl c = false := by
      by_contra hne
      simpa using hcontrol (by simpa using hne)
    rw [List.singleton_append, basic?.eq_4 _ _ hquote hslash, hfalse]
    rfl
  | quote => simp [basic?, escape?]
  | slash => simp [basic?, escape?]
  | code hne hcode hescape => simp [basic?, hescape]

/-- What codes a character does not end a string. -/
theorem Codes.basicExtent_append (h : Codes false c w) (rest : List Char) :
    basicExtent (w ++ rest) = basicExtent rest + w.length := by
  cases h with
  | plain hquote hslash hcontrol =>
    have hbreak : c ≠ '\n' := by
      rintro rfl
      simpa using hcontrol (by decide)
    exact basicExtent_cons hbreak hquote hslash rest
  | quote => simp [basicExtent]
  | slash => simp [basicExtent]
  | @code _ code hne hcode hescape =>
    obtain ⟨x, code, rfl⟩ := List.exists_cons_of_ne_nil hne
    have hx : x.isAlphanum = true := hcode x (by simp)
    rw [List.cons_append, basicExtent.eq_6 _ _ (by decide) (by decide)
      (by simp [ne_of_isAlphanum hx (y := '\\') (by decide)])
      (by simp [ne_of_isAlphanum hx (y := '"') (by decide)]), basicExtent_word hcode,
      List.length_cons (a := '\\'), Nat.add_assoc]

/-- The content of a string on one line is read up to its closing quote. -/
theorem basic?_basicContent (quotes : Nat) (cs rest : List Char) :
    basic? (basicContent false quotes cs ++ '"' :: rest) = some (cs, rest) := by
  induction cs generalizing quotes with
  | nil => simp [basicContent, basic?]
  | cons c cs ih =>
    by_cases hc : c = '"'
    · subst hc
      have hread := Codes.quote.basic?_append (basicContent false 0 cs ++ '"' :: rest)
      simpa [basicContent, ih, consContent] using hread
    · have hread := (codes_escaped false hc).basic?_append (basicContent false 0 cs ++ '"' :: rest)
      simpa [basicContent, hc, ih, consContent] using hread

/-- The extent of a string on one line is its content and its closing quote. -/
theorem basicExtent_basicContent (quotes : Nat) (cs rest : List Char) :
    basicExtent (basicContent false quotes cs ++ '"' :: rest) =
      (basicContent false quotes cs).length + 1 := by
  induction cs generalizing quotes with
  | nil => simp [basicContent, basicExtent]
  | cons c cs ih =>
    by_cases hc : c = '"'
    · subst hc
      simp [basicContent, basicExtent, ih]
    · have hread := (codes_escaped false hc).basicExtent_append
        (basicContent false 0 cs ++ '"' :: rest)
      simp only [basicContent, hc, if_false, List.append_assoc, List.length_append, hread, ih]
      omega

/-! ## Basic strings on several lines -/

/-- An ordinary character does not end a string on several lines. -/
theorem multiBasicExtent_cons {x : Char} (hquote : x ≠ '"') (hslash : x ≠ '\\')
    (rest : List Char) : multiBasicExtent (x :: rest) = multiBasicExtent rest + 1 :=
  multiBasicExtent.eq_5 x rest (fun _ h => absurd h hquote) (fun _ h => absurd h hslash)
    fun _ h => absurd h hslash

/-- Letters and digits do not end a string on several lines. -/
theorem multiBasicExtent_word {u : List Char} (h : ∀ x ∈ u, x.isAlphanum = true)
    (rest : List Char) : multiBasicExtent (u ++ rest) = multiBasicExtent rest + u.length := by
  induction u with
  | nil => rfl
  | cons x u ih =>
    obtain ⟨hx, hu⟩ := List.forall_mem_cons.1 h
    rw [List.cons_append, multiBasicExtent_cons (ne_of_isAlphanum hx (by decide))
      (ne_of_isAlphanum hx (by decide)), ih hu, List.length_cons, Nat.add_assoc]

/-- A backslash in front of a visible character does not continue the line. -/
theorem continuation_cons {x : Char} (hspace : isSpace x = false) (hbreak : x ≠ '\n')
    (hreturn : x ≠ '\r') (rest : List Char) : continuation (x :: rest) = 0 := by
  have hdrop : (x :: rest).dropWhile isSpace = x :: rest :=
    List.dropWhile_cons_of_neg (by simp [hspace])
  rw [continuation, hdrop]
  split
  · next h => exact absurd (List.cons_eq_cons.1 h).1 hbreak
  · next h => exact absurd (List.cons_eq_cons.1 h).1 hreturn
  · rfl

/-- A letter or digit is no space. -/
theorem isSpace_of_isAlphanum {x : Char} (hx : x.isAlphanum = true) : isSpace x = false := by
  simp [isSpace, ne_of_isAlphanum hx (y := ' ') (by decide),
    ne_of_isAlphanum hx (y := '\t') (by decide)]

/-- What codes a character is read as that character. -/
theorem Codes.multiBasic?_append (h : Codes true c w) (rest : List Char) :
    multiBasic? (w ++ rest) = consContent c (multiBasic? rest) := by
  cases h with
  | plain hquote hslash hcontrol =>
    have hreturn : c ≠ '\r' := by
      rintro rfl
      simpa using hcontrol (by decide)
    have hfalse : (isControl c && c != '\n') = false := by
      by_contra hne
      simp only [Bool.not_eq_false, Bool.and_eq_true, bne_iff_ne] at hne
      exact hne.2 (hcontrol hne.1).2
    rw [List.singleton_append, multiBasic?.eq_7 _ _ (fun _ h => absurd h hquote)
      (fun _ h => absurd h hquote) (fun _ h => absurd h hquote) hslash
      (fun _ h => absurd h hreturn), hfalse]
    rfl
  | quote =>
    have hzero : continuation ('"' :: rest) = 0 :=
      continuation_cons (by decide) (by decide) (by decide) rest
    simp [multiBasic?, hzero, escape?]
  | slash =>
    have hzero : continuation ('\\' :: rest) = 0 :=
      continuation_cons (by decide) (by decide) (by decide) rest
    simp [multiBasic?, hzero, escape?]
  | @code _ code hne hcode hescape =>
    obtain ⟨x, code, rfl⟩ := List.exists_cons_of_ne_nil hne
    have hx : x.isAlphanum = true := hcode x (by simp)
    have hzero : continuation (x :: code ++ rest) = 0 :=
      continuation_cons (isSpace_of_isAlphanum hx) (ne_of_isAlphanum hx (by decide))
        (ne_of_isAlphanum hx (by decide)) _
    rw [List.cons_append, multiBasic?.eq_5, hzero, hescape]
    simp

/-- What codes a character does not end a string. -/
theorem Codes.multiBasicExtent_append (h : Codes true c w) (rest : List Char) :
    multiBasicExtent (w ++ rest) = multiBasicExtent rest + w.length := by
  cases h with
  | plain hquote hslash hcontrol => exact multiBasicExtent_cons hquote hslash rest
  | quote => simp [multiBasicExtent]
  | slash => simp [multiBasicExtent]
  | @code _ code hne hcode hescape =>
    obtain ⟨x, code, rfl⟩ := List.exists_cons_of_ne_nil hne
    have hx : x.isAlphanum = true := hcode x (by simp)
    rw [List.cons_append, multiBasicExtent.eq_5 _ _ (by simp)
      (by simp [ne_of_isAlphanum hx (y := '\\') (by decide)])
      (by simp [ne_of_isAlphanum hx (y := '"') (by decide)]), multiBasicExtent_word hcode,
      List.length_cons (a := '\\'), Nat.add_assoc]

/-- What codes a character does not start with a quote. -/
theorem Codes.stops (h : Codes isMulti c w) (rest : List Char) : Stops (· == '"') (w ++ rest) := by
  cases h with
  | plain hquote => simpa [Stops] using hquote
  | _ => simp [Stops]

/-- A quote that two others do not follow belongs to the content. -/
theorem multiBasic?_quote {rest : List Char} (h : ¬ ['"', '"'] <+: rest) :
    multiBasic? ('"' :: rest) = consContent '"' (multiBasic? rest) := by
  rw [multiBasic?.eq_7 _ _ (fun _ _ heq => h ⟨_, heq.symm⟩) (fun _ _ heq => h ⟨_, heq.symm⟩)
    (fun _ _ heq => h ⟨_, heq.symm⟩) (by decide) (by simp)]
  rfl

/-- A quote that two others do not follow does not end the string. -/
theorem multiBasicExtent_quote {rest : List Char} (h : ¬ ['"', '"'] <+: rest) :
    multiBasicExtent ('"' :: rest) = multiBasicExtent rest + 1 :=
  multiBasicExtent.eq_5 _ _ (fun _ _ heq => h ⟨_, heq.symm⟩) (by simp) (by simp)

/-- In front of another character, less than two quotes are not two. -/
theorem not_pair_replicate {q : Char} {n : Nat} (hn : n < 2) {rest : List Char}
    (hrest : Stops (· == q) rest) : ¬ [q, q] <+: List.replicate n q ++ rest := by
  rintro ⟨tail, htail⟩
  have hhead : Stops (· == q) (([q, q] ++ tail).drop n) := by
    rwa [htail, List.drop_left' (by simp)]
  interval_cases n <;> simp [Stops] at hhead

/-- Up to two quotes in front of another character belong to the content. -/
theorem multiBasic?_replicate {n : Nat} (hn : n ≤ 2) {rest : List Char}
    (hrest : Stops (· == '"') rest) :
    multiBasic? (List.replicate n '"' ++ rest) =
      (List.replicate n '"').foldr consContent (multiBasic? rest) := by
  induction n with
  | zero => rfl
  | succ n ih =>
    rw [List.replicate_succ, List.cons_append,
      multiBasic?_quote (not_pair_replicate (by omega) hrest), ih (by omega), List.foldr_cons]

/-- Up to two quotes in front of another character do not end the string. -/
theorem multiBasicExtent_replicate {n : Nat} (hn : n ≤ 2) {rest : List Char}
    (hrest : Stops (· == '"') rest) :
    multiBasicExtent (List.replicate n '"' ++ rest) = multiBasicExtent rest + n := by
  induction n with
  | zero => rfl
  | succ n ih =>
    rw [List.replicate_succ, List.cons_append,
      multiBasicExtent_quote (not_pair_replicate (by omega) hrest), ih (by omega), Nat.add_assoc]

/-- Characters in front of a content that was read. -/
theorem foldr_consContent (u cs rest : List Char) :
    u.foldr consContent (some (cs, rest)) = some (u ++ cs, rest) := by
  induction u with
  | nil => rfl
  | cons c u ih => rw [List.foldr_cons, ih]; rfl

/-- Of the quotes that close a string, up to two belong to the content. -/
theorem multiBasic?_closing {n : Nat} (hn : n ≤ 2) {rest : List Char}
    (hrest : Stops (· == '"') rest) :
    multiBasic? (List.replicate n '"' ++ '"' :: '"' :: '"' :: rest) =
      some (List.replicate n '"', rest) := by
  have hhead (tail : List Char) : rest ≠ '"' :: tail := by
    rintro rfl
    simp [Stops] at hrest
  interval_cases n <;> simp [List.replicate, multiBasic?, hhead]

/-- As many quotes are counted as there are, up to two. -/
theorem extraQuotes_replicate {q : Char} {n : Nat} (hn : n ≤ 2) {rest : List Char}
    (hrest : Stops (· == q) rest) : extraQuotes q (List.replicate n q ++ rest) = n := by
  rw [extraQuotes, takeWhile_append_of_stop (by simp) hrest, List.length_replicate]
  omega

/-- All quotes that close a string belong to its extent, up to five. -/
theorem multiBasicExtent_closing {n : Nat} (hn : n ≤ 2) {rest : List Char}
    (hrest : Stops (· == '"') rest) :
    multiBasicExtent (List.replicate n '"' ++ '"' :: '"' :: '"' :: rest) = n + 3 := by
  have hall : List.replicate n '"' ++ '"' :: '"' :: '"' :: rest =
      '"' :: '"' :: '"' :: (List.replicate n '"' ++ rest) := by
    interval_cases n <;> rfl
  rw [hall, multiBasicExtent, extraQuotes_replicate hn hrest]

/-- A quote behind a run of quotes joins it. -/
theorem replicate_append_cons (q : Char) (n : Nat) (v : List Char) :
    List.replicate n q ++ q :: v = List.replicate (n + 1) q ++ v := by
  rw [List.replicate_succ', List.append_assoc, List.singleton_append]

/-- The content of a string on several lines is read up to its closing quotes. The quotes in front
of it are those that were just written. -/
theorem multiBasic?_basicContent {n : Nat} (hn : n ≤ 2) (cs : List Char) {rest : List Char}
    (hrest : Stops (· == '"') rest) :
    multiBasic? (List.replicate n '"' ++ (basicContent true n cs ++ '"' :: '"' :: '"' :: rest)) =
      some (List.replicate n '"' ++ cs, rest) := by
  induction cs generalizing n with
  | nil => simpa [basicContent] using multiBasic?_closing hn hrest
  | cons c cs ih =>
    -- a quote joins the run, any other character and an escaped quote end it
    have hflush {w : List Char} (hw : Codes true c w) : multiBasic? (List.replicate n '"' ++
        (w ++ (basicContent true 0 cs ++ '"' :: '"' :: '"' :: rest))) =
          some (List.replicate n '"' ++ c :: cs, rest) := by
      have hzero := ih (Nat.zero_le 2)
      rw [List.replicate_zero, List.nil_append, List.nil_append] at hzero
      rw [multiBasic?_replicate hn (hw.stops _), hw.multiBasic?_append, hzero]
      exact foldr_consContent _ _ _
    by_cases hc : c = '"'
    · subst hc
      by_cases hlt : n < 2
      · simpa [basicContent, hlt, replicate_append_cons] using ih hlt
      · simpa [basicContent, hlt] using hflush .quote
    · simpa [basicContent, hc] using hflush (codes_escaped true hc)

/-- The extent of a string on several lines is its content and its closing quotes. -/
theorem multiBasicExtent_basicContent {n : Nat} (hn : n ≤ 2) (cs : List Char) {rest : List Char}
    (hrest : Stops (· == '"') rest) :
    multiBasicExtent (List.replicate n '"' ++
        (basicContent true n cs ++ '"' :: '"' :: '"' :: rest)) =
      n + (basicContent true n cs).length + 3 := by
  induction cs generalizing n with
  | nil => simpa [basicContent] using multiBasicExtent_closing hn hrest
  | cons c cs ih =>
    -- as for the reader: what codes a character ends the run of quotes in front of it
    have hflush {w : List Char} (hw : Codes true c w) : multiBasicExtent (List.replicate n '"' ++
        (w ++ (basicContent true 0 cs ++ '"' :: '"' :: '"' :: rest))) =
          n + (w ++ basicContent true 0 cs).length + 3 := by
      have hzero := ih (Nat.zero_le 2)
      rw [List.replicate_zero, List.nil_append] at hzero
      rw [multiBasicExtent_replicate hn (hw.stops _), hw.multiBasicExtent_append, hzero,
        List.length_append]
      omega
    by_cases hc : c = '"'
    · subst hc
      by_cases hlt : n < 2
      · have hnext := ih hlt
        simp [basicContent, hlt, replicate_append_cons] at hnext ⊢
        omega
      · simpa [basicContent, hlt] using hflush .quote
    · simpa [basicContent, hc] using hflush (codes_escaped true hc)

/-! ## Literal strings -/

/-- The content of a literal string on one line is read up to its closing apostrophe. -/
theorem literal?_append {cs : List Char} (hcontrol : ∀ c ∈ cs, isControl c = false)
    (hquote : ∀ c ∈ cs, c ≠ '\'') (rest : List Char) :
    literal? (cs ++ '\'' :: rest) = some (cs, rest) := by
  induction cs with
  | nil => rfl
  | cons c cs ih =>
    obtain ⟨hc, hcs⟩ := List.forall_mem_cons.1 hcontrol
    obtain ⟨hne, hnot⟩ := List.forall_mem_cons.1 hquote
    rw [List.cons_append, literal?.eq_3 _ _ hne, hc, ih hcs hnot]
    rfl

/-- The extent of a literal string on one line is its content and its closing apostrophe. -/
theorem literalExtent_append {cs : List Char} (hcontrol : ∀ c ∈ cs, isControl c = false)
    (hquote : ∀ c ∈ cs, c ≠ '\'') (rest : List Char) :
    literalExtent (cs ++ '\'' :: rest) = cs.length + 1 := by
  induction cs with
  | nil => rfl
  | cons c cs ih =>
    obtain ⟨hc, hcs⟩ := List.forall_mem_cons.1 hcontrol
    obtain ⟨hne, hnot⟩ := List.forall_mem_cons.1 hquote
    have hbreak : c ≠ '\n' := by
      rintro rfl
      simp [isControl] at hc
    rw [List.cons_append, literalExtent.eq_4 _ _ hbreak hne, ih hcs hnot,
      List.length_cons]

/-- Of the apostrophes that close a string, up to two belong to the content. -/
theorem multiLiteral?_closing {n : Nat} (hn : n ≤ 2) {rest : List Char}
    (hrest : Stops (· == '\'') rest) :
    multiLiteral? (List.replicate n '\'' ++ '\'' :: '\'' :: '\'' :: rest) =
      some (List.replicate n '\'', rest) := by
  have hhead (tail : List Char) : rest ≠ '\'' :: tail := by
    rintro rfl
    simp [Stops] at hrest
  interval_cases n <;> simp [List.replicate, multiLiteral?, hhead]

/-- All apostrophes that close a string belong to its extent, up to five. -/
theorem multiLiteralExtent_closing {n : Nat} (hn : n ≤ 2) {rest : List Char}
    (hrest : Stops (· == '\'') rest) :
    multiLiteralExtent (List.replicate n '\'' ++ '\'' :: '\'' :: '\'' :: rest) = n + 3 := by
  have hall : List.replicate n '\'' ++ '\'' :: '\'' :: '\'' :: rest =
      '\'' :: '\'' :: '\'' :: (List.replicate n '\'' ++ rest) := by
    interval_cases n <;> rfl
  rw [hall, multiLiteralExtent, extraQuotes_replicate hn hrest]

/-- Where no character occurs three times in a row, none does behind the first character. -/
theorem hasTriple_tail {q c : Char} {cs : List Char} (h : hasTriple q (c :: cs) = false) :
    hasTriple q cs = false := by
  match cs with
  | [] | [_] => rfl
  | _ :: _ :: _ => exact (Bool.or_eq_false_iff.1 h).2

/-- Where no quote occurs three times in a row, the content is a run of up to two of them, or what
starts it is no three quotes in a row whatever follows. -/
theorem replicate_or_not_pair {q : Char} {c : Char} {cs : List Char}
    (h : hasTriple q (c :: cs) = false) :
    (∃ n ≤ 2, c :: cs = List.replicate n q) ∨
      ∀ rest, c = q → ¬ [q, q] <+: cs ++ q :: q :: q :: rest := by
  match cs, h with
  | [], _ =>
    by_cases hc : c = q
    · exact .inl ⟨1, by omega, by simp [hc]⟩
    · exact .inr fun _ h => absurd h hc
  | [d], _ =>
    by_cases hc : c = q ∧ d = q
    · exact .inl ⟨2, le_rfl, by simp [hc]⟩
    · refine .inr fun _ h => ?_
      simpa [List.cons_prefix_cons, eq_comm, h] using hc
  | d :: e :: cs, h =>
    refine .inr fun rest hc => ?_
    rintro ⟨tail, htail⟩
    obtain ⟨rfl, rfl, -⟩ : q = d ∧ q = e ∧ tail = cs ++ q :: q :: q :: rest := by
      simpa [List.cons_eq_cons] using htail
    simp [hasTriple, hc] at h

/-- A character that is no apostrophe with two others behind, and no control character but a line
break, belongs to the content. -/
theorem multiLiteral?_cons {c : Char} {rest : List Char} (hcontrol : isHardControl c = false)
    (h : c = '\'' → ¬ ['\'', '\''] <+: rest) :
    multiLiteral? (c :: rest) = consContent c (multiLiteral? rest) := by
  have hreturn : c ≠ '\r' := by
    rintro rfl
    simp [isHardControl, isControl] at hcontrol
  rw [multiLiteral?.eq_6 _ _ (fun _ hc heq => h hc ⟨_, heq.symm⟩)
    (fun _ hc heq => h hc ⟨_, heq.symm⟩) (fun _ hc heq => h hc ⟨_, heq.symm⟩)
    (fun _ hc => absurd hc hreturn), ← isHardControl, hcontrol]
  rfl

/-- The content of a literal string on several lines is read up to its closing apostrophes. -/
theorem multiLiteral?_append {cs : List Char} (hcontrol : ∀ c ∈ cs, isHardControl c = false)
    (htriple : hasTriple '\'' cs = false) {rest : List Char} (hrest : Stops (· == '\'') rest) :
    multiLiteral? (cs ++ '\'' :: '\'' :: '\'' :: rest) = some (cs, rest) := by
  induction cs with
  | nil => exact multiLiteral?_closing (Nat.zero_le 2) hrest
  | cons c cs ih =>
    obtain ⟨hc, hcs⟩ := List.forall_mem_cons.1 hcontrol
    obtain ⟨n, hn, heq⟩ | hnot := replicate_or_not_pair htriple
    · rw [heq]
      exact multiLiteral?_closing hn hrest
    · rw [List.cons_append, multiLiteral?_cons hc (hnot rest), ih hcs (hasTriple_tail htriple)]
      rfl

/-- The extent of a literal string on several lines is its content and its closing apostrophes. -/
theorem multiLiteralExtent_append {cs : List Char} (htriple : hasTriple '\'' cs = false)
    {rest : List Char} (hrest : Stops (· == '\'') rest) :
    multiLiteralExtent (cs ++ '\'' :: '\'' :: '\'' :: rest) = cs.length + 3 := by
  induction cs with
  | nil => exact multiLiteralExtent_closing (Nat.zero_le 2) hrest
  | cons c cs ih =>
    obtain ⟨n, hn, heq⟩ | hnot := replicate_or_not_pair htriple
    · rw [heq, List.length_replicate]
      exact multiLiteralExtent_closing hn hrest
    · rw [List.cons_append, multiLiteralExtent.eq_3 _ _
        (fun _ hc heq => hnot rest hc ⟨_, heq.symm⟩), ih (hasTriple_tail htriple),
        List.length_cons]

/-! ## Strings in any form -/

/-- Whether a character is one of those that open strings. -/
def isQuote (c : Char) : Bool := c == '"' || c == '\''

/-- Whether a form is for several lines. -/
def Form.isMulti : Form → Bool
  | basic | literal => false
  | multiBasic | multiLiteral => true

/-- A written text has a content: wherever no quote follows, it is one token, and the content is
read from it. -/
structure Quotes (isMulti : Bool) (written content : List Char) : Prop where
  /-- It starts with a quote, and it is one token. -/
  first? : ∃ q body, written = q :: body ∧ isQuote q = true ∧
    ∀ rest, Stops isQuote rest →
      Token.first? q (body ++ rest) = some (.quoted isMulti written, body.length)
  /-- Its content is read. -/
  string? : string? written = some (content, [])

/-- A text that no quote starts does not start with a certain quote. -/
theorem stops_of_isQuote {q : Char} (hq : isQuote q = true) {rest : List Char}
    (h : Stops isQuote rest) : Stops (· == q) rest := by
  intro c hc
  rw [beq_eq_false_iff_ne]
  rintro rfl
  rw [h c hc] at hq
  cases hq

/-- Nor does a text that does not hold the quote. -/
theorem stops_of_forall_ne {q : Char} {cs : List Char} (h : ∀ c ∈ cs, c ≠ q) :
    Stops (· == q) cs := by
  intro c hc
  simpa using h c (List.mem_of_mem_head? hc)

/-- A string on one line does not look like one on several lines. -/
theorem not_pair_of_stops {q : Char} {u rest : List Char} (hu : Stops (· == q) u)
    (hrest : Stops (· == q) rest) : ¬ [q, q] <+: u ++ q :: rest := by
  rintro ⟨tail, htail⟩
  cases u with
  | nil =>
    obtain ⟨-, rfl⟩ := List.cons_eq_cons.1 htail
    simp [stops_cons] at hrest
  | cons c u =>
    obtain ⟨rfl, -⟩ := List.cons_eq_cons.1 htail
    simp [stops_cons] at hu

/-- The content of a string on one line does not start with a quote. -/
theorem stops_basicContent (quotes : Nat) (cs : List Char) :
    Stops (· == '"') (basicContent false quotes cs) := by
  cases cs with
  | nil => simp [basicContent, Stops]
  | cons c cs =>
    by_cases hc : c = '"'
    · simp [basicContent, hc, Stops]
    · simpa [basicContent, hc] using (codes_escaped false hc).stops (basicContent false 0 cs)

/-- A basic string on one line has its content. -/
theorem quotes_basic (cs : List Char) :
    Quotes false ('"' :: (basicContent false 0 cs ++ ['"'])) cs where
  first? := by
    refine ⟨'"', basicContent false 0 cs ++ ['"'], rfl, rfl, fun rest hrest => ?_⟩
    have hnot := not_pair_of_stops (stops_basicContent 0 cs) (stops_of_isQuote rfl hrest)
    have hextent : basicExtent (basicContent false 0 cs ++ ['"'] ++ rest) =
        (basicContent false 0 cs ++ ['"']).length := by
      simpa using basicExtent_basicContent 0 cs rest
    rw [Token.first?.eq_15 _ fun tail heq => hnot ⟨tail, by simpa using heq.symm⟩, hextent]
    simp only [List.take_left]
  string? := by
    have hnot := not_pair_of_stops (stops_basicContent 0 cs) stops_nil
    rw [Toml.string?.eq_2 _ fun tail heq => hnot ⟨tail, heq.symm⟩, basic?_basicContent]

/-- A literal string on one line has its content. -/
theorem quotes_literal {cs : List Char} (hcontrol : ∀ c ∈ cs, isControl c = false)
    (hquote : ∀ c ∈ cs, c ≠ '\'') : Quotes false ('\'' :: (cs ++ ['\''])) cs where
  first? := by
    refine ⟨'\'', cs ++ ['\''], rfl, rfl, fun rest hrest => ?_⟩
    have hnot := not_pair_of_stops (stops_of_forall_ne hquote) (stops_of_isQuote rfl hrest)
    have hextent : literalExtent (cs ++ ['\''] ++ rest) = (cs ++ ['\'']).length := by
      simpa using literalExtent_append hcontrol hquote rest
    rw [Token.first?.eq_17 _ fun tail heq => hnot ⟨tail, by simpa using heq.symm⟩, hextent]
    simp only [List.take_left]
  string? := by
    have hnot := not_pair_of_stops (stops_of_forall_ne hquote) stops_nil
    rw [Toml.string?.eq_4 _ fun tail heq => hnot ⟨tail, heq.symm⟩,
      literal?_append hcontrol hquote]

/-- The line break behind the opening delimiter is dropped, and nothing else. -/
theorem dropLineBreak_opening {cs v : List Char} (h : '\n' ∉ cs → Stops isControl v) :
    dropLineBreak (opening cs ++ v) = v := by
  by_cases hbreak : '\n' ∈ cs
  · simp [opening, hbreak, dropLineBreak]
  · have hopening : opening cs = [] := by simp [opening, hbreak]
    have hv := h hbreak
    rw [hopening, List.nil_append, dropLineBreak.eq_3]
    -- both line breaks start with a control character
    · rintro tail rfl
      simp [stops_cons, isControl] at hv
    · rintro tail rfl
      simp [stops_cons, isControl] at hv

/-- What codes another character than a line break does not start with one. -/
theorem Codes.stops_isControl (h : Codes isMulti c w) (hc : c ≠ '\n') (rest : List Char) :
    Stops isControl (w ++ rest) := by
  cases h with
  | plain _ _ hcontrol =>
    rw [List.singleton_append, stops_cons]
    by_contra hne
    exact hc (hcontrol (by simpa using hne)).2
  | _ => exact stops_cons.2 (by decide)

/-- The content of a basic string starts with a line break only if there is one in it. -/
theorem stops_basicContent_closing {cs : List Char} (h : '\n' ∉ cs) (rest : List Char) :
    Stops isControl (basicContent true 0 cs ++ '"' :: rest) := by
  cases cs with
  | nil => exact stops_cons.2 (by decide)
  | cons c cs =>
    have hne : c ≠ '\n' := by
      rintro rfl
      simp at h
    by_cases hc : c = '"'
    · simpa [basicContent, hc] using stops_cons.2 (by decide)
    · simpa [basicContent, hc] using (codes_escaped true hc).stops_isControl hne _

/-- A basic string on several lines has its content. -/
theorem quotes_multiBasic (cs : List Char) :
    Quotes true ('"' :: '"' :: '"' ::
      (opening cs ++ basicContent true 0 cs ++ ['"', '"', '"'])) cs where
  first? := by
    refine ⟨'"', '"' :: '"' :: (opening cs ++ basicContent true 0 cs ++ ['"', '"', '"']), rfl, rfl,
      fun rest hrest => ?_⟩
    have hcontent := multiBasicExtent_basicContent (Nat.zero_le 2) cs (stops_of_isQuote rfl hrest)
    have hopening (v : List Char) :
        multiBasicExtent (opening cs ++ v) = (opening cs).length + multiBasicExtent v := by
      unfold opening
      split_ifs
      · simp [multiBasicExtent_cons, Nat.add_comm]
      · simp
    have hextent : multiBasicExtent (opening cs ++ basicContent true 0 cs ++ ['"', '"', '"'] ++
        rest) = (opening cs ++ basicContent true 0 cs ++ ['"', '"', '"']).length := by
      simpa [hopening] using hcontent
    rw [List.cons_append, List.cons_append, Token.first?.eq_14, hextent]
    simp only [List.take_succ_cons, List.take_left, List.length_cons]
  string? := by
    have hread := multiBasic?_basicContent (Nat.zero_le 2) cs stops_nil
    rw [Toml.string?.eq_1, List.append_assoc,
      dropLineBreak_opening fun h => stops_basicContent_closing h _]
    simpa using hread

/-- A literal string on several lines has its content. -/
theorem quotes_multiLiteral {cs : List Char} (hcontrol : ∀ c ∈ cs, isHardControl c = false)
    (htriple : hasTriple '\'' cs = false) :
    Quotes true ('\'' :: '\'' :: '\'' :: (opening cs ++ cs ++ ['\'', '\'', '\''])) cs where
  first? := by
    refine ⟨'\'', '\'' :: '\'' :: (opening cs ++ cs ++ ['\'', '\'', '\'']), rfl, rfl,
      fun rest hrest => ?_⟩
    have hcontent := multiLiteralExtent_append htriple (stops_of_isQuote rfl hrest)
    have hopening (v : List Char) :
        multiLiteralExtent (opening cs ++ v) = (opening cs).length + multiLiteralExtent v := by
      unfold opening
      split_ifs
      · simp [multiLiteralExtent, Nat.add_comm]
      · simp
    have hextent : multiLiteralExtent (opening cs ++ cs ++ ['\'', '\'', '\''] ++ rest) =
        (opening cs ++ cs ++ ['\'', '\'', '\'']).length := by
      simpa [hopening] using hcontent
    rw [List.cons_append, List.cons_append, Token.first?.eq_16, hextent]
    simp only [List.take_succ_cons, List.take_left, List.length_cons]
  string? := by
    have hread := multiLiteral?_append hcontrol htriple stops_nil
    have hstops (h : '\n' ∉ cs) : Stops isControl (cs ++ ['\'', '\'', '\'']) := by
      cases cs with
      | nil => exact stops_cons.2 (by decide)
      | cons c cs =>
        have hne : c ≠ '\n' := by
          rintro rfl
          simp at h
        have hc : isHardControl c = false := hcontrol c (by simp)
        exact stops_cons.2 (by simpa [isHardControl, hne] using hc)
    rw [Toml.string?.eq_3, List.append_assoc, dropLineBreak_opening hstops, hread]

/-- A text that is written as a literal string on one line can stand there as it is. -/
theorem of_formOf_literal {cs : List Char} (h : formOf cs = .literal) :
    (∀ c ∈ cs, isControl c = false) ∧ ∀ c ∈ cs, c ≠ '\'' := by
  unfold formOf at h
  split_ifs at h with _ hliteral
  simp only [Bool.and_eq_true, Bool.not_eq_true', List.any_eq_false, Bool.not_eq_true,
    List.elem_eq_mem, decide_eq_false_iff_not] at hliteral
  exact ⟨hliteral.1, fun c hc heq => hliteral.2 (heq ▸ hc)⟩

/-- A text that is written as a literal string on several lines can stand there as it is. -/
theorem of_formOf_multiLiteral {cs : List Char} (h : formOf cs = .multiLiteral) :
    (∀ c ∈ cs, isHardControl c = false) ∧ hasTriple '\'' cs = false := by
  unfold formOf at h
  split_ifs at h with _ _ _ hliteral
  simpa only [Bool.and_eq_true, Bool.not_eq_true', List.any_eq_false, Bool.not_eq_true]
    using hliteral

/-- A text as it is written has that text as its content. -/
theorem quotes_quote (text : String) :
    Quotes (formOf text.toList).isMulti (quote text).toList text.toList := by
  unfold quote
  rw [String.toList_ofList]
  -- only the literal forms, which have no escapes, ask something of the text
  cases hform : formOf text.toList with
  | basic => simpa [Form.isMulti] using quotes_basic text.toList
  | literal =>
    obtain ⟨hcontrol, hquote⟩ := of_formOf_literal hform
    simpa [Form.isMulti] using quotes_literal hcontrol hquote
  | multiBasic => simpa [Form.isMulti] using quotes_multiBasic text.toList
  | multiLiteral =>
    obtain ⟨hcontrol, htriple⟩ := of_formOf_multiLiteral hform
    simpa [Form.isMulti] using quotes_multiLiteral hcontrol htriple

end ItemFilter.Toml
