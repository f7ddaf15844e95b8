import ItemFilter.Proofs.Quoting
import ItemFilter.Toml.Reader

/-!
# Documents that are written are read back

A document that is written is made of parts: strings and arrays of strings under bare keys,
headers, and empty lines. It is read back in the steps in which every document is read. Each token
of the parts is found in front of those behind it (`allCut_parts`), so that the tokens of the text
are those of the parts (`Token.scan?_flatMap_text`). The statements in these tokens are what the
parts say (`outline?_parts`), and each of them is read as the statement that its part makes
(`readStatement_written`). What is left are the rules for tables: the document is read as the
entries that the statements build (`parse_parts`).
-/

namespace ItemFilter.Toml

open Text (Stops stops_nil stops_cons takeWhile_append_of_stop)

/-! ## Bare keys -/

/-- A key can be written without quotes. -/
def IsBare (key : String) : Prop := key ≠ "" ∧ ∀ c ∈ key.toList, isBareKey c = true

/-- A bare key has a first character. -/
theorem IsBare.exists_cons {key : String} (h : IsBare key) :
    ∃ c cs, key.toList = c :: cs ∧ isBareKey c = true ∧ ∀ d ∈ cs, isBareKey d = true := by
  obtain ⟨c, cs, hcs⟩ := List.exists_cons_of_ne_nil (mt String.toList_eq_nil_iff.1 h.1)
  exact ⟨c, cs, hcs, List.forall_mem_cons.1 (hcs ▸ h.2)⟩

/-- Two characters differ if one may stand in a bare key and the other may not. -/
theorem ne_of_isBareKey {c d : Char} (hc : isBareKey c = true) (hd : isBareKey d = false) :
    c ≠ d := by
  rintro rfl
  rw [hc] at hd
  cases hd

/-- What may stand in a bare key may stand in a word. -/
theorem isWordChar_of_isBareKey {c : Char} (h : isBareKey c = true) : isWordChar c = true := by
  have hne (d : Char) (hd : isBareKey d = false) : c ≠ d := ne_of_isBareKey h hd
  simp only [isWordChar, List.elem_eq_mem, Bool.not_eq_true', decide_eq_false_iff_not]
  simp only [String.reduceToList, List.mem_cons, List.not_mem_nil, or_false, not_or]
  and_intros <;> exact hne _ (by decide)

/-! ## Tokens in a row -/

namespace Token

/-- A token is found in front of a text, and ends where the text starts. -/
def IsCut (token : Token) (rest : List Char) : Prop :=
  ∃ c cs, token.text = c :: cs ∧ first? c (cs ++ rest) = some (token, cs.length)

/-- Each token is found in front of the text of those behind it. -/
def AllCut : List Token → Prop
  | [] => True
  | token :: tokens => IsCut token (tokens.flatMap text) ∧ AllCut tokens

/-- Tokens that are found in front of each other are the tokens of their text. -/
theorem scan?_flatMap_text {tokens : List Token} (h : AllCut tokens) :
    scan? (tokens.flatMap text) = some tokens := by
  induction tokens with
  | nil => simp [scan?]
  | cons token tokens ih =>
    obtain ⟨⟨c, cs, htext, hfirst⟩, hrest⟩ := h
    rw [List.flatMap_cons, htext, List.cons_append, scan?, hfirst]
    simp only [List.drop_left, ih hrest, Option.map_some]

/-- A punctuation mark is found in front of any text. -/
theorem isCut_mark {token : Token}
    (h : token ∈ [equals, comma, openBracket, closeBracket, lineBreak ['\n']])
    (rest : List Char) : IsCut token rest := by
  simp only [List.mem_cons, List.not_mem_nil, or_false] at h
  obtain rfl | rfl | rfl | rfl | rfl := h <;> exact ⟨_, [], rfl, rfl⟩

/-- Spaces are found in front of what is no space. -/
theorem isCut_blank {cs rest : List Char} (hcs : ∀ c ∈ cs, isSpace c = true)
    (hrest : Stops isSpace rest) : IsCut (blank (' ' :: cs)) rest := by
  refine ⟨' ', cs, rfl, ?_⟩
  simp [first?, takeWhile_append_of_stop hcs hrest]

/-- A bare key is found in front of what ends a word. -/
theorem isCut_word {key : String} (h : IsBare key) {rest : List Char}
    (hrest : Stops isWordChar rest) : IsCut (word key.toList) rest := by
  obtain ⟨c, cs, hkey, hc, hcs⟩ := h.exists_cons
  have hne (d : Char) (hd : isBareKey d = false) : c = d → False := ne_of_isBareKey hc hd
  refine ⟨c, cs, hkey, ?_⟩
  have hrun : (cs ++ rest).takeWhile isWordChar = cs :=
    takeWhile_append_of_stop (fun d hd => isWordChar_of_isBareKey (hcs d hd)) hrest
  unfold first?
  split
  -- the first character of a bare key starts no token but a word
  all_goals first
    | exact absurd rfl (hne _ (by decide))
    | simp only [hkey, hrun, List.take_left]

/-- A string as it is written is found in front of what starts no string. -/
theorem isCut_quoted (text : String) {rest : List Char} (hrest : Stops isQuote rest) :
    IsCut (quoted (formOf text.toList).isMulti (quote text).toList) rest := by
  obtain ⟨q, body, hwritten, -, hfirst⟩ := (quotes_quote text).first?
  exact ⟨q, body, hwritten, hfirst rest hrest⟩

end Token

/-! ## What is written -/

/-- A value that is written: a string, or an array of strings. -/
inductive Plain where
  | string (text : String)
  | strings (texts : List String)

/-- The token of a string as it is written. -/
def quotedToken (text : String) : Token :=
  .quoted (formOf text.toList).isMulti (quote text).toList

/-- The tokens of an item with a line of its own. -/
def itemTokens (text : String) : List Token :=
  [.blank [' ', ' ', ' ', ' '], quotedToken text, .comma, .lineBreak ['\n']]

/-- A string as it is written. -/
def scalarOf (text : String) : Written := .scalar (quote text).toList

namespace Plain

/-- The tokens of a value. -/
def tokens : Plain → List Token
  | string text => [quotedToken text]
  | strings [] => [.openBracket, .closeBracket]
  | strings [text] => [.openBracket, quotedToken text, .closeBracket]
  | strings texts =>
    .openBracket :: .lineBreak ['\n'] :: (texts.flatMap itemTokens ++ [.closeBracket])

/-- What the tokens of a value say. -/
def written : Plain → Written
  | string text => scalarOf text
  | strings texts => .array (texts.map scalarOf)

/-- The value. -/
def value : Plain → Value
  | string text => .string text
  | strings texts => .array (texts.map .string)

end Plain

/-- A part of a document: an assignment, a header, or a line with nothing on it. -/
inductive Part where
  | assign (key : String) (value : Plain)
  | header (key : String)
  | gap

namespace Part

/-- The tokens of a part. -/
def tokens : Part → List Token
  | assign key value => [.word key.toList, .blank [' '], .equals, .blank [' ']] ++ value.tokens ++
      [.lineBreak ['\n']]
  | header key => [.openBracket, .word key.toList, .closeBracket, .lineBreak ['\n']]
  | gap => [.lineBreak ['\n']]

/-- What the tokens of a part say. -/
def written? : Part → Option WrittenStatement
  | assign key value => some (.assign [key.toList] value.written)
  | header key => some (.table [key.toList])
  | gap => none

/-- The statement that a part makes. -/
def statement? : Part → Option (Statement (List String) Value)
  | assign key value => some (.assign [key] value.value)
  | header key => some (.table [key])
  | gap => none

/-- The key of a part is bare. -/
def HasBareKey : Part → Prop
  | assign key _ | header key => IsBare key
  | gap => True

end Part

/-! ## From the text to the tokens -/

/-- The text of a string under a key. -/
theorem flatMap_text_string (key text : String) :
    (Part.assign key (.string text)).tokens.flatMap Token.text =
      (key ++ " = " ++ quote text ++ "\n").toList := by
  simp [Part.tokens, Plain.tokens, quotedToken, Token.text]

/-- The text of items with a line for each. -/
theorem flatMap_text_items (texts : List String) :
    (texts.flatMap itemTokens).flatMap Token.text =
      (String.join (texts.map fun text => "    " ++ quote text ++ ",\n")).toList := by
  induction texts with
  | nil => rfl
  | cons text texts ih => simp [itemTokens, quotedToken, Token.text, ih]

/-- The tokens of an array of strings make up its text. -/
theorem flatMap_text_array (texts : List String) :
    (Plain.strings texts).tokens.flatMap Token.text = (quoteAll texts).toList := by
  match texts with
  | [] => rfl
  | [text] => simp [Plain.tokens, quotedToken, Token.text, quoteAll]
  | first :: second :: texts =>
    have hitems := flatMap_text_items (first :: second :: texts)
    show ['['] ++ (['\n'] ++ (_ ++ [.closeBracket]).flatMap Token.text) = _
    rw [List.flatMap_append, hitems, quoteAll.eq_3 _ (by simp) (by simp), String.toList_append,
      String.toList_append]
    rfl

/-- The text of an array of strings under a key. -/
theorem flatMap_text_strings (key : String) (texts : List String) :
    (Part.assign key (.strings texts)).tokens.flatMap Token.text =
      (key ++ " = " ++ quoteAll texts ++ "\n").toList := by
  simp [Part.tokens, flatMap_text_array, Token.text]

open ItemFilter.Toml.Token (AllCut IsCut isCut_mark isCut_blank isCut_word isCut_quoted)

/-- A string as it is written starts with a quote, so not with a space. -/
theorem stops_quote (text : String) (rest : List Char) :
    Stops isSpace ((quote text).toList ++ rest) := by
  obtain ⟨q, body, hwritten, hq, -⟩ := (quotes_quote text).first?
  rw [hwritten, List.cons_append, stops_cons]
  simp only [isQuote, Bool.or_eq_true, beq_iff_eq] at hq
  obtain rfl | rfl := hq <;> decide

/-- The tokens of items are found in front of each other and of others. -/
theorem allCut_items (texts : List String) {tokens : List Token} (h : AllCut tokens) :
    AllCut (texts.flatMap itemTokens ++ tokens) := by
  induction texts with
  | nil => exact h
  | cons text texts ih =>
    refine ⟨isCut_blank (by simp [isSpace]) (stops_quote text _), isCut_quoted text ?_,
      isCut_mark (by simp) _, isCut_mark (by simp) _, ih⟩
    exact stops_cons.2 (by decide)

/-- The tokens of a value are found in front of each other and of a line break. -/
theorem Plain.allCut_tokens (value : Plain) {tokens : List Token} (h : AllCut tokens) :
    AllCut (value.tokens ++ .lineBreak ['\n'] :: tokens) := by
  have hbreak : AllCut (.lineBreak ['\n'] :: tokens) := ⟨isCut_mark (by simp) _, h⟩
  have hclose : AllCut (.closeBracket :: .lineBreak ['\n'] :: tokens) :=
    ⟨isCut_mark (by simp) _, hbreak⟩
  match value with
  | string text => exact ⟨isCut_quoted text (stops_cons.2 (by decide)), hbreak⟩
  | strings [] => exact ⟨isCut_mark (by simp) _, hclose⟩
  | strings [text] =>
    exact ⟨isCut_mark (by simp) _, isCut_quoted text (stops_cons.2 (by decide)), hclose⟩
  | strings (first :: second :: texts) =>
    have hitems := allCut_items (first :: second :: texts) hclose
    exact ⟨isCut_mark (by simp) _, isCut_mark (by simp) _, by simpa using hitems⟩

/-- The text of a value does not start with a space. -/
theorem Plain.stops_tokens (value : Plain) (tokens : List Token) :
    Stops isSpace ((value.tokens ++ tokens).flatMap Token.text) := by
  match value with
  | string text => exact stops_quote text _
  | strings [] | strings [_] | strings (_ :: _ :: _) => exact stops_cons.2 (by decide)

/-- The tokens of parts with bare keys are found in front of each other. -/
theorem allCut_parts {parts : List Part} (h : ∀ part ∈ parts, part.HasBareKey) :
    AllCut (parts.flatMap Part.tokens) := by
  induction parts with
  | nil => trivial
  | cons part parts ih =>
    obtain ⟨hpart, hparts⟩ := List.forall_mem_cons.1 h
    have hcut := ih hparts
    cases part with
    | assign key value =>
      have hvalue := value.stops_tokens (.lineBreak ['\n'] :: parts.flatMap Part.tokens)
      have hall : AllCut (.word key.toList :: .blank [' '] :: .equals :: .blank [' '] ::
          (value.tokens ++ .lineBreak ['\n'] :: parts.flatMap Part.tokens)) :=
        ⟨isCut_word hpart (stops_cons.2 (by decide)),
          isCut_blank (by simp) (stops_cons.2 (by decide)), isCut_mark (by simp) _,
          isCut_blank (by simp) hvalue, value.allCut_tokens hcut⟩
      simpa [Part.tokens] using hall
    | header key =>
      exact ⟨isCut_mark (by simp) _, isCut_word hpart (stops_cons.2 (by decide)),
        isCut_mark (by simp) _, isCut_mark (by simp) _, hcut⟩
    | gap => exact ⟨isCut_mark (by simp) _, hcut⟩

/-! ## From the tokens to the values -/

section Items

variable {α : Type} {item? : List Token → Option (α × List Token)} {close token : Token}
  {rest more : List Token} {item : α}

/-- Filler in front of a list does not matter. -/
theorem items?_filler (h : token.isFiller = true) (fuel : Nat) :
    items? item? close fuel (token :: rest) = items? item? close fuel rest := by
  cases fuel with
  | zero => rfl
  | succ fuel => simp only [items?, skipFiller, List.dropWhile_cons_of_pos h]

/-- The closing token ends a list. -/
theorem items?_close (h : close.isFiller = false) (fuel : Nat) :
    items? item? close (fuel + 1) (close :: rest) = some ([], rest) := by
  simp [items?, skipFiller, h]

/-- An item with a comma behind it comes before the items that follow. -/
theorem items?_comma (htoken : token.isFiller = false) (hclose : token ≠ close)
    (h : item? (token :: rest) = some (item, .comma :: more)) (fuel : Nat) :
    items? item? close (fuel + 1) (token :: rest) =
      (items? item? close fuel more).map fun (items, rest) => (item :: items, rest) := by
  have hfront : skipFiller (token :: rest) = token :: rest :=
    List.dropWhile_cons_of_neg (by simp [htoken])
  have hcomma : skipFiller (.comma :: more) = .comma :: more := rfl
  simp only [items?, hfront, hclose, if_false, h, hcomma, Option.bind_eq_bind, Option.bind_some]
  cases items? item? close fuel more <;> rfl

/-- An item with the closing token behind it is the last one. -/
theorem items?_last (htoken : token.isFiller = false) (hclose : token ≠ close)
    (hfiller : close.isFiller = false) (hcomma : close ≠ .comma)
    (h : item? (token :: rest) = some (item, close :: more)) (fuel : Nat) :
    items? item? close (fuel + 1) (token :: rest) = some ([item], more) := by
  simp [items?, skipFiller, htoken, hclose, h, hfiller]

end Items

/-- The token of a string closes nothing. -/
theorem quotedToken_ne {text : String} : quotedToken text ≠ .closeBracket := by
  simp [quotedToken]

/-- The token of a string is a scalar. -/
theorem value?_quoted (depth : Nat) (text : String) (rest : List Token) :
    value? depth (quotedToken text :: rest) = some (scalarOf text, rest) := by
  cases depth <;> rfl

/-- The items of an array with a line for each are read. -/
theorem items?_itemTokens (depth : Nat) (texts : List String) (rest : List Token) {fuel : Nat}
    (h : texts.length < fuel) :
    items? (value? depth) .closeBracket fuel (texts.flatMap itemTokens ++ .closeBracket :: rest) =
      some (texts.map scalarOf, rest) := by
  obtain ⟨fuel, rfl⟩ := Nat.exists_eq_succ_of_ne_zero (Nat.ne_zero_of_lt h)
  induction texts generalizing fuel with
  | nil => exact items?_close rfl fuel
  | cons text texts ih =>
    have hlt : texts.length < fuel := Nat.lt_of_succ_lt_succ h
    obtain ⟨fuel, rfl⟩ := Nat.exists_eq_succ_of_ne_zero (Nat.ne_zero_of_lt hlt)
    show items? _ _ _ (.blank _ :: quotedToken text :: .comma :: .lineBreak ['\n'] ::
      (texts.flatMap itemTokens ++ .closeBracket :: rest)) = _
    rw [items?_filler rfl, items?_comma rfl quotedToken_ne (value?_quoted depth text _),
      items?_filler rfl, ih fuel hlt]
    rfl

/-- What is made of at least one token each is not longer than its tokens. -/
theorem length_le_flatMap {α β : Type} {f : α → List β} (h : ∀ a, f a ≠ []) (as : List α) :
    as.length ≤ (as.flatMap f).length := by
  rw [List.length_flatMap, ← List.length_map (fun a => (f a).length)]
  refine List.length_le_sum_of_one_le _ fun n hn => ?_
  obtain ⟨a, -, rfl⟩ := List.mem_map.1 hn
  exact List.length_pos_iff.2 (h a)

/-- The tokens of a value are read. -/
theorem Plain.value?_tokens (value : Plain) (depth : Nat) (rest : List Token) :
    value? (depth + 1) (value.tokens ++ rest) = some (value.written, rest) := by
  match value with
  | string text => exact value?_quoted (depth + 1) text rest
  | strings [] => rfl
  | strings [text] =>
    have hlast := items?_last rfl quotedToken_ne rfl nofun
      (value?_quoted depth text (.closeBracket :: rest)) (rest.length + 1)
    exact congrArg (Option.map _) hlast
  | strings (first :: second :: texts) =>
    have hfuel := length_le_flatMap (f := itemTokens) (by simp [itemTokens])
      (first :: second :: texts)
    show (items? _ _ _ (.lineBreak ['\n'] :: (_ ++ [.closeBracket] ++ rest))).map _ = _
    rw [items?_filler rfl, List.append_assoc, List.singleton_append, items?_itemTokens]
    · rfl
    · simp at hfuel ⊢
      omega

/-! ## From the tokens to the statements -/

/-- A value does not start with a space. -/
theorem Plain.skipBlank_tokens (value : Plain) (rest : List Token) :
    skipBlank (value.tokens ++ rest) = value.tokens ++ rest := by
  match value with
  | string _ | strings [] | strings [_] | strings (_ :: _ :: _) => rfl

/-- A part that makes a statement is read up to its line break. -/
theorem statement?_tokens {part : Part} {statement : WrittenStatement}
    (h : part.written? = some statement) (rest : List Token) :
    ∃ token tokens, part.tokens ++ rest = token :: tokens ∧ token.isFiller = false ∧
      statement? (token :: tokens) = some (statement, .lineBreak ['\n'] :: rest) := by
  cases part with
  | gap => cases h
  | header key =>
    obtain rfl : Statement.table [key.toList] = statement := Option.some.inj h
    exact ⟨_, _, rfl, rfl, rfl⟩
  | assign key value =>
    obtain rfl : Statement.assign [key.toList] value.written = statement := Option.some.inj h
    refine ⟨.word key.toList, .blank [' '] :: .equals :: .blank [' '] ::
      (value.tokens ++ .lineBreak ['\n'] :: rest), by simp [Part.tokens], rfl, ?_⟩
    -- the key and the sign are read by evaluation, the value by its own lemma
    have hvalue := value.value?_tokens 79 (.lineBreak ['\n'] :: rest)
    have hskip : skipBlank (.blank [' '] :: (value.tokens ++ .lineBreak ['\n'] :: rest)) =
        value.tokens ++ .lineBreak ['\n'] :: rest := value.skipBlank_tokens _
    show Option.map _ ((value? 80 (skipBlank _)).bind _) = _
    rw [hskip, hvalue]
    rfl

/-- Filler in front of statements does not matter. -/
theorem statementsWithin?_filler (token : Token) (h : token.isFiller = true) (fuel : Nat)
    (tokens : List Token) :
    statementsWithin? fuel (token :: tokens) = statementsWithin? fuel tokens := by
  have hskip : skipFiller (token :: tokens) = skipFiller tokens := List.dropWhile_cons_of_pos h
  rw [statementsWithin?.eq_def, statementsWithin?.eq_def fuel tokens]
  simp only [hskip]

/-- A statement with a line break behind it comes before the statements that follow. -/
theorem statementsWithin?_cons {token : Token} {tokens rest : List Token}
    {statement : WrittenStatement} (htoken : token.isFiller = false)
    (h : statement? (token :: tokens) = some (statement, .lineBreak ['\n'] :: rest)) (fuel : Nat) :
    statementsWithin? (fuel + 1) (token :: tokens) =
      (statementsWithin? fuel rest).map (statement :: ·) := by
  have hfront : skipFiller (token :: tokens) = token :: tokens :=
    List.dropWhile_cons_of_neg (by simp [htoken])
  have hend : atLineEnd (.lineBreak ['\n'] :: rest) = true := rfl
  rw [statementsWithin?.eq_def]
  simp only [hfront, h, hend, if_true, Option.bind_eq_bind, Option.bind_some,
    statementsWithin?_filler (.lineBreak ['\n']) rfl]
  cases statementsWithin? fuel rest <;> rfl

/-- The parts of a document are read as the statements that they make. -/
theorem statementsWithin?_parts (parts : List Part) {fuel : Nat} (h : parts.length ≤ fuel) :
    statementsWithin? fuel (parts.flatMap Part.tokens) = some (parts.filterMap Part.written?) := by
  induction parts generalizing fuel with
  | nil => cases fuel <;> rfl
  | cons part parts ih =>
    obtain ⟨fuel, rfl⟩ := Nat.exists_eq_succ_of_ne_zero (Nat.ne_zero_of_lt h)
    have hlt : parts.length ≤ fuel := Nat.le_of_succ_le_succ h
    rw [List.flatMap_cons]
    cases hwritten : part.written? with
    | none =>
      -- the line break of an empty line is filler in front of the next part
      obtain rfl : part = .gap := by
        cases part with
        | gap => rfl
        | _ => cases hwritten
      rw [List.filterMap_cons_none hwritten, ← ih (Nat.le_succ_of_le hlt)]
      exact statementsWithin?_filler (.lineBreak ['\n']) rfl _ _
    | some statement =>
      obtain ⟨token, tokens, htokens, hfiller, hstatement⟩ :=
        statement?_tokens hwritten (parts.flatMap Part.tokens)
      rw [htokens, statementsWithin?_cons hfiller hstatement, ih hlt,
        List.filterMap_cons_some hwritten]
      rfl

/-- A document of parts with bare keys does not start with a byte order mark. -/
theorem dropByteOrderMark_parts {parts : List Part} (h : ∀ part ∈ parts, part.HasBareKey) :
    dropByteOrderMark ((parts.flatMap Part.tokens).flatMap Token.text) =
      (parts.flatMap Part.tokens).flatMap Token.text := by
  match parts, h with
  | [], _ | .header _ :: _, _ | .gap :: _, _ => rfl
  | .assign key value :: parts, h =>
    have hkey : IsBare key := h _ List.mem_cons_self
    obtain ⟨c, cs, hcs, hc, -⟩ := hkey.exists_cons
    have hne : c ≠ '\uFEFF' := ne_of_isBareKey hc (by decide)
    simp only [List.flatMap_cons, List.flatMap_append, Part.tokens, Token.text, hcs,
      List.cons_append]
    exact dropByteOrderMark.eq_2 _ fun _ heq => hne (List.cons_eq_cons.1 heq).1

/-- The outline of a document is what its parts say. -/
theorem outline?_parts {parts : List Part} (h : ∀ part ∈ parts, part.HasBareKey) {text : String}
    (htext : text.toList = (parts.flatMap Part.tokens).flatMap Token.text) :
    outline? text = some (parts.filterMap Part.written?) := by
  have hscan := Token.scan?_flatMap_text (allCut_parts h)
  have hlength : parts.length ≤ (parts.flatMap Part.tokens).length :=
    length_le_flatMap (by rintro (_ | _ | _) <;> simp [Part.tokens]) parts
  rw [outline?, htext, dropByteOrderMark_parts h, hscan]
  exact statementsWithin?_parts parts hlength

/-! ## From the statements to the entries -/

/-- A bare key stands for itself. -/
theorem keyOf?_bare {key : String} (h : IsBare key) : keyOf? key.toList = some key := by
  obtain ⟨c, cs, hcs, hc, -⟩ := h.exists_cons
  have hall : (!key.toList.isEmpty && key.toList.all isBareKey) = true := by
    simpa [hcs] using h.2
  rw [hcs, keyOf?.eq_3 _ (fun _ heq => ne_of_isBareKey hc (by decide) (List.cons_eq_cons.1 heq).1)
    fun _ heq => ne_of_isBareKey hc (by decide) (List.cons_eq_cons.1 heq).1, ← hcs, if_pos hall,
    String.ofList_toList]

/-- The path of a bare key is that key. -/
theorem pathOf_bare {key : String} (h : IsBare key) : pathOf [key.toList] = .ok [key] := by
  have hkeys : [key.toList].mapM keyOf? = some [key] := by simp [keyOf?_bare h]
  rw [pathOf, hkeys]
  rfl

/-- A string as it is written is read as that string. -/
theorem value_scalarOf (text : String) : (scalarOf text).value = .ok (.string text) := by
  obtain ⟨q, body, hwritten, hq, -⟩ := (quotes_quote text).first?
  have hcontent : stringContent? (quote text).toList = some text := by
    rw [stringContent?, (quotes_quote text).string?]
    simp
  simp only [isQuote, Bool.or_eq_true, beq_iff_eq] at hq
  have hscalar : scalarValue? (quote text).toList = some (.string text) := by
    rw [hwritten] at hcontent ⊢
    obtain rfl | rfl := hq <;> simp [scalarValue?, hcontent]
  rw [scalarOf, Written.value, hscalar]
  rfl

/-- Strings as they are written are read as those strings. -/
theorem values_scalarOf (texts : List String) :
    Written.values (texts.map scalarOf) = .ok (texts.map .string) := by
  induction texts with
  | nil => rfl
  | cons text texts ih =>
    rw [List.map_cons, Written.values, value_scalarOf, ih]
    rfl

/-- A value as it is written is read as that value. -/
theorem Plain.value_written (value : Plain) : value.written.value = .ok value.value := by
  cases value with
  | string text => exact value_scalarOf text
  | strings texts =>
    have hvalues := values_scalarOf texts
    rw [written, Written.value]
    exact congrArg (Except.map _) hvalues

/-- What a part with a bare key says is read as the statement that it makes. -/
theorem readStatement_written {part : Part} (h : part.HasBareKey) {written : WrittenStatement}
    (hwritten : part.written? = some written) :
    ∃ statement, part.statement? = some statement ∧ readStatement written = .ok statement := by
  cases part with
  | gap => cases hwritten
  | header key =>
    obtain rfl : Statement.table [key.toList] = written := Option.some.inj hwritten
    refine ⟨_, rfl, ?_⟩
    rw [readStatement, pathOf_bare h]
    rfl
  | assign key value =>
    obtain rfl : Statement.assign [key.toList] value.written = written := Option.some.inj hwritten
    refine ⟨_, rfl, ?_⟩
    rw [readStatement, pathOf_bare h, value.value_written]
    rfl

/-- Steps that are expected to succeed one by one are expected to succeed together. -/
theorem expect_bind {α β : Type} (a : Option α) (f : α → Option β) :
    (expect a >>= fun a => expect (f a)) = expect (a >>= f) := by
  cases a <;> rfl

/-- What the parts of a document say is read as the statements that they make. -/
theorem foldlM_read {parts : List Part} (h : ∀ part ∈ parts, part.HasBareKey) (b : Builder) :
    (parts.filterMap Part.written?).foldlM Builder.read b =
      expect ((parts.filterMap Part.statement?).foldlM Builder.add? b) := by
  induction parts generalizing b with
  | nil => rfl
  | cons part parts ih =>
    obtain ⟨hpart, hparts⟩ := List.forall_mem_cons.1 h
    cases hwritten : part.written? with
    | none =>
      have hnone : part.statement? = none := by
        cases part with
        | gap => rfl
        | _ => cases hwritten
      rw [List.filterMap_cons_none hwritten, List.filterMap_cons_none hnone, ih hparts]
    | some written =>
      obtain ⟨statement, hstatement, hread⟩ := readStatement_written hpart hwritten
      have hstep : b.read written = expect (b.add? statement) := by
        rw [Builder.read, hread]
        rfl
      rw [List.filterMap_cons_some hwritten, List.filterMap_cons_some hstatement, List.foldlM_cons,
        List.foldlM_cons, hstep, ← expect_bind]
      exact congrArg _ (funext fun b => ih hparts b)

/-- A document whose text is that of parts with bare keys is read as the entries that the
statements of the parts build. -/
theorem parse_parts {parts : List Part} (h : ∀ part ∈ parts, part.HasBareKey) {text : String}
    (htext : text.toList = (parts.flatMap Part.tokens).flatMap Token.text) {b : Builder}
    (hbuild : (parts.filterMap Part.statement?).foldlM Builder.add? .empty = some b) :
    parse text = .ok b.entries := by
  rw [parse, outline?_parts h htext]
  show (parts.filterMap Part.written?).foldlM Builder.read .empty >>= _ = _
  rw [foldlM_read h, hbuild]
  rfl

end ItemFilter.Toml
