import TypedConfig.Expression.Syntax
import TypedConfig.Proofs.Expression.Rendering
import Mathlib.Data.List.Find
import Mathlib.Data.List.Forall2

/-!
# Reading words

Words that are separated by blanks are read one by one: `Token.Lexes` says that a
word is one token wherever a blank or the end of the text follows it. That a blank
follows is what keeps apart symbols that begin alike, and keywords from names that
go on.

In the other direction, the tokens of any text at all are of the kinds that words
have: their names are identifiers and their whole numbers have no sign.

Main results:

* `lexes_operator`, `lexes_identifier`, `lexes_numeral`, `lexes_quoted`, … — the
  token of every word a tree may be written with.
* `ofText?_of_spaced` — the tokens of a text are those of its words.
* `isReadable_of_ofText?` — what the tokens of a text can be.
-/

namespace TypedConfig.Token

/-! ## Where a word ends -/

/-- A blank or the end of the text follows. -/
def Delimited (rest : List Char) : Prop :=
  ∀ c ∈ rest.head?, isSpace c = true

theorem isSpace_iff_mem_blanks {c : Char} : isSpace c = true ↔ c ∈ blanks := by
  simp [isSpace, blanks, or_assoc]

theorem isWordChar_of_isSpace {c : Char} (h : isSpace c = true) : isWordChar c = false := by
  simp only [isSpace_iff_mem_blanks, blanks, List.mem_cons, List.not_mem_nil, or_false] at h
  rcases h with rfl | rfl | rfl | rfl <;> rfl

theorem isWordChar_of_isDigit {c : Char} (h : c.isDigit = true) : isWordChar c = true := by
  simp [isWordChar, Char.isAlphanum, h]

theorem isDigit_of_isSpace {c : Char} (h : isSpace c = true) : c.isDigit = false := by
  rw [Bool.eq_false_iff]
  intro hDigit
  have hWord := isWordChar_of_isDigit hDigit
  rw [isWordChar_of_isSpace h] at hWord
  cases hWord

theorem isWordChar_of_isWordStart {c : Char} (h : isWordStart c = true) : isWordChar c = true := by
  rcases Bool.or_eq_true_iff.mp h with h | h
  · simp [isWordChar, Char.isAlphanum, h]
  · simp [isWordChar, h]

theorem isDigit_of_isWordStart {c : Char} (h : isWordStart c = true) : c.isDigit = false := by
  rw [Bool.eq_false_iff]
  intro hDigit
  -- the digits are a range, and neither letters nor the underscore lie in it
  have hDigitRange : 48 ≤ c.toNat ∧ c.toNat ≤ 57 := by
    have hBounds := Bool.and_eq_true_iff.mp hDigit
    exact ⟨of_decide_eq_true hBounds.1, of_decide_eq_true hBounds.2⟩
  rcases Bool.or_eq_true_iff.mp h with hAlpha | hUnderscore
  · -- letters come after all digits
    rcases Bool.or_eq_true_iff.mp hAlpha with hUpper | hLower
    · have hLow : 65 ≤ c.toNat := (of_decide_eq_true hUpper).1
      omega
    · have hLow : 97 ≤ c.toNat := of_decide_eq_true (Bool.and_eq_true_iff.mp hLower).1
      omega
  · rw [beq_iff_eq.mp hUnderscore] at hDigit
    cases hDigit

section
variable {p : Char → Bool} (hBlank : ∀ c, isSpace c = true → p c = false)
variable {word rest : List Char} (hWord : word.all p = true) (hRest : Delimited rest)
include hBlank hWord hRest

/-- A run of characters of one class ends with the word. -/
theorem takeWhile_delimited : (word ++ rest).takeWhile p = word := by
  rw [List.takeWhile_append_of_pos (List.all_eq_true.mp hWord)]
  cases rest with
  | nil => simp
  | cons c rest =>
    have hStop : p c = false := hBlank c (hRest c rfl)
    simp [hStop]

theorem dropWhile_delimited : (word ++ rest).dropWhile p = rest := by
  rw [List.dropWhile_append_of_pos (List.all_eq_true.mp hWord)]
  cases rest with
  | nil => rfl
  | cons c rest =>
    have hStop : p c = false := hBlank c (hRest c rfl)
    simp [hStop]

end

/-! ## Words that are one token -/

/-- The word is one token wherever it ends at a blank, and no number that is out
of range. -/
structure Lexes (word : String) (token : Token) : Prop where
  head : ∃ c cs, word.toList = c :: cs ∧ isSpace c = false
  scan : ∀ {rest : List Char}, Delimited rest → scan? (word.toList ++ rest) = some (token, rest)
  inRange : ∀ {digits : List Char}, token = .integer digits → (Long.ofText? digits).isSome = true

/-- A symbol without blanks does not reach past the end of a word. -/
theorem isPrefixOf_append_of_delimited {symbol : List Char}
    (hSymbol : (symbol.all fun c => !isSpace c) = true) (word : List Char) {rest : List Char}
    (hRest : Delimited rest) : symbol.isPrefixOf (word ++ rest) = symbol.isPrefixOf word := by
  induction symbol generalizing word with
  | nil => rfl
  | cons s symbol ih =>
    rw [List.all_cons, Bool.and_eq_true, Bool.not_eq_true'] at hSymbol
    cases word with
    | nil =>
      -- the word ended before the symbol did
      cases rest with
      | nil => rfl
      | cons c rest =>
        have hSpace : isSpace c = true := hRest c rfl
        have hNe : s ≠ c := by
          -- the symbol has no blank and the word ends at one
          rintro rfl
          rw [hSymbol.1] at hSpace
          cases hSpace
        simp [List.isPrefixOf, hNe]
    -- character by character, as long as both have one
    | cons c word =>
      rw [List.cons_append, List.isPrefixOf, List.isPrefixOf, ih hSymbol.2]

theorem find?_symbols_append (word : List Char) {rest : List Char} (hRest : Delimited rest) :
    (symbols.find? fun symbol => symbol.1.isPrefixOf (word ++ rest)) =
      symbols.find? fun symbol => symbol.1.isPrefixOf word := by
  have hBlanks : ∀ symbol ∈ symbols, (symbol.1.all fun c => !isSpace c) = true :=
    List.all_eq_true.mp rfl
  exact List.find?_congr fun symbol hMem =>
    isPrefixOf_append_of_delimited (hBlanks symbol hMem) word hRest

/-- A word that is a symbol is the token of that symbol: a longer one would reach
into the blank. -/
theorem lexes_symbol {word : String} {token : Token}
    (hFind : (symbols.find? fun symbol => symbol.1.isPrefixOf word.toList) =
      some (word.toList, token))
    (hHead : ∃ c cs, word.toList = c :: cs ∧ isSpace c = false)
    (hToken : ∀ digits, token ≠ .integer digits) : Lexes word token where
  head := hHead
  scan hRest := by
    unfold scan?
    -- looking among the symbols, the blank behind the word does not matter
    rw [find?_symbols_append _ hRest, hFind]
    simp
  inRange h := absurd h (hToken _)

/-- No symbol begins with a quote or a character of words. -/
theorem find?_symbols_eq_none {c : Char} (h : c = '"' ∨ isWordChar c = true) (cs : List Char) :
    (symbols.find? fun symbol => symbol.1.isPrefixOf (c :: cs)) = none := by
  -- a test over the table: every symbol starts with a character of its own
  have hHeads : ∀ symbol ∈ symbols,
      (symbol.1.head?.any fun head => head != '"' && !isWordChar head) = true :=
    List.all_eq_true.mp rfl
  rw [List.find?_eq_none]
  intro symbol hMem hPrefix
  obtain ⟨head, hHead, hOther⟩ := (Option.any_eq_true _ _).mp (hHeads symbol hMem)
  obtain ⟨tail, hSymbol⟩ := List.head?_eq_some_iff.mp hHead
  -- a symbol in front of the text would begin with its first character
  rw [hSymbol, List.isPrefixOf, Bool.and_eq_true, beq_iff_eq] at hPrefix
  rw [hPrefix.1, Bool.and_eq_true, bne_iff_ne, Bool.not_eq_true'] at hOther
  rcases h with h | h
  · exact hOther.1 h
  · rw [hOther.2] at h
    cases h

/-- A word of word characters is read as a whole. -/
theorem lexes_word {word : String} {c : Char} {cs : List Char} (hChars : word.toList = c :: cs)
    (hStart : isWordStart c = true) (hRest : cs.all isWordChar = true)
    (hToken : ∀ digits, ofWord word.toList ≠ .integer digits) :
    Lexes word (ofWord word.toList) where
  head := by
    refine ⟨c, cs, hChars, ?_⟩
    rw [Bool.eq_false_iff]
    -- a blank is no word character
    intro hSpace
    have hWord := isWordChar_of_isWordStart hStart
    rw [isWordChar_of_isSpace hSpace] at hWord
    cases hWord
  scan {rest} hDelimited := by
    have hWord : word.toList.all isWordChar = true := by
      rw [hChars, List.all_cons, isWordChar_of_isWordStart hStart, hRest]
      rfl
    -- the word is taken whole, since a blank or the end follows it
    have hTake := takeWhile_delimited (fun _ => isWordChar_of_isSpace) hWord hDelimited
    have hDrop := dropWhile_delimited (fun _ => isWordChar_of_isSpace) hWord hDelimited
    have hQuote : c ≠ '"' := by
      rintro rfl
      cases hStart
    have hDigit : c.isDigit = false := isDigit_of_isWordStart hStart
    -- neither a symbol, nor a quote, nor a digit begins the word
    unfold scan?
    rw [hChars, List.cons_append] at hTake hDrop ⊢
    rw [find?_symbols_eq_none (.inr (isWordChar_of_isWordStart hStart))]
    simp [hQuote, hDigit, hStart, hTake, hDrop]
  inRange h := absurd h (hToken _)

/-! ## The words of trees -/

theorem lexes_null : Lexes "null" (.literal .null) :=
  lexes_word rfl rfl rfl nofun

theorem lexes_bool (b : Bool) : Lexes (if b then "true" else "false") (.literal (.bool b)) := by
  cases b with
  | true =>
    show Lexes "true" _
    exact lexes_word rfl rfl rfl nofun
  | false =>
    show Lexes "false" _
    exact lexes_word rfl rfl rfl nofun

/-- Every spelling of an operator is the operator. -/
theorem lexes_operator {op : BinaryOperator} {word : String} (h : word ∈ op.spellings) :
    Lexes word (.operator op) := by
  cases op with
  -- the two connectives have a word and a symbol each
  | or =>
    rcases List.mem_cons.mp h with rfl | h
    · exact lexes_word rfl rfl rfl nofun
    · rw [List.mem_singleton.mp h]
      exact lexes_symbol rfl ⟨_, _, rfl, rfl⟩ nofun
  | and =>
    rcases List.mem_cons.mp h with rfl | h
    · exact lexes_word rfl rfl rfl nofun
    · rw [List.mem_singleton.mp h]
      exact lexes_symbol rfl ⟨_, _, rfl, rfl⟩ nofun
  -- every other operator is a symbol
  | _ =>
    rw [List.mem_singleton.mp h]
    exact lexes_symbol rfl ⟨_, _, rfl, rfl⟩ nofun

theorem lexes_not {word : String} (h : word ∈ UnaryOperator.not.spellings) : Lexes word .not := by
  rcases List.mem_cons.mp h with rfl | h
  · exact lexes_word rfl rfl rfl nofun
  · rw [List.mem_singleton.mp h]
    exact lexes_symbol rfl ⟨_, _, rfl, rfl⟩ nofun

theorem lexes_openGroup : Lexes "(" .openGroup :=
  lexes_symbol rfl ⟨_, _, rfl, rfl⟩ nofun

theorem lexes_closeGroup : Lexes ")" .closeGroup :=
  lexes_symbol rfl ⟨_, _, rfl, rfl⟩ nofun

theorem lexes_openList : Lexes "[" .openList :=
  lexes_symbol rfl ⟨_, _, rfl, rfl⟩ nofun

theorem lexes_closeList : Lexes "]" .closeList :=
  lexes_symbol rfl ⟨_, _, rfl, rfl⟩ nofun

theorem lexes_comma : Lexes "," .comma :=
  lexes_symbol rfl ⟨_, _, rfl, rfl⟩ nofun

/-- A word that is no keyword is a name. -/
theorem ofWord_of_not_mem_keywords {name : String} (h : name ∉ keywords) :
    ofWord name.toList = .name name := by
  unfold ofWord
  rw [String.ofList_toList]
  split
  all_goals first | rfl | exact absurd (by decide) h

theorem lexes_identifier {name : String} (h : IsIdentifier name) : Lexes name (.name name) := by
  obtain ⟨⟨first, rest, hChars, hFirst, hRest⟩, hKeyword⟩ := h
  have hToken : ofWord name.toList = .name name := ofWord_of_not_mem_keywords hKeyword
  rw [← hToken]
  refine lexes_word hChars hFirst hRest ?_
  rw [hToken]
  exact nofun

/-- Digits have no sign in front of them. -/
theorem splitSign_of_isDigit {digits : List Char} (hDigits : digits.all Char.isDigit = true) :
    Long.splitSign digits = (false, digits) := by
  unfold Long.splitSign
  split
  · cases hDigits
  · cases hDigits
  · rfl

/-- Digits alone are the text of the number they denote. -/
theorem ofText?_of_isNumeral {word : String} {n : Long} (h : IsNumeral word n) :
    Long.ofText? word.toList = some n := by
  obtain ⟨hNonempty, hDigits, hValue⟩ := h
  have hEmpty : word.toList.isEmpty = false := List.isEmpty_eq_false_iff.mpr hNonempty
  unfold Long.ofText?
  rw [splitSign_of_isDigit hDigits]
  simp only [hEmpty, hDigits, Bool.not_true, Bool.or_self, Bool.false_eq_true, if_false]
  rw [hValue, Long.ofInt?_toInt]

/-- A run of digits is one token, also where it is out of range. -/
theorem scan?_digits {digits rest : List Char} (hNonempty : digits ≠ [])
    (hDigits : digits.all Char.isDigit = true) (hRest : Delimited rest) :
    scan? (digits ++ rest) = some (.integer digits, rest) := by
  obtain ⟨c, cs, hChars⟩ := List.exists_cons_of_ne_nil hNonempty
  have hFirst : c.isDigit = true :=
    List.all_eq_true.mp hDigits c (hChars ▸ List.mem_cons_self ..)
  -- the run ends with the digits, since what follows is no digit
  have hTake := takeWhile_delimited (fun _ => isDigit_of_isSpace) hDigits hRest
  have hDrop := dropWhile_delimited (fun _ => isDigit_of_isSpace) hDigits hRest
  -- the tests in front of the one for digits fail
  have hQuote : c ≠ '"' := by
    rintro rfl
    cases hFirst
  have hNumber : scanNumber (digits ++ rest) = (.integer digits, rest) := by
    unfold scanNumber
    rw [hTake, hDrop]
    dsimp only
    split
    · next afterPoint =>
      -- a point is no blank, so no fraction follows
      have hSpace : isSpace '.' = true := hRest '.' rfl
      cases hSpace
    · rfl
  unfold scan?
  rw [hChars, List.cons_append] at hNumber ⊢
  rw [find?_symbols_eq_none (.inr (isWordChar_of_isDigit hFirst))]
  simp [hQuote, hFirst, hNumber]

theorem isSpace_of_isDigit {c : Char} (h : c.isDigit = true) : isSpace c = false := by
  rw [Bool.eq_false_iff]
  intro hSpace
  rw [isDigit_of_isSpace hSpace] at h
  cases h

theorem lexes_numeral {word : String} {n : Long} (h : IsNumeral word n) :
    Lexes word (.integer word.toList) := by
  obtain ⟨hNonempty, hDigits, -⟩ := id h
  obtain ⟨c, cs, hChars⟩ := List.exists_cons_of_ne_nil hNonempty
  have hFirst : c.isDigit = true :=
    List.all_eq_true.mp hDigits c (hChars ▸ List.mem_cons_self ..)
  refine ⟨⟨c, cs, hChars, isSpace_of_isDigit hFirst⟩, scan?_digits hNonempty hDigits, ?_⟩
  intro digits hToken
  -- the numeral is in range, so its number is found again
  cases hToken
  rw [ofText?_of_isNumeral h]
  rfl

/-- Reading a quoted text undoes the escapes, up to the closing quote. -/
theorem scanText?_escaped (chars rest : List Char) :
    scanText? (chars.flatMap escapeChar ++ '"' :: rest) = some (chars, rest) := by
  induction chars with
  | nil => rfl
  | cons c chars ih =>
    rw [List.flatMap_cons, List.append_assoc]
    by_cases hQuote : c = '"'
    · -- an escaped quote does not end the text
      have hEscape : escapeChar '"' = ['\\', '"'] := rfl
      rw [hQuote, hEscape]
      simp [scanText?, ih, unescape]
    · -- a backslash is escaped likewise, and any other character stands for itself
      by_cases hBackslash : c = '\\'
      · have hEscape : escapeChar '\\' = ['\\', '\\'] := rfl
        rw [hBackslash, hEscape]
        simp [scanText?, ih, unescape]
      · have hEscape : escapeChar c = [c] := by
          rw [escapeChar, if_neg hQuote, if_neg hBackslash]
        simp [hEscape, scanText?, ih, hQuote, hBackslash]

theorem lexes_quoted (s : String) : Lexes (quoted s) (.literal (.string s)) := by
  have hChars : (quoted s).toList = '"' :: (s.toList.flatMap escapeChar ++ ['"']) := by
    rw [quoted, String.toList_ofList, List.cons_append]
  refine ⟨⟨_, _, hChars, rfl⟩, ?_, nofun⟩
  -- the closing quote ends the text, whatever follows
  intro rest _
  unfold scan?
  rw [hChars, List.cons_append, List.append_assoc, find?_symbols_eq_none (.inl rfl)]
  simp [scanText?_escaped]

/-! ## The words of a text -/

/-- Blanks in front make no difference. -/
theorem scanAll?_append_of_blanks {lead : List Char} (hLead : ∀ c ∈ lead, c ∈ blanks) (fuel : Nat)
    (cs : List Char) : scanAll? fuel (lead ++ cs) = scanAll? fuel cs := by
  have hDrop : (lead ++ cs).dropWhile isSpace = cs.dropWhile isSpace :=
    List.dropWhile_append_of_pos fun c hMem => isSpace_iff_mem_blanks.mpr (hLead c hMem)
  cases fuel with
  | zero => rw [scanAll?, scanAll?, hDrop]
  | succ fuel => rw [scanAll?, scanAll?, hDrop]

theorem delimited_of_blanks {gap : List Char} (hGap : ∀ c ∈ gap, c ∈ blanks) : Delimited gap :=
  fun c hHead => isSpace_iff_mem_blanks.mpr (hGap c (List.mem_of_mem_head? hHead))

/-- What is read first is the first token. -/
theorem scanAll?_of_scan? {c : Char} {cs rest : List Char} {token : Token}
    (hSpace : isSpace c = false) (hScan : scan? (c :: cs) = some (token, rest)) (fuel : Nat) :
    scanAll? (fuel + 1) (c :: cs) = (scanAll? fuel rest).map (token :: ·) := by
  rw [scanAll?, List.dropWhile_cons_of_neg (by rw [hSpace]; exact Bool.false_ne_true)]
  dsimp only
  rw [hScan]

theorem scanAll?_nil (fuel : Nat) : scanAll? fuel [] = some [] := by
  cases fuel <;> rfl

/-- One word in front of a text is its first token. -/
theorem scanAll?_of_lexes {word : String} {token : Token} (h : Lexes word token)
    {rest : List Char} (hRest : Delimited rest) (fuel : Nat) :
    scanAll? (fuel + 1) (word.toList ++ rest) = (scanAll? fuel rest).map (token :: ·) := by
  obtain ⟨c, cs, hChars, hSpace⟩ := h.head
  have hScan := h.scan hRest
  rw [hChars, List.cons_append] at hScan ⊢
  exact scanAll?_of_scan? hSpace hScan fuel

/-- Words with blanks between them are read one by one. -/
theorem scanAll?_of_spaced {words : List String} {cs : List Char} (hSpaced : Spaced words cs) :
    ∀ {tokens : List Token} {fuel : Nat}, List.Forall₂ Lexes words tokens →
      words.length ≤ fuel → scanAll? fuel cs = some tokens := by
  induction hSpaced with
  | last word hTrail =>
    intro tokens fuel hLexes hFuel
    obtain ⟨token, rest, hToken, hRest, rfl⟩ := List.forall₂_cons_left_iff.mp hLexes
    rw [List.forall₂_nil_left_iff.mp hRest]
    rw [List.length_singleton] at hFuel
    -- the word needs one unit of fuel
    obtain ⟨fuel, rfl⟩ : ∃ left, fuel = left + 1 := ⟨fuel - 1, by omega⟩
    rw [scanAll?_of_lexes hToken (delimited_of_blanks hTrail)]
    -- only blanks are left, and they are skipped without fuel
    have hEnd := scanAll?_append_of_blanks hTrail fuel []
    rw [List.append_nil, scanAll?_nil] at hEnd
    rw [hEnd]
    rfl
  | @cons word gap words cs hNonempty hGap _ ih =>
    intro tokens fuel hLexes hFuel
    obtain ⟨token, rest, hToken, hRest, rfl⟩ := List.forall₂_cons_left_iff.mp hLexes
    rw [List.length_cons] at hFuel
    obtain ⟨fuel, rfl⟩ : ∃ left, fuel = left + 1 := ⟨fuel - 1, by omega⟩
    -- the gap is not empty, so the word ends in a blank
    have hDelimited : Delimited (gap ++ cs) := by
      intro c hHead
      rw [List.head?_append_of_ne_nil _ hNonempty] at hHead
      exact delimited_of_blanks hGap c hHead
    -- after the word the gap is skipped, and the rest is a shorter text of words
    rw [List.append_assoc, scanAll?_of_lexes hToken hDelimited,
      scanAll?_append_of_blanks hGap, ih hRest (by omega)]
    rfl

theorem length_le_of_spaced {words : List String} {cs : List Char} (hSpaced : Spaced words cs) :
    ∀ {tokens : List Token}, List.Forall₂ Lexes words tokens → words.length ≤ cs.length := by
  induction hSpaced with
  | last word hTrail =>
    intro tokens hLexes
    obtain ⟨token, rest, hToken, -, -⟩ := List.forall₂_cons_left_iff.mp hLexes
    -- a word has a character at least
    obtain ⟨c, cs, hChars, -⟩ := hToken.head
    rw [List.length_singleton, List.length_append, hChars, List.length_cons]
    omega
  | cons word hNonempty hGap _ ih =>
    intro tokens hLexes
    obtain ⟨token, rest, hToken, hRest, -⟩ := List.forall₂_cons_left_iff.mp hLexes
    obtain ⟨c, cs, hChars, -⟩ := hToken.head
    have hLength := ih hRest
    rw [List.length_cons, List.length_append, List.length_append, hChars, List.length_cons]
    omega

/-- The tokens of a text are those of its words. -/
theorem ofText?_of_spaced {text : String} {words : List String} {lead cs : List Char}
    {tokens : List Token} (hText : text.toList = lead ++ cs) (hLead : ∀ c ∈ lead, c ∈ blanks)
    (hSpaced : Spaced words cs) (hLexes : List.Forall₂ Lexes words tokens) :
    ofText? text = some tokens := by
  rw [ofText?, hText, scanAll?_append_of_blanks hLead]
  refine scanAll?_of_spaced hSpaced hLexes ?_
  -- the text is long enough, since the fuel is its length
  have hLength := length_le_of_spaced hSpaced hLexes
  rw [List.length_append]
  omega

/-! ## The tokens of any text -/

/-- What a token can be that was read from a text: its literal is plain or a
decimal, its digits are digits, and its name is an identifier. -/
def IsReadable : Token → Prop
  | .literal value => value.IsPlainOrDecimal
  | .integer digits => digits.all Char.isDigit = true
  | .name n => IsIdentifier n
  | _ => True

theorem isReadable_of_mem_symbols {symbol : List Char × Token} (h : symbol ∈ symbols) :
    symbol.2.IsReadable := by
  simp only [symbols, List.mem_cons, List.not_mem_nil, or_false] at h
  repeat (rcases h with rfl | h; exact trivial)

theorem isReadable_of_scanNumber (cs : List Char) : (scanNumber cs).1.IsReadable := by
  unfold scanNumber
  dsimp only
  split
  · split
    · exact List.all_takeWhile
    · exact trivial
  · exact List.all_takeWhile

/-- A word of word characters is a keyword or an identifier. -/
theorem isReadable_ofWord {word : List Char} {c : Char} {cs : List Char} (hChars : word = c :: cs)
    (hStart : isWordStart c = true) (hRest : cs.all isWordChar = true) :
    (ofWord word).IsReadable := by
  by_cases hKeyword : String.ofList word ∈ keywords
  · -- every keyword is a token of its own
    simp only [keywords, List.mem_cons, List.not_mem_nil, or_false] at hKeyword
    unfold ofWord
    rcases hKeyword with h | h | h | h | h | h <;> rw [h] <;> exact trivial
  -- a word that is no keyword is an identifier, and it has the form of one
  · have hName := ofWord_of_not_mem_keywords hKeyword
    rw [String.toList_ofList] at hName
    rw [hName]
    refine ⟨⟨c, cs, ?_, hStart, hRest⟩, hKeyword⟩
    rw [String.toList_ofList, hChars]

theorem isReadable_of_scan? {cs : List Char} {token : Token} {rest : List Char}
    (h : scan? cs = some (token, rest)) : token.IsReadable := by
  unfold scan? at h
  split at h
  -- a symbol of the table
  · next symbol found hFind =>
    cases h
    exact isReadable_of_mem_symbols (List.mem_of_find?_eq_some hFind)
  · split at h
    · cases h
    · next c after _ =>
      -- a quoted text, a number or a word, by the first character
      split at h
      · obtain ⟨⟨text, left⟩, -, hToken⟩ := Option.map_eq_some_iff.mp h
        cases hToken
        exact trivial
      · split at h
        · have hNumber := isReadable_of_scanNumber (c :: after)
          rw [Option.some.inj h] at hNumber
          exact hNumber
        · split at h
          · next hStart =>
            cases h
            have hWord : isWordChar c = true := isWordChar_of_isWordStart hStart
            exact isReadable_ofWord (List.takeWhile_cons_of_pos hWord) hStart List.all_takeWhile
          · cases h

theorem isReadable_of_scanAll? {fuel : Nat} {cs : List Char} {tokens : List Token}
    (h : scanAll? fuel cs = some tokens) : ∀ token ∈ tokens, token.IsReadable := by
  induction fuel generalizing cs tokens with
  -- without fuel no token is read
  | zero =>
    rw [scanAll?] at h
    split at h
    · cases h
      exact nofun
    · cases h
  | succ fuel ih =>
    rw [scanAll?] at h
    split at h
    · cases h
      exact nofun
    · split at h
      · cases h
      · next first rest hScan =>
        obtain ⟨others, hOthers, rfl⟩ := Option.map_eq_some_iff.mp h
        intro token hMem
        rcases List.mem_cons.mp hMem with rfl | hMem
        · -- the first token is read here, the others from a shorter text
          exact isReadable_of_scan? hScan
        · exact ih hOthers token hMem

/-- Whatever the text, its tokens are of these kinds. -/
theorem isReadable_of_ofText? {text : String} {tokens : List Token}
    (h : ofText? text = some tokens) : ∀ token ∈ tokens, token.IsReadable :=
  isReadable_of_scanAll? h

end TypedConfig.Token
