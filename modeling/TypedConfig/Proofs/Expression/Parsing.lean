import TypedConfig.Proofs.Expression.Lexing

/-!
# Reading what was written

The tokens of a rendering are read back as its tree. One statement goes through
all levels at once: reading a tree at its level stops exactly where its tokens
end, whatever follows, as long as no operator of that level or a tighter one does.
A left-associative level needs more than that of its left operand, which is only
the beginning of what the level reads: `Reads.spine` says that the level goes on
from there with the tree as the left operand so far.

Main results:

* `wordsRead_of_written` — the words of a tree are read as the tree at its level.
* `parse_of_reads` — what a text is parsed to, by its tokens.
* `parse_of_renders` — every rendering is read as its tree.
-/

namespace TypedConfig.Syntax

/-! ## Levels -/

/-- The operator is one of the level. -/
def isAt (level : Nat) (op : BinaryOperator) : Bool :=
  op.level == level

/-- The readers of the levels of binary operators, each from that of the next
tighter level. -/
def combinators : List (Reader Node → Reader Node) :=
  [leftAssociative (isAt 0), leftAssociative (isAt 1), nonAssociative (isAt 2),
    leftAssociative (isAt 3), leftAssociative (isAt 4), leftAssociative (isAt 5)]

/-- The reader of a level and the tighter ones. -/
def readerAt (primary : Reader Node) (level : Nat) : Reader Node :=
  (combinators.drop level).foldr (fun combinator tighter => combinator tighter) (unary primary)

/-- The loosest level reads whole expressions. -/
theorem levels_eq_readerAt (primary : Reader Node) : levels primary = readerAt primary 0 := by
  -- each test of the reader asks for one level
  have hOr : isOr = isAt 0 := by funext op; cases op <;> rfl
  have hAnd : isAnd = isAt 1 := by funext op; cases op <;> rfl
  have hComparison : isComparison = isAt 2 := by funext op; cases op <;> rfl
  have hConcat : isConcat = isAt 3 := by funext op; cases op <;> rfl
  have hAdditive : isAdditive = isAt 4 := by funext op; cases op <;> rfl
  have hMultiplicative : isMultiplicative = isAt 5 := by funext op; cases op <;> rfl
  rw [levels, hOr, hAnd, hComparison, hConcat, hAdditive, hMultiplicative]
  rfl

theorem readerAt_comparison (primary : Reader Node) :
    readerAt primary 2 = nonAssociative (isAt 2) (readerAt primary 3) :=
  rfl

/-- All levels but that of comparisons associate to the left. -/
theorem readerAt_left (primary : Reader Node) {level : Nat} (hLevel : level < unaryLevel)
    (hChains : level ≠ 2) :
    readerAt primary level = leftAssociative (isAt level) (readerAt primary (level + 1)) := by
  -- by the table of levels
  match level, hLevel, hChains with
  | 0, _, _ => rfl
  | 1, _, _ => rfl
  | 3, _, _ => rfl
  | 4, _, _ => rfl
  | 5, _, _ => rfl

theorem readerAt_unary (primary : Reader Node) : readerAt primary unaryLevel = unary primary :=
  rfl

/-! ## Reading one tree -/

/-- What follows does not begin with an operator of the level or a tighter one. -/
def Stops (level : Nat) (rest : List Token) : Prop :=
  ∀ op, rest.head? = some (.operator op) → op.level < level

theorem Stops.tighter {level : Nat} {rest : List Token} (h : Stops level rest) :
    Stops (level + 1) rest :=
  fun op hHead => Nat.lt_succ_of_lt (h op hHead)

theorem stops_operator {level : Nat} {op : BinaryOperator} (h : op.level < level)
    (rest : List Token) : Stops level (.operator op :: rest) := by
  intro other hHead
  cases hHead
  exact h

/-- Where a level stops, it adds no operand. -/
theorem chain_of_stops {level : Nat} {rest : List Token} (h : Stops level rest)
    (operand : Reader Node) (fuel : Nat) (left : Node) :
    chain (isAt level) operand fuel left rest = some (left, rest) := by
  unfold chain
  split
  · next op rest =>
    -- the operator is that of an outer level
    have hLevel : op.level < level := h op rfl
    rw [if_neg (by rw [isAt, beq_iff_eq]; omega)]
  · rfl

/-- The tokens are read as the tree at a level. -/
structure Reads (primary : Reader Node) (level : Nat) (node : Node) (tokens : List Token) :
    Prop where
  /-- Reading stops where the tokens end. -/
  whole : ∀ rest, Stops level rest → readerAt primary level (tokens ++ rest) = some (node, rest)
  /-- Where an operator of a left-associative level follows, the level goes on
  with the tree as its left operand, with fuel enough for all that is left. -/
  spine : level < unaryLevel → level ≠ 2 → ∀ rest, Stops (level + 1) rest →
    ∃ fuel, rest.length ≤ fuel ∧ readerAt primary level (tokens ++ rest) =
      chain (isAt level) (readerAt primary (level + 1)) fuel node rest

section
variable {primary : Reader Node} {level : Nat}

/-- At a left-associative level the spine is all there is to show. -/
theorem Reads.of_spine {node : Node} {tokens : List Token}
    (h : ∀ rest, Stops (level + 1) rest → ∃ fuel, rest.length ≤ fuel ∧
      readerAt primary level (tokens ++ rest) =
        chain (isAt level) (readerAt primary (level + 1)) fuel node rest) :
    Reads primary level node tokens where
  whole rest hStops := by
    -- the chain that is left over stops right away
    obtain ⟨fuel, -, hRead⟩ := h rest hStops.tighter
    rw [hRead, chain_of_stops hStops]
  spine _ _ := h

/-- What is read at a level is read at the next looser one as well. -/
theorem Reads.looser {node : Node} {tokens : List Token} (hLevel : level < unaryLevel)
    (h : Reads primary (level + 1) node tokens) : Reads primary level node tokens := by
  by_cases hChains : level = 2
  · -- comparisons do not chain, so there is no spine to go on from
    subst hChains
    refine ⟨fun rest hStops => ?_, fun _ hNe => absurd rfl hNe⟩
    rw [readerAt_comparison, nonAssociative, h.whole rest hStops.tighter]
    cases rest with
    -- of what follows only an operator is looked at
    | nil => rfl
    | cons token rest =>
      cases token with
      | operator op =>
        have hOperator : op.level < 2 := hStops op rfl
        dsimp only
        rw [if_neg (by rw [isAt, beq_iff_eq]; omega)]
      | _ => rfl
  · -- elsewhere the tighter reading is the left operand of an empty chain
    refine .of_spine fun rest hStops => ⟨rest.length, Nat.le_refl _, ?_⟩
    rw [readerAt_left primary hLevel hChains, leftAssociative, h.whole rest hStops]

theorem Reads.loosest {node : Node} {tokens : List Token} {tight : Nat}
    (h : Reads primary tight node tokens) (hTight : tight ≤ unaryLevel) (hLevel : level ≤ tight) :
    Reads primary level node tokens := by
  induction hLevel using Nat.decreasingInduction with
  | self => exact h
  | of_succ looser hLooser ih => exact ih.looser (by omega)

/-! ## Reading operators -/

/-- An operator of a left-associative level takes what stands before it as its
left operand. -/
theorem reads_left {op : BinaryOperator} {left right : Node} {leftTokens rightTokens : List Token}
    (hOperator : op.level = level) (hLevel : level < unaryLevel) (hChains : level ≠ 2)
    (hLeft : Reads primary level left leftTokens)
    (hRight : Reads primary (level + 1) right rightTokens) :
    Reads primary level (.binary op left right) (leftTokens ++ .operator op :: rightTokens) := by
  refine .of_spine fun rest hStops => ?_
  -- the left operand is followed by the operator, where a tighter level stops
  obtain ⟨fuel, hFuel, hRead⟩ :=
    hLeft.spine hLevel hChains (.operator op :: (rightTokens ++ rest))
      (stops_operator (by omega) _)
  rw [List.length_cons, List.length_append] at hFuel
  -- the operator itself is one round of the chain
  obtain ⟨fuel, rfl⟩ : ∃ left, fuel = left + 1 := ⟨fuel - 1, by omega⟩
  refine ⟨fuel, by omega, ?_⟩
  rw [List.append_assoc, List.cons_append, hRead, chain,
    if_pos (by rw [isAt, beq_iff_eq]; exact hOperator), hRight.whole rest hStops]

/-- A comparison takes one operand on each side, both of tighter levels. -/
theorem reads_comparison {op : BinaryOperator} {left right : Node}
    {leftTokens rightTokens : List Token} (hOperator : op.level = 2)
    (hLeft : Reads primary 3 left leftTokens) (hRight : Reads primary 3 right rightTokens) :
    Reads primary 2 (.binary op left right) (leftTokens ++ .operator op :: rightTokens) where
  whole rest hStops := by
    -- the left operand stops at the comparison
    have hFirst := hLeft.whole (.operator op :: (rightTokens ++ rest))
      (stops_operator (by omega) _)
    rw [List.append_assoc, List.cons_append, readerAt_comparison, nonAssociative, hFirst]
    dsimp only
    rw [if_pos (by rw [isAt, beq_iff_eq]; exact hOperator), hRight.whole rest hStops.tighter]
  spine _ hNe := absurd rfl hNe

theorem reads_binary {op : BinaryOperator} {left right : Node}
    {leftTokens rightTokens : List Token}
    (hLeft : Reads primary op.leftLevel left leftTokens)
    (hRight : Reads primary (op.level + 1) right rightTokens) :
    Reads primary op.level (.binary op left right)
      (leftTokens ++ .operator op :: rightTokens) := by
  unfold BinaryOperator.leftLevel at hLeft
  -- a comparison asks for tighter operands on both sides, every other operator only on the right
  split at hLeft
  · next hComparison =>
    rw [hComparison] at hRight ⊢
    exact reads_comparison hComparison hLeft hRight
  · next hChains =>
    have hLevel : op.level < unaryLevel := by cases op <;> decide
    exact reads_left rfl hLevel hChains hLeft hRight

/-- The token of a unary operator. -/
def unaryToken : UnaryOperator → Token
  | .negate => .operator .sub
  | .not => .not

theorem reads_unary (op : UnaryOperator) {operand : Node} {tokens : List Token}
    (h : Reads primary unaryLevel operand tokens) :
    Reads primary unaryLevel (.unary op operand) (unaryToken op :: tokens) where
  whole rest hStops := by
    have hOperand := h.whole rest hStops
    rw [readerAt_unary] at hOperand ⊢
    -- both unary operators are single tokens
    cases op with
    | negate => rw [unaryToken, List.cons_append, unary, hOperand]; rfl
    | not => rw [unaryToken, List.cons_append, unary, hOperand]; rfl
  spine hLevel := absurd hLevel (Nat.lt_irrefl _)

/-- What the reader of primary expressions reads, with no operator in front. -/
theorem reads_primary {node : Node} {first : Token} {tokens : List Token}
    (hFirst : ∀ op, first ≠ unaryToken op)
    (h : ∀ rest, primary (first :: tokens ++ rest) = some (node, rest)) :
    Reads primary unaryLevel node (first :: tokens) where
  whole rest _ := by
    -- the unary reader leaves a token to the primary one unless it is an operator
    rw [readerAt_unary, ← h rest]
    unfold unary
    split
    · next hTokens => exact absurd (List.cons.inj hTokens).1 (hFirst .negate)
    · next hTokens => exact absurd (List.cons.inj hTokens).1 (hFirst .not)
    · rfl
  spine hLevel := absurd hLevel (Nat.lt_irrefl _)

end

/-! ## Reading what was written -/

theorem expression_succ (depth : Nat) :
    expression (depth + 1) = readerAt (primary (expression depth)) 0 := by
  funext tokens
  rw [expression, levels_eq_readerAt]

/-- The words are tokens that are read as the tree at a level, by any reader that
nests as deep as there are tokens. -/
def WordsRead (level : Nat) (node : Node) (words : List String) : Prop :=
  ∃ tokens, List.Forall₂ Token.Lexes words tokens ∧
    ∀ depth, tokens.length ≤ depth → Reads (primary (expression depth)) level node tokens

theorem WordsRead.loosest {level tight : Nat} {node : Node} {words : List String}
    (h : WordsRead tight node words) (hTight : tight ≤ unaryLevel) (hLevel : level ≤ tight) :
    WordsRead level node words := by
  obtain ⟨tokens, hLexes, hReads⟩ := h
  exact ⟨tokens, hLexes, fun depth hDepth => (hReads depth hDepth).loosest hTight hLevel⟩

/-- A single word that is a primary expression by itself. -/
theorem wordsRead_atom {word : String} {token : Token} {node : Node}
    (hLexes : Token.Lexes word token) (hToken : ∀ op, token ≠ unaryToken op)
    (h : ∀ nested rest, primary nested (token :: rest) = some (node, rest)) :
    WordsRead unaryLevel node [word] :=
  ⟨[token], .cons hLexes .nil, fun _ _ => reads_primary hToken fun rest => h _ rest⟩

theorem wordsRead_unary {op : UnaryOperator} {word : String} {operand : Node}
    {words : List String} (hWord : word ∈ op.spellings)
    (hOperand : WordsRead unaryLevel operand words) :
    WordsRead unaryLevel (.unary op operand) (word :: words) := by
  obtain ⟨tokens, hLexes, hReads⟩ := hOperand
  -- the word is one token by its spelling
  have hToken : Token.Lexes word (unaryToken op) := by
    cases op with
    | negate => exact Token.lexes_operator hWord
    | not => exact Token.lexes_not hWord
  refine ⟨unaryToken op :: tokens, .cons hToken hLexes, fun depth hDepth => ?_⟩
  rw [List.length_cons] at hDepth
  exact reads_unary op (hReads depth (by omega))

theorem wordsRead_binary {op : BinaryOperator} {word : String} {left right : Node}
    {leftWords rightWords : List String} (hWord : word ∈ op.spellings)
    (hLeft : WordsRead op.leftLevel left leftWords)
    (hRight : WordsRead (op.level + 1) right rightWords) :
    WordsRead op.level (.binary op left right) (leftWords ++ word :: rightWords) := by
  obtain ⟨leftTokens, hLeftLexes, hLeftReads⟩ := hLeft
  obtain ⟨rightTokens, hRightLexes, hRightReads⟩ := hRight
  -- both operands have fewer tokens, so the depth is enough for each
  refine ⟨leftTokens ++ .operator op :: rightTokens,
    List.rel_append hLeftLexes (.cons (Token.lexes_operator hWord) hRightLexes),
    fun depth hDepth => ?_⟩
  rw [List.length_append, List.length_cons] at hDepth
  exact reads_binary (hLeftReads depth (by omega)) (hRightReads depth (by omega))

/-- Parentheses make a primary expression of a whole one. -/
theorem wordsRead_group {node : Node} {words : List String} (h : WordsRead 0 node words) :
    WordsRead unaryLevel node ("(" :: words ++ [")"]) := by
  obtain ⟨tokens, hLexes, hReads⟩ := h
  refine ⟨.openGroup :: (tokens ++ [.closeGroup]),
    .cons Token.lexes_openGroup (List.rel_append hLexes (.cons Token.lexes_closeGroup .nil)),
    fun depth hDepth => reads_primary (fun op => by cases op <;> nofun) fun rest => ?_⟩
  rw [List.length_cons, List.length_append] at hDepth
  -- what stands in parentheses is one level of nesting below them
  obtain ⟨depth, rfl⟩ : ∃ below, depth = below + 1 := ⟨depth - 1, by omega⟩
  have hInner := (hReads depth (by omega)).whole (.closeGroup :: rest) nofun
  rw [List.cons_append, List.append_assoc, List.singleton_append, primary, expression_succ, hInner]

/-- The items behind the first one are read up to the closing bracket. -/
theorem wordsRead_others {others : List (Node × List String)}
    (h : ∀ part ∈ others, WordsRead 0 part.1 part.2) :
    ∃ tokens, List.Forall₂ Token.Lexes ((others.map Prod.snd).flatMap ("," :: ·)) tokens ∧
      others.length ≤ tokens.length ∧
      ∀ depth fuel rest, tokens.length ≤ depth → others.length ≤ fuel →
        moreItems (expression (depth + 1)) fuel (tokens ++ .closeList :: rest) =
          some (others.map Prod.fst, rest) ∧
        Stops 0 (tokens ++ .closeList :: rest) := by
  induction others with
  | nil =>
    -- no items are left, and the bracket ends them
    refine ⟨[], .nil, Nat.le_refl _, fun depth fuel rest _ _ => ⟨?_, nofun⟩⟩
    cases fuel <;> rfl
  | cons part others ih =>
    obtain ⟨itemTokens, hItem, hReads⟩ := h part (List.mem_cons_self ..)
    obtain ⟨tokens, hLexes, hLength, hMore⟩ :=
      ih fun other hMem => h other (List.mem_cons_of_mem _ hMem)
    refine ⟨.comma :: itemTokens ++ tokens, ?_, ?_, fun depth fuel rest hDepth hFuel => ⟨?_, nofun⟩⟩
    · exact List.rel_append (.cons Token.lexes_comma hItem) hLexes
    · rw [List.length_cons, List.cons_append, List.length_cons, List.length_append]
      omega
    -- comma and item are read in one round
    · rw [List.cons_append, List.length_cons, List.length_append] at hDepth
      rw [List.length_cons] at hFuel
      obtain ⟨fuel, rfl⟩ : ∃ left, fuel = left + 1 := ⟨fuel - 1, by omega⟩
      obtain ⟨hRest, hStops⟩ := hMore depth fuel rest (by omega) (by omega)
      -- the item stops at what follows it, a comma or the bracket
      have hFirst := (hReads depth (by omega)).whole _ hStops
      rw [← expression_succ] at hFirst
      rw [List.append_assoc, List.cons_append, moreItems, hFirst]
      dsimp only
      rw [hRest]
      rfl

/-- A closing bracket begins no item. -/
theorem expression_closeList (depth : Nat) (rest : List Token) :
    expression depth (.closeList :: rest) = none := by
  cases depth <;> rfl

theorem primary_list {depth : Nat} {first : Node} {others : List Node}
    {tokens rest left : List Token} (hFirst : expression depth tokens = some (first, rest))
    (hOthers : moreItems (expression depth) rest.length rest = some (others, left)) :
    primary (expression depth) (.openList :: tokens) = some (.list (first :: others), left) := by
  cases tokens with
  -- no bracket closes the list here, so a first item is read
  | nil => simp only [primary, hFirst, hOthers, Option.map_some]
  | cons token tokens =>
    cases token with
    | closeList =>
      -- an empty list is told apart by its next token, which no item begins with
      rw [expression_closeList] at hFirst
      cases hFirst
    | _ => simp only [primary, hFirst, hOthers, Option.map_some]

theorem wordsRead_list {parts : List (Node × List String)}
    (h : ∀ part ∈ parts, WordsRead 0 part.1 part.2) :
    WordsRead unaryLevel (.list (parts.map Prod.fst))
      ("[" :: itemWords (parts.map Prod.snd) ++ ["]"]) := by
  cases parts with
  | nil =>
    -- the empty list is two tokens
    exact ⟨[.openList, .closeList], .cons Token.lexes_openList (.cons Token.lexes_closeList .nil),
      fun depth _ => reads_primary (fun op => by cases op <;> nofun) fun rest => rfl⟩
  | cons part others =>
    obtain ⟨itemTokens, hItem, hReads⟩ := h part (List.mem_cons_self ..)
    obtain ⟨tokens, hLexes, hLength, hMore⟩ :=
      wordsRead_others fun other hMem => h other (List.mem_cons_of_mem _ hMem)
    refine ⟨.openList :: (itemTokens ++ tokens ++ [.closeList]),
      .cons Token.lexes_openList (List.rel_append (List.rel_append hItem hLexes)
        (.cons Token.lexes_closeList .nil)),
      fun depth hDepth => reads_primary (fun op => by cases op <;> nofun) fun rest => ?_⟩
    rw [List.length_cons, List.length_append, List.length_append] at hDepth
    obtain ⟨depth, rfl⟩ : ∃ below, depth = below + 1 := ⟨depth - 1, by omega⟩
    -- the reader of the other items gets all that is left as its fuel
    have hFuel : others.length ≤ (tokens ++ .closeList :: rest).length := by
      rw [List.length_append]
      omega
    obtain ⟨hRest, hStops⟩ := hMore depth (tokens ++ .closeList :: rest).length rest (by omega) hFuel
    -- the first item stops where the others begin
    have hFirst := (hReads depth (by omega)).whole _ hStops
    rw [← expression_succ] at hFirst
    rw [List.cons_append, List.append_assoc, List.append_assoc, List.singleton_append]
    exact primary_list hFirst hRest

/-- **Words that write a tree are read as it**, at the level of their position:
each word is one token, and the reader stops where the tokens end. -/
theorem wordsRead_of_written {level : Nat} {node : Node} {words : List String}
    (h : Written level node words) (hLevel : level ≤ unaryLevel) : WordsRead level node words := by
  -- every tree is read at the tightest level it is written at, and thus at all looser ones
  induction h with
  -- the literals and the identifier are one token each
  | null =>
    exact (wordsRead_atom Token.lexes_null (fun op => by cases op <;> nofun) fun _ _ =>
      rfl).loosest (Nat.le_refl _) hLevel
  | bool b =>
    exact (wordsRead_atom (Token.lexes_bool b) (fun op => by cases op <;> nofun) fun _ _ =>
      rfl).loosest (Nat.le_refl _) hLevel
  | string s =>
    exact (wordsRead_atom (Token.lexes_quoted s) (fun op => by cases op <;> nofun) fun _ _ =>
      rfl).loosest (Nat.le_refl _) hLevel
  | integer hNumeral =>
    refine (wordsRead_atom (Token.lexes_numeral hNumeral) (fun op => by cases op <;> nofun)
      fun _ _ => ?_).loosest (Nat.le_refl _) hLevel
    rw [primary, Token.ofText?_of_isNumeral hNumeral]
    rfl
  | «variable» hName =>
    exact (wordsRead_atom (Token.lexes_identifier hName) (fun op => by cases op <;> nofun)
      fun _ _ => rfl).loosest (Nat.le_refl _) hLevel
  | list _ ih =>
    exact (wordsRead_list fun part hMem => ih part hMem (Nat.zero_le _)).loosest
      (Nat.le_refl _) hLevel
  | unary hAllowed hWord _ ih =>
    exact (wordsRead_unary hWord (ih (Nat.le_refl _))).loosest (Nat.le_refl _) hAllowed
  | @binary level op _ _ _ _ _ hAllowed hWord _ _ ihLeft ihRight =>
    -- every operator is looser than the unary ones, and so are its operands
    have hOperator : op.level < unaryLevel := by cases op <;> decide
    have hOperand : op.leftLevel ≤ unaryLevel := by cases op <;> decide
    exact (wordsRead_binary hWord (ihLeft hOperand) (ihRight hOperator)).loosest
      (Nat.le_of_lt hOperator) hAllowed
  | group _ ih =>
    exact (wordsRead_group (ih (Nat.zero_le _))).loosest (Nat.le_refl _) hLevel

/-- The whole numbers among the tokens of words are in range. -/
theorem outOfRange?_eq_none {words : List String} {tokens : List Token}
    (h : List.Forall₂ Token.Lexes words tokens) : outOfRange? tokens = none := by
  induction h with
  | nil => rfl
  | @cons word token words tokens hToken _ ih =>
    -- the first number out of range is searched from the front
    rw [outOfRange?, List.findSome?_cons]
    split
    · next found hFound =>
      -- only a number that is out of range would be found here
      split at hFound
      · next digits =>
        have hFits := hToken.inRange rfl
        split at hFound
        · next hNone =>
          rw [Option.isNone_iff_eq_none] at hNone
          rw [hNone] at hFits
          cases hFits
        · cases hFound
      · cases hFound
    · exact ih

/-- A text whose tokens are read as a tree is that tree, unless a number in it is out of
range. -/
theorem parse_of_reads {text : String} {node : Node} {tokens : List Token}
    (hTokens : Token.ofText? text = some tokens)
    (hReads : Reads (primary (expression tokens.length)) 0 node tokens) :
    Expression.parse text =
      match outOfRange? tokens with
      | some digits => .error (.expression (.integerOutOfRange (String.ofList digits)))
      | none => .ok ⟨text, node⟩ := by
  have hNode : node? tokens = some node := by
    -- nothing follows, so the loosest level stops at the end
    have hWhole := hReads.whole [] nofun
    rw [List.append_nil, ← expression_succ] at hWhole
    rw [node?, hWhole]
  -- the range is checked after the tree was read
  cases hRange : outOfRange? tokens with
  | some digits => simp only [Expression.parse, hTokens, hNode, hRange]
  | none => simp only [Expression.parse, hTokens, hNode, hRange]

/-- The whole text of a rendering is read as its tree. -/
theorem parse_of_renders {text : String} {node : Node} (h : Renders text node) :
    Expression.parse text = .ok ⟨text, node⟩ := by
  obtain ⟨words, lead, cs, hWritten, hLead, hSpaced, hText⟩ := h
  obtain ⟨tokens, hLexes, hReads⟩ := wordsRead_of_written hWritten (Nat.zero_le _)
  have hTokens : Token.ofText? text = some tokens :=
    Token.ofText?_of_spaced hText hLead hSpaced hLexes
  rw [parse_of_reads hTokens (hReads tokens.length (Nat.le_refl _)), outOfRange?_eq_none hLexes]

end TypedConfig.Syntax
