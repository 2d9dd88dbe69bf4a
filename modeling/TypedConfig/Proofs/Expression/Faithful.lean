import TypedConfig.Proofs.Expression.Parsing

/-!
# Reading is faithful

A reader only puts together what its tokens are: none of them makes up a literal
or a name. So every tree that is read consists of the literals that words can
have, and together with the reading of renderings this settles what a text means:
a rendering of a tree is read as that tree and no other one, and nothing is read
that could not be written, decimals aside.

Main results:

* `Reader.Sound` and its closure under every way of building a reader.
* `parse_faithful` — both directions for whole texts.
-/

namespace TypedConfig.Syntax

/-! ## Sound readers -/

/-- All tokens are of the kinds that a text can have. -/
def AllReadable (tokens : List Token) : Prop :=
  ∀ token ∈ tokens, token.IsReadable

theorem AllReadable.tail {token : Token} {tokens : List Token} (h : AllReadable (token :: tokens)) :
    AllReadable tokens :=
  fun other hMem => h other (List.mem_cons_of_mem _ hMem)

/-- From tokens of a text the reader makes trees of readable literals and
identifiers, and leaves tokens of a text. -/
def Reader.Sound (r : Reader Node) : Prop :=
  ∀ {tokens node rest}, r tokens = some (node, rest) → AllReadable tokens →
    node.Of Value.IsPlainOrDecimal ∧ AllReadable rest

theorem chain_sound {operand : Reader Node} (hOperand : operand.Sound)
    (level : BinaryOperator → Bool) :
    ∀ {fuel : Nat} {left : Node} {tokens : List Token} {node : Node} {rest : List Token},
      chain level operand fuel left tokens = some (node, rest) → AllReadable tokens →
      left.Of Value.IsPlainOrDecimal → node.Of Value.IsPlainOrDecimal ∧ AllReadable rest := by
  intro fuel
  induction fuel with
  | zero =>
    -- without fuel the chain stops where it is
    intro left tokens node rest h hTokens hLeft
    cases h
    exact ⟨hLeft, hTokens⟩
  | succ fuel ih =>
    intro left tokens node rest h hTokens hLeft
    unfold chain at h
    split at h
    · next hFuel =>
      cases hFuel
      split at h
      · split at h
        · next hRead =>
          -- what was read so far is the left operand of what follows
          obtain ⟨hRight, hRest⟩ := hOperand hRead hTokens.tail
          exact ih h hRest (.binary _ hLeft hRight)
        · cases h
      -- an operator of another level ends the chain
      · cases h
        exact ⟨hLeft, hTokens⟩
    · cases h
      exact ⟨hLeft, hTokens⟩

theorem leftAssociative_sound {operand : Reader Node} (hOperand : operand.Sound)
    -- the first operand starts the chain, with everything behind it still to be read
    (level : BinaryOperator → Bool) : (leftAssociative level operand).Sound := by
  intro tokens node rest h hTokens
  unfold leftAssociative at h
  split at h
  · next left between hRead =>
    obtain ⟨hLeft, hBetween⟩ := hOperand hRead hTokens
    exact chain_sound hOperand level h hBetween hLeft
  · cases h

theorem nonAssociative_sound {operand : Reader Node} (hOperand : operand.Sound)
    (level : BinaryOperator → Bool) : (nonAssociative level operand).Sound := by
  intro tokens node rest h hTokens
  unfold nonAssociative at h
  split at h
  · next left op between hRead =>
    -- with an operator behind the first operand a second one is needed
    obtain ⟨hLeft, hBetween⟩ := hOperand hRead hTokens
    split at h
    · split at h
      · next right after hReadRight =>
        obtain ⟨hRight, hRest⟩ := hOperand hReadRight hBetween.tail
        cases h
        exact ⟨.binary op hLeft hRight, hRest⟩
      · cases h
    · cases h
      -- another operator ends the comparison before it
      exact ⟨hLeft, hBetween⟩
  -- no operator at all: the operand is everything
  · exact hOperand h hTokens

theorem unary_sound {operand : Reader Node} (hOperand : operand.Sound) :
    (unary operand).Sound := by
  intro tokens
  -- each operator in front takes one token
  induction tokens with
  | nil => exact fun h => hOperand h
  | cons token tokens ih =>
    intro node rest h hTokens
    unfold unary at h
    split at h
    -- both operators are read alike and wrap what the rest is read as
    · next hCons =>
      cases hCons
      obtain ⟨⟨operand, after⟩, hRead, hNode⟩ := Option.map_eq_some_iff.mp h
      cases hNode
      obtain ⟨hNode, hRest⟩ := ih hRead hTokens.tail
      exact ⟨.unary .negate hNode, hRest⟩
    · next hCons =>
      cases hCons
      obtain ⟨⟨operand, after⟩, hRead, hNode⟩ := Option.map_eq_some_iff.mp h
      cases hNode
      obtain ⟨hNode, hRest⟩ := ih hRead hTokens.tail
      exact ⟨.unary .not hNode, hRest⟩
    · exact hOperand h hTokens

theorem levels_sound {operand : Reader Node} (hOperand : operand.Sound) :
    (levels operand).Sound :=
  leftAssociative_sound (leftAssociative_sound (nonAssociative_sound (leftAssociative_sound
    (leftAssociative_sound (leftAssociative_sound (unary_sound hOperand) _) _) _) _) _) _

theorem moreItems_sound {item : Reader Node} (hItem : item.Sound) :
    ∀ {fuel : Nat} {tokens : List Token} {nodes : List Node} {rest : List Token},
      moreItems item fuel tokens = some (nodes, rest) → AllReadable tokens →
      (∀ node ∈ nodes, node.Of Value.IsPlainOrDecimal) ∧ AllReadable rest := by
  intro fuel
  induction fuel with
  | zero =>
    intro tokens nodes rest h hTokens
    unfold moreItems at h
    split at h
    · next hFuel => cases hFuel
    -- the closing bracket ends the items, with and without fuel
    · cases h
      exact ⟨nofun, hTokens.tail⟩
    · cases h
  | succ fuel ih =>
    intro tokens nodes rest h hTokens
    unfold moreItems at h
    split at h
    · next hFuel =>
      cases hFuel
      split at h
      -- a comma is followed by an item and then by further ones
      · next first between hRead =>
        obtain ⟨hFirst, hBetween⟩ := hItem hRead hTokens.tail
        obtain ⟨⟨others, after⟩, hMore, hNodes⟩ := Option.map_eq_some_iff.mp h
        cases hNodes
        obtain ⟨hOthers, hRest⟩ := ih hMore hBetween
        refine ⟨fun node hMem => ?_, hRest⟩
        rcases List.mem_cons.mp hMem with rfl | hMem
        · exact hFirst
        · exact hOthers node hMem
      · cases h
    · cases h
      exact ⟨nofun, hTokens.tail⟩
    · cases h

/-- Digits without a sign are never a negative number. -/
theorem isPlain_of_digits {digits : List Char} (h : digits.all Char.isDigit = true) :
    Value.IsPlain (.long ((Long.ofText? digits).getD 0)) := by
  cases hNumber : Long.ofText? digits with
  -- what does not fit stands for zero, and zero has no sign
  | none =>
    show (0 : Int) ≤ Int64.toInt 0
    decide
  | some n =>
    unfold Long.ofText? at hNumber
    rw [Token.splitSign_of_isDigit h] at hNumber
    dsimp only at hNumber
    split at hNumber
    · cases hNumber
    · -- no sign was split off, so the digits are not negated
      have hValue : n.toInt = (Nat.ofDigitChars 10 digits 0 : Int) :=
        Long.toInt_of_ofInt? hNumber
      show 0 ≤ n.toInt
      omega

theorem primary_sound {nested : Reader Node} (hNested : nested.Sound) :
    (primary nested).Sound := by
  intro tokens node rest h hTokens
  unfold primary at h
  split at h
  · -- a literal that is a token of its own
    cases h
    exact ⟨.literal (hTokens _ (List.mem_cons_self ..)), hTokens.tail⟩
  · -- a number out of range stands for zero here; the whole text is refused later
    cases h
    exact ⟨.literal (isPlain_of_digits (hTokens _ (List.mem_cons_self ..))), hTokens.tail⟩
  -- an identifier
  · cases h
    exact ⟨.variable (hTokens _ (List.mem_cons_self ..)), hTokens.tail⟩
  · -- a whole expression in parentheses
    split at h
    · next hRead =>
      obtain ⟨hNode, hRest⟩ := hNested hRead hTokens.tail
      cases h
      exact ⟨hNode, hRest.tail⟩
    · cases h
  · -- brackets around nothing
    cases h
    exact ⟨.list nofun, hTokens.tail.tail⟩
  · -- brackets around items: the first one, and the others behind commas
    split at h
    · next first between hRead =>
      obtain ⟨hFirst, hBetween⟩ := hNested hRead hTokens.tail
      obtain ⟨⟨others, after⟩, hMore, hNode⟩ := Option.map_eq_some_iff.mp h
      cases hNode
      obtain ⟨hOthers, hRest⟩ := moreItems_sound hNested hMore hBetween
      refine ⟨.list fun item hMem => ?_, hRest⟩
      rcases List.mem_cons.mp hMem with rfl | hMem
      · exact hFirst
      · exact hOthers item hMem
    · cases h
  · cases h

theorem expression_sound (depth : Nat) : (expression depth).Sound := by
  induction depth with
  | zero => exact nofun
  | succ depth ih => exact levels_sound (primary_sound ih)

/-- A tree that is read has plain literals, decimals and identifiers only. -/
theorem of_parse {text : String} {e : Expression} (h : Expression.parse text = .ok e) :
    e.root.Of Value.IsPlainOrDecimal := by
  unfold Expression.parse at h
  split at h
  · cases h
  -- the text has tokens, and the tokens are a tree
  · next tokens hTokens =>
    split at h
    · cases h
    · next root hRoot =>
      split at h
      · cases h
      · cases h
        -- the whole expression is read at a depth that is sound like any other
        unfold node? at hRoot
        split at hRoot
        · next hRead =>
          cases hRoot
          exact (expression_sound _ hRead (Token.isReadable_of_ofText? hTokens)).1
        · cases hRoot

/-! ## What texts mean -/

/-- **Reading implements the documented precedence and loses nothing.** A tree of
plain literals and identifiers has renderings, each of them is read as exactly
that tree, and whatever text is read, its tree has plain literals, decimals and
identifiers only. -/
theorem parse_faithful :
    (∀ node : Node, node.Of Value.IsPlain →
      (∃ text, Renders text node) ∧
        ∀ text, Renders text node → Expression.parse text = .ok ⟨text, node⟩) ∧
    ∀ text e, Expression.parse text = .ok e → e.root.Of Value.IsPlainOrDecimal :=
  ⟨fun _ hPlain => ⟨exists_renders hPlain, fun _ hRenders => parse_of_renders hRenders⟩,
    fun _ _ hParse => of_parse hParse⟩

/-- The negation of a comparison, which has to stand in parentheses. -/
def guardNode : Node :=
  .unary .not (.binary .lt (.binary .sub (.literal (.long 1)) (.literal (.long 2)))
    (.variable "x"))

theorem guardNode_isPlain : guardNode.Of Value.IsPlain :=
  .unary .not (.binary .lt
    (.binary .sub (.literal (show (0 : Int) ≤ 1 by decide)) (.literal (show (0 : Int) ≤ 2 by decide)))
    (.variable ⟨⟨'x', [], rfl, rfl, rfl⟩, by decide⟩))

theorem guardNode_renders : Renders "! ( 1 - 2\t< x )" guardNode := by
  -- the words of the difference, which stands in the parentheses without its own
  have hDifference : Written 3 (.binary .sub (.literal (.long 1)) (.literal (.long 2)))
      (["1"] ++ "-" :: ["2"]) :=
    .binary (by decide) (by decide) (.integer ⟨nofun, rfl, rfl⟩)
      (.integer ⟨nofun, rfl, rfl⟩)
  have hName : Written 3 (.variable "x") ["x"] :=
    .variable ⟨⟨'x', [], rfl, rfl, rfl⟩, by decide⟩
  -- the whole as words: the operator, and the comparison in parentheses
  have hWritten : Written 0 guardNode
      ("!" :: ("(" :: (["1"] ++ "-" :: ["2"]) ++ "<" :: ["x"]) ++ [")"]) :=
    .unary (by decide) (by decide) (.group (.binary (by decide) (by decide) hDifference hName))
  -- the gaps are spaces, but for one tab
  have hBlank : ∀ c ∈ [' '], c ∈ blanks := List.forall_mem_singleton.mpr (by decide)
  have hTab : ∀ c ∈ ['\t'], c ∈ blanks := List.forall_mem_singleton.mpr (by decide)
  refine ⟨_, [], _, hWritten, nofun, .cons "!" (List.cons_ne_nil ' ' []) hBlank
    (.cons "(" (List.cons_ne_nil ' ' []) hBlank (.cons "1" (List.cons_ne_nil ' ' []) hBlank
    (.cons "-" (List.cons_ne_nil ' ' []) hBlank (.cons "2" (List.cons_ne_nil '\t' []) hTab
    (.cons "<" (List.cons_ne_nil ' ' []) hBlank (.cons "x" (List.cons_ne_nil ' ' []) hBlank
    (.last ")" (List.forall_mem_nil _)))))))), rfl⟩

theorem guardNode_parsed :
    Renders "! ( 1 - 2\t< x )" guardNode ∧
      Expression.parse "! ( 1 - 2\t< x )" = .ok ⟨"! ( 1 - 2\t< x )", guardNode⟩ :=
  ⟨guardNode_renders, (parse_faithful.1 guardNode guardNode_isPlain).2 _ guardNode_renders⟩

end TypedConfig.Syntax
