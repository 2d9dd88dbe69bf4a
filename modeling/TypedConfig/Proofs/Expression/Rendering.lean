import TypedConfig.Expression.Token

/-!
# Renderings of expressions

What it means to write a syntax tree down, said without the reader. A tree is
first written as a sequence of words, the operators binding by level and a
subtree in parentheses wherever its position does not allow it, or wherever one
likes; the words then stand in a text with blanks between them. The relation is
loose on purpose: it leaves open how operators are spelled, how many parentheses
there are beyond those that are needed, how many zeros a number begins with, and
which blanks separate the words.

Main results:

* `Renders` — the text is a rendering of the tree.
* `exists_renders` — every tree of plain literals and identifiers has one.
-/

namespace TypedConfig

/-! ## Trees that can be written -/

/-- The words that are no names. -/
def keywords : List String :=
  ["true", "false", "null", "and", "or", "not"]

/-- A letter or an underscore, then letters, digits and underscores, and no
keyword. -/
def IsIdentifier (name : String) : Prop :=
  (∃ first rest, name.toList = first :: rest ∧ Token.isWordStart first = true ∧
    rest.all Token.isWordChar = true) ∧ name ∉ keywords

/-- Null, a truth value, a text, or a whole number from zero on. -/
def Value.IsPlain : Value → Prop
  | .null | .bool _ | .string _ => True
  | .long n => 0 ≤ n.toInt
  | _ => False

/-- A plain value or a decimal. -/
def Value.IsPlainOrDecimal : Value → Prop
  | .double _ => True
  | other => other.IsPlain

/-- All literals of the tree are of some kind, and its variables are
identifiers. -/
inductive Node.Of (Literal : Value → Prop) : Node → Prop
  | literal {value : Value} : Literal value → Of Literal (.literal value)
  | variable {name : String} : IsIdentifier name → Of Literal (.variable name)
  | list {items : List Node} : (∀ item ∈ items, Of Literal item) → Of Literal (.list items)
  | unary (op : UnaryOperator) {operand : Node} :
      Of Literal operand → Of Literal (.unary op operand)
  | binary (op : BinaryOperator) {left right : Node} :
      Of Literal left → Of Literal right → Of Literal (.binary op left right)

/-! ## Words -/

/-- The level of an operator, loosest first. -/
def BinaryOperator.level : BinaryOperator → Nat
  | or => 0
  | and => 1
  | eq | ne | lt | le | gt | ge => 2
  | concat => 3
  | add | sub => 4
  | mul | div | rem => 5

/-- The level of the unary operators, which bind tightest. -/
def unaryLevel : Nat := 6

/-- The loosest level that the left operand may have without parentheses: that of
the operator itself, unless it does not chain. -/
def BinaryOperator.leftLevel (op : BinaryOperator) : Nat :=
  if op.level = 2 then 3 else op.level

/-- The ways to write an operator. -/
def BinaryOperator.spellings : BinaryOperator → List String
  | or => ["or", "||"]
  | and => ["and", "&&"]
  | eq => ["=="]
  | ne => ["!="]
  | lt => ["<"]
  | le => ["<="]
  | gt => [">"]
  | ge => [">="]
  | concat => ["&"]
  | add => ["+"]
  | sub => ["-"]
  | mul => ["*"]
  | div => ["/"]
  | rem => ["%"]

/-- The ways to write an operator in front of its operand. -/
def UnaryOperator.spellings : UnaryOperator → List String
  | negate => ["-"]
  | not => ["not", "!"]

/-- A character of a quoted text; a quote and a backslash stand behind a
backslash. -/
def escapeChar (c : Char) : List Char :=
  if c = '"' then ['\\', '"'] else if c = '\\' then ['\\', '\\'] else [c]

/-- The text between quotes. -/
def quoted (s : String) : String :=
  String.ofList ('"' :: s.toList.flatMap escapeChar ++ ['"'])

/-- The word consists of digits and denotes the number. -/
def IsNumeral (word : String) (n : Long) : Prop :=
  word.toList ≠ [] ∧ word.toList.all Char.isDigit = true ∧
    (Nat.ofDigitChars 10 word.toList 0 : Int) = n.toInt

/-- The words of items with a comma in front of each but the first. -/
def itemWords : List (List String) → List String
  | [] => []
  | first :: others => first ++ others.flatMap ("," :: ·)

/-- The words write the tree at a position that allows operators of the level
and tighter ones; looser ones only stand there in parentheses. -/
inductive Written : Nat → Node → List String → Prop
  | null {level : Nat} : Written level (.literal .null) ["null"]
  | bool {level : Nat} (b : Bool) :
      Written level (.literal (.bool b)) [if b then "true" else "false"]
  | string {level : Nat} (s : String) : Written level (.literal (.string s)) [quoted s]
  | integer {level : Nat} {n : Long} {word : String} :
      IsNumeral word n → Written level (.literal (.long n)) [word]
  | variable {level : Nat} {name : String} :
      IsIdentifier name → Written level (.variable name) [name]
  /-- A list is given by its items, each with the words that write it. -/
  | list {level : Nat} {parts : List (Node × List String)} :
      (∀ part ∈ parts, Written 0 part.1 part.2) →
      Written level (.list (parts.map Prod.fst))
        ("[" :: itemWords (parts.map Prod.snd) ++ ["]"])
  | unary {level : Nat} {op : UnaryOperator} {word : String} {operand : Node}
      {words : List String} :
      level ≤ unaryLevel → word ∈ op.spellings → Written unaryLevel operand words →
      Written level (.unary op operand) (word :: words)
  | binary {level : Nat} {op : BinaryOperator} {word : String} {left right : Node}
      {leftWords rightWords : List String} :
      level ≤ op.level → word ∈ op.spellings → Written op.leftLevel left leftWords →
      Written (op.level + 1) right rightWords →
      Written level (.binary op left right) (leftWords ++ word :: rightWords)
  | group {level : Nat} {node : Node} {words : List String} :
      Written 0 node words → Written level node ("(" :: words ++ [")"])

/-! ## Texts -/

/-- Spaces, tabs and line breaks. -/
def blanks : List Char :=
  [' ', '\t', '\r', '\n']

/-- The characters are the words with one or more blanks behind each; behind the
last one there may be none. -/
inductive Spaced : List String → List Char → Prop
  | last (word : String) {trail : List Char} :
      (∀ c ∈ trail, c ∈ blanks) → Spaced [word] (word.toList ++ trail)
  | cons (word : String) {gap : List Char} {words : List String} {cs : List Char} :
      gap ≠ [] → (∀ c ∈ gap, c ∈ blanks) → Spaced words cs →
      Spaced (word :: words) (word.toList ++ gap ++ cs)

/-- The text is a rendering of the tree. -/
def Renders (text : String) (node : Node) : Prop :=
  ∃ words lead cs, Written 0 node words ∧ (∀ c ∈ lead, c ∈ blanks) ∧ Spaced words cs ∧
    text.toList = lead ++ cs

/-! ## Every tree has a rendering -/

theorem Written.ne_nil {level : Nat} {node : Node} {words : List String}
    (h : Written level node words) : words ≠ [] := by
  cases h <;> simp

theorem exists_spaced {words : List String} (h : words ≠ []) : ∃ cs, Spaced words cs := by
  induction words with
  | nil => exact absurd rfl h
  -- the last word needs nothing behind it
  | cons word rest ih =>
    cases rest with
    | nil => exact ⟨word.toList ++ [], .last word nofun⟩
    | cons next rest =>
      obtain ⟨cs, hSpaced⟩ := ih (List.cons_ne_nil _ _)
      -- a single space is enough
      exact ⟨word.toList ++ [' '] ++ cs,
        .cons word (List.cons_ne_nil _ _) (by simp [blanks]) hSpaced⟩

/-- The digits of a number from zero on are a numeral of it. -/
theorem isNumeral_text {n : Long} (h : 0 ≤ n.toInt) :
    IsNumeral (String.ofList (Nat.toDigits 10 n.toInt.toNat)) n := by
  refine ⟨?_, ?_, ?_⟩
  -- there is a digit, all are digits, and together they are the number
  · rw [String.toList_ofList]
    exact Nat.toDigits_ne_nil
  · rw [String.toList_ofList, List.all_eq_true]
    intro c hMem
    exact Nat.isDigit_of_mem_toDigits (by omega) (by omega) hMem
  · rw [String.toList_ofList, Nat.ofDigitChars_ten_toDigits]
    exact Int.toNat_of_nonneg h

theorem exists_parts {items : List Node} (h : ∀ item ∈ items, ∃ words, Written 0 item words) :
    ∃ parts : List (Node × List String), parts.map Prod.fst = items ∧
      ∀ part ∈ parts, Written 0 part.1 part.2 := by
  induction items with
  | nil => exact ⟨[], rfl, nofun⟩
  | cons item rest ih =>
    obtain ⟨words, hWritten⟩ := h item (List.mem_cons_self ..)
    obtain ⟨parts, hItems, hParts⟩ := ih fun other hMem => h other (List.mem_cons_of_mem _ hMem)
    refine ⟨(item, words) :: parts, by rw [List.map_cons, hItems], ?_⟩
    -- the words of the parts are those of the items, in the same order
    intro part hMem
    rcases List.mem_cons.mp hMem with rfl | hMem
    · exact hWritten
    · exact hParts part hMem

/-- A tree of plain literals can be written at every position. -/
theorem exists_written {node : Node} (h : node.Of Value.IsPlain) (level : Nat) :
    ∃ words, Written level node words := by
  induction h generalizing level with
  | @literal value hPlain =>
    cases value with
    -- the plain values are the four that have a literal
    | null => exact ⟨_, .null⟩
    | bool b => exact ⟨_, .bool b⟩
    | string s => exact ⟨_, .string s⟩
    | long n => exact ⟨_, .integer (isNumeral_text hPlain)⟩
    | _ => exact hPlain.elim
  | «variable» hName => exact ⟨_, .variable hName⟩
  | list _ ih =>
    -- the items are whole expressions
    obtain ⟨parts, rfl, hParts⟩ := exists_parts fun item hMem => ih item hMem 0
    exact ⟨_, .list hParts⟩
  | unary op _ ih =>
    obtain ⟨words, hWritten⟩ := ih unaryLevel
    -- parentheses make it fit into any position
    cases op with
    | negate => exact ⟨_, .group (.unary (Nat.zero_le _) (List.mem_cons_self ..) hWritten)⟩
    | not => exact ⟨_, .group (.unary (Nat.zero_le _) (List.mem_cons_self ..) hWritten)⟩
  | binary op _ _ ihLeft ihRight =>
    obtain ⟨leftWords, hLeft⟩ := ihLeft op.leftLevel
    obtain ⟨rightWords, hRight⟩ := ihRight (op.level + 1)
    -- any spelling of the operator will do
    obtain ⟨word, hWord⟩ : ∃ word, word ∈ op.spellings := by
      cases op <;> exact ⟨_, List.mem_cons_self ..⟩
    exact ⟨_, .group (.binary (Nat.zero_le _) hWord hLeft hRight)⟩

/-- Every tree of plain literals and identifiers has a rendering. -/
theorem exists_renders {node : Node} (h : node.Of Value.IsPlain) :
    ∃ text, Renders text node := by
  obtain ⟨words, hWritten⟩ := exists_written h 0
  obtain ⟨cs, hSpaced⟩ := exists_spaced hWritten.ne_nil
  refine ⟨String.ofList cs, words, [], cs, hWritten, by simp, hSpaced, ?_⟩
  rw [String.toList_ofList, List.nil_append]

end TypedConfig
