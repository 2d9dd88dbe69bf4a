import TypedConfig.Text

/-!
# Dotted paths

A path names a place in a configuration tree by keys with dots between them. Joining two paths puts
exactly one separator between them, and a missing or blank side leaves the other one as it is. A
path is read in one of two ways: by its non-empty segments, or piece by piece with empty pieces
kept.
-/

namespace TypedConfig.Path

/-- The texts between the dots, empty ones included. -/
def splitChars : List Char → List (List Char)
  | [] => [[]]
  | c :: cs =>
    if c = '.' then [] :: splitChars cs
    else
      match splitChars cs with
      -- there is always a last piece, so this case does not occur
      | [] => [[c]]
      | piece :: pieces => (c :: piece) :: pieces

/-- The texts between the dots, empty ones included. -/
def pieces (path : String) : List String :=
  (splitChars path.toList).map String.ofList

/-- The texts between the dots that are not empty. -/
def segments (path : String) : List String :=
  (pieces path).filter (· ≠ "")

/-- The pieces a walk follows one by one: none for the empty path, and an empty piece after the last
dot does not count. -/
def steps (path : String) : List String :=
  match pieces path with
  | [piece] => if piece = "" then [] else [piece]
  | all => if all.getLast? = some "" then all.dropLast else all

/-- The last character is a separator. -/
def endsWithDot (s : String) : Bool :=
  s.toList.getLast? = some '.'

/-- The first character is a separator. -/
def startsWithDot (s : String) : Bool :=
  s.toList.head? = some '.'

/-- Joins two paths that are not blank, neither doubling nor dropping the separator. -/
def joinBoth (a b : String) : String :=
  if endsWithDot a && startsWithDot b then a ++ String.ofList (b.toList.drop 1)
  else if endsWithDot a || startsWithDot b then a ++ b
  else a ++ "." ++ b

/-- Joins two paths. A missing or blank side yields the other side unchanged. -/
def join? (a b : Option String) : String :=
  match a.filter (!Text.isBlank ·), b.filter (!Text.isBlank ·) with
  | none, none => ""
  | none, some b => b
  | some a, none => a
  | some a, some b => joinBoth a b

/-- Joins two paths. A blank side yields the other side unchanged. -/
def join (a b : String) : String :=
  join? (some a) (some b)

end TypedConfig.Path
