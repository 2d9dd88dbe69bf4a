import TypedConfig.Path
import TypedConfig.Value

/-!
# The configuration store

A store holds a tree of values, addressed by paths, and comments. Only the non-empty segments of a
path matter to it, and the empty path is the whole tree. Setting a value makes maps on the way where
there are none; setting null removes. Comments stand beside the tree, each attached to a key or to
its value.
-/

namespace TypedConfig

/-! ## Trees -/

namespace Tree

/-- The value under a list of keys, if all values on the way are maps. -/
def get? : List String → Dict Value → Option Value
  | [], tree => some (.map tree)
  | [key], tree => tree.get? key
  | key :: keys, tree =>
    match tree.get? key with
    | some (.map next) => get? keys next
    | _ => none

/-- Puts a value under a list of keys. What is in the way and is no map is replaced by one. Under no
key at all, a map replaces the tree and any other value changes nothing. -/
def set : List String → Value → Dict Value → Dict Value
  | [], value, tree => (value.asMap?).getD tree
  | [key], value, tree => tree.insert key value
  | key :: keys, value, tree =>
    tree.insert key (.map (set keys value (((tree.get? key).bind Value.asMap?).getD [])))

/-- Removes what is under a list of keys; none when something on the way is no map. -/
def remove? : List String → Dict Value → Option (Dict Value)
  | [], _ => some []
  | [key], tree => some (tree.erase key)
  | key :: keys, tree =>
    match tree.get? key with
    | some (.map next) => (remove? keys next).map fun next => tree.insert key (.map next)
    | _ => none

end Tree

/-! ## Comments -/

/-- Where a comment is attached: the keys that lead to an entry, and whether it is about the key of
the entry or about its value. -/
structure CommentPlace where
  keys : List String
  onKey : Bool
deriving DecidableEq, Repr

/-- Comment lines by their places. -/
abbrev Comments := List (CommentPlace × List String)

namespace Comments

/-- The lines attached to a place. -/
def lines? (comments : Comments) (place : CommentPlace) : Option (List String) :=
  comments.lookup place

/-- Attaches lines to a place, instead of those that were there. -/
def attach (comments : Comments) (place : CommentPlace) (lines : List String) : Comments :=
  (place, lines) :: comments.filter fun entry => entry.1 ≠ place

/-- Drops all comments at or below a list of keys. -/
def dropBelow (comments : Comments) (keys : List String) : Comments :=
  comments.filter fun entry => !keys.isPrefixOf entry.1.keys

end Comments

/-! ## Stores -/

/-- Marks a key whose text holds an expression. -/
def defaultMarker : String := "$"

/-- A configuration tree with its comments. The marker ends the keys of expressions in documents. -/
structure Store where
  root : Dict Value
  comments : Comments
  marker : String

namespace Store

/-- The empty store with a marker of one's own. -/
def withMarker (marker : String) : Store :=
  ⟨[], [], marker⟩

/-- The empty store. -/
def empty : Store :=
  withMarker defaultMarker

/-- The store of a tree, without comments. -/
def ofRoot (root : Dict Value) : Store :=
  { empty with root }

/-- The value at a path; the empty path is the whole tree. -/
def get? (s : Store) (path : String) : Option Value :=
  Tree.get? (Path.segments path) s.root

/-- Something is at the path. -/
def contains (s : Store) (path : String) : Bool :=
  (s.get? path).isSome

/-- Removes the entry at a path with everything below it, comments included. Where the path leads
through something that is no map, nothing is removed. -/
def remove (s : Store) (path : String) : Store :=
  let keys := Path.segments path
  match Tree.remove? keys s.root with
  | some root => { s with root, comments := s.comments.dropBelow keys }
  | none => s

/-- Stores a value at a path; null removes what is there. -/
def set (s : Store) (path : String) (value : Value) : Store :=
  if value.isNull then s.remove path
  else { s with root := Tree.set (Path.segments path) value s.root }

/-- Attaches comment lines to the key or the value at a path, if something is there. -/
def attachComment (s : Store) (path : String) (lines : List String) (onKey : Bool) : Store :=
  if s.contains path then
    { s with comments := s.comments.attach ⟨Path.segments path, onKey⟩ lines }
  else s

/-- The comment lines attached to the key or the value at a path, if something is there. -/
def readComment? (s : Store) (path : String) (onKey : Bool) : Option (List String) :=
  if s.contains path then s.comments.lines? ⟨Path.segments path, onKey⟩ else none

end Store

end TypedConfig
