import TypedConfig.Error
import TypedConfig.Store

/-!
# Resolving paths

A path is resolved either in the store or in a map that was fetched before. In a map it is walked
piece by piece: an empty piece or a blank one is an error, and something on the way that is no map
ends the walk without a value.
-/

namespace TypedConfig.Resolution

/-- Walks a map along the pieces of a path; no pieces lead to the map itself. -/
def walk (path : String) : List String → Dict Value → Outcome (Option Value)
  | [], source => .ok (some (.map source))
  | key :: keys, source =>
    if Text.isBlank key then .error (.mapping (.blankKey path))
    else
      match keys with
      | [] => .ok (source.get? key)
      | _ :: _ =>
        match source.get? key with
        | some (.map next) => walk path keys next
        | _ => .ok none

/-- The value at a path, in the source if one is given and otherwise in the store. -/
def resolve (store : Store) (path : String) (source : Option (Dict Value)) :
    Outcome (Option Value) :=
  match source with
  | none => .ok (store.get? path)
  | some source => walk path (Path.steps path) source

end TypedConfig.Resolution
