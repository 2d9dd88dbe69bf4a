import TypedConfig.Deferred

/-!
# Resolved and typed values

Mapping resolves a configuration value under a shape. The outcome still carries no type: it is a
scalar, a container of resolved values, an instance of a section, or a value kept as it is.
Assigning it to a field turns it into a typed value. An instance is the record of what was assigned
to the fields of a section and to those of the bases embedded in it.
-/

namespace TypedConfig

/-- A value of a custom type, as converters produce them. -/
structure Custom where
  type : String
  content : String
deriving DecidableEq, Repr

/-- What a field is declared as: its name, its shape, and its markers. -/
structure FieldSpec where
  name : String
  shape : Shape
  /-- Resolved even if its path is absent. -/
  always : Bool
  /-- Read from the path of its section instead of one of its own. -/
  inlined : Bool
  /-- Left out of mapping. -/
  ignored : Bool
deriving DecidableEq, Repr

mutual

/-- The outcome of resolving a value under a shape. -/
inductive Resolved where
  | scalar (s : Scalar)
  | list (items : List Resolved)
  | set (items : List Resolved)
  | map (entries : List (Resolved × Resolved))
  | array (items : List Resolved)
  | section (i : Instance)
  | deferred (d : Deferred)
  | raw (v : Value)
  | custom (c : Custom)

/-- A value of the type of a field. The items of a set and the keys of a map are in ascending
order. -/
inductive Typed where
  | native (n : Native)
  | list (items : List Typed)
  | set (items : List Typed)
  | array (items : List Typed)
  | map (entries : List (Typed × Typed))
  | present (value : Typed)
  | deferred (d : Deferred)
  | raw (v : Value)
  | any (r : Resolved)
  | section (i : Instance)
  | custom (c : Custom)

/-- An instance of a section: the values of its own fields in the order of their assignment, the
fields it was completed with once mapping has ended, and the instances of its bases by their
types. -/
structure Instance where
  type : String
  assigned : List (String × Typed)
  completed : Option (List FieldSpec)
  bases : List (String × Instance)

end

instance : Inhabited Resolved := ⟨.raw .null⟩
instance : Inhabited Typed := ⟨.raw .null⟩

namespace Instance

/-- An instance nothing was assigned to yet. -/
def blank (type : String) : Instance :=
  ⟨type, [], none, []⟩

/-- Assigns a value to a field, in the instance itself or in the base at the end of a chain of
bases. -/
def assign (i : Instance) (chain : List String) (field : String) (value : Typed) : Instance :=
  match chain with
  | [] => { i with assigned := i.assigned ++ [(field, value)] }
  | base :: chain =>
    let embedded := (Dict.get? base i.bases).getD (blank base)
    { i with bases := Dict.insert base (embedded.assign chain field value) i.bases }

/-- The value that was assigned last to a field of the instance itself. -/
def value? (i : Instance) (field : String) : Option Typed :=
  (i.assigned.reverse.find? fun entry => entry.1 = field).map Prod.snd

/-- Records that mapping the section of a name has ended with these fields. -/
def complete (i : Instance) (type : String) (fields : List FieldSpec) : Instance :=
  { i with type, completed := some fields }

end Instance

/-- The constructors of resolved values, by name. -/
inductive ResolvedKind where
  | scalar
  | list
  | set
  | map
  | array
  | section
  | deferred
  | raw
  | custom
deriving DecidableEq, Repr

/-- The name of a kind in messages. -/
def ResolvedKind.name : ResolvedKind → String
  | scalar => "scalar"
  | list => "list"
  | set => "set"
  | map => "map"
  | array => "array"
  | .section => "section"
  | deferred => "evaluable"
  | raw => "raw value"
  | custom => "custom value"

namespace Resolved

/-- The kind of a resolved value. -/
def kind : Resolved → ResolvedKind
  | scalar _ => .scalar
  | list _ => .list
  | set _ => .set
  | map _ => .map
  | array _ => .array
  | .section _ => .section
  | deferred _ => .deferred
  | raw _ => .raw
  | custom _ => .custom

/-- The scalar, if the value is one. -/
def asScalar? : Resolved → Option Scalar
  | scalar s => some s
  | _ => none

/-- The items of a list, a set or an array. -/
def elements? : Resolved → Option (List Resolved)
  | list items | set items | array items => some items
  | _ => none

/-- A text as a resolved value. -/
def ofText (s : String) : Resolved :=
  scalar (.string s)

mutual

/-- Structural equality. Sections, deferred and custom values are opaque and equal to nothing. -/
def sameValue : Resolved → Resolved → Bool
  | scalar a, scalar b => a.equal b
  | raw a, raw b => a.equal b
  | list a, list b => allSame a b
  | set a, set b => allSame a b
  | array a, array b => allSame a b
  | map a, map b => allSameEntries a b
  | _, _ => false
termination_by structural r => r

/-- The same items in the same order. -/
def allSame : List Resolved → List Resolved → Bool
  | [], [] => true
  | a :: as, b :: bs => sameValue a b && allSame as bs
  | _, _ => false
termination_by structural items => items

/-- The same entries in the same order. -/
def allSameEntries : List (Resolved × Resolved) → List (Resolved × Resolved) → Bool
  | [], [] => true
  | (k, a) :: as, (l, b) :: bs => sameValue k l && sameValue a b && allSameEntries as bs
  | _, _ => false
termination_by structural entries => entries

end

mutual

/-- The text of a resolved value that names its constructors. -/
def inspect : Resolved → String
  | scalar s => applied "Scalar" [s.inspect]
  | list items => applied "List" [bracketed (inspectItems items)]
  | set items => applied "Set" [bracketed (inspectItems items)]
  | map entries => applied "Map" [bracketed (inspectEntries entries)]
  | array items => applied "Array" [bracketed (inspectItems items)]
  | .section _ => applied "Section" [".."]
  | deferred d => applied "Evaluable" [d.value.inspect]
  | raw v => applied "Raw" [v.inspect]
  | custom _ => applied "Custom" [".."]
termination_by structural r => r

/-- The inspected items of a container. -/
def inspectItems : List Resolved → List String
  | [] => []
  | r :: rest => inspect r :: inspectItems rest
termination_by structural items => items

/-- The inspected entries of a map, as pairs. -/
def inspectEntries : List (Resolved × Resolved) → List String
  | [] => []
  | (k, r) :: rest => ("(" ++ commaSeparated [inspect k, inspect r] ++ ")") :: inspectEntries rest
termination_by structural entries => entries

end

end Resolved

namespace Typed

mutual

/-- The order of the values of one type: native values by their own order, containers item by item,
and everything else after what it is compared with. -/
def compare : Typed → Typed → Ordering
  | native a, native b => Native.compare a b
  | present a, present b => compare a b
  | list a, list b => compareItems a b
  | set a, set b => compareItems a b
  | array a, array b => compareItems a b
  | map a, map b => compareEntries a b
  | _, _ => .gt
termination_by structural t => t

/-- The order of two sequences by their first difference. -/
def compareItems : List Typed → List Typed → Ordering
  | [], [] => .eq
  | [], _ :: _ => .lt
  | _ :: _, [] => .gt
  | a :: as, b :: bs => (compare a b).then (compareItems as bs)
termination_by structural items => items

/-- The order of two sequences of entries by their first difference, keys before values. -/
def compareEntries : List (Typed × Typed) → List (Typed × Typed) → Ordering
  | [], [] => .eq
  | [], _ :: _ => .lt
  | _ :: _, [] => .gt
  | (k, a) :: as, (l, b) :: bs => ((compare k l).then (compare a b)).then (compareEntries as bs)
termination_by structural entries => entries

end

end Typed

end TypedConfig
