import TypedConfig.Proofs.Dict
import TypedConfig.Proofs.Later
import TypedConfig.Section

/-!
# Instances apart from the order of declarations

When mapping has ended with an instance, the instance carries the fields of its section
as they were declared. `arranged` brings these records into the order in which fields are
mapped, in the instance itself and in all instances inside of it, and leaves everything
else as it is. Two instances that are arranged alike were assigned the same values.

Nothing that values go through on their way into an instance looks at the records, so
all of it commutes with arranging them.

Main results:

* `Resolved.sameValue_arranged` / `Typed.compare_arranged` — sets and maps are ordered
  and freed of duplicates in the same way.
* `FieldType.convert_arranged` — so are values converted to the types of their fields.
* `Instance.arranged_assign` — an assignment to an arranged instance.
-/

namespace TypedConfig

/-- Declared fields in the order in which they are mapped. -/
def FieldSpec.arrange (specs : List FieldSpec) : List FieldSpec :=
  specs.filter (fun spec => spec.shape ≠ .any) ++ specs.filter (fun spec => spec.shape = .any)

mutual

/-- The value, with the records of the instances inside of it arranged. -/
def Resolved.arranged : Resolved → Resolved
  | .list items => .list (Resolved.arrangedItems items)
  | .set items => .set (Resolved.arrangedItems items)
  | .array items => .array (Resolved.arrangedItems items)
  | .map entries => .map (Resolved.arrangedEntries entries)
  | .section i => .section i.arranged
  | .scalar s => .scalar s
  | .deferred d => .deferred d
  | .raw v => .raw v
  | .custom c => .custom c
termination_by structural r => r

/-- The items of a container, arranged. -/
def Resolved.arrangedItems : List Resolved → List Resolved
  | [] => []
  | r :: rest => r.arranged :: Resolved.arrangedItems rest
termination_by structural items => items

/-- The entries of a map, arranged. -/
def Resolved.arrangedEntries : List (Resolved × Resolved) → List (Resolved × Resolved)
  | [] => []
  | (k, r) :: rest => (k.arranged, r.arranged) :: Resolved.arrangedEntries rest
termination_by structural entries => entries

/-- The value, with the records of the instances inside of it arranged. -/
def Typed.arranged : Typed → Typed
  | .list items => .list (Typed.arrangedItems items)
  | .set items => .set (Typed.arrangedItems items)
  | .array items => .array (Typed.arrangedItems items)
  | .map entries => .map (Typed.arrangedEntries entries)
  | .present value => .present value.arranged
  | .any r => .any r.arranged
  | .section i => .section i.arranged
  | .native n => .native n
  | .deferred d => .deferred d
  | .raw v => .raw v
  | .custom c => .custom c
termination_by structural t => t

/-- The items of a container, arranged. -/
def Typed.arrangedItems : List Typed → List Typed
  | [] => []
  | t :: rest => t.arranged :: Typed.arrangedItems rest
termination_by structural items => items

/-- The entries of a map, arranged. -/
def Typed.arrangedEntries : List (Typed × Typed) → List (Typed × Typed)
  | [] => []
  | (k, t) :: rest => (k.arranged, t.arranged) :: Typed.arrangedEntries rest
termination_by structural entries => entries

/-- The instance, with its own record and those of the instances inside of it arranged. -/
def Instance.arranged : Instance → Instance
  | ⟨type, assigned, completed, bases⟩ =>
    ⟨type, Instance.arrangedValues assigned, completed.map FieldSpec.arrange,
      Instance.arrangedBases bases⟩
termination_by structural i => i

/-- What was assigned, arranged. -/
def Instance.arrangedValues : List (String × Typed) → List (String × Typed)
  | [] => []
  | (field, value) :: rest => (field, value.arranged) :: Instance.arrangedValues rest
termination_by structural assigned => assigned

/-- The embedded instances, arranged. -/
def Instance.arrangedBases : List (String × Instance) → List (String × Instance)
  | [] => []
  | (base, i) :: rest => (base, i.arranged) :: Instance.arrangedBases rest
termination_by structural bases => bases

end

/-! ## Containers -/

namespace Resolved

theorem arrangedItems_eq_map (items : List Resolved) :
    arrangedItems items = items.map arranged := by
  induction items with
  | nil => rfl
  | cons r rest ih => rw [arrangedItems, ih, List.map_cons]

theorem arrangedEntries_eq_map (entries : List (Resolved × Resolved)) :
    arrangedEntries entries = entries.map (Prod.map arranged arranged) := by
  induction entries with
  | nil => rfl
  | cons entry rest ih =>
    obtain ⟨k, r⟩ := entry
    rw [arrangedEntries, ih, List.map_cons]
    rfl

theorem kind_arranged (r : Resolved) : r.arranged.kind = r.kind := by
  cases r <;> rfl

theorem elements?_arranged (r : Resolved) :
    r.arranged.elements? = r.elements?.map (List.map arranged) := by
  cases r with
  | list items | set items | array items => exact congrArg some (arrangedItems_eq_map items)
  | _ => rfl

end Resolved

namespace Typed

theorem arrangedItems_eq_map (items : List Typed) : arrangedItems items = items.map arranged := by
  induction items with
  | nil => rfl
  | cons t rest ih => rw [arrangedItems, ih, List.map_cons]

theorem arrangedEntries_eq_map (entries : List (Typed × Typed)) :
    arrangedEntries entries = entries.map (Prod.map arranged arranged) := by
  induction entries with
  | nil => rfl
  | cons entry rest ih =>
    obtain ⟨k, t⟩ := entry
    rw [arrangedEntries, ih, List.map_cons]
    rfl

end Typed

namespace Instance

theorem arrangedValues_eq_map (assigned : List (String × Typed)) :
    arrangedValues assigned = assigned.map (Prod.map id Typed.arranged) := by
  induction assigned with
  | nil => rfl
  | cons entry rest ih =>
    obtain ⟨field, value⟩ := entry
    rw [arrangedValues, ih, List.map_cons]
    rfl

theorem type_arranged (i : Instance) : i.arranged.type = i.type := by
  cases i
  rfl

theorem arrangedBases_eq_map (bases : List (String × Instance)) :
    arrangedBases bases = bases.map (Prod.map id arranged) := by
  induction bases with
  | nil => rfl
  | cons entry rest ih =>
    obtain ⟨base, i⟩ := entry
    rw [arrangedBases, ih, List.map_cons]
    rfl

end Instance

/-! ## Equality and order -/

namespace Resolved

mutual

/-- Values with different records are the same values: sections are equal to nothing. -/
theorem sameValue_arranged (a b : Resolved) : sameValue a.arranged b.arranged = sameValue a b := by
  -- only containers of the same kind are compared item by item, and sections never
  cases a with
  | list items =>
    cases b with
    | list others => exact allSame_arranged items others
    | _ => rfl
  | set items =>
    cases b with
    | set others => exact allSame_arranged items others
    | _ => rfl
  | array items =>
    cases b with
    | array others => exact allSame_arranged items others
    | _ => rfl
  | map entries =>
    cases b with
    | map others => exact allSameEntries_arranged entries others
    | _ => rfl
  -- whatever else there is has no instances inside that are looked at
  | _ => cases b <;> rfl
termination_by structural a

theorem allSame_arranged (items others : List Resolved) :
    allSame (arrangedItems items) (arrangedItems others) = allSame items others := by
  cases items with
  | nil => cases others <;> rfl
  | cons a items =>
    cases others with
    | nil => rfl
    | cons b others =>
      rw [arrangedItems, arrangedItems, allSame, allSame, sameValue_arranged a b,
        allSame_arranged items others]
termination_by structural items

theorem allSameEntries_arranged (entries others : List (Resolved × Resolved)) :
    allSameEntries (arrangedEntries entries) (arrangedEntries others) =
      allSameEntries entries others := by
  match entries, others with
  | [], [] => rfl
  | [], _ :: _ => rfl
  | (k, a) :: entries, [] => rfl
  | (k, a) :: entries, (l, b) :: others =>
    rw [arrangedEntries, arrangedEntries, allSameEntries, allSameEntries, sameValue_arranged k l,
      sameValue_arranged a b, allSameEntries_arranged entries others]
termination_by structural entries

end

end Resolved

namespace Typed

mutual

theorem compare_arranged (a b : Typed) : compare a.arranged b.arranged = compare a b := by
  -- only values of the same kind are looked into; any others compare as greater
  cases a with
  | list items =>
    cases b with
    | list others => exact compareItems_arranged items others
    | _ => rfl
  | set items =>
    cases b with
    | set others => exact compareItems_arranged items others
    | _ => rfl
  | array items =>
    cases b with
    | array others => exact compareItems_arranged items others
    | _ => rfl
  | map entries =>
    cases b with
    | map others => exact compareEntries_arranged entries others
    | _ => rfl
  | present value =>
    cases b with
    | present other => exact compare_arranged value other
    | _ => rfl
  | _ => cases b <;> rfl
termination_by structural a

theorem compareItems_arranged (items others : List Typed) :
    compareItems (arrangedItems items) (arrangedItems others) = compareItems items others := by
  match items, others with
  | [], [] => rfl
  | [], _ :: _ => rfl
  | _ :: _, [] => rfl
  | a :: items, b :: others =>
    rw [arrangedItems, arrangedItems, compareItems, compareItems, compare_arranged a b,
      compareItems_arranged items others]
termination_by structural items

theorem compareEntries_arranged (entries others : List (Typed × Typed)) :
    compareEntries (arrangedEntries entries) (arrangedEntries others) =
      compareEntries entries others := by
  match entries, others with
  | [], [] => rfl
  | [], _ :: _ => rfl
  | (k, a) :: entries, [] => rfl
  | (k, a) :: entries, (l, b) :: others =>
    rw [arrangedEntries, arrangedEntries, compareEntries, compareEntries, compare_arranged k l,
      compare_arranged a b, compareEntries_arranged entries others]
termination_by structural entries

end

end Typed

/-! ## Conversion to the types of fields -/

namespace FieldType

theorem elements_arranged (expected : String) (r : Resolved) :
    elements expected r.arranged = (elements expected r).map (List.map Resolved.arranged) := by
  unfold elements
  rw [Resolved.elements?_arranged, Resolved.kind_arranged]
  cases r.elements? <;> rfl

/-- Items that are converted alike one by one are collected alike. -/
theorem collect_arranged {α β : Type _} {f : α → Outcome β} {g : α → α} {h : β → β}
    (hItem : ∀ item, f (g item) = (f item).map h) (items : List α) :
    collect f (items.map g) = (collect f items).map (List.map h) := by
  rw [collect_map, collect_congr fun item _ => hItem item, collect_of_map]

theorem convertEntry_arranged {key value : FieldType}
    (hKey : ∀ r : Resolved, key.convert r.arranged = (key.convert r).map Typed.arranged)
    (hValue : ∀ r : Resolved, value.convert r.arranged = (value.convert r).map Typed.arranged)
    (entry : Resolved × Resolved) :
    convertEntry key.convert value.convert (entry.map Resolved.arranged Resolved.arranged) =
      (convertEntry key.convert value.convert entry).map
        (Prod.map Typed.arranged Typed.arranged) := by
  -- an error of the key comes before one of the value on both sides
  obtain ⟨k, r⟩ := entry
  unfold convertEntry
  dsimp only [Prod.map]
  rw [hKey, hValue]
  cases key.convert k with
  | error e => rfl
  | ok k => cases value.convert r <;> rfl

/-- A container that is made from its converted items. -/
def convertedAs (expected : String) (element : FieldType) (make : List Typed → Outcome Typed)
    (r : Resolved) : Outcome Typed :=
  elements expected r >>= fun items => collect element.convert items >>= make

theorem convert_list (element : FieldType) (r : Resolved) :
    (list element).convert r = convertedAs "list" element (fun items => .ok (.list items)) r := by
  rw [convert, convertedAs]
  cases elements "list" r with
  | error e => rfl
  | ok items =>
    show (collect element.convert items).map Typed.list = collect element.convert items >>= _
    cases collect element.convert items <;> rfl

theorem convert_set (element : FieldType) (r : Resolved) :
    (set element).convert r =
      convertedAs "set" element (fun items => .ok (.set (sortItems Typed.compare items))) r := by
  rw [convert, convertedAs]
  cases elements "set" r with
  | error e => rfl
  | ok items =>
    -- converted items are sorted at once, by a map over the outcome or by a step after it
    show (collect element.convert items).map _ = collect element.convert items >>= _
    cases collect element.convert items <;> rfl

/-- An array of a length, or the error about another one. -/
def arrayOf (length : Nat) (items : List Typed) : Outcome Typed :=
  if items.length = length then .ok (.array items)
  else
    .error (.typeMismatch ("array of " ++ String.ofList (Nat.toDigits 10 length) ++ " elements")
      (String.ofList (Nat.toDigits 10 items.length) ++ " elements"))

theorem convert_array (element : FieldType) (length : Nat) (r : Resolved) :
    (array element length).convert r = convertedAs "array" element (arrayOf length) r := by
  rw [convert, convertedAs]
  cases elements "array" r with
  | error e => rfl
  | ok items =>
    -- how many items there are is asked of the converted ones only
    show _ = collect element.convert items >>= arrayOf length
    cases hItems : collect element.convert items with
    | error e => simp only [hItems]; rfl
    | ok items => simp only [hItems]; rfl

theorem convertedAs_arranged {element : FieldType}
    (hElement : ∀ r : Resolved, element.convert r.arranged = (element.convert r).map Typed.arranged)
    {make : List Typed → Outcome Typed}
    (hMake : ∀ items, make (items.map Typed.arranged) = (make items).map Typed.arranged)
    (expected : String) (r : Resolved) :
    convertedAs expected element make r.arranged =
      (convertedAs expected element make r).map Typed.arranged := by
  -- the elements of an arranged container are the arranged ones of the container
  rw [convertedAs, convertedAs, elements_arranged]
  cases elements expected r with
  | error e => rfl
  | ok items =>
    show collect element.convert (items.map Resolved.arranged) >>= make =
      (collect element.convert items >>= make).map _
    -- converted one by one they are arranged again, and so is what is made of them
    rw [collect_arranged hElement]
    cases collect element.convert items with
    | error e => rfl
    | ok results => exact hMake results

/-- **Conversion does not look at the records of instances.** -/
theorem convert_arranged (type : FieldType) (r : Resolved) :
    type.convert r.arranged = (type.convert r).map Typed.arranged := by
  -- by the constructors of the type; only sections have records, and they are not looked into
  induction type generalizing r with
  | native type =>
    cases r with
    | scalar s =>
      show (type.ofScalar s).map Typed.native = ((type.ofScalar s).map Typed.native).map _
      cases type.ofScalar s <;> rfl
    | _ => rfl
  -- lists, sets and arrays differ in what is made of the converted items
  | list element ih =>
    rw [convert_list, convert_list]
    refine convertedAs_arranged ih (fun items => ?_) "list" r
    exact congrArg (Except.ok ∘ Typed.list) (Typed.arrangedItems_eq_map items).symm
  | set element ih =>
    rw [convert_set, convert_set]
    refine convertedAs_arranged ih (fun items => ?_) "set" r
    -- sets are put in order by a comparison that does not look at records either
    rw [sortItems_map Typed.compare_arranged]
    exact congrArg (Except.ok ∘ Typed.set) (Typed.arrangedItems_eq_map _).symm
  | map key value ihKey ihValue =>
    cases r with
    | map entries =>
      show (collect (convertEntry key.convert value.convert)
          (Resolved.arrangedEntries entries)).map _ =
        ((collect (convertEntry key.convert value.convert) entries).map _).map _
      rw [Resolved.arrangedEntries_eq_map, collect_arranged (convertEntry_arranged ihKey ihValue)]
      cases collect (convertEntry key.convert value.convert) entries with
      | error e => rfl
      | ok entries =>
        refine congrArg (Except.ok ∘ Typed.map) ?_
        rw [sortEntries_map Typed.compare_arranged]
        exact (Typed.arrangedEntries_eq_map _).symm
    | _ => rfl
  | array element length ih =>
    rw [convert_array, convert_array]
    refine convertedAs_arranged ih (fun items => ?_) "array" r
    -- an array has the same length either way, so both sides accept it or neither does
    rw [arrayOf, arrayOf, List.length_map]
    split
    · exact congrArg (Except.ok ∘ Typed.array) (Typed.arrangedItems_eq_map items).symm
    · rfl
  | optional type ih =>
    rw [convert, convert, ih]
    cases type.convert r <;> rfl
  | deferred => cases r <;> rfl
  | raw => cases r <;> rfl
  | any => rfl
  -- the name of the section decides, and that is no record
  | «section» name =>
    cases r with
    | «section» i =>
      show (if i.arranged.type = name then _ else _) = Except.map _ (if i.type = name then _ else _)
      rw [Instance.type_arranged]
      split <;> rfl
    | _ => rfl
  | custom name =>
    cases r with
    | custom c =>
      show (if c.type = name then _ else _) = Except.map _ (if c.type = name then _ else _)
      split <;> rfl
    | _ => rfl

/-- What differs in records alone is converted to what differs in records alone. -/
theorem convert_alike (type : FieldType) {r s : Resolved} (h : r.arranged = s.arranged) :
    (type.convert r).map Typed.arranged = (type.convert s).map Typed.arranged := by
  rw [← convert_arranged, ← convert_arranged, h]

end FieldType

/-! ## Assignments -/

namespace Instance

/-- **An assignment to an arranged instance** is an arranged assignment. -/
theorem arranged_assign (i : Instance) (chain : List String) (field : String) (value : Typed) :
    (i.assign chain field value).arranged = i.arranged.assign chain field value.arranged := by
  induction chain generalizing i with
  | nil =>
    obtain ⟨type, assigned, completed, bases⟩ := i
    -- the new entry is appended, and entries are arranged one by one
    have hValues : arrangedValues (assigned ++ [(field, value)]) =
        arrangedValues assigned ++ [(field, value.arranged)] := by
      rw [arrangedValues_eq_map, arrangedValues_eq_map, List.map_append]
      rfl
    exact congrArg (Instance.mk type · _ _) hValues
  | cons base chain ih =>
    obtain ⟨type, assigned, completed, bases⟩ := i
    -- the embedded instance is looked up among arranged ones, a blank one if there is none
    have hEmbedded : ((Dict.get? base bases).getD (blank base)).arranged =
        (Dict.get? base (arrangedBases bases)).getD (blank base) := by
      rw [arrangedBases_eq_map, Dict.get?_map]
      cases Dict.get? base bases <;> rfl
    -- by the induction hypothesis the assignment within it is an arranged one
    have hBases : arrangedBases (Dict.insert base
        (((Dict.get? base bases).getD (blank base)).assign chain field value) bases) =
        Dict.insert base (((Dict.get? base (arrangedBases bases)).getD (blank base)).assign chain
          field value.arranged) (arrangedBases bases) := by
      rw [arrangedBases_eq_map, ← Dict.insert_map, ih, hEmbedded, ← arrangedBases_eq_map]
    exact congrArg (Instance.mk type _ _) hBases

theorem value?_arranged (i : Instance) (field : String) :
    i.arranged.value? field = (i.value? field).map Typed.arranged := by
  obtain ⟨type, assigned, completed, bases⟩ := i
  show ((arrangedValues assigned).reverse.find? _).map Prod.snd =
    ((assigned.reverse.find? _).map Prod.snd).map _
  rw [arrangedValues_eq_map, ← List.map_reverse, List.find?_map, Option.map_map, Option.map_map]
  rfl

theorem arranged_complete {i j : Instance} (h : i.arranged = j.arranged) (type : String)
    {fields others : List FieldSpec} (hFields : FieldSpec.arrange fields = FieldSpec.arrange others) :
    (i.complete type fields).arranged = (j.complete type others).arranged := by
  obtain ⟨_, assigned, _, bases⟩ := i
  obtain ⟨_, assigned', _, bases'⟩ := j
  -- the type and the list of fields are put in place, so those from before do not count
  obtain ⟨-, hAssigned, -, hBases⟩ := Instance.mk.injEq .. |>.mp h
  show Instance.mk type (arrangedValues assigned) (some (FieldSpec.arrange fields))
    (arrangedBases bases) = _
  rw [hAssigned, hBases, hFields]
  rfl

end Instance

end TypedConfig
