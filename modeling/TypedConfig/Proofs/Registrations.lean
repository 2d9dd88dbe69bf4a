import TypedConfig.Converter
import TypedConfig.Proofs.Sorting
import Mathlib.Data.Finset.Card

/-!
# Registrations

A converter table is filled by one registration after the other. A lookup takes the first
registration for its target that it comes across, while the newest one is at the end. So it
finds the newest only because every registration takes out an earlier one for the same target
before it goes in.

One registration more keeps targets from being there twice, and decides for its own target
alone. By induction on the calls from the last one back, the table holds exactly those
registrations that no later one replaced.

Main results:

* `ConverterTable.nodup_targets_ofList` — no target is there twice.
* `ConverterTable.mem_ofList_iff` — a table holds the latest registration for each target.
* `ConverterTable.size_ofList` — its size is the number of different targets.
* `ConverterTable.keeps_latest_registrations` — what that means for a lookup.
-/

namespace TypedConfig

/-! ## The latest registration -/

namespace Registration

/-- The registration was made, and none for the same target was made after it. -/
def IsLatestIn (r : Registration) (registrations : List Registration) : Prop :=
  ∃ before after, registrations = before ++ r :: after ∧
    ∀ later ∈ after, later.target ≠ r.target

variable {r : Registration} {registrations : List Registration}

theorem IsLatestIn.mem (h : r.IsLatestIn registrations) : r ∈ registrations := by
  obtain ⟨before, after, rfl, -⟩ := h
  exact List.mem_append_right _ (List.mem_cons_self ..)

/-- With their targets as keys, the latest registration is the last entry. -/
theorem isLatestIn_iff_isLast :
    r.IsLatestIn registrations ↔
      IsLast (registrations.map fun r => (r.target, r)) (r.target, r) := by
  constructor
  · -- both lists are split at the same place
    rintro ⟨before, after, rfl, hAfter⟩
    refine ⟨before.map _, after.map _, List.map_append, ?_⟩
    exact List.forall_mem_map.mpr hAfter
  · rintro ⟨before, after, hEntries, hAfter⟩
    -- an entry comes from a registration with its target as the key
    obtain ⟨front, back, rfl, -, hBack⟩ := List.map_eq_append_iff.mp hEntries
    obtain ⟨first, rest, rfl, hFirst, rfl⟩ := List.map_eq_cons_iff.mp hBack
    obtain rfl : first = r := congrArg Prod.snd hFirst
    exact ⟨front, rest, rfl, fun later hMem => hAfter _ (List.mem_map_of_mem hMem)⟩

/-- One more registration is the latest for its target, and does not matter to others. -/
theorem isLatestIn_append_singleton_iff {last : Registration} :
    r.IsLatestIn (registrations ++ [last]) ↔
      r = last ∨ r.target ≠ last.target ∧ r.IsLatestIn registrations := by
  have hSame : (r.target, r) = (last.target, last) ↔ r = last :=
    ⟨congrArg Prod.snd, fun h => h ▸ rfl⟩
  rw [isLatestIn_iff_isLast, isLatestIn_iff_isLast, List.map_append, List.map_singleton,
    isLast_append_singleton_iff, hSame]

/-- Of the registrations for a target there is a latest one. -/
theorem exists_isLatestIn (h : r ∈ registrations) :
    ∃ other : Registration, other.IsLatestIn registrations ∧ other.target = r.target := by
  obtain ⟨other, hLast⟩ := exists_isLast_iff.mpr
    ⟨_, List.mem_map_of_mem (f := fun r => (r.target, r)) h, rfl⟩
  obtain ⟨_, -, hEntry⟩ := List.mem_map.mp hLast.mem
  obtain ⟨hTarget, rfl⟩ := Prod.mk.inj hEntry
  exact ⟨_, isLatestIn_iff_isLast.mpr (hTarget ▸ hLast), hTarget⟩

end Registration

namespace ConverterTable

/-! ## One registration more -/

/-- The targets that a converter is registered for. -/
def targets (table : ConverterTable) : List Shape :=
  table.registrations.map Registration.target

section
variable {table : ConverterTable} {new r : Registration} {shape : Shape}

theorem mem_register_iff :
    r ∈ (table.register new).registrations ↔
      r = new ∨ r.target ≠ new.target ∧ r ∈ table.registrations := by
  simp [register, or_comm, and_comm]

/-- What stays has other targets than what goes in. -/
theorem nodup_targets_register (h : table.targets.Nodup) : (table.register new).targets.Nodup := by
  rw [targets, register, List.map_append, List.map_singleton]
  refine List.nodup_append.mpr ⟨(List.filter_sublist.map _).nodup h, List.nodup_singleton _, ?_⟩
  intro target hKept other hNew
  -- no other registration got past the filter with the target of the new one
  obtain ⟨kept, hMem, rfl⟩ := List.mem_map.mp hKept
  obtain rfl := List.mem_singleton.mp hNew
  simpa using (List.mem_filter.mp hMem).2

theorem of_find?_eq_some (h : table.find? shape = some r) :
    r ∈ table.registrations ∧ r.target = shape :=
  ⟨List.mem_of_find?_eq_some h, by simpa using List.find?_some h⟩

theorem find?_eq_none_iff :
    table.find? shape = none ↔ ∀ r ∈ table.registrations, r.target ≠ shape := by
  simp [find?]

theorem isSome_converterFor_iff :
    (table.toRegistry.converterFor shape).isSome ↔ ∃ r ∈ table.registrations, r.target = shape := by
  simp [toRegistry, find?]

end

/-! ## All of them -/

/-- The table after a list of registrations, made one after the other. -/
def ofList (registrations : List Registration) : ConverterTable :=
  registrations.foldl register empty

theorem ofList_append_singleton (registrations : List Registration) (last : Registration) :
    ofList (registrations ++ [last]) = (ofList registrations).register last :=
  List.foldl_append ..

theorem nodup_targets_ofList (registrations : List Registration) :
    (ofList registrations).targets.Nodup := by
  induction registrations using List.reverseRecOn with
  | nil => exact List.nodup_nil
  | append_singleton front last ih =>
    rw [ofList_append_singleton]
    exact nodup_targets_register ih

variable {registrations : List Registration} {r : Registration} {shape : Shape}

/-- A table holds the registrations that no later one replaced. -/
theorem mem_ofList_iff :
    r ∈ (ofList registrations).registrations ↔ r.IsLatestIn registrations := by
  induction registrations using List.reverseRecOn with
  | nil => exact iff_of_false List.not_mem_nil fun h => absurd h.mem List.not_mem_nil
  | append_singleton front last ih =>
    -- the table and the calls treat the last one alike: it puts out those of its target only
    rw [ofList_append_singleton, mem_register_iff, Registration.isLatestIn_append_singleton_iff, ih]

/-- A table holds only what was registered. -/
theorem forall_mem_ofList {P : Registration → Prop} (h : ∀ r ∈ registrations, P r) :
    ∀ r ∈ (ofList registrations).registrations, P r :=
  fun r hMem => h r (mem_ofList_iff.mp hMem).mem

/-- What was registered for a target may be replaced, but never by nothing. -/
theorem exists_mem_ofList (h : r ∈ registrations) :
    ∃ other ∈ (ofList registrations).registrations, other.target = r.target := by
  obtain ⟨other, hLatest, hTarget⟩ := Registration.exists_isLatestIn h
  exact ⟨other, mem_ofList_iff.mpr hLatest, hTarget⟩

theorem mem_targets_ofList_iff :
    shape ∈ (ofList registrations).targets ↔ shape ∈ registrations.map Registration.target := by
  constructor
  · intro hMem
    obtain ⟨r, hTable, rfl⟩ := List.mem_map.mp hMem
    exact List.mem_map_of_mem (mem_ofList_iff.mp hTable).mem
  · intro hMem
    obtain ⟨r, hRegistered, rfl⟩ := List.mem_map.mp hMem
    exact List.mem_map.mpr (exists_mem_ofList hRegistered)

/-- Replacing does not count. -/
theorem size_ofList (registrations : List Registration) :
    (ofList registrations).size = (registrations.map Registration.target).toFinset.card := by
  -- without repetitions the targets are as many as there are different ones
  have hTargets : (ofList registrations).targets.toFinset =
      (registrations.map Registration.target).toFinset := by
    ext shape
    rw [List.mem_toFinset, List.mem_toFinset, mem_targets_ofList_iff]
  calc
    (ofList registrations).size
    _ = (ofList registrations).targets.length := (List.length_map ..).symm
    _ = (ofList registrations).targets.toFinset.card :=
      (List.toFinset_card_of_nodup (nodup_targets_ofList registrations)).symm
    _ = (registrations.map Registration.target).toFinset.card := by rw [hTargets]

/-- **A table keeps one registration for each target, the latest.** However often targets were
registered, none is there twice, and the table has as many registrations as there were different
targets. Asked for a shape, it answers with the required shape and the converter of the latest
registration whose target is that shape; if there was none, it knows neither. -/
theorem keeps_latest_registrations (registrations : List Registration) :
    let table := ofList registrations
    let registry := table.toRegistry
    table.targets.Nodup ∧
      table.size = (registrations.map Registration.target).toFinset.card ∧
      ∀ shape,
        (∃ r : Registration, r.IsLatestIn registrations ∧ r.target = shape ∧
          registry.requiredFor shape = r.required ∧
          registry.converterFor shape = some r.converter) ∨
        ((∀ r ∈ registrations, r.target ≠ shape) ∧
          registry.requiredFor shape = none ∧ registry.converterFor shape = none) := by
  refine ⟨nodup_targets_ofList registrations, size_ofList registrations, fun shape => ?_⟩
  cases hFind : (ofList registrations).find? shape with
  | some r =>
    -- whichever registration is found, it is the latest for its target
    obtain ⟨hMem, hTarget⟩ := of_find?_eq_some hFind
    exact .inl ⟨r, mem_ofList_iff.mp hMem, hTarget, by simp [toRegistry, hFind]⟩
  | none =>
    refine .inr ⟨fun r hMem hTarget => ?_, by simp [toRegistry, hFind]⟩
    -- a registration for the shape would be in the table
    obtain ⟨other, hOther, hSame⟩ := exists_mem_ofList hMem
    exact find?_eq_none_iff.mp hFind other hOther (hSame.trans hTarget)

/-- Registered again, a target moves to the end. A list of it is a target of its own. -/
example (convert convert' : Converter) :
    (ofList [⟨.custom "Seconds", some (.scalar .string), convert⟩,
      ⟨.list (.custom "Seconds"), none, convert⟩,
      ⟨.custom "Seconds", none, convert'⟩]).registrations =
      [⟨.list (.custom "Seconds"), none, convert⟩, ⟨.custom "Seconds", none, convert'⟩] :=
  rfl

end ConverterTable

end TypedConfig
