/-
# SourceGauge.Proofs.Coupling.FileTypes -- what is done to the types of a file

The types of a file are a list that is changed in two ways: a declaration is inserted, which
either appends it or merges it into the type of its full name (`FileTypes.insert_cases`), and a
base name is added to the type at an index.  A change at an index that keeps something of each
type keeps it of the list (`FileTypes.map_modify`); so base names change nothing else, and without
them types are only ever appended (`FileTypes.grows_insert`, `FileTypes.grows_addBase`).

An entry that is there therefore keeps its index (`FileTypes.Grows.exists_entry`).
-/
import Mathlib.Data.List.Nodup
import SourceGauge.Coupling.DeclaredType

namespace SourceGauge.Coupling

set_option autoImplicit false

namespace DeclaredType

def withoutBases (declared : DeclaredType) : DeclaredType :=
  { declared with extended := [], implemented := [] }

@[simp] theorem fullName_withoutBases (declared : DeclaredType) :
    declared.withoutBases.fullName = declared.fullName := rfl

@[simp] theorem withoutBases_merge (declared further : DeclaredType) :
    (declared.merge further).withoutBases = declared.withoutBases := rfl

@[simp] theorem withoutBases_addBase (declared : DeclaredType) (sort : BaseSort) (base : String) :
    (declared.addBase sort base).withoutBases = declared.withoutBases := by
  cases sort <;> rfl

theorem bases_addBase (declared : DeclaredType) (sort other : BaseSort) (base : String) :
    (declared.addBase sort base).bases other =
      if other = sort then addNew (declared.bases other) base else declared.bases other := by
  cases sort <;> cases other <;> rfl

/-- A type is what it is without its base names, with them. -/
theorem eq_of_bases {declared other : DeclaredType}
    (same : declared.withoutBases = other.withoutBases)
    (bases : ∀ sort, declared.bases sort = other.bases sort) : declared = other := by
  have extended : declared.extended = other.extended := bases .extended
  have implemented : declared.implemented = other.implemented := bases .implemented
  cases declared
  cases other
  simp_all [withoutBases]

end DeclaredType

namespace FileTypes

variable {types next : FileTypes} {declared : DeclaredType}

/-! ## One type at an index -/

/-- What a change of one type keeps is kept of all types. -/
theorem map_modify {β : Type} (view : DeclaredType → β) {change : DeclaredType → DeclaredType}
    (keeps : ∀ type, view (change type) = view type) (types : FileTypes) (index : Nat) :
    (types.modify index change).map view = types.map view := by
  refine List.ext_getElem? fun i => ?_
  rw [List.getElem?_map, List.getElem?_map, List.getElem?_modify]
  cases types[i]? with
  | none => rfl
  | some type =>
      by_cases here : index = i
      · simp [here, keeps]
      · simp [here]

/-- A changed type comes of one that was there. -/
theorem exists_of_mem_modify {change : DeclaredType → DeclaredType} {index : Nat}
    {type : DeclaredType} (mem : type ∈ types.modify index change) :
    ∃ old ∈ types, type = old ∨ type = change old := by
  obtain ⟨i, there⟩ := List.getElem?_of_mem mem
  rw [List.getElem?_modify] at there
  obtain ⟨old, thereOld, rfl⟩ := Option.map_eq_some_iff.mp there
  refine ⟨old, List.mem_of_getElem? thereOld, ?_⟩
  by_cases here : index = i
  · exact Or.inr (if_pos here)
  · exact Or.inl (if_neg here)

theorem modify_eq_set {change : DeclaredType → DeclaredType} {index : Nat} {old : DeclaredType}
    (there : types[index]? = some old) :
    types.modify index change = types.set index (change old) := by
  rw [List.modify_eq_set_getElem?, there]
  rfl

/-- With distinct full names, to change the type at the index of a full name is to change the type
that has it. -/
theorem modify_eq_map (distinct : (types.map DeclaredType.fullName).Nodup) {index : Nat}
    {fullName : String} (there : (types.map DeclaredType.fullName)[index]? = some fullName)
    (change : DeclaredType → DeclaredType) :
    types.modify index change =
      types.map fun type => if type.fullName = fullName then change type else type := by
  refine List.ext_getElem? fun i => ?_
  rw [List.getElem?_modify, List.getElem?_map]
  cases found : types[i]? with
  | none => rfl
  | some type =>
      have named : (types.map DeclaredType.fullName)[i]? = some type.fullName := by
        rw [List.getElem?_map, found, Option.map_some]
      have bound := (List.getElem?_eq_some_iff.mp there).1
      have sameIndex : index = i ↔ type.fullName = fullName := by
        rw [← List.getElem?_inj bound distinct, there, named, Option.some.injEq, eq_comm]
      simp [sameIndex]

/-! ## A declaration -/

/-- A declaration is merged into the type of its full name, or appended; its index is that of the
type which now has the name. -/
theorem insert_cases (types : FileTypes) (declared : DeclaredType) :
    (∃ index, (types.map DeclaredType.fullName)[index]? = some declared.fullName ∧
      types.insert declared = (types.modify index fun other => other.merge declared, index)) ∨
    (declared.fullName ∉ types.map DeclaredType.fullName ∧
      types.insert declared = (types ++ [declared], types.length)) := by
  unfold FileTypes.insert
  split
  · next index found =>
    obtain ⟨bound, named, _⟩ := List.findIdx?_eq_some_iff_getElem.mp found
    refine Or.inl ⟨index, ?_, rfl⟩
    rw [List.getElem?_map, List.getElem?_eq_getElem bound, Option.map_some]
    simpa using named
  · next new =>
    refine Or.inr ⟨fun known => ?_, rfl⟩
    obtain ⟨other, mem, same⟩ := List.mem_map.mp known
    simpa [same] using List.findIdx?_eq_none_iff.mp new other mem

theorem insert_of_not_mem (new : declared.fullName ∉ types.map DeclaredType.fullName) :
    types.insert declared = (types ++ [declared], types.length) := by
  rcases types.insert_cases declared with ⟨index, there, _⟩ | ⟨_, inserted⟩
  · exact absurd (List.mem_of_getElem? there) new
  · exact inserted

/-- With distinct full names, there is one index at which a declaration can be merged. -/
theorem insert_of_getElem? (distinct : (types.map DeclaredType.fullName).Nodup) {index : Nat}
    (there : (types.map DeclaredType.fullName)[index]? = some declared.fullName) :
    types.insert declared = (types.modify index fun other => other.merge declared, index) := by
  rcases types.insert_cases declared with ⟨found, thereFound, inserted⟩ | ⟨new, _⟩
  · have bound := (List.getElem?_eq_some_iff.mp there).1
    have same : index = found :=
      (List.getElem?_inj bound distinct).mp (there.trans thereFound.symm)
    rw [inserted, same]
  · exact absurd (List.mem_of_getElem? there) new

/-- The index that inserting a declaration tells is that of the type with its full name. -/
theorem getElem?_insert (types : FileTypes) (declared : DeclaredType) :
    ((types.insert declared).1.map DeclaredType.fullName)[(types.insert declared).2]? =
      some declared.fullName := by
  rcases types.insert_cases declared with ⟨index, there, inserted⟩ | ⟨_, inserted⟩
  · have keeps : ∀ other : DeclaredType, (other.merge declared).fullName = other.fullName :=
      fun _ => rfl
    rw [inserted, map_modify DeclaredType.fullName keeps, there]
  · simp [inserted]

/-! ## Types only come after others -/

/-- Without base names, the types are the first ones of further types. -/
def Grows (types next : FileTypes) : Prop :=
  types.map DeclaredType.withoutBases <+: next.map DeclaredType.withoutBases

theorem Grows.refl (types : FileTypes) : types.Grows types := List.prefix_refl _

theorem Grows.trans {later : FileTypes} (grows : types.Grows next) (further : next.Grows later) :
    types.Grows later := List.IsPrefix.trans grows further

theorem grows_modify {change : DeclaredType → DeclaredType}
    (keeps : ∀ type, (change type).withoutBases = type.withoutBases) (types : FileTypes)
    (index : Nat) : types.Grows (types.modify index change) := by
  have same := map_modify DeclaredType.withoutBases keeps types index
  exact ⟨[], by rw [List.append_nil, same]⟩

theorem grows_addBase (types : FileTypes) (index : Nat) (sort : BaseSort) (base : String) :
    types.Grows (types.addBase index sort base) :=
  grows_modify (fun type => type.withoutBases_addBase sort base) types index

theorem grows_insert (types : FileTypes) (declared : DeclaredType) :
    types.Grows (types.insert declared).1 := by
  rcases types.insert_cases declared with ⟨index, _, inserted⟩ | ⟨_, inserted⟩
  · rw [inserted]
    exact grows_modify (fun type => type.withoutBases_merge declared) types index
  · rw [inserted, Grows, List.map_append]
    exact List.prefix_append _ _

/-- An entry of types that only grew keeps its index, and all but its base names. -/
theorem Grows.exists_entry (grows : types.Grows next) {index : Nat} {old : DeclaredType}
    (there : types[index]? = some old) :
    ∃ new, next[index]? = some new ∧ new.withoutBases = old.withoutBases := by
  have kept : (types.map DeclaredType.withoutBases)[index]? = some old.withoutBases := by
    rw [List.getElem?_map, there, Option.map_some]
  obtain ⟨rest, whole⟩ := grows
  have later : (next.map DeclaredType.withoutBases)[index]? = some old.withoutBases := by
    rw [← whole, List.getElem?_append_left (List.getElem?_eq_some_iff.mp kept).1, kept]
  rw [List.getElem?_map] at later
  exact Option.map_eq_some_iff.mp later

end FileTypes

end SourceGauge.Coupling
