/-
# SourceGauge.Proofs.Registry.Acceptable -- which records make a registry

A list of records makes a registry exactly when it is `Registry.Acceptable`: the names are non-empty
and pairwise distinct, and operators stand at binary expressions alone (`ofRecords_eq_ok_iff`).  The
scan keeps the names that it has seen, so it accepts the rest of a list when the rest is acceptable
and none of its names is among them (`firstFault?_eq_none_iff`).

In an accepted registry a name finds the one record that has it, and the records of some categories
are the one sublist that holds just these.
-/
import Mathlib.Data.List.Perm.Basic
import SourceGauge.Proofs.Keyed
import SourceGauge.Registry

namespace SourceGauge

set_option autoImplicit false

/-! ## Acceptable lists -/

theorem Category.allowsOperator_iff (category : Category) :
    category.allowsOperator = true ↔
      category = .logicalOperation ∨ category = .binaryOperation := by
  cases category <;> decide

/-- An operator is a text that is not empty, at a binary expression. -/
def Record.OperatorInPlace (record : Record) : Prop :=
  ∀ operator ∈ record.operator, operator ≠ "" ∧
    (record.category = .logicalOperation ∨ record.category = .binaryOperation)

namespace Registry

/-- The lists of records that make a registry. -/
structure Acceptable (records : List Record) : Prop where
  named : ∀ record ∈ records, record.typeName ≠ ""
  distinct : (records.map Record.typeName).Nodup
  operators : ∀ record ∈ records, record.OperatorInPlace

theorem acceptable_nil : Acceptable [] where
  named := fun _ mem => absurd mem List.not_mem_nil
  distinct := List.nodup_nil
  operators := fun _ mem => absurd mem List.not_mem_nil

theorem acceptable_cons_iff {record : Record} {rest : List Record} :
    Acceptable (record :: rest) ↔
      record.typeName ≠ "" ∧ record.OperatorInPlace ∧
        (∀ later ∈ rest, later.typeName ≠ record.typeName) ∧ Acceptable rest := by
  have fresh : record.typeName ∉ rest.map Record.typeName ↔
      ∀ later ∈ rest, later.typeName ≠ record.typeName := by
    simp
  constructor
  · rintro ⟨named, distinct, operators⟩
    rw [List.forall_mem_cons] at named operators
    rw [List.map_cons, List.nodup_cons, fresh] at distinct
    exact ⟨named.1, operators.1, distinct.1, named.2, distinct.2, operators.2⟩
  · rintro ⟨name, operator, unlike, named, distinct, operators⟩
    refine ⟨List.forall_mem_cons.mpr ⟨name, named⟩, ?_,
      List.forall_mem_cons.mpr ⟨operator, operators⟩⟩
    rw [List.map_cons, List.nodup_cons, fresh]
    exact ⟨unlike, distinct⟩

theorem fault?_eq_none_iff {seen : List String} {record : Record} :
    fault? seen record = none ↔
      record.typeName ≠ "" ∧ record.typeName ∉ seen ∧ record.OperatorInPlace := by
  unfold fault? Record.OperatorInPlace
  split_ifs with unnamed repeated
  · simp [unnamed]
  · simp [List.contains_iff_mem.mp repeated]
  · cases record.operator with
    | none => simp [unnamed, List.contains_iff_mem.not.mp repeated]
    | some operator =>
        simp [unnamed, List.contains_iff_mem.not.mp repeated, ← Category.allowsOperator_iff]

theorem firstFault?_cons_eq_none_iff {seen : List String} {record : Record}
    {rest : List Record} :
    firstFault? seen (record :: rest) = none ↔
      fault? seen record = none ∧ firstFault? (record.typeName :: seen) rest = none := by
  rw [firstFault?]
  cases fault? seen record <;> simp

/-- The scan accepts what is acceptable by itself and repeats no name that it has seen. -/
theorem firstFault?_eq_none_iff {seen : List String} {records : List Record} :
    firstFault? seen records = none ↔
      Acceptable records ∧ ∀ record ∈ records, record.typeName ∉ seen := by
  induction records generalizing seen with
  | nil => exact ⟨fun _ => ⟨acceptable_nil, fun _ mem => absurd mem List.not_mem_nil⟩, fun _ => rfl⟩
  | cons record rest ih =>
      have unseen : (∀ later ∈ rest, later.typeName ∉ record.typeName :: seen) ↔
          (∀ later ∈ rest, later.typeName ≠ record.typeName) ∧
            ∀ later ∈ rest, later.typeName ∉ seen := by
        simp only [List.mem_cons, not_or]
        exact forall₂_and
      rw [firstFault?_cons_eq_none_iff, fault?_eq_none_iff, ih, unseen, acceptable_cons_iff,
        List.forall_mem_cons]
      tauto

theorem ofRecords_eq_ok_iff {records : List Record} {registry : Registry} :
    ofRecords records = .ok registry ↔ Acceptable records ∧ registry = ⟨records⟩ := by
  have sound : firstFault? [] records = none ↔ Acceptable records := by
    rw [firstFault?_eq_none_iff]
    exact and_iff_left fun _ _ => List.not_mem_nil
  rw [← sound, ofRecords]
  cases firstFault? [] records with
  | none => exact ⟨fun made => ⟨rfl, (Except.ok.inj made).symm⟩, fun ⟨_, same⟩ => by rw [same]⟩
  | some fault => simp

/-- In an accepted registry only records of binary expressions carry operators. -/
theorem operator_eq_none_of_accepted {records : List Record} {registry : Registry}
    (accepted : ofRecords records = .ok registry) {record : Record}
    (mem : record ∈ registry.records) (plain : record.category.allowsOperator = false) :
    record.operator = none := by
  obtain ⟨acceptable, rfl⟩ := ofRecords_eq_ok_iff.mp accepted
  cases carried : record.operator with
  | none => rfl
  | some operator =>
      have binary := (acceptable.operators record mem operator carried).2
      rw [← Category.allowsOperator_iff, plain] at binary
      cases binary

/-! ## What a registry answers -/

theorem get?_eq_some_iff {registry : Registry} {name : String} {record : Record}
    (distinct : (registry.records.map Record.typeName).Nodup) :
    registry.get? name = some record ↔
      record ∈ registry.records ∧ record.typeName = name :=
  find?_key_eq_some_iff distinct

/-- The one sublist that holds the records of the categories. -/
theorem eq_inCategories_iff {registry : Registry} {categories : List Category}
    {part : List Record} (distinct : (registry.records.map Record.typeName).Nodup) :
    part = registry.inCategories categories ↔
      part.Sublist registry.records ∧
        ∀ record, record ∈ part ↔ record ∈ registry.records ∧ record.category ∈ categories := by
  have mem_inCategories (record : Record) : record ∈ registry.inCategories categories ↔
      record ∈ registry.records ∧ record.category ∈ categories := by
    rw [inCategories, List.mem_filter, List.contains_iff_mem]
  constructor
  · rintro rfl
    exact ⟨List.filter_sublist, mem_inCategories⟩
  · rintro ⟨sublist, mem_part⟩
    have nodup : registry.records.Nodup := List.Nodup.of_map _ distinct
    have allKept : part.filter (fun record => categories.contains record.category) = part := by
      rw [List.filter_eq_self]
      intro record mem
      exact List.contains_iff_mem.mpr ((mem_part record).mp mem).2
    have among : part.Sublist (registry.inCategories categories) := by
      rw [← allKept]
      exact sublist.filter _
    have perm : part.Perm (registry.inCategories categories) := by
      refine (List.perm_ext_iff_of_nodup (nodup.sublist sublist) (nodup.filter _)).mpr ?_
      intro record
      exact (mem_part record).trans (mem_inCategories record).symm
    exact among.eq_of_length perm.length_eq

end Registry

end SourceGauge
