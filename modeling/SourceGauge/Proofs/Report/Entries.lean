/-
# SourceGauge.Proofs.Report.Entries -- the entries of a report

The quantities of an entry stand in the order of their names, each name once
(`InOrder`).  Setting some of them replaces those of the same names and keeps all others
(`mem_setAll`).  The names of metrics are not those of coupling measures, so the coupling of
a file takes nothing from what was measured of it.

Coupling joins the entry of its name when there is one (`foldl_addCoupling`): then there are
no more entries than before, and each has what it had and the coupling of its name.
-/
import Mathlib.Data.List.Induction
import Mathlib.Data.List.Nodup
import Mathlib.Tactic.Tauto
import SourceGauge.Report

namespace SourceGauge

set_option autoImplicit false

open Coupling (CouplingMeasures)

theorem Metric.name_inj {metric other : Metric} (same : metric.name = other.name) :
    metric = other := by
  cases metric <;> cases other <;> first | rfl | exact absurd same (by decide)

namespace Report

/-! ## Quantities -/

/-- Quantities in the order of their names. -/
def InOrder (quantities : Quantities) : Prop := quantities.Pairwise fun a b => a.1 < b.1

theorem InOrder.nodup {quantities : Quantities} (inOrder : InOrder quantities) :
    (quantities.map Prod.fst).Nodup := by
  refine List.pairwise_map.mpr (inOrder.imp ?_)
  intro a b less same
  rw [same] at less
  exact String.lt_irrefl _ less

theorem lt_of_not_lt {s t : String} (different : s ≠ t) (notLess : ¬s < t) : t < s := by
  by_contra notGreater
  exact different (String.le_antisymm (String.not_lt.mp notGreater) (String.not_lt.mp notLess))

/-- Setting a quantity replaces the one of its name, and keeps the others. -/
theorem mem_setQuantity {quantities : Quantities} (inOrder : InOrder quantities) {name : String}
    {value : Quantity} {item : String × Quantity} :
    item ∈ setQuantity name value quantities ↔
      item = (name, value) ∨ item ∈ quantities ∧ item.1 ≠ name := by
  induction quantities with
  | nil => simp [setQuantity]
  | cons head rest ih =>
      obtain ⟨other, old⟩ := head
      obtain ⟨after, inOrderRest⟩ := List.pairwise_cons.mp inOrder
      unfold setQuantity
      split
      · next here =>
        have later : item ∈ rest → item.1 ≠ other := fun mem same =>
          String.lt_irrefl other (same ▸ after item mem)
        rw [here, List.mem_cons, List.mem_cons]
        constructor
        · rintro (new | mem)
          · exact Or.inl new
          · exact Or.inr ⟨Or.inr mem, later mem⟩
        · rintro (new | ⟨rfl | mem, otherName⟩)
          · exact Or.inl new
          · exact absurd rfl otherName
          · exact Or.inr mem
      · split
        · next less =>
          -- everything that was there comes after the name
          have later : item ∈ (other, old) :: rest → item.1 ≠ name := by
            rintro mem rfl
            rcases List.mem_cons.mp mem with rfl | mem
            · exact String.lt_irrefl _ less
            · exact String.lt_irrefl _ (String.lt_trans less (after item mem))
          rw [List.mem_cons, and_iff_left_of_imp later]
        · next different _ =>
          have first : item = (other, old) → item.1 ≠ name := by
            rintro rfl same
            exact different same.symm
          rw [List.mem_cons, List.mem_cons, ih inOrderRest, or_and_right,
            and_iff_left_of_imp first]
          exact or_left_comm

theorem InOrder.setQuantity {quantities : Quantities} (inOrder : InOrder quantities)
    (name : String) (value : Quantity) : InOrder (setQuantity name value quantities) := by
  induction quantities with
  | nil => exact List.pairwise_singleton _ _
  | cons head rest ih =>
      obtain ⟨other, old⟩ := head
      obtain ⟨after, inOrderRest⟩ := List.pairwise_cons.mp inOrder
      unfold Report.setQuantity
      split
      · next here =>
        subst here
        exact List.pairwise_cons.mpr ⟨after, inOrderRest⟩
      · split
        · next less =>
          refine List.pairwise_cons.mpr ⟨fun item mem => ?_, inOrder⟩
          rcases List.mem_cons.mp mem with rfl | mem
          · exact less
          · exact String.lt_trans less (after item mem)
        · next different notLess =>
          refine List.pairwise_cons.mpr ⟨fun item mem => ?_, ih inOrderRest⟩
          rcases (mem_setQuantity inOrderRest).mp mem with rfl | ⟨mem, _⟩
          · exact lt_of_not_lt different notLess
          · exact after item mem

theorem InOrder.setAll {quantities : Quantities} (inOrder : InOrder quantities)
    (new : List (String × Quantity)) : InOrder (setAll new quantities) :=
  List.foldlRecOn (motive := InOrder) new _ inOrder
    fun _ inOrder item _ => inOrder.setQuantity item.1 item.2

/-- Of quantities with different names all are set, and replace those of their names. -/
theorem mem_setAll {quantities : Quantities} (inOrder : InOrder quantities)
    {new : List (String × Quantity)} (distinct : (new.map Prod.fst).Nodup)
    {item : String × Quantity} :
    item ∈ setAll new quantities ↔
      item ∈ new ∨ item ∈ quantities ∧ item.1 ∉ new.map Prod.fst := by
  induction new using List.reverseRecOn with
  | nil => simp [setAll]
  | append_singleton new last ih =>
      rw [List.map_append, List.nodup_append] at distinct
      obtain ⟨before, _, apart⟩ := distinct
      have newName : item ∈ new → item.1 ≠ last.1 := fun mem =>
        apart item.1 (List.mem_map_of_mem mem) last.1 (by simp)
      have step : setAll (new ++ [last]) quantities =
          setQuantity last.1 last.2 (setAll new quantities) := by simp [setAll]
      rw [step, mem_setQuantity (inOrder.setAll new), ih before, or_and_right,
        and_iff_left_of_imp newName, List.mem_append, List.mem_singleton, List.map_append,
        List.mem_append, List.map_singleton, List.mem_singleton, not_or, and_assoc]
      tauto

/-! ## What an entry tells -/

def couplingNames : List String :=
  ["outgoing_dependencies", "incoming_dependencies", "coupling_between_objects", "instability"]

theorem map_fst_couplingQuantities (measures : CouplingMeasures) :
    (couplingQuantities measures).map Prod.fst = couplingNames := rfl

theorem name_not_mem_couplingNames (metric : Metric) : metric.name ∉ couplingNames := by
  cases metric <;> decide

def ownQuantities (measures : FileMeasures) : List (String × Quantity) :=
  measures.values.map fun item => (item.1.name, .count item.2)

theorem mem_ownQuantities {measures : FileMeasures} {metric : Metric} {value : Nat} :
    (metric.name, Quantity.count value) ∈ ownQuantities measures ↔
      (metric, value) ∈ measures.values := by
  constructor
  · intro mem
    obtain ⟨item, memItem, same⟩ := List.mem_map.mp mem
    obtain ⟨name, count⟩ := Prod.mk.inj same
    rwa [← Metric.name_inj name, ← Quantity.count.inj count]
  · exact fun mem => List.mem_map.mpr ⟨_, mem, rfl⟩

section

variable {quantity : String × Quantity}

theorem not_mem_couplingNames_of_own {measures : FileMeasures}
    (mem : quantity ∈ ownQuantities measures) : quantity.1 ∉ couplingNames := by
  obtain ⟨item, _, rfl⟩ := List.mem_map.mp mem
  exact name_not_mem_couplingNames item.1

theorem mem_couplingNames_of_coupling {measures : CouplingMeasures}
    (mem : quantity ∈ couplingQuantities measures) : quantity.1 ∈ couplingNames := by
  rw [← map_fst_couplingQuantities measures]
  exact List.mem_map_of_mem mem

end

def Entry.couple (entry : Entry) (measures : CouplingMeasures) : Entry :=
  { entry with quantities := setAll (couplingQuantities measures) entry.quantities }

/-- An entry with the coupling that is told under its name, if any is. -/
def Entry.coupledBy (coupled : PathMap CouplingMeasures) (entry : Entry) : Entry :=
  match List.find? (fun item => item.1.text = entry.name) coupled with
  | some item => entry.couple item.2
  | none => entry

theorem Entry.name_coupledBy (coupled : PathMap CouplingMeasures) (entry : Entry) :
    (entry.coupledBy coupled).name = entry.name := by
  unfold coupledBy
  split <;> rfl

theorem Entry.kind_coupledBy (coupled : PathMap CouplingMeasures) (entry : Entry) :
    (entry.coupledBy coupled).kind = entry.kind := by
  unfold coupledBy
  split <;> rfl

section

variable {path : Path} {measures : FileMeasures} {coupled : PathMap CouplingMeasures}

theorem inOrder_entryOf : InOrder (entryOf path measures).quantities :=
  InOrder.setAll List.Pairwise.nil _

theorem mem_entryOf (distinct : (measures.values.map Prod.fst).Nodup)
    {quantity : String × Quantity} :
    quantity ∈ (entryOf path measures).quantities ↔ quantity ∈ ownQuantities measures := by
  have names : ((ownQuantities measures).map Prod.fst).Nodup := by
    have byMetric : (ownQuantities measures).map Prod.fst =
        (measures.values.map Prod.fst).map Metric.name := by simp [ownQuantities]
    rw [byMetric]
    exact List.Nodup.map (fun _ _ => Metric.name_inj) distinct
  have nothing : InOrder [] := List.Pairwise.nil
  rw [entryOf, ← ownQuantities, mem_setAll nothing names]
  simp

theorem inOrder_coupledBy : InOrder ((entryOf path measures).coupledBy coupled).quantities := by
  unfold Entry.coupledBy
  split
  · exact inOrder_entryOf.setAll _
  · exact inOrder_entryOf

/-- An entry tells what was measured of its file, and the coupling that is told under its name. -/
theorem mem_coupledBy (distinct : (measures.values.map Prod.fst).Nodup)
    (apart : (coupled.map fun item => item.1.text).Nodup) {quantity : String × Quantity} :
    quantity ∈ ((entryOf path measures).coupledBy coupled).quantities ↔
      quantity ∈ ownQuantities measures ∨
        ∃ item ∈ coupled, item.1.text = path.text ∧ quantity ∈ couplingQuantities item.2 := by
  unfold Entry.coupledBy
  split
  · next item found =>
    have memItem := List.mem_of_find?_eq_some found
    have told := List.find?_some found
    have here : item.1.text = path.text := of_decide_eq_true told
    have only : ∀ other ∈ coupled, other.1.text = path.text → other = item := fun other mem same =>
      List.inj_on_of_nodup_map apart mem memItem (same.trans here.symm)
    rw [Entry.couple, mem_setAll inOrder_entryOf (by rw [map_fst_couplingQuantities]; decide),
      map_fst_couplingQuantities, mem_entryOf distinct, and_iff_left_of_imp
        not_mem_couplingNames_of_own, or_comm]
    refine or_congr_right ⟨fun mem => ⟨item, memItem, here, mem⟩, ?_⟩
    rintro ⟨other, mem, same, told⟩
    rwa [only other mem same] at told
  · next absent =>
    have nothing : ∀ item ∈ coupled, item.1.text ≠ path.text := fun item mem same =>
      List.find?_eq_none.mp absent item mem (decide_eq_true same)
    rw [mem_entryOf distinct, or_iff_left]
    rintro ⟨item, mem, same, _⟩
    exact nothing item mem same

end

/-! ## Adding coupling -/

theorem addCoupling_eq_map {entries : List Entry} (distinct : (entries.map Entry.name).Nodup)
    {name : String} (there : name ∈ entries.map Entry.name) (measures : CouplingMeasures) :
    addCoupling name measures entries = entries.map fun entry =>
      if entry.name = name then entry.couple measures else entry := by
  induction entries with
  | nil => cases there
  | cons entry rest ih =>
      obtain ⟨new, distinctRest⟩ := List.nodup_cons.mp distinct
      rw [addCoupling, List.map_cons]
      split
      · next here =>
        have others : ∀ other ∈ rest, (if other.name = name then other.couple measures
            else other) = other := fun other mem =>
          if_neg fun same : other.name = name =>
            new (List.mem_map.mpr ⟨other, mem, same.trans here.symm⟩)
        rw [List.map_congr_left others, List.map_id']
        rfl
      · next other =>
        rw [ih distinctRest ((List.mem_cons.mp there).resolve_left fun same => other same.symm)]

/-- Coupling that is told under the names of entries joins these, and makes no new ones. -/
theorem foldl_addCoupling {entries : List Entry} (distinct : (entries.map Entry.name).Nodup)
    {coupled : PathMap CouplingMeasures} (apart : (coupled.map fun item => item.1.text).Nodup)
    (there : ∀ item ∈ coupled, item.1.text ∈ entries.map Entry.name) :
    coupled.foldl (fun entries item => addCoupling item.1.text item.2 entries) entries =
      entries.map (Entry.coupledBy coupled) := by
  induction coupled generalizing entries with
  | nil => exact (List.map_id' entries).symm
  | cons item rest ih =>
      obtain ⟨new, apartRest⟩ := List.nodup_cons.mp apart
      obtain ⟨first, thereRest⟩ := List.forall_mem_cons.mp there
      have joined := addCoupling_eq_map distinct first item.2
      have sameNames : (addCoupling item.1.text item.2 entries).map Entry.name =
          entries.map Entry.name := by
        rw [joined, List.map_map]
        refine List.map_congr_left fun entry _ => ?_
        simp only [Function.comp_apply]
        split <;> rfl
      rw [List.foldl_cons, ih (sameNames ▸ distinct) apartRest (by rwa [sameNames]), joined,
        List.map_map]
      refine List.map_congr_left fun entry _ => ?_
      simp only [Function.comp_apply, Entry.coupledBy, List.find?_cons]
      by_cases here : entry.name = item.1.text
      · -- no other coupling is told under this name
        have absent : List.find? (fun other => other.1.text = item.1.text) rest = none := by
          refine List.find?_eq_none.mpr fun other mem => ?_
          simpa using fun same : other.1.text = item.1.text =>
            new (List.mem_map.mpr ⟨other, mem, same⟩)
        simp [here, Entry.couple, absent]
      · have other : item.1.text ≠ entry.name := fun same => here same.symm
        simp [here, other]

end Report

end SourceGauge
