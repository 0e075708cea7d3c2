/-
# SourceGauge.Proofs.Keyed -- items that a key tells apart

Registries, declared types, folders and the files of a graph are lists whose items have distinct
keys, and what they answer for a key is the first item that has it.  That item is the only one
(`find?_key_eq_some_iff`).  Results of items are told apart when each carries its item as its key.
-/
import Mathlib.Data.List.Nodup

namespace SourceGauge

set_option autoImplicit false

/-- Among items of distinct keys, what is found under a key is the one item that has it. -/
theorem find?_key_eq_some_iff {α β : Type} [DecidableEq β] {key : α → β} {items : List α}
    (distinct : (items.map key).Nodup) {k : β} {item : α} :
    items.find? (fun other => key other = k) = some item ↔ item ∈ items ∧ key item = k := by
  constructor
  · intro found
    exact ⟨List.mem_of_find?_eq_some found, by simpa using List.find?_some found⟩
  · rintro ⟨mem, named⟩
    cases found : items.find? fun other => key other = k with
    | none => exact absurd named (by simpa using List.find?_eq_none.mp found item mem)
    | some other =>
        have otherNamed : key other = k := by simpa using List.find?_some found
        have same : other = item :=
          List.inj_on_of_nodup_map distinct (List.mem_of_find?_eq_some found) mem
            (otherNamed.trans named.symm)
        rw [same]

section Keyed

variable {α β : Type} {f : α → Option β} {key : β → α}

theorem map_filterMap_of_key (keyed : ∀ a b, f a = some b → key b = a) (items : List α) :
    (items.filterMap f).map key = items.filter fun a => (f a).isSome := by
  induction items with
  | nil => rfl
  | cons a rest ih =>
      cases result : f a with
      | none => simp [result, ih]
      | some b => simp [result, ih, keyed a b result]

variable [DecidableEq α]

/-- The result of an item is found by its key, if the item is there. -/
theorem find?_filterMap_of_key (keyed : ∀ a b, f a = some b → key b = a) (items : List α)
    (item : α) :
    ((items.filterMap f).find? fun b => key b = item) = if item ∈ items then f item else none := by
  induction items with
  | nil => rfl
  | cons a rest ih =>
      by_cases here : a = item
      · subst here
        cases result : f a with
        | none => simp [result, ih]
        | some b => simp [result, keyed a b result]
      · have apart : item ≠ a := fun same => here same.symm
        cases result : f a with
        | none => simp [result, ih, apart]
        | some b => simp [result, ih, keyed a b result, here, apart]

end Keyed

end SourceGauge
