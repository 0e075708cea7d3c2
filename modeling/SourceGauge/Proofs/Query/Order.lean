/-
# SourceGauge.Proofs.Query.Order -- the order in which matches are reported

Addresses in lexicographic order are ordered strictly and totally.  Matches are
compared by the address that completes them, then by the depth of their root,
then by clause, and any two can be compared (`Match.precedes_or`).  Matches that
agree in all three are reported as they were found: to report is to insert the
matches one by one, from the last to the first (`allMatches_eq_insertionSort`).
-/
import Mathlib.Data.List.Sort
import SourceGauge.Query.Pattern

namespace SourceGauge

set_option autoImplicit false

/-! ## Addresses -/

namespace Address

theorem lt_cons_iff {i j : Nat} {a b : Address} :
    lt (i :: a) (j :: b) = true ↔ i < j ∨ i = j ∧ lt a b = true := by
  rw [lt]
  split
  · next same => simp [same]
  · next different => simp [different]

theorem lt_irrefl (a : Address) : lt a a = false := by
  induction a with
  | nil => rfl
  | cons i a ih => simpa [lt] using ih

theorem lt_trans {a b c : Address} (ab : lt a b = true) (bc : lt b c = true) : lt a c = true := by
  induction a generalizing b c with
  | nil =>
      cases b with
      | nil => cases ab
      | cons j b =>
          cases c with
          | nil => cases bc
          | cons k c => rfl
  | cons i a ih =>
      cases b with
      | nil => cases ab
      | cons j b =>
          cases c with
          | nil => cases bc
          | cons k c =>
              rw [lt_cons_iff] at ab bc ⊢
              rcases ab with less | ⟨rfl, ab⟩
              · rcases bc with lessAgain | ⟨rfl, _⟩
                · exact Or.inl (Nat.lt_trans less lessAgain)
                · exact Or.inl less
              · rcases bc with less | ⟨rfl, bc⟩
                · exact Or.inl less
                · exact Or.inr ⟨rfl, ih ab bc⟩

theorem lt_or_lt {a b : Address} (different : a ≠ b) : lt a b = true ∨ lt b a = true := by
  induction a generalizing b with
  | nil =>
      cases b with
      | nil => exact absurd rfl different
      | cons j b => exact Or.inl rfl
  | cons i a ih =>
      cases b with
      | nil => exact Or.inr rfl
      | cons j b =>
          simp only [lt_cons_iff]
          rcases Nat.lt_trichotomy i j with less | rfl | greater
          · exact Or.inl (Or.inl less)
          · have rest : a ≠ b := fun same => different (by rw [same])
            rcases ih rest with before | after
            · exact Or.inl (Or.inr ⟨rfl, before⟩)
            · exact Or.inr (Or.inr ⟨rfl, after⟩)
          · exact Or.inr (Or.inl greater)

end Address

/-! ## Matches -/

namespace Query

theorem Match.precedes_iff {a b : Match} :
    a.precedes b = true ↔
      a.completed.lt b.completed = true ∨
        a.completed = b.completed ∧ (a.root.length < b.root.length ∨
          a.root.length = b.root.length ∧ a.clause ≤ b.clause) := by
  unfold precedes
  split
  · next same =>
    split
    · next depth => simp [same, depth, Address.lt_irrefl]
    · next depth => simp [same, depth, Address.lt_irrefl]
  · next different => simp [different]

theorem Match.precedes_trans {a b c : Match} (ab : a.precedes b = true)
    (bc : b.precedes c = true) : a.precedes c = true := by
  rw [precedes_iff] at ab bc ⊢
  rcases ab with less | ⟨same, ab⟩
  · rcases bc with lessAgain | ⟨sameAgain, _⟩
    · exact Or.inl (Address.lt_trans less lessAgain)
    · exact Or.inl (sameAgain ▸ less)
  · rcases bc with less | ⟨sameAgain, bc⟩
    · exact Or.inl (same ▸ less)
    · exact Or.inr ⟨same.trans sameAgain, by omega⟩

theorem Match.precedes_or (a b : Match) : a.precedes b = true ∨ b.precedes a = true := by
  simp only [precedes_iff]
  by_cases same : a.completed = b.completed
  · have depths : a.root.length < b.root.length ∨ a.root.length = b.root.length ∧
        (a.clause ≤ b.clause ∨ b.clause ≤ a.clause) ∨ b.root.length < a.root.length := by omega
    rcases depths with less | ⟨depth, clause | clause⟩ | greater
    · exact Or.inl (Or.inr ⟨same, Or.inl less⟩)
    · exact Or.inl (Or.inr ⟨same, Or.inr ⟨depth, clause⟩⟩)
    · exact Or.inr (Or.inr ⟨same.symm, Or.inr ⟨depth.symm, clause⟩⟩)
    · exact Or.inr (Or.inr ⟨same.symm, Or.inl greater⟩)
  · rcases Address.lt_or_lt same with before | after
    · exact Or.inl (Or.inl before)
    · exact Or.inr (Or.inl after)

/-- Matches are reported in their order. -/
theorem pairwise_allMatches (query : Query) (source : String) (root : Node) :
    (query.allMatches source root).Pairwise fun a b => a.precedes b = true := by
  have trans : ∀ a b c : Match, a.precedes b → b.precedes c → a.precedes c :=
    fun _ _ _ => Match.precedes_trans
  have total : ∀ a b : Match, a.precedes b || b.precedes a := by
    intro a b
    rw [Bool.or_eq_true]
    exact Match.precedes_or a b
  exact List.pairwise_mergeSort trans total _

/-- Sorting with one more match at the front inserts it into the sorted others. -/
theorem mergeSort_precedes_cons (item : Match) (items : List Match) :
    (item :: items).mergeSort Match.precedes =
      (items.mergeSort Match.precedes).orderedInsert (fun a b => a.precedes b) item := by
  have trans : ∀ a b c : Match, a.precedes b → b.precedes c → a.precedes c :=
    fun _ _ _ => Match.precedes_trans
  have total : ∀ a b : Match, a.precedes b || b.precedes a := by
    intro a b
    rw [Bool.or_eq_true]
    exact Match.precedes_or a b
  obtain ⟨before, after, whole, rest, earlier⟩ := List.mergeSort_cons trans total item items
  have sorted := List.pairwise_mergeSort trans total (item :: items)
  rw [whole, List.pairwise_append, List.pairwise_cons] at sorted
  have skipped : ∀ b ∈ before, decide (¬ item.precedes b = true) = true := by
    intro b mem
    simpa using earlier b mem
  rw [whole, rest, List.orderedInsert_eq_take_drop, List.takeWhile_append_of_pos skipped,
    List.dropWhile_append_of_pos skipped]
  cases after with
  | nil => simp
  | cons next _ =>
      have stops := sorted.2.1.1 next List.mem_cons_self
      simp [stops]

/-- To report matches is to insert them one by one, from the last that was found. -/
theorem allMatches_eq_insertionSort (query : Query) (source : String) (root : Node) :
    query.allMatches source root =
      (query.found source root).insertionSort fun a b => a.precedes b := by
  unfold allMatches
  induction query.found source root with
  | nil => simp
  | cons item items ih => rw [mergeSort_precedes_cons, ih, List.insertionSort_cons]

end Query

end SourceGauge
