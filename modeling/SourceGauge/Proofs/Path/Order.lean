/-
# SourceGauge.Proofs.Path.Order -- the order of paths, and maps in that order

`Path.lt` is a strict linear order of paths up to `Path.same`: it never holds of
two paths that are the same (`not_lt_of_same`), it is transitive (`lt_trans`),
and of two paths that are not the same one is the lesser (`lt_or_lt`).

A `PathMap` is `Sorted` when each path is less than every later one; then no two
of its entries are at the same path (`Sorted.eq_of_same`).  Inserting keeps it so
(`Sorted.insert`), and at a new path it adds one entry and changes no other
(`mem_insert_of_find?_none`).  So the map of a list with no path twice has the entries
of the list (`ofLast_distinct`), and is the list when that is in order.
-/
import Mathlib.Data.List.Induction
import SourceGauge.Path

namespace SourceGauge

set_option autoImplicit false

/-! ## Components -/

namespace Component

theorem lt_irrefl (a : Component) : a.lt a = false := by
  cases a with
  | name s => exact decide_eq_false (String.lt_irrefl s)
  | _ => rfl

theorem lt_trans {a b c : Component} (ab : a.lt b = true) (bc : b.lt c = true) :
    a.lt c = true := by
  cases a <;> cases b <;> cases c <;> simp_all only [lt, decide_eq_true_eq, Bool.false_eq_true]
  exact String.lt_trans ab bc

theorem lt_or_lt {a b : Component} (ne : a ≠ b) : a.lt b = true ∨ b.lt a = true := by
  cases a with
  | name s =>
      cases b with
      | name t =>
          have different : s ≠ t := fun same => ne (by rw [same])
          simp only [lt, decide_eq_true_eq]
          by_cases less : s < t
          · exact Or.inl less
          · by_cases greater : t < s
            · exact Or.inr greater
            · exact absurd (String.le_antisymm (String.not_lt.mp greater) (String.not_lt.mp less))
                different
      | _ => simp [lt]
  | _ => cases b <;> simp_all [lt]

end Component

/-! ## Paths -/

namespace Path

theorem componentsLt_irrefl (as : List Component) : componentsLt as as = false := by
  induction as with
  | nil => rfl
  | cons a as ih => simpa [componentsLt] using ih

theorem componentsLt_trans {as bs cs : List Component} (ab : componentsLt as bs = true)
    (bc : componentsLt bs cs = true) : componentsLt as cs = true := by
  induction as generalizing bs cs with
  | nil =>
      cases bs with
      | nil => simp [componentsLt] at ab
      | cons b bs => cases cs <;> simp_all [componentsLt]
  | cons a as ih =>
      cases bs with
      | nil => simp [componentsLt] at ab
      | cons b bs =>
          cases cs with
          | nil => simp [componentsLt] at bc
          | cons c cs =>
              simp only [componentsLt] at ab bc ⊢
              by_cases hab : a = b
              · subst hab
                by_cases hac : a = c
                · subst hac
                  simp only [if_true] at ab bc ⊢
                  exact ih ab bc
                · simpa [hac] using bc
              · simp only [hab, if_false] at ab
                by_cases hbc : b = c
                · subst hbc
                  simpa [hab] using ab
                · simp only [hbc, if_false] at bc
                  have less := Component.lt_trans ab bc
                  have ne : a ≠ c := by
                    rintro rfl
                    rw [Component.lt_irrefl] at less
                    cases less
                  simpa [ne] using less

theorem componentsLt_or_lt {as bs : List Component} (ne : as ≠ bs) :
    componentsLt as bs = true ∨ componentsLt bs as = true := by
  induction as generalizing bs with
  | nil => cases bs <;> simp_all [componentsLt]
  | cons a as ih =>
      cases bs with
      | nil => simp [componentsLt]
      | cons b bs =>
          simp only [componentsLt]
          by_cases hab : a = b
          · subst hab
            simpa using ih (fun same => ne (by rw [same]))
          · have hba : b ≠ a := fun same => hab same.symm
            simpa [hab, hba] using Component.lt_or_lt hab

theorem same_iff {p q : Path} : p.same q = true ↔ p.components = q.components := by
  simp [same]

theorem same_refl (p : Path) : p.same p = true := same_iff.mpr rfl

theorem same_symm {p q : Path} (h : p.same q = true) : q.same p = true :=
  same_iff.mpr (same_iff.mp h).symm

theorem same_comm (p q : Path) : p.same q = q.same p := by
  rw [Bool.eq_iff_iff, same_iff, same_iff]
  exact eq_comm

theorem same_trans {p q r : Path} (pq : p.same q = true) (qr : q.same r = true) :
    p.same r = true :=
  same_iff.mpr ((same_iff.mp pq).trans (same_iff.mp qr))

theorem not_lt_of_same {p q : Path} (same : p.same q = true) : p.lt q = false := by
  rw [lt, same_iff.mp same]
  exact componentsLt_irrefl q.components

theorem lt_trans {p q r : Path} (pq : p.lt q = true) (qr : q.lt r = true) : p.lt r = true :=
  componentsLt_trans pq qr

theorem lt_or_lt {p q : Path} (different : p.same q = false) :
    p.lt q = true ∨ q.lt p = true := by
  apply componentsLt_or_lt
  intro equal
  rw [same_iff.mpr equal] at different
  cases different

theorem not_lt_of_lt {p q : Path} (less : p.lt q = true) : q.lt p = false := by
  by_contra greater
  have loop := lt_trans less (by simpa using greater)
  rw [not_lt_of_same (same_refl p)] at loop
  cases loop

/-- Of two paths neither of which is the lesser each is the other. -/
theorem same_iff_not_lt {p q : Path} :
    p.same q = true ↔ p.lt q = false ∧ q.lt p = false := by
  constructor
  · exact fun same => ⟨not_lt_of_same same, not_lt_of_same (same_symm same)⟩
  · rintro ⟨notLess, notGreater⟩
    by_contra different
    rcases lt_or_lt (Bool.not_eq_true _ ▸ different) with less | greater
    · rw [notLess] at less
      cases less
    · rw [notGreater] at greater
      cases greater

theorem not_lt_trans {p q r : Path} (pq : q.lt p = false) (qr : r.lt q = false) :
    r.lt p = false := by
  by_contra less
  rw [Bool.not_eq_false] at less
  by_cases same : p.same q = true
  · rw [lt, same_iff.mp same, ← lt, qr] at less
    cases less
  · have between := (lt_or_lt (Bool.not_eq_true _ ▸ same)).resolve_right (by simp [pq])
    rw [lt_trans less between] at qr
    cases qr

end Path

/-! ## Maps -/

namespace PathMap

variable {α : Type}

/-- Each path is less than every later one. -/
def Sorted (map : PathMap α) : Prop := map.Pairwise fun a b => a.1.lt b.1 = true

theorem sorted_nil : Sorted ([] : PathMap α) := List.Pairwise.nil

theorem Sorted.eq_of_same {map : PathMap α} (sorted : map.Sorted) {a b : Path × α}
    (memA : a ∈ map) (memB : b ∈ map) (same : a.1.same b.1 = true) : a = b := by
  induction sorted with
  | nil => cases memA
  | cons before _ ih =>
      rcases List.mem_cons.mp memA with rfl | inA <;> rcases List.mem_cons.mp memB with rfl | inB
      · rfl
      · have less := before b inB
        rw [Path.not_lt_of_same same] at less
        cases less
      · have less := before a inA
        rw [Path.not_lt_of_same (Path.same_symm same)] at less
        cases less
      · exact ih inA inB

theorem Sorted.nodup {map : PathMap α} (sorted : map.Sorted) : map.Nodup := by
  refine List.Pairwise.imp ?_ sorted
  rintro a b less rfl
  rw [Path.not_lt_of_same (Path.same_refl a.1)] at less
  cases less

/-- Two maps with the same entries, each in order, are the same. -/
theorem Sorted.ext {map other : PathMap α} (sorted : map.Sorted) (sortedOther : other.Sorted)
    (same : ∀ item, item ∈ map ↔ item ∈ other) : map = other := by
  have perm : map.Perm other :=
    (List.perm_ext_iff_of_nodup sorted.nodup sortedOther.nodup).mpr same
  refine perm.eq_of_pairwise ?_ sorted sortedOther
  intro a b _ _ ab ba
  have loop := Path.lt_trans ab ba
  rw [Path.not_lt_of_same (Path.same_refl a.1)] at loop
  cases loop

theorem find?_cons_eq_none_iff {key path : Path} {value : α} {rest : PathMap α} :
    PathMap.find? path ((key, value) :: rest) = none ↔
      path.same key = false ∧ PathMap.find? path rest = none := by
  by_cases here : path.same key = true
  · simp [find?, here]
  · simp [find?, here]

theorem find?_eq_none_iff {map : PathMap α} {path : Path} :
    map.find? path = none ↔ ∀ item ∈ map, path.same item.1 = false := by
  induction map with
  | nil => simp [find?]
  | cons head rest ih =>
      obtain ⟨key, value⟩ := head
      rw [find?_cons_eq_none_iff, ih, List.forall_mem_cons]

theorem exists_of_find?_some {map : PathMap α} {path : Path} {value : α}
    (found : map.find? path = some value) : ∃ item ∈ map, path.same item.1 = true := by
  induction map with
  | nil => cases found
  | cons head rest ih =>
      by_cases here : path.same head.1 = true
      · exact ⟨head, List.mem_cons_self, here⟩
      · simp only [find?, here, Bool.false_eq_true, if_false] at found
        obtain ⟨item, mem, same⟩ := ih found
        exact ⟨item, List.mem_cons_of_mem _ mem, same⟩

/-- At a new path, inserting adds one entry and changes no other. -/
theorem mem_insert_of_find?_none {map : PathMap α} {path : Path} {value : α}
    (new : map.find? path = none) (item : Path × α) :
    item ∈ map.insert path value ↔ item = (path, value) ∨ item ∈ map := by
  induction map with
  | nil => simp [insert]
  | cons head rest ih =>
      obtain ⟨key, old⟩ := head
      obtain ⟨here, later⟩ := find?_cons_eq_none_iff.mp new
      by_cases less : path.lt key = true
      · simp [insert, here, less]
      · simp only [insert, here, less, Bool.false_eq_true, if_false, List.mem_cons, ih later]
        constructor
        · rintro (head | added | rest)
          · exact Or.inr (Or.inl head)
          · exact Or.inl added
          · exact Or.inr (Or.inr rest)
        · rintro (added | head | rest)
          · exact Or.inr (Or.inl added)
          · exact Or.inl head
          · exact Or.inr (Or.inr rest)

/-- Inserting at a new path puts one entry between those that there are. -/
theorem exists_insert_eq {map : PathMap α} {path : Path} (new : map.find? path = none)
    (value : α) :
    ∃ before after, map = before ++ after ∧
      map.insert path value = before ++ (path, value) :: after := by
  induction map with
  | nil => exact ⟨[], [], rfl, rfl⟩
  | cons head rest ih =>
      obtain ⟨key, old⟩ := head
      obtain ⟨here, later⟩ := find?_cons_eq_none_iff.mp new
      by_cases less : path.lt key = true
      · exact ⟨[], (key, old) :: rest, rfl, by simp [PathMap.insert, here, less]⟩
      · obtain ⟨before, after, rfl, inserted⟩ := ih later
        refine ⟨(key, old) :: before, after, rfl, ?_⟩
        simp only [PathMap.insert, here, less, Bool.false_eq_true, if_false, inserted,
          List.cons_append]

theorem Sorted.insert {map : PathMap α} (sorted : map.Sorted) {path : Path} {value : α}
    (new : map.find? path = none) : (map.insert path value).Sorted := by
  induction sorted with
  | nil => exact List.pairwise_singleton _ _
  | @cons head rest before sortedRest ih =>
      obtain ⟨key, old⟩ := head
      obtain ⟨here, later⟩ := find?_cons_eq_none_iff.mp new
      by_cases less : path.lt key = true
      · simp only [PathMap.insert, here, less, Bool.false_eq_true, if_false, if_true]
        refine List.Pairwise.cons ?_ (List.Pairwise.cons before sortedRest)
        intro item mem
        rcases List.mem_cons.mp mem with rfl | mem
        · exact less
        · exact Path.lt_trans less (before item mem)
      · simp only [PathMap.insert, here, less, Bool.false_eq_true, if_false]
        refine List.Pairwise.cons ?_ (ih later)
        intro item mem
        rcases (mem_insert_of_find?_none later item).mp mem with rfl | mem
        · exact (Path.lt_or_lt here).resolve_left less
        · exact before item mem

/-- A path that comes after all others is inserted at the end. -/
theorem insert_eq_concat {map : PathMap α} {path : Path} {value : α}
    (after : ∀ item ∈ map, item.1.lt path = true) :
    map.insert path value = map ++ [(path, value)] := by
  induction map with
  | nil => rfl
  | cons head rest ih =>
      obtain ⟨key, old⟩ := head
      have less := after (key, old) List.mem_cons_self
      have notBefore : path.lt key = false := Path.not_lt_of_lt less
      have here : path.same key = false := by
        by_contra same
        rw [Path.same_comm, Bool.not_eq_false] at same
        rw [Path.not_lt_of_same same] at less
        cases less
      have later := ih fun item mem => after item (List.mem_cons_of_mem _ mem)
      simp only [insert, here, notBefore, Bool.false_eq_true, if_false, later, List.cons_append]

/-! ## Looking up -/

theorem Sorted.distinct {map : PathMap α} (sorted : map.Sorted) :
    map.Pairwise fun a b => a.1.same b.1 = false := by
  refine List.Pairwise.imp ?_ sorted
  intro a b less
  by_contra same
  rw [Path.not_lt_of_same (by simpa using same)] at less
  cases less

theorem Sorted.find?_eq_some_iff {map : PathMap α} (sorted : map.Sorted) {path : Path}
    {value : α} :
    map.find? path = some value ↔ ∃ item ∈ map, path.same item.1 = true ∧ item.2 = value := by
  induction sorted with
  | nil => simp [find?]
  | @cons head rest before _ ih =>
      obtain ⟨key, old⟩ := head
      by_cases here : path.same key = true
      · -- a later entry at this path would be after itself
        have later : ∀ item ∈ rest, path.same item.1 = false := by
          intro item mem
          by_contra same
          have twice : key.same item.1 = true :=
            Path.same_trans (Path.same_symm here) (by simpa using same)
          have less := before item mem
          rw [Path.not_lt_of_same twice] at less
          cases less
        simp only [find?, here, if_true, Option.some.injEq, List.mem_cons]
        constructor
        · rintro rfl
          exact ⟨(key, old), Or.inl rfl, here, rfl⟩
        · rintro ⟨item, rfl | mem, same, rfl⟩
          · rfl
          · rw [later item mem] at same
            cases same
      · simp only [find?, here, Bool.false_eq_true, if_false, ih, List.mem_cons]
        constructor
        · rintro ⟨item, mem, facts⟩
          exact ⟨item, Or.inr mem, facts⟩
        · rintro ⟨item, rfl | mem, same, value⟩
          · exact absurd same here
          · exact ⟨item, mem, same, value⟩

/-! ## The map of a list of entries -/

/-- At a new path there is no spelling to replace. -/
theorem replace_eq_insert {map : PathMap α} {path : Path} (new : map.find? path = none)
    (value : α) : map.replace path value = map.insert path value := by
  induction map with
  | nil => rfl
  | cons head rest ih =>
      obtain ⟨key, old⟩ := head
      obtain ⟨here, later⟩ := find?_cons_eq_none_iff.mp new
      simp only [replace, insert, here, Bool.false_eq_true, if_false, ih later]

/-- Entries at different paths all stand in the map of their list. -/
theorem ofLast_distinct {items : List (Path × α)}
    (distinct : items.Pairwise fun a b => a.1.same b.1 = false) :
    (ofLast items).Sorted ∧ ∀ item, item ∈ ofLast items ↔ item ∈ items := by
  induction items using List.reverseRecOn with
  | nil => exact ⟨sorted_nil, fun _ => Iff.rfl⟩
  | append_singleton items last ih =>
      obtain ⟨before, _, apart⟩ := List.pairwise_append.mp distinct
      obtain ⟨sorted, mem⟩ := ih before
      have new : (ofLast items).find? last.1 = none := by
        refine find?_eq_none_iff.mpr fun item there => ?_
        rw [Path.same_comm]
        exact apart item ((mem item).mp there) last (by simp)
      have added : ofLast (items ++ [last]) = (ofLast items).insert last.1 last.2 := by
        rw [← replace_eq_insert new]
        simp [ofLast]
      rw [added]
      refine ⟨sorted.insert new, fun item => ?_⟩
      rw [mem_insert_of_find?_none new, mem, List.mem_append, List.mem_singleton]
      exact Or.comm

/-- The map of entries in order is their list. -/
theorem Sorted.ofLast_eq {items : PathMap α} (sorted : items.Sorted) : ofLast items = items :=
  have ⟨sortedMap, mem⟩ := ofLast_distinct sorted.distinct
  sortedMap.ext sorted mem

end PathMap

end SourceGauge
