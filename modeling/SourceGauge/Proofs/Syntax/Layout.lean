/-
# SourceGauge.Proofs.Syntax.Layout -- where the nodes of a tree lie

The entries of a tree are the nodes that its addresses lead to (`mem_entries_iff`),
each address once and in order (`pairwise_entries`).

A tree is `Nested` when every node starts before it ends, the children of a node
lie within it, and one ends before the next starts.  Then addresses tell extents:
of two nodes the later one lies within the earlier one, where its address goes on
from the other's, and starts after it ended everywhere else
(`NestedBy.within_of_prefix`, `NestedBy.prefix_or_after`).  That holds whether extents are told by
bytes or by rows, so the lemmas are about places as any number measures them.
-/
import SourceGauge.Proofs.Query.Order

namespace SourceGauge

set_option autoImplicit false

open Text (Place)

/-! ## Addresses -/

namespace Address

theorem lt_append_left (here a b : Address) : lt (here ++ a) (here ++ b) = lt a b := by
  induction here with
  | nil => rfl
  | cons i here ih => simpa [lt] using ih

theorem lt_append_cons (here : Address) (i : Nat) (rest : Address) :
    lt here (here ++ i :: rest) = true := by
  have below := lt_append_left here [] (i :: rest)
  rwa [List.append_nil] at below

theorem not_lt_of_lt {a b : Address} (before : lt a b = true) : lt b a = false := by
  cases after : lt b a with
  | false => rfl
  | true => exact absurd (lt_trans before after) (by simp [lt_irrefl])

/-- What lies below an address is there or further on. -/
theorem lt_of_prefix {a b : Address} (below : a <+: b) (different : a ≠ b) : lt a b = true := by
  obtain ⟨rest, rfl⟩ := below
  cases rest with
  | nil => simp at different
  | cons i rest => exact lt_append_cons a i rest

/-- An address leads to a later one, or they part at two children of one node. -/
theorem prefix_or_parts {a b : Address} (before : lt a b = true) :
    a <+: b ∨ ∃ here i j x y, i < j ∧ a = here ++ i :: x ∧ b = here ++ j :: y := by
  induction a generalizing b with
  | nil => exact Or.inl List.nil_prefix
  | cons i a ih =>
      cases b with
      | nil => cases before
      | cons j b =>
          rcases lt_cons_iff.mp before with less | ⟨rfl, rest⟩
          · exact Or.inr ⟨[], i, j, a, b, less, rfl, rfl⟩
          · rcases ih rest with ⟨more, rfl⟩ | ⟨here, k, l, x, y, less, rfl, rfl⟩
            · exact Or.inl ⟨more, rfl⟩
            · exact Or.inr ⟨i :: here, k, l, x, y, less, rfl, rfl⟩

end Address

/-! ## The nodes of a tree -/

namespace Node

/-- The node that an address leads to. -/
def at? : Node → Address → Option Node
  | node, [] => some node
  | node, i :: rest => (node.children[i]?).bind fun child => at? child rest

@[simp] theorem at?_nil (node : Node) : node.at? [] = some node := rfl

theorem at?_cons (node : Node) (i : Nat) (rest : Address) :
    node.at? (i :: rest) = (node.children[i]?).bind fun child => child.at? rest := rfl

theorem at?_append (node : Node) (a b : Address) :
    node.at? (a ++ b) = (node.at? a).bind fun below => below.at? b := by
  induction a generalizing node with
  | nil => rfl
  | cons i a ih =>
      simp only [List.cons_append, at?_cons]
      cases node.children[i]? with
      | none => rfl
      | some child => exact ih child

mutual

theorem mem_preorder_iff (here : Address) (root : Node) (a : Address) (node : Node) :
    (a, node) ∈ preorder here root ↔ ∃ b, a = here ++ b ∧ root.at? b = some node := by
  cases root with
  | mk label children =>
      simp only [preorder, List.mem_cons, Prod.mk.injEq, mem_preorderFrom_iff]
      constructor
      · rintro (⟨rfl, rfl⟩ | ⟨i, child, b, found, rfl, below⟩)
        · exact ⟨[], by simp, rfl⟩
        · exact ⟨i :: b, by simp, by simp [at?_cons, Node.children, found, below]⟩
      · rintro ⟨b, rfl, below⟩
        cases b with
        | nil =>
            cases below
            exact Or.inl ⟨by simp, rfl⟩
        | cons i b =>
            obtain ⟨child, found, below⟩ := Option.bind_eq_some_iff.mp below
            exact Or.inr ⟨i, child, b, found, by simp, below⟩

theorem mem_preorderFrom_iff (here : Address) (first : Nat) (children : List Node) (a : Address)
    (node : Node) :
    (a, node) ∈ preorderFrom here first children ↔
      ∃ i child b, children[i]? = some child ∧ a = here ++ (first + i) :: b ∧
        child.at? b = some node := by
  cases children with
  | nil => simp [preorderFrom]
  | cons child rest =>
      simp only [preorderFrom, List.mem_append, mem_preorder_iff, mem_preorderFrom_iff]
      constructor
      · rintro (⟨b, rfl, below⟩ | ⟨i, other, b, found, rfl, below⟩)
        · exact ⟨0, child, b, rfl, by simp, below⟩
        · exact ⟨i + 1, other, b, found, by simp [Nat.add_right_comm, Nat.add_assoc], below⟩
      · rintro ⟨i, other, b, found, rfl, below⟩
        cases i with
        | zero =>
            cases found
            exact Or.inl ⟨b, by simp, below⟩
        | succ i =>
            refine Or.inr ⟨i, other, b, found, ?_, below⟩
            simp [Nat.add_right_comm, Nat.add_assoc]

end

/-- The entries of a tree are the nodes that its addresses lead to. -/
theorem mem_entries_iff {root : Node} {a : Address} {node : Node} :
    (a, node) ∈ root.entries ↔ root.at? a = some node := by
  simp [entries, mem_preorder_iff]

mutual

theorem pairwise_preorder (here : Address) (root : Node) :
    (preorder here root).Pairwise fun m n => m.1.lt n.1 = true := by
  cases root with
  | mk label children =>
      refine List.pairwise_cons.mpr ⟨?_, pairwise_preorderFrom here 0 children⟩
      rintro ⟨a, node⟩ mem
      obtain ⟨i, _, b, _, rfl, _⟩ := (mem_preorderFrom_iff ..).mp mem
      exact Address.lt_append_cons here _ b

theorem pairwise_preorderFrom (here : Address) (first : Nat) (children : List Node) :
    (preorderFrom here first children).Pairwise fun m n => m.1.lt n.1 = true := by
  cases children with
  | nil => exact List.Pairwise.nil
  | cons child rest =>
      refine List.pairwise_append.mpr
        ⟨pairwise_preorder _ child, pairwise_preorderFrom here (first + 1) rest, ?_⟩
      rintro ⟨a, m⟩ memA ⟨b, n⟩ memB
      obtain ⟨x, rfl, _⟩ := (mem_preorder_iff ..).mp memA
      obtain ⟨i, _, y, _, rfl, _⟩ := (mem_preorderFrom_iff ..).mp memB
      have less : first < first + 1 + i := by omega
      simpa [Address.lt_append_left, Address.lt_cons_iff] using Or.inl less

end

/-- The entries of a tree stand in the order of their addresses, each address once. -/
theorem pairwise_entries (root : Node) :
    root.entries.Pairwise fun m n => m.1.lt n.1 = true :=
  pairwise_preorder [] root

/-! ## Extents -/

/-- A node starts before it ends, its children lie within it, and one ends before
the next starts. -/
structure Laid (node : Node) : Prop where
  start_le_stop : node.start.byte ≤ node.stop.byte
  within : ∀ child ∈ node.children,
    node.start.byte ≤ child.start.byte ∧ child.stop.byte ≤ node.stop.byte
  apart : node.children.Pairwise fun child next => child.stop.byte ≤ next.start.byte

instance (node : Node) : Decidable node.Laid :=
  decidable_of_iff
    (node.start.byte ≤ node.stop.byte ∧
      (∀ child ∈ node.children,
        node.start.byte ≤ child.start.byte ∧ child.stop.byte ≤ node.stop.byte) ∧
      node.children.Pairwise fun child next => child.stop.byte ≤ next.start.byte)
    ⟨fun laid => ⟨laid.1, laid.2.1, laid.2.2⟩,
      fun laid => ⟨laid.start_le_stop, laid.within, laid.apart⟩⟩

/-- The children of every node of a tree are ordered, disjoint and within their
parent. -/
def Nested (root : Node) : Prop := ∀ entry ∈ root.entries, entry.2.Laid

instance (root : Node) : Decidable root.Nested :=
  inferInstanceAs (Decidable (∀ entry ∈ root.entries, entry.2.Laid))

/-- The same order of places as a number tells them, such as by their rows. -/
structure LaidBy (measure : Place → Nat) (node : Node) : Prop where
  start_le_stop : measure node.start ≤ measure node.stop
  within : ∀ child ∈ node.children,
    measure node.start ≤ measure child.start ∧ measure child.stop ≤ measure node.stop
  apart : node.children.Pairwise fun child next => measure child.stop ≤ measure next.start

instance (measure : Place → Nat) (node : Node) : Decidable (node.LaidBy measure) :=
  decidable_of_iff
    (measure node.start ≤ measure node.stop ∧
      (∀ child ∈ node.children,
        measure node.start ≤ measure child.start ∧ measure child.stop ≤ measure node.stop) ∧
      node.children.Pairwise fun child next => measure child.stop ≤ measure next.start)
    ⟨fun laid => ⟨laid.1, laid.2.1, laid.2.2⟩,
      fun laid => ⟨laid.start_le_stop, laid.within, laid.apart⟩⟩

/-- The children of every node of a tree are ordered, disjoint and within their parent, as a
number tells their places. -/
def NestedBy (measure : Place → Nat) (root : Node) : Prop :=
  ∀ entry ∈ root.entries, entry.2.LaidBy measure

instance (measure : Place → Nat) (root : Node) : Decidable (root.NestedBy measure) :=
  inferInstanceAs (Decidable (∀ entry ∈ root.entries, entry.2.LaidBy measure))

theorem Nested.byBytes {root : Node} (nested : root.Nested) : root.NestedBy Place.byte :=
  fun entry mem =>
    have laid := nested entry mem
    ⟨laid.start_le_stop, laid.within, laid.apart⟩

namespace NestedBy

variable {measure : Place → Nat} {root m n : Node} {a b : Address}

theorem laid (nested : root.NestedBy measure) (found : root.at? a = some m) : m.LaidBy measure :=
  nested (a, m) (mem_entries_iff.mpr found)

/-- What an address leads to from a node lies within it. -/
theorem within_of_append (nested : root.NestedBy measure) (found : root.at? a = some m)
    (below : m.at? b = some n) :
    measure m.start ≤ measure n.start ∧ measure n.stop ≤ measure m.stop := by
  induction b generalizing a m with
  | nil =>
      cases below
      exact ⟨le_rfl, le_rfl⟩
  | cons i b ih =>
      obtain ⟨child, there, below⟩ := Option.bind_eq_some_iff.mp below
      have inside := (nested.laid found).within child (List.mem_of_getElem? there)
      have foundChild : root.at? (a ++ [i]) = some child := by
        simp [at?_append, found, at?_cons, there]
      obtain ⟨starts, stops⟩ := ih foundChild below
      exact ⟨inside.1.trans starts, stops.trans inside.2⟩

/-- A node lies within each node above it. -/
theorem within_of_prefix (nested : root.NestedBy measure) (foundA : root.at? a = some m)
    (foundB : root.at? b = some n) (below : a <+: b) :
    measure m.start ≤ measure n.start ∧ measure n.stop ≤ measure m.stop := by
  obtain ⟨rest, rfl⟩ := below
  rw [at?_append, foundA] at foundB
  exact nested.within_of_append foundA foundB

/-- What lies below a child ends before anything below a later child starts. -/
theorem stop_le_start_of_parts (nested : root.NestedBy measure) {here x y : Address} {i j : Nat}
    (less : i < j) (foundA : root.at? (here ++ i :: x) = some m)
    (foundB : root.at? (here ++ j :: y) = some n) : measure m.stop ≤ measure n.start := by
  rw [at?_append] at foundA foundB
  obtain ⟨parent, found, foundA⟩ := Option.bind_eq_some_iff.mp foundA
  rw [found, Option.bind_some] at foundB
  obtain ⟨first, foundFirst, belowFirst⟩ := Option.bind_eq_some_iff.mp foundA
  obtain ⟨second, foundSecond, belowSecond⟩ := Option.bind_eq_some_iff.mp foundB
  obtain ⟨iLt, isFirst⟩ := List.getElem?_eq_some_iff.mp foundFirst
  obtain ⟨jLt, isSecond⟩ := List.getElem?_eq_some_iff.mp foundSecond
  have apart := List.pairwise_iff_getElem.mp (nested.laid found).apart i j iLt jLt less
  rw [isFirst, isSecond] at apart
  have foundI : root.at? (here ++ [i]) = some first := by
    simp [at?_append, found, at?_cons, foundFirst]
  have foundJ : root.at? (here ++ [j]) = some second := by
    simp [at?_append, found, at?_cons, foundSecond]
  calc measure m.stop
    _ ≤ measure first.stop := (nested.within_of_append foundI belowFirst).2
    _ ≤ measure second.start := apart
    _ ≤ measure n.start := (nested.within_of_append foundJ belowSecond).1

/-- A later node is below an earlier one, or starts after it ended. -/
theorem prefix_or_after (nested : root.NestedBy measure) (foundA : root.at? a = some m)
    (foundB : root.at? b = some n) (before : a.lt b = true) :
    a <+: b ∨ measure m.stop ≤ measure n.start := by
  rcases Address.prefix_or_parts before with below | ⟨here, i, j, x, y, less, rfl, rfl⟩
  · exact Or.inl below
  · exact Or.inr (nested.stop_le_start_of_parts less foundA foundB)

/-- A later node starts no earlier. -/
theorem start_le_of_lt (nested : root.NestedBy measure) (foundA : root.at? a = some m)
    (foundB : root.at? b = some n) (before : a.lt b = true) :
    measure m.start ≤ measure n.start := by
  rcases nested.prefix_or_after foundA foundB before with below | after
  · exact (nested.within_of_prefix foundA foundB below).1
  · exact (nested.laid foundA).start_le_stop.trans after

end NestedBy

/-- A node between two bytes of a text. -/
def inText (source kind : String) (named : Bool) (start stop : Nat) (children : List Node) :
    Node :=
  .mk { kind, named, start := .ofByte source start, stop := .ofByte source stop } children

end Node

end SourceGauge
