/-
# SourceGauge.Proofs.Metric.CodeRows -- which rows of a file hold code

A node marks the row that it starts on, and a leaf that is no line break marks every row that it
spans (`Marks`).  Comments are left out together with all that is below them, so what counts is
a node with no comment among itself and the nodes above it (`OutsideComments`).

The rows are told by recursion over the tree.  They can as well be gathered with a stack of
nodes that are still to be visited, the last child of a node first (`gatherRows`): the order
of the visits is another one, the rows are the same (`mem_gatherRows_iff`).

* `realLines_eq_card`: the rows of code are the rows marked outside of comments, each counted
  once, and where no node ends below the last row of the root there are no more of them than
  lines.
-/
import SourceGauge.Metric.Measure
import SourceGauge.Proofs.Coupling.FileCounts
import SourceGauge.Proofs.Language.OwnGrammars
import SourceGauge.Proofs.Syntax.Layout

namespace SourceGauge

set_option autoImplicit false

namespace Metric

/-! ## Rows that nodes mark -/

/-- A node starts on a row, or it is a leaf, no line break, and spans the row. -/
def Marks (node : Node) (row : Nat) : Prop :=
  node.start.row = row ∨
    node.children = [] ∧ isLineBreak node.kind = false ∧
      node.start.row ≤ row ∧ row ≤ node.stop.row

theorem mem_ownRows_iff {node : Node} {row : Nat} : row ∈ ownRows node ↔ Marks node row := by
  have spans : row ∈ List.range' (node.start.row + 1) (node.stop.row - node.start.row) ↔
      node.start.row < row ∧ row ≤ node.stop.row := by
    rw [List.mem_range'_1]
    omega
  unfold ownRows Marks
  by_cases leaf : node.children = [] ∧ isLineBreak node.kind = false
  · have outer : (node.children.isEmpty && !isLineBreak node.kind) = true := by
      rw [leaf.1, leaf.2]
      rfl
    rw [outer, if_pos rfl, List.mem_cons, spans]
    constructor
    · rintro (rfl | ⟨after, upTo⟩)
      · exact Or.inl rfl
      · exact Or.inr ⟨leaf.1, leaf.2, after.le, upTo⟩
    · rintro (here | ⟨_, _, since, upTo⟩)
      · exact Or.inl here.symm
      · exact since.eq_or_lt.imp Eq.symm fun after => ⟨after, upTo⟩
  · have inner : (node.children.isEmpty && !isLineBreak node.kind) = false := by
      rw [Bool.eq_false_iff]
      exact fun both => leaf (by simpa using both)
    rw [inner, if_neg Bool.false_ne_true, List.mem_singleton]
    constructor
    · exact fun here => Or.inl here.symm
    · rintro (here | ⟨childless, breaks, _⟩)
      · exact here.symm
      · exact absurd ⟨childless, breaks⟩ leaf

variable {isComment : Node → Bool}

/-- Below the root, neither the node at an address nor one above it is a comment. -/
def OutsideComments (isComment : Node → Bool) (root : Node) (a : Address) : Prop :=
  ∀ b above, b ≠ [] → b <+: a → root.at? b = some above → isComment above = false

theorem outsideComments_nil (root : Node) : OutsideComments isComment root [] :=
  fun _ _ below reaches _ => absurd (List.prefix_nil.mp reaches) below

theorem outsideComments_cons {root child : Node} {i : Nat} {a : Address}
    (there : root.children[i]? = some child) :
    OutsideComments isComment root (i :: a) ↔
      isComment child = false ∧ OutsideComments isComment child a := by
  have down : ∀ b, root.at? (i :: b) = child.at? b := fun b => by
    rw [Node.at?_cons, there, Option.bind_some]
  constructor
  · intro outside
    refine ⟨outside [i] child (List.cons_ne_nil i []) ⟨a, rfl⟩ (down []), ?_⟩
    intro b above _ reaches found
    exact outside (i :: b) above (List.cons_ne_nil i b)
      ((List.cons_prefix_cons).mpr ⟨rfl, reaches⟩) ((down b).trans found)
  · rintro ⟨plain, outside⟩ b above below reaches found
    cases b with
    | nil => exact absurd rfl below
    | cons j b =>
        obtain ⟨rfl, further⟩ := List.cons_prefix_cons.mp reaches
        rw [down] at found
        cases b with
        | nil =>
            cases found
            exact plain
        | cons k b => exact outside (k :: b) above (List.cons_ne_nil k b) further found

/-! ## By recursion -/

mutual

/-- The rows told of a tree are those marked outside of comments. -/
theorem mem_codeRows_iff (root : Node) (row : Nat) :
    row ∈ codeRows isComment root ↔
      isComment root = false ∧ ∃ a node, root.at? a = some node ∧
        OutsideComments isComment root a ∧ Marks node row := by
  cases root with
  | mk label children =>
      rw [codeRows]
      cases comment : isComment (.mk label children) with
      | true => simp
      | false =>
          rw [if_neg Bool.false_ne_true, List.mem_append, mem_ownRows_iff, mem_codeRowsOf_iff]
          constructor
          · rintro (marks | ⟨i, child, a, node, there, plain, found, outside, marks⟩)
            · exact ⟨rfl, [], _, rfl, outsideComments_nil _, marks⟩
            · have there : (Node.mk label children).children[i]? = some child := there
              exact ⟨rfl, i :: a, node, by rw [Node.at?_cons, there, Option.bind_some, found],
                (outsideComments_cons there).mpr ⟨plain, outside⟩, marks⟩
          · rintro ⟨-, a, node, found, outside, marks⟩
            cases a with
            | nil =>
                cases found
                exact Or.inl marks
            | cons i a =>
                obtain ⟨child, there, found⟩ := Option.bind_eq_some_iff.mp found
                obtain ⟨plain, outside⟩ := (outsideComments_cons there).mp outside
                exact Or.inr ⟨i, child, a, node, there, plain, found, outside, marks⟩

/-- The same for the trees of a list. -/
theorem mem_codeRowsOf_iff (children : List Node) (row : Nat) :
    row ∈ codeRowsOf isComment children ↔
      ∃ (i : Nat) (child : Node) (a : Address) (node : Node),
        children[i]? = some child ∧ isComment child = false ∧ child.at? a = some node ∧
          OutsideComments isComment child a ∧ Marks node row := by
  cases children with
  | nil => simp [codeRowsOf]
  | cons first rest =>
      rw [codeRowsOf, List.mem_append, mem_codeRows_iff first, mem_codeRowsOf_iff rest]
      constructor
      · rintro (⟨plain, a, node, held⟩ | ⟨i, child, a, node, there, held⟩)
        · exact ⟨0, first, a, node, rfl, plain, held⟩
        · exact ⟨i + 1, child, a, node, there, held⟩
      · rintro ⟨i, child, a, node, there, plain, held⟩
        cases i with
        | zero =>
            cases there
            exact Or.inl ⟨plain, a, node, held⟩
        | succ i => exact Or.inr ⟨i, child, a, node, there, plain, held⟩

end

/-- The rows told of the children of a root. -/
theorem mem_codeRowsOf_children_iff {root : Node} {row : Nat} :
    row ∈ codeRowsOf isComment root.children ↔
      ∃ a node, a ≠ [] ∧ root.at? a = some node ∧ OutsideComments isComment root a ∧
        Marks node row := by
  rw [mem_codeRowsOf_iff]
  constructor
  · rintro ⟨i, child, a, node, there, plain, found, outside, marks⟩
    exact ⟨i :: a, node, List.cons_ne_nil i a,
      by rw [Node.at?_cons, there, Option.bind_some, found],
      (outsideComments_cons there).mpr ⟨plain, outside⟩, marks⟩
  · rintro ⟨a, node, below, found, outside, marks⟩
    cases a with
    | nil => exact absurd rfl below
    | cons i a =>
        obtain ⟨child, there, found⟩ := Option.bind_eq_some_iff.mp found
        obtain ⟨plain, outside⟩ := (outsideComments_cons there).mp outside
        exact ⟨i, child, a, node, there, plain, found, outside, marks⟩

theorem mem_codeRowsOf_iff_exists {nodes : List Node} {row : Nat} :
    row ∈ codeRowsOf isComment nodes ↔ ∃ node ∈ nodes, row ∈ codeRows isComment node := by
  induction nodes with
  | nil => simp [codeRowsOf]
  | cons node rest ih => simp [codeRowsOf, ih]

/-! ## With a stack -/

theorem length_nodesOf (nodes : List Node) :
    (Node.nodesOf nodes).length = (nodes.map fun node => node.nodes.length).sum := by
  induction nodes with
  | nil => rfl
  | cons node rest ih => simp [Node.nodesOf, ih]

/-- A node on the stack gives way to its children: one node less is still to be visited. -/
theorem length_nodesOf_push (node : Node) (stack : List Node) :
    (Node.nodesOf (node.children.reverse ++ stack)).length <
      (Node.nodesOf (node :: stack)).length := by
  cases node with
  | mk label children =>
      have inner := length_nodesOf children
      simp only [length_nodesOf, Node.children, List.map_append, List.map_reverse,
        List.sum_append, List.sum_reverse, List.map_cons, List.sum_cons, Node.nodes,
        List.length_cons]
      omega

/-- The rows gathered with a stack, top first.  The node on the top is visited and replaced by
its children, of which the last one comes to lie on the top; a comment is only removed. -/
def gatherRows (isComment : Node → Bool) : List Node → List Nat
  | [] => []
  | node :: stack =>
      if isComment node then gatherRows isComment stack
      else ownRows node ++ gatherRows isComment (node.children.reverse ++ stack)
termination_by stack => (Node.nodesOf stack).length
decreasing_by
  · cases node
    simp only [Node.nodesOf, Node.nodes, List.length_append, List.length_cons]
    omega
  · exact length_nodesOf_push node stack

/-- The stack gathers the rows that recursion tells of the nodes on it. -/
theorem mem_gatherRows_iff (stack : List Node) (row : Nat) :
    row ∈ gatherRows isComment stack ↔ row ∈ codeRowsOf isComment stack := by
  simp only [mem_codeRowsOf_iff_exists]
  fun_induction gatherRows isComment stack with
  | case1 => simp
  | case2 node stack comment ih =>
      have none : codeRows isComment node = [] := by
        cases node
        rw [codeRows, if_pos comment]
      rw [ih]
      simp [none]
  | case3 node stack plain ih =>
      have rows : row ∈ codeRows isComment node ↔
          row ∈ ownRows node ∨ ∃ child ∈ node.children, row ∈ codeRows isComment child := by
        cases node
        rw [codeRows, if_neg plain, List.mem_append, mem_codeRowsOf_iff_exists]
        rfl
      rw [List.mem_append, ih]
      simp only [List.mem_append, List.mem_reverse, List.mem_cons, or_and_right, exists_or,
        exists_eq_left, rows, or_assoc]

/-! ## The count -/

end Metric

/-- No node of a tree starts or ends below the last row of the root. -/
def Node.WithinRows (root : Node) : Prop :=
  ∀ entry ∈ root.entries, entry.2.start.row ≤ root.stop.row ∧ entry.2.stop.row ≤ root.stop.row

instance (root : Node) : Decidable root.WithinRows :=
  inferInstanceAs (Decidable (∀ entry ∈ root.entries,
    entry.2.start.row ≤ root.stop.row ∧ entry.2.stop.row ≤ root.stop.row))

namespace Metric

/-- A row that a node marks is no later than its start or its end. -/
theorem Marks.le {node : Node} {row last : Nat} (marks : Marks node row)
    (start : node.start.row ≤ last) (stop : node.stop.row ≤ last) : row ≤ last := by
  rcases marks with here | ⟨_, _, _, upTo⟩
  · exact here ▸ start
  · exact upTo.trans stop

/-- **Rows of code are the rows marked outside of comments.**  Whatever the registry, the file and
the cache, the rows of code are counted, and each once: they are the rows that some node below
the root marks with no comment among itself and the nodes above it below the root.  A stack
of nodes that begins with the children of the root gathers just these.  In a tree that lies
within the rows of its root they are no more than the lines of the file. -/
theorem realLines_eq_card [Grammars] (registry : Registry) (file : ParsedFile)
    (cache : Query.Cache) :
    ∃ held : Finset Nat,
      (∀ row, row ∈ held ↔ ∃ a node, a ≠ [] ∧ file.root.at? a = some node ∧
        OutsideComments (isComment registry file.language) file.root a ∧ Marks node row) ∧
      (gatherRows (isComment registry file.language) file.root.children.reverse).toFinset = held ∧
      (realLinesOfCode.measure registry file cache).1 = .ok held.card ∧
      (file.root.WithinRows → ∃ lines,
        (linesOfCode.measure registry file cache).1 = .ok lines ∧ held.card ≤ lines) := by
  refine ⟨(codeRowsOf (isComment registry file.language) file.root.children).toFinset,
    fun row => ?_, ?_, ?_, fun within => ⟨rows file, rfl, ?_⟩⟩
  · rw [List.mem_toFinset, mem_codeRowsOf_children_iff]
  · ext row
    simp only [List.mem_toFinset, mem_gatherRows_iff, mem_codeRowsOf_iff_exists,
      List.mem_reverse]
  · rw [measure, realLines, Coupling.length_eraseDups]
  · have among : (codeRowsOf (isComment registry file.language) file.root.children).toFinset ⊆
        Finset.range (rows file) := by
      intro row mem
      rw [List.mem_toFinset, mem_codeRowsOf_children_iff] at mem
      obtain ⟨a, node, _, found, _, marks⟩ := mem
      obtain ⟨start, stop⟩ := within (a, node) (Node.mem_entries_iff.mpr found)
      exact Finset.mem_range.mpr (Nat.lt_succ_of_le (marks.le start stop))
    simpa using Finset.card_le_card among

/-! ## A comment before a string

A comment of two rows ends on the row on which a string of two rows starts. -/

namespace SharedRow

def source : String := "/*\n*/ \"a\\\nb\"\n"

def node := fun kind => Node.inText source kind true

def comments : Registry := ⟨[⟨"comment", .comment, [.c], [], none, none⟩]⟩

def file : ParsedFile where
  path := ⟨"a.c"⟩
  language := .c
  source := source
  root := node "translation_unit" 0 13
    [node "comment" 0 5 [node "text" 2 3 []], node "string_literal" 6 12 [], node "\n" 12 13 []]

end SharedRow

attribute [local instance] sampleGrammars

open SharedRow in
theorem realLines_eq_card_shared_row :
    file.root.WithinRows ∧ (realLinesOfCode.measure comments file {}).1 = .ok 2 ∧
      ∃ lines, (linesOfCode.measure comments file {}).1 = .ok lines ∧ 2 ≤ lines := by
  have within : file.root.WithinRows := by decide
  have two : (realLinesOfCode.measure comments file {}).1 = .ok 2 := by rfl
  obtain ⟨held, _, _, counted, atMost⟩ := realLines_eq_card comments file {}
  have card : held.card = 2 := Except.ok.inj (counted.symm.trans two)
  exact ⟨within, two, card ▸ atMost within⟩

end Metric

end SourceGauge
