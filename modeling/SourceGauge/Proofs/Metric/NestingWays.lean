/-
# SourceGauge.Proofs.Metric.NestingWays -- how deep a data file is nested

The depth of a node is told by recursion: its own part and the greatest depth of its children.
That is the greatest number of counted nodes on a way from the node down (`isGreatest_depth`).
It can as well be found with a stack of nodes, each with the depth above it, in any order of the
visits (`deepest_singleton`).

* `nestingLevel_eq`: the level of a file is that of the first child of its root.  If this child is
  no comment, it is that of the first child that is none; if the child holds no counted node, the
  level is zero, whatever comes after it.
* `leading_comment_hides_content`: so a comment at the beginning of a file hides the rest.
-/
import Mathlib.Order.Bounds.Basic
import SourceGauge.Proofs.Metric.CodeRows

namespace SourceGauge

set_option autoImplicit false

/-! ## Ways -/

/-- The nodes on the way from a node to what an address leads to, both included. -/
def Node.way (top : Node) (a : Address) : List Node := a.inits.filterMap top.at?

theorem Node.way_nil (top : Node) : top.way [] = [top] := rfl

theorem Node.way_cons {top child : Node} {i : Nat} (there : top.children[i]? = some child)
    (a : Address) : top.way (i :: a) = top :: child.way a := by
  have below : (fun b => top.at? (i :: b)) = child.at? := by
    funext b
    rw [at?_cons, there, Option.bind_some]
  rw [way, List.inits_cons, List.filterMap_cons, at?_nil, List.filterMap_map, Function.comp_def,
    below, way]

namespace Metric

variable {counted : List String}

/-! ## Depths -/

def ownDepth (counted : List String) (node : Node) : Nat :=
  if counted.contains node.kind then 1 else 0

def countedOn (counted : List String) (way : List Node) : Nat :=
  way.countP fun node => counted.contains node.kind

theorem countedOn_cons (node : Node) (way : List Node) :
    countedOn counted (node :: way) = ownDepth counted node + countedOn counted way := by
  rw [countedOn, List.countP_cons, Nat.add_comm]
  rfl

theorem depth_eq (node : Node) :
    depth counted node = depthOf counted node.children + ownDepth counted node := by
  cases node
  rw [depth]
  rfl

theorem depthOf_le_iff {nodes : List Node} {bound : Nat} :
    depthOf counted nodes ≤ bound ↔ ∀ node ∈ nodes, depth counted node ≤ bound := by
  induction nodes with
  | nil => simp [depthOf]
  | cons node rest ih => simp [depthOf, ih]

theorem depth_le_depthOf {nodes : List Node} {node : Node} (mem : node ∈ nodes) :
    depth counted node ≤ depthOf counted nodes :=
  depthOf_le_iff.mp le_rfl node mem

theorem countedOn_way_le {top below : Node} {a : Address} (found : top.at? a = some below) :
    countedOn counted (top.way a) ≤ depth counted top := by
  induction a generalizing top with
  | nil =>
      rw [Node.way_nil, countedOn_cons, depth_eq]
      exact Nat.le_add_left ..
  | cons i a ih =>
      obtain ⟨child, there, found⟩ := Option.bind_eq_some_iff.mp found
      calc countedOn counted (top.way (i :: a))
        _ = ownDepth counted top + countedOn counted (child.way a) := by
            rw [Node.way_cons there, countedOn_cons]
        _ ≤ ownDepth counted top + depthOf counted top.children :=
            Nat.add_le_add_left
              ((ih found).trans (depth_le_depthOf (List.mem_of_getElem? there))) _
        _ = depth counted top := by rw [depth_eq, Nat.add_comm]

mutual

/-- Some way has as many counted nodes as the depth says. -/
theorem exists_way_eq_depth (top : Node) :
    ∃ a below, top.at? a = some below ∧ depth counted top = countedOn counted (top.way a) := by
  cases top with
  | mk label children =>
      rcases exists_way_eq_depthOf children with none | ⟨i, child, a, below, there, found, deep⟩
      · refine ⟨[], _, rfl, ?_⟩
        rw [depth_eq, Node.way_nil, countedOn_cons, Node.children, none, Nat.zero_add]
        rfl
      · have there : (Node.mk label children).children[i]? = some child := there
        refine ⟨i :: a, below, by rw [Node.at?_cons, there, Option.bind_some, found], ?_⟩
        rw [depth_eq, Node.way_cons there, countedOn_cons, Node.children, deep, Nat.add_comm]

theorem exists_way_eq_depthOf (nodes : List Node) :
    depthOf counted nodes = 0 ∨ ∃ (i : Nat) (child : Node) (a : Address) (below : Node),
      nodes[i]? = some child ∧ child.at? a = some below ∧
        depthOf counted nodes = countedOn counted (child.way a) := by
  cases nodes with
  | nil => exact Or.inl rfl
  | cons first rest =>
      rw [depthOf]
      rcases Nat.le_total (depthOf counted rest) (depth counted first) with less | more
      · obtain ⟨a, below, found, deep⟩ := exists_way_eq_depth first
        exact Or.inr ⟨0, first, a, below, rfl, found, by rw [Nat.max_eq_left less, deep]⟩
      · rw [Nat.max_eq_right more]
        rcases exists_way_eq_depthOf rest with none | ⟨i, child, a, below, there, found⟩
        · exact Or.inl none
        · exact Or.inr ⟨i + 1, child, a, below, there, found⟩

end

/-- The depth of a node is the greatest number of counted nodes on a way from it down. -/
theorem isGreatest_depth (counted : List String) (top : Node) :
    IsGreatest {n | ∃ a below, top.at? a = some below ∧ n = countedOn counted (top.way a)}
      (depth counted top) := by
  refine ⟨exists_way_eq_depth top, ?_⟩
  rintro _ ⟨a, below, found, rfl⟩
  exact countedOn_way_le found

/-! ## With a stack -/

/-- The greatest depth found with a stack of nodes and the depths above them, top first.  The node
on the top is replaced by its children, of which the last one comes to lie on the top. -/
def deepest (counted : List String) : List (Node × Nat) → Nat → Nat
  | [], found => found
  | (node, above) :: stack, found =>
      let reached := above + ownDepth counted node
      deepest counted ((node.children.map fun child => (child, reached)).reverse ++ stack)
        (max found reached)
termination_by stack => (Node.nodesOf (stack.map (·.1))).length
decreasing_by
  simpa [Function.comp_def] using length_nodesOf_push node (stack.map (·.1))

theorem add_depth_le_iff {node : Node} {above bound : Nat} :
    above + depth counted node ≤ bound ↔ above + ownDepth counted node ≤ bound ∧
      ∀ child ∈ node.children, above + ownDepth counted node + depth counted child ≤ bound := by
  rw [depth_eq]
  constructor
  · intro le
    refine ⟨by omega, fun child mem => ?_⟩
    have among : depth counted child ≤ depthOf counted node.children := depth_le_depthOf mem
    omega
  · rintro ⟨own, children⟩
    have below : depthOf counted node.children ≤ bound - (above + ownDepth counted node) :=
      depthOf_le_iff.mpr fun child mem => by
        have le := children child mem
        omega
    omega

/-- Whatever the order of the visits, each node on the stack has its depth found. -/
theorem deepest_le_iff {stack : List (Node × Nat)} {found bound : Nat} :
    deepest counted stack found ≤ bound ↔
      found ≤ bound ∧ ∀ item ∈ stack, item.2 + depth counted item.1 ≤ bound := by
  fun_induction deepest counted stack found with
  | case1 found => simp
  | case2 node above stack found reached ih =>
      have pushed : (∀ item ∈ (node.children.map fun child => (child, reached)).reverse ++ stack,
          item.2 + depth counted item.1 ≤ bound) ↔
            (∀ child ∈ node.children, reached + depth counted child ≤ bound) ∧
              ∀ item ∈ stack, item.2 + depth counted item.1 ≤ bound := by
        simp [or_imp, forall_and]
      rw [ih, pushed, max_le_iff, List.forall_mem_cons, add_depth_le_iff]
      tauto

theorem deepest_singleton (counted : List String) (top : Node) :
    deepest counted [(top, 0)] 0 = depth counted top :=
  eq_of_forall_ge_iff fun bound => by simp [deepest_le_iff]

/-! ## The level of a file -/

/-- A number is the nesting level below a node: the greatest number of counted nodes on a way down
from it, the outermost at level zero.  Without a node the level is zero. -/
def IsLevel (counted : List String) (top? : Option Node) (level : Nat) : Prop :=
  match top? with
  | none => level = 0
  | some top => ∃ greatest,
      IsGreatest {n | ∃ a below, top.at? a = some below ∧ n = countedOn counted (top.way a)}
        greatest ∧ level = greatest - 1

theorem depth_eq_zero {top : Node}
    (plain : ∀ a below, top.at? a = some below → below.kind ∉ counted) : depth counted top = 0 := by
  obtain ⟨a, _, _, deep⟩ := exists_way_eq_depth top
  rw [deep, countedOn, List.countP_eq_zero]
  intro node onWay
  obtain ⟨b, _, found⟩ := List.mem_filterMap.mp onWay
  rw [List.contains_iff_mem]
  exact plain b node found

theorem nestingLevel_eq_depth (registry : Registry) (file : ParsedFile) :
    nestingLevel registry file =
      match file.root.children.head? with
      | none => 0
      | some top => depth (registry.activeKinds .nesting file.language) top - 1 := by
  unfold nestingLevel
  cases children : file.root.children with
  | nil => cases registry.activeKinds .nesting file.language <;> rfl
  | cons top rest =>
      cases registry.activeKinds .nesting file.language with
      | nil =>
          show 0 = depth [] top - 1
          rw [depth_eq_zero fun _ _ _ => List.not_mem_nil]
      | cons kind kinds => rfl

/-- The first child of a root that is no comment. -/
def firstContent? (registry : Registry) (file : ParsedFile) : Option Node :=
  file.root.children.find? fun child =>
    !(registry.activeKinds .comment file.language).contains child.kind

/-- The nesting level of a file always has a value, that of the first child of its root, and a stack
finds it.  It is that of the first child that is no comment, if no comment is before this
child; a first child with no counted node makes it zero, whatever the other children hold. -/
theorem nestingLevel_eq [Grammars] (registry : Registry) (file : ParsedFile)
    (cache : Query.Cache) :
    ∃ level, (maxNestingLevel.measure registry file cache).1 = .ok level ∧
      IsLevel (registry.activeKinds .nesting file.language) file.root.children.head? level ∧
      level = deepest (registry.activeKinds .nesting file.language)
        (file.root.children.head?.toList.map fun top => (top, 0)) 0 - 1 ∧
      ((∀ top, file.root.children.head? = some top →
          top.kind ∉ registry.activeKinds .comment file.language) →
        IsLevel (registry.activeKinds .nesting file.language) (firstContent? registry file)
          level) ∧
      ∀ top, file.root.children.head? = some top →
        (∀ a below, top.at? a = some below →
          below.kind ∉ registry.activeKinds .nesting file.language) → level = 0 := by
  have told := nestingLevel_eq_depth registry file
  refine ⟨nestingLevel registry file, rfl, ?_⟩
  rw [told, firstContent?]
  cases children : file.root.children with
  | nil => exact ⟨rfl, by simp [deepest], fun _ => rfl, fun _ _ _ => rfl⟩
  | cons top rest =>
      have level : IsLevel (registry.activeKinds .nesting file.language) (some top)
          (depth (registry.activeKinds .nesting file.language) top - 1) :=
        ⟨_, isGreatest_depth _ top, rfl⟩
      refine ⟨level, ?_, fun content => ?_, ?_⟩
      · rw [List.head?_cons, Option.toList_some, List.map_singleton, deepest_singleton]
      · rw [List.find?_cons_of_pos (by simpa using content top rfl)]
        exact level
      · rintro _ ⟨⟩ plain
        show depth _ top - 1 = 0
        rw [depth_eq_zero plain]

/-! ## Comments around a list -/

namespace NestedList

def registry : Registry :=
  ⟨[⟨"comment", .comment, [.json, .yaml], [], none, none⟩,
    ⟨"object", .nesting, [.json], [], none, none⟩, ⟨"array", .nesting, [.json], [], none, none⟩]⟩

/-- A list in a list, from a byte on. -/
def nestedList (source : String) (start : Nat) : Node :=
  let node := Node.inText source
  node "array" true start (start + 5)
    [node "[" false start (start + 1) [],
      node "array" true (start + 1) (start + 4)
        [node "[" false (start + 1) (start + 2) [], node "number" true (start + 2) (start + 3) [],
          node "]" false (start + 3) (start + 4) []],
      node "]" false (start + 4) (start + 5) []]

def fileOf (source : String) (children : List Node) : ParsedFile where
  path := ⟨"a.json"⟩
  language := .json
  source := source
  root := .inText source "document" true 0 13 children

def commentBehind : ParsedFile :=
  fileOf "[[1]] /* c */"
    [nestedList "[[1]] /* c */" 0, .inText "[[1]] /* c */" "comment" true 6 13 []]

def commentBefore : ParsedFile :=
  fileOf "/* c */ [[1]]"
    [.inText "/* c */ [[1]]" "comment" true 0 7 [], nestedList "/* c */ [[1]]" 8]

end NestedList

attribute [local instance] sampleGrammars

open NestedList in
theorem nestingLevel_eq_comment_behind :
    (maxNestingLevel.measure registry commentBehind {}).1 = .ok 1 ∧
      IsLevel (registry.activeKinds .nesting commentBehind.language)
        (firstContent? registry commentBehind) 1 := by
  obtain ⟨level, measured, _, _, content, _⟩ := nestingLevel_eq registry commentBehind {}
  have one : (maxNestingLevel.measure registry commentBehind {}).1 = .ok 1 := by rfl
  cases Except.ok.inj (one.symm.trans measured)
  refine ⟨one, content ?_⟩
  rintro _ ⟨⟩
  decide

open NestedList in
/-- The same list behind a comment is at level zero, though two containers are on one way down from
the first child that is no comment. -/
theorem leading_comment_hides_content :
    (maxNestingLevel.measure registry commentBefore {}).1 = .ok 0 ∧
      IsLevel (registry.activeKinds .nesting commentBefore.language)
        (firstContent? registry commentBefore) 1 ∧
      ¬ IsLevel (registry.activeKinds .nesting commentBefore.language)
        (firstContent? registry commentBefore) 0 := by
  have content : firstContent? registry commentBefore =
      some (nestedList "/* c */ [[1]]" 8) := by rfl
  have two : depth (registry.activeKinds .nesting commentBefore.language)
      (nestedList "/* c */ [[1]]" 8) = 2 := by rfl
  have greatest := two ▸ isGreatest_depth (registry.activeKinds .nesting commentBefore.language)
    (nestedList "/* c */ [[1]]" 8)
  rw [content]
  refine ⟨rfl, ⟨2, greatest, rfl⟩, ?_⟩
  rintro ⟨other, otherGreatest, zero⟩
  rw [otherGreatest.unique greatest] at zero
  cases zero

end Metric

end SourceGauge
