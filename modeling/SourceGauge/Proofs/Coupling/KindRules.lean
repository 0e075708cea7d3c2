/-
# SourceGauge.Proofs.Coupling.KindRules -- queries that read kinds only

A `Rule` names the nodes of some kinds that have nodes of given kinds right above
them.  The patterns of both types queries are such rules, and at most one rule of a
query names a node (`Rule.Apart`).  What a query of rules reports is then no matter
of matching or queueing any more: it names the nodes of the tree one by one, in
their order (`marked`).

* `captures_ofRules`: the captures of rules that are apart are the nodes that the
  rules name.
-/
import Mathlib.Data.List.Nodup
import Mathlib.Data.List.Pairwise
import SourceGauge.Query.Captures
import SourceGauge.Proofs.Query.Fits

namespace SourceGauge

set_option autoImplicit false

/-! ## The kinds above a node -/

namespace Node

/-- The kinds of the nodes on the way to an address, outermost first. -/
def kindsAbove : Node → Address → List (Option String)
  | _, [] => []
  | node, i :: rest =>
      node.namedKind? :: ((node.children[i]?).map fun child => kindsAbove child rest).getD []

theorem kindsAbove_append {root node : Node} {a : Address} (found : root.at? a = some node)
    (b : Address) : root.kindsAbove (a ++ b) = root.kindsAbove a ++ node.kindsAbove b := by
  induction a generalizing root with
  | nil =>
      cases found
      rfl
  | cons i a ih =>
      obtain ⟨child, there, found⟩ := Option.bind_eq_some_iff.mp found
      simp [kindsAbove, there, ih found]

theorem length_kindsAbove {root node : Node} {a : Address} (found : root.at? a = some node) :
    (root.kindsAbove a).length = a.length := by
  induction a generalizing root with
  | nil => rfl
  | cons i a ih =>
      obtain ⟨child, there, found⟩ := Option.bind_eq_some_iff.mp found
      simp [kindsAbove, there, ih found]

/-- Kinds are right above a node, when a chain of nodes of these kinds leads to it. -/
theorem suffix_kindsAbove_iff {root node : Node} {a : Address} (found : root.at? a = some node)
    {kinds : List (Option String)} :
    kinds <:+ root.kindsAbove a ↔ ∃ here outer b, a = here ++ b ∧ root.at? here = some outer ∧
      outer.at? b = some node ∧ outer.kindsAbove b = kinds := by
  constructor
  · rintro ⟨before, split⟩
    have bound : before.length ≤ a.length := by
      rw [← length_kindsAbove found, ← split, List.length_append]
      exact Nat.le_add_right ..
    have whole : a = a.take before.length ++ a.drop before.length := by simp
    rw [whole, at?_append] at found
    obtain ⟨outer, there, below⟩ := Option.bind_eq_some_iff.mp found
    rw [whole, kindsAbove_append there] at split
    have length : before.length = (root.kindsAbove (a.take before.length)).length := by
      rw [length_kindsAbove there, List.length_take, Nat.min_eq_left bound]
    exact ⟨_, outer, _, whole, there, below, (List.append_inj split length).2.symm⟩
  · rintro ⟨here, outer, b, rfl, there, _, rfl⟩
    exact ⟨_, (kindsAbove_append there b).symm⟩

end Node

namespace Query

open Pattern (ofKind)

/-! ## Rules -/

/-- A rule that names nodes by their kinds and those right above them. -/
structure Rule where
  /-- The kinds right above, outermost first. -/
  above : List String := []
  kinds : List String
  name : String
  deriving DecidableEq, Repr

namespace Rule

def leaf (rule : Rule) : Pattern :=
  match rule.kinds with
  | [kind] => (ofKind kind []).capture rule.name
  | kinds => .oneOf {} [rule.name] (kinds.map fun kind => ofKind kind [])

def pattern (rule : Rule) : Pattern :=
  rule.above.foldr (fun kind inner => ofKind kind [inner]) rule.leaf

/-- A rule names a node of a tree. -/
def Names (rule : Rule) (root : Node) (entry : Address × Node) : Prop :=
  entry.2.isNamed = true ∧ entry.2.kind ∈ rule.kinds ∧
    rule.above.map some <:+ root.kindsAbove entry.1

instance (rule : Rule) (root : Node) (entry : Address × Node) :
    Decidable (rule.Names root entry) :=
  inferInstanceAs (Decidable (_ ∧ _ ∧ _))

/-- Two rules cannot name one node. -/
def Apart (r s : Rule) : Prop :=
  (∀ kind ∈ r.kinds, kind ∉ s.kinds) ∨ ¬ r.above <:+ s.above ∧ ¬ s.above <:+ r.above

instance (r s : Rule) : Decidable (r.Apart s) := inferInstanceAs (Decidable (_ ∨ _ ∧ _))

theorem Apart.not_both {r s : Rule} (apart : r.Apart s) {root : Node} {entry : Address × Node}
    (first : r.Names root entry) : ¬ s.Names root entry := by
  rintro ⟨_, kind, above⟩
  have unmap : ∀ {x y : List String}, x.map some <:+ y.map some → x <:+ y := by
    intro x y suffix
    simpa [Function.comp_def] using suffix.map fun kind => kind.getD ""
  rcases apart with kinds | ⟨notFirst, notSecond⟩
  · exact kinds _ first.2.1 kind
  · rcases List.suffix_or_suffix_of_suffix first.2.2 above with shorter | shorter
    · exact notFirst (unmap shorter)
    · exact notSecond (unmap shorter)

/-- Of rules that are apart, one names a node. -/
theorem number_eq_of_names {rules : List Rule} (apart : rules.Pairwise Apart) {r s : Rule}
    {i j : Nat} (numberR : rules[i]? = some r) (numberS : rules[j]? = some s) {root : Node}
    {entry : Address × Node} (first : r.Names root entry) (second : s.Names root entry) :
    i = j := by
  obtain ⟨iLt, rfl⟩ := List.getElem?_eq_some_iff.mp numberR
  obtain ⟨jLt, rfl⟩ := List.getElem?_eq_some_iff.mp numberS
  rcases Nat.lt_trichotomy i j with less | same | greater
  · exact absurd second ((List.pairwise_iff_getElem.mp apart i j iLt jLt less).not_both first)
  · exact same
  · exact absurd first ((List.pairwise_iff_getElem.mp apart j i jLt iLt greater).not_both second)

/-! ## The fits of a rule -/

def fit (rule : Rule) (here : Address) (node : Node) : Fit := ⟨[⟨rule.name, here, node⟩], here⟩

theorem findAt_ofKind_leaf (kind : String) (here : Address) (target : Node) :
    (ofKind kind []).findAt here target =
      if (Test.named kind).accepts target then [⟨[], here⟩] else [] := by
  by_cases accepted : (Test.named kind).accepts target = true <;>
    simp [ofKind, Pattern.findAt, Pattern.findChildren, Fit.under, capturesOf, accepted]

theorem mem_findChoices_iff {kinds : List String} {here : Address} {target : Node} {found : Fit} :
    found ∈ Pattern.findChoices (kinds.map fun kind => ofKind kind []) here target ↔
      target.isNamed = true ∧ target.kind ∈ kinds ∧ found = ⟨[], here⟩ := by
  induction kinds with
  | nil => simp [Pattern.findChoices]
  | cons kind rest ih =>
      rw [List.map_cons, Pattern.findChoices, List.mem_append, ih, findAt_ofKind_leaf,
        List.mem_cons]
      by_cases accepted : (Test.named kind).accepts target = true
      · have is : target.isNamed = true ∧ target.kind = kind := by
          simpa [Test.accepts] using accepted
        simp [accepted, is]
      · have other : target.isNamed = true → target.kind ≠ kind := by
          simpa [Test.accepts] using accepted
        rw [if_neg accepted]
        constructor
        · rintro (mem | ⟨named, kind, same⟩)
          · exact absurd mem List.not_mem_nil
          · exact ⟨named, Or.inr kind, same⟩
        · rintro ⟨named, kind | kind, same⟩
          · exact absurd kind (other named)
          · exact Or.inr ⟨named, kind, same⟩

theorem mem_findAt_leaf_iff {rule : Rule} {here : Address} {target : Node} {found : Fit} :
    found ∈ rule.leaf.findAt here target ↔
      target.isNamed = true ∧ target.kind ∈ rule.kinds ∧ found = rule.fit here target := by
  unfold leaf
  split
  · next kind only =>
    by_cases accepted : (Test.named kind).accepts target = true
    · have is : target.isNamed = true ∧ target.kind = kind := by
        simpa [Test.accepts] using accepted
      simp [Pattern.capture, ofKind, Pattern.findAt, Pattern.findChildren, Fit.under, capturesOf,
        accepted, only, is, fit]
    · have other : target.isNamed = true → target.kind ≠ kind := by
        simpa [Test.accepts] using accepted
      simp only [Pattern.capture, ofKind, Pattern.findAt, accepted, only, List.mem_singleton,
        Bool.false_and, Bool.false_eq_true, if_false, List.not_mem_nil, false_iff]
      rintro ⟨named, kind, _⟩
      exact other named kind
  · simp only [Pattern.findAt, List.mem_map, mem_findChoices_iff]
    constructor
    · rintro ⟨_, ⟨named, kind, rfl⟩, rfl⟩
      exact ⟨named, kind, rfl⟩
    · rintro ⟨named, kind, rfl⟩
      exact ⟨_, ⟨named, kind, rfl⟩, rfl⟩

/-- Completed further down, a fit is not changed by the node above. -/
theorem followedBy_none {fit : Fit} {here rest : Address} {i : Nat}
    (below : fit.completed = here ++ i :: rest) : fit.followedBy ⟨[], here⟩ = fit := by
  have later : fit.completed.lt here = false := by
    rw [below]
    exact Address.not_lt_of_lt (Address.lt_append_cons here i rest)
  simp [Fit.followedBy, Address.later, later]

theorem slot_chain (rule : Rule) (above : List String) :
    (above.foldr (fun kind inner => ofKind kind [inner]) rule.leaf).slot = {} := by
  cases above with
  | nil =>
      rw [List.foldr_nil, leaf]
      split <;> rfl
  | cons kind above => rfl

/-- The fits of a chain of kinds are those of its leaf, at the nodes that such a
chain of kinds leads to. -/
theorem mem_findAt_chain_iff {rule : Rule} {above : List String} {here : Address}
    {target : Node} {found : Fit} :
    found ∈ (above.foldr (fun kind inner => ofKind kind [inner]) rule.leaf).findAt here target ↔
      ∃ b node, target.at? b = some node ∧ target.kindsAbove b = above.map some ∧
        node.isNamed = true ∧ node.kind ∈ rule.kinds ∧ found = rule.fit (here ++ b) node := by
  induction above generalizing here target found with
  | nil =>
      rw [List.foldr_nil, mem_findAt_leaf_iff]
      constructor
      · rintro ⟨named, kind, rfl⟩
        exact ⟨[], target, rfl, rfl, named, kind, by simp⟩
      · rintro ⟨b, node, below, kinds, named, kind, rfl⟩
        have there : b = [] := List.eq_nil_of_length_eq_zero (by
          rw [← Node.length_kindsAbove below, kinds]
          rfl)
        subst there
        cases below
        exact ⟨named, kind, by simp⟩
  | cons kind above ih =>
      have slot := slot_chain rule above
      rw [List.foldr_cons, Pattern.mem_findAt_ofKind_iff (by rw [slot])]
      constructor
      · rintro ⟨isKind, i, child, there, _, first, mem, rfl⟩
        obtain ⟨b, node, below, kinds, named, isLeaf, rfl⟩ := ih.mp mem
        refine ⟨i :: b, node, by simp [Node.at?_cons, there, below], ?_, named, isLeaf, ?_⟩
        · simp [Node.kindsAbove, there, kinds, isKind]
        · have completed : (rule.fit (here ++ [i] ++ b) node).completed = here ++ i :: b := by
            simp [fit]
          rw [followedBy_none completed]
          simp
      · rintro ⟨b, node, below, kinds, named, isLeaf, rfl⟩
        cases b with
        | nil => cases kinds
        | cons i b =>
            obtain ⟨child, there, below⟩ := Option.bind_eq_some_iff.mp below
            simp only [Node.kindsAbove, there, Option.map_some, Option.getD_some, List.map_cons,
              List.cons.injEq] at kinds
            have completed : (rule.fit (here ++ i :: b) node).completed = here ++ i :: b := rfl
            exact ⟨kinds.1, i, child, there, by simp [slot, Slot.fits],
              rule.fit (here ++ i :: b) node,
              ih.mpr ⟨b, node, below, kinds.2, named, isLeaf, by simp⟩,
              followedBy_none completed⟩

/-- The distinct fits of a rule at a node are its fits. -/
theorem mem_distinct_iff {rule : Rule} {here : Address} {target : Node} {found : Fit} :
    found ∈ distinct (rule.pattern.findAt here target) ↔
      ∃ b node, target.at? b = some node ∧ target.kindsAbove b = rule.above.map some ∧
        node.isNamed = true ∧ node.kind ∈ rule.kinds ∧ found = rule.fit (here ++ b) node := by
  have all : ∀ found ∈ distinct (rule.pattern.findAt here target), ∃ b node,
      target.at? b = some node ∧ target.kindsAbove b = rule.above.map some ∧
        node.isNamed = true ∧ node.kind ∈ rule.kinds ∧ found = rule.fit (here ++ b) node := by
    refine distinct_forall (fun fit => mem_findAt_chain_iff.mp) ?_
    rintro first second ⟨b, node, below, kinds, named, kind, rfl⟩ ⟨c, _, _, _, _, _, rfl⟩ same
    have address : b = c := by simpa [Fit.key, fit] using same
    exact ⟨b, node, below, kinds, named, kind, by simp [fit, address, Address.earlier]⟩
  constructor
  · exact all found
  · rintro ⟨b, node, below, kinds, named, kind, rfl⟩
    obtain ⟨other, mem, same⟩ := List.mem_map.mp (mem_key_distinct
      (mem_findAt_chain_iff.mpr ⟨b, node, below, kinds, named, kind, rfl⟩))
    obtain ⟨c, there, belowThere, _, _, _, rfl⟩ := all other mem
    have address : c = b := by simpa [Fit.key, fit] using same
    subst address
    rw [below] at belowThere
    cases belowThere
    exact mem

end Rule

/-! ## Queries of rules -/

/-- The query of rules. -/
def ofRules (rules : List Rule) : Query := ofPatterns (rules.map Rule.pattern)

/-- The nodes of a tree that rules name, in their order. -/
def marked (rules : List Rule) (root : Node) : List Capture :=
  root.entries.filterMap fun entry =>
    (rules.find? fun rule => rule.Names root entry).map fun rule => ⟨rule.name, entry.1, entry.2⟩

section Rules

variable {rules : List Rule} {source : String} {root : Node}

theorem mem_found_ofRules_iff {found : Match} :
    found ∈ (ofRules rules).found source root ↔
      root.at? found.root = some found.node ∧ ∃ rule, rules[found.clause]? = some rule ∧
        ∃ b node, found.node.at? b = some node ∧
          found.node.kindsAbove b = rule.above.map some ∧ node.isNamed = true ∧
          node.kind ∈ rule.kinds ∧ found.toFit = rule.fit (found.root ++ b) node := by
  simp only [ofRules, mem_found_ofPatterns, List.getElem?_map, Option.map_eq_some_iff,
    exists_exists_and_eq_and, Rule.mem_distinct_iff]

/-- A match of rules is of a node that one of them names. -/
theorem names_of_mem_found {found : Match} (mem : found ∈ (ofRules rules).found source root) :
    ∃ rule node, rules[found.clause]? = some rule ∧ root.at? found.completed = some node ∧
      rule.Names root (found.completed, node) ∧ found.toFit = rule.fit found.completed node ∧
      ∃ b, found.completed = found.root ++ b ∧ b.length = rule.above.length := by
  obtain ⟨there, rule, numbered, b, node, below, kinds, named, kind, fit⟩ :=
    mem_found_ofRules_iff.mp mem
  have completed : found.completed = found.root ++ b := congrArg Fit.completed fit
  have reached : root.at? found.completed = some node := by
    rw [completed, Node.at?_append, there, Option.bind_some, below]
  have above : rule.above.map some <:+ root.kindsAbove found.completed :=
    (Node.suffix_kindsAbove_iff reached).mpr ⟨_, _, b, completed, there, below, kinds⟩
  have length : b.length = rule.above.length := by
    rw [← Node.length_kindsAbove below, kinds, List.length_map]
  exact ⟨rule, node, numbered, reached, ⟨named, kind, above⟩, completed ▸ fit, b, completed,
    length⟩

/-- What a rule names has a match. -/
theorem exists_mem_found (source : String) {rule : Rule} (mem : rule ∈ rules) {a : Address}
    {node : Node} (reached : root.at? a = some node) (names : rule.Names root (a, node)) :
    ∃ found ∈ (ofRules rules).found source root, found.completed = a := by
  obtain ⟨named, kind, above⟩ := names
  obtain ⟨here, outer, b, rfl, there, below, kinds⟩ :=
    (Node.suffix_kindsAbove_iff reached).mp above
  obtain ⟨number, numbered⟩ := List.mem_iff_getElem?.mp mem
  exact ⟨⟨rule.fit (here ++ b) node, here, outer, number⟩, mem_found_ofRules_iff.mpr
    ⟨there, rule, numbered, b, node, below, kinds, named, kind, rfl⟩, rfl⟩

/-- At most one match of rules that are apart is completed at an address. -/
theorem eq_of_completed (apart : rules.Pairwise Rule.Apart) {first second : Match}
    (memFirst : first ∈ (ofRules rules).found source root)
    (memSecond : second ∈ (ofRules rules).found source root)
    (same : first.completed = second.completed) : first = second := by
  obtain ⟨r, m, numberR, reachedR, namesR, fitR, b, splitR, lengthR⟩ := names_of_mem_found memFirst
  obtain ⟨s, n, numberS, reachedS, namesS, fitS, c, splitS, lengthS⟩ := names_of_mem_found memSecond
  have nodes : n = m := Option.some.inj (reachedS.symm.trans (same ▸ reachedR))
  subst nodes
  have clauses : first.clause = second.clause :=
    Rule.number_eq_of_names apart numberR numberS namesR (same ▸ namesS)
  have rule : s = r := Option.some.inj (numberS.symm.trans (clauses ▸ numberR))
  subst rule
  have roots : first.root = second.root :=
    (List.append_inj' (splitR.symm.trans (same.trans splitS)) (lengthR.trans lengthS.symm)).1
  have inner : first.node = second.node := by
    have there := (mem_found_ofRules_iff.mp memFirst).1
    rw [roots, (mem_found_ofRules_iff.mp memSecond).1] at there
    exact (Option.some.inj there).symm
  calc first
    _ = ⟨first.toFit, first.root, first.node, first.clause⟩ := rfl
    _ = ⟨second.toFit, second.root, second.node, second.clause⟩ := by
      rw [fitR, fitS, same, roots, inner, clauses]
    _ = second := rfl

/-- No match is completed at an address, or one, which captures one node. -/
theorem completed_cases (apart : rules.Pairwise Rule.Apart) (source : String) (root : Node)
    (here : Address) :
    (((ofRules rules).allMatches source root).filter fun found => found.completed = here) = [] ∨
      ∃ found ∈ (ofRules rules).found source root, found.completed = here ∧
        (((ofRules rules).allMatches source root).filter fun found =>
          found.completed = here) = [found] := by
  by_cases none :
      (((ofRules rules).allMatches source root).filter fun found => found.completed = here) = []
  · exact Or.inl none
  · obtain ⟨found, mem⟩ := List.exists_mem_of_ne_nil _ none
    obtain ⟨mem, completed⟩ := List.mem_filter.mp mem
    have nodup : ((ofRules rules).allMatches source root).Nodup :=
      (List.mergeSort_perm ..).nodup_iff.mpr (nodup_found_ofPatterns ..)
    refine Or.inr ⟨found, mem_allMatches_iff.mp mem, of_decide_eq_true completed,
      List.perm_singleton.mp ?_⟩
    refine (List.perm_ext_iff_of_nodup (nodup.filter _) (List.nodup_singleton found)).mpr ?_
    intro other
    rw [List.mem_filter, List.mem_singleton]
    constructor
    · rintro ⟨memOther, completedOther⟩
      exact eq_of_completed apart (mem_allMatches_iff.mp memOther) (mem_allMatches_iff.mp mem)
        ((of_decide_eq_true completedOther).trans (of_decide_eq_true completed).symm)
    · rintro rfl
      exact ⟨mem, completed⟩

/-- What the matches completed at a node capture is the node, if a rule names it. -/
theorem captures_completed (apart : rules.Pairwise Rule.Apart) {here : Address} {node : Node}
    (reached : root.at? here = some node) :
    (((ofRules rules).allMatches source root).filter fun found =>
        found.completed = here).flatMap (·.captures) =
      ((rules.find? fun rule => rule.Names root (here, node)).map fun rule =>
        (⟨rule.name, here, node⟩ : Capture)).toList := by
  cases named : rules.find? fun rule => rule.Names root (here, node) with
  | none =>
      have unnamed : ∀ rule ∈ rules, ¬ rule.Names root (here, node) := by simpa using named
      rcases completed_cases apart source root here with none | ⟨found, mem, completed, _⟩
      · simp [none]
      · obtain ⟨rule, node, numbered, isNode, names, _⟩ := names_of_mem_found mem
        rw [completed, reached] at isNode
        cases isNode
        exact absurd (completed ▸ names) (unnamed rule (List.mem_of_getElem? numbered))
  | some rule =>
      have mem := List.mem_of_find?_eq_some named
      have names : rule.Names root (here, node) := by simpa using List.find?_some named
      obtain ⟨found, memFound, completed⟩ :=
        exists_mem_found source mem reached names
      have inAll : found ∈ ((ofRules rules).allMatches source root).filter fun found =>
          found.completed = here := by
        simpa [completed] using mem_allMatches_iff.mpr memFound
      rcases completed_cases apart source root here with none | ⟨other, _, _, only⟩
      · exact absurd inAll (by simp [none])
      · rw [only, List.mem_singleton] at inAll
        subst inAll
        obtain ⟨first, node, numbered, isNode, namesFirst, fit, _⟩ := names_of_mem_found memFound
        rw [completed, reached] at isNode
        cases isNode
        obtain ⟨number, isRule⟩ := List.mem_iff_getElem?.mp mem
        have same := Rule.number_eq_of_names apart numbered isRule (completed ▸ namesFirst) names
        rw [same, isRule] at numbered
        cases numbered
        have captures : found.captures = [⟨rule.name, found.completed, node⟩] :=
          congrArg Fit.captures fit
        simp [only, captures, completed]

/-- A pattern of a rule holds nothing back. -/
theorem holds_ofRules (rules : List Rule) (root : Node) : (ofRules rules).holds root = [] := by
  have none : ∀ (rule : Rule) (number : Nat) (here : Address) (target : Node),
      Clause.holdsAt ⟨rule.pattern, []⟩ number here target = [] := by
    intro rule number here target
    unfold Rule.pattern
    cases rule.above with
    | nil =>
        rw [List.foldr_nil, Rule.leaf]
        split <;> rfl
    | cons kind above => simp [Clause.holdsAt, ofKind, Pattern.namesOf]
  simp only [holds, List.flatMap_eq_nil_iff]
  intro entry _ item mem
  have clause : item.1 ∈ (ofRules rules).clauses :=
    List.mem_of_getElem? (List.mem_zipIdx_iff_getElem?.mp mem)
  simp only [ofRules, ofPatterns, List.map_map, List.mem_map, Function.comp_apply] at clause
  obtain ⟨rule, _, isClause⟩ := clause
  rw [← isClause]
  exact none rule item.2 entry.1 entry.2

end Rules

/-! ## The walk -/

/-- Every match of a queue is reported. -/
def Drained (queue : List Waiting) : Prop := ∀ waiting ∈ queue, waiting.captures = []

namespace Drained

variable {queue : List Waiting}

theorem pending_append (drained : Drained queue) (waiting : Waiting) :
    pending (queue ++ [waiting]) = waiting.captures.length := by
  induction queue with
  | nil => simp [pending]
  | cons first rest ih =>
      obtain ⟨empty, rest⟩ := List.forall_mem_cons.mp drained
      simpa [pending, empty] using ih rest

theorem leastRank?_append (drained : Drained queue) (waiting : Waiting) :
    leastRank? (queue ++ [waiting]) = waiting.rank? := by
  induction queue with
  | nil => cases rank : waiting.rank? <;> simp [leastRank?, rank]
  | cons first rest ih =>
      obtain ⟨empty, rest⟩ := List.forall_mem_cons.mp drained
      have done : first.rank? = none := by simp [Waiting.rank?, empty]
      rw [List.cons_append, leastRank?, done, ih rest]

theorem takeRank_append (drained : Drained queue) (rank : Rank) (waiting : Waiting) :
    takeRank rank (queue ++ [waiting]) =
      (takeRank rank [waiting]).map fun taken => (taken.1, queue ++ taken.2) := by
  induction queue with
  | nil => simp
  | cons first rest ih =>
      obtain ⟨empty, rest⟩ := List.forall_mem_cons.mp drained
      have done : first.rank? = none := by simp [Waiting.rank?, empty]
      rw [List.cons_append, takeRank, if_neg (by simp [done]), ih rest, Option.map_map]
      rfl

/-- A match that joins a drained queue with one capture is reported at once. -/
theorem release_joined (drained : Drained queue) (clause : Nat) (capture : Capture) :
    release none (pending (queue ++ [⟨clause, [capture]⟩])) (queue ++ [⟨clause, [capture]⟩]) =
      ([capture], queue ++ [⟨clause, []⟩]) := by
  have next : nextCapture? none (queue ++ [⟨clause, [capture]⟩]) =
      some (capture, queue ++ [⟨clause, []⟩]) := by
    simp [nextCapture?, drained.leastRank?_append, drained.takeRank_append, Waiting.rank?,
      takeRank]
  rw [drained.pending_append]
  simp [release, next]

theorem pending_eq (drained : Drained queue) : pending queue = 0 := by
  induction queue with
  | nil => rfl
  | cons first rest ih =>
      obtain ⟨empty, rest⟩ := List.forall_mem_cons.mp drained
      simpa [pending, empty] using ih rest

end Drained

/-- With nothing held back, and at most one capture completed at each node, captures
are reported where they are completed. -/
theorem walk_eq {found : List Match}
    (single : ∀ here, (found.filter fun item => item.completed = here) = [] ∨
      ∃ item capture, (found.filter fun item => item.completed = here) = [item] ∧
        item.captures = [capture])
    (addresses : List Address) {queue : List Waiting} (drained : Drained queue) :
    walk [] found queue addresses = addresses.flatMap fun here =>
      (found.filter fun item => item.completed = here).flatMap (·.captures) := by
  induction addresses generalizing queue with
  | nil => simp [walk, drained.pending_eq, release]
  | cons here rest ih =>
      have unbound : bound? [] here = none := rfl
      rw [walk, unbound, List.flatMap_cons]
      rcases single here with none | ⟨item, capture, one, captures⟩
      · simp only [none, List.map_nil, List.append_nil, drained.pending_eq, release,
          List.nil_append, ih drained, List.flatMap_nil]
      · have after : Drained (queue ++ [⟨item.clause, []⟩]) := by
          intro waiting mem
          rcases List.mem_append.mp mem with old | new
          · exact drained waiting old
          · rw [List.mem_singleton.mp new]
        simp only [one, List.map_cons, List.map_nil, captures, drained.release_joined, ih after,
          List.flatMap_cons, List.flatMap_nil, List.append_nil]

/-- The captures of rules that are apart are the nodes that the rules name. -/
theorem captures_ofRules {rules : List Rule} (apart : rules.Pairwise Rule.Apart)
    (source : String) (root : Node) :
    (ofRules rules).captures source root = marked rules root := by
  have single : ∀ here, (((ofRules rules).allMatches source root).filter fun item =>
        item.completed = here) = [] ∨ ∃ item capture,
      (((ofRules rules).allMatches source root).filter fun item => item.completed = here) =
        [item] ∧ item.captures = [capture] := by
    intro here
    rcases completed_cases apart source root here with none | ⟨item, mem, _, only⟩
    · exact Or.inl none
    · obtain ⟨rule, node, _, _, _, fit, _⟩ := names_of_mem_found mem
      exact Or.inr ⟨item, _, only, congrArg Fit.captures fit⟩
  rw [Query.captures, holds_ofRules, walk_eq single _ fun _ mem => absurd mem List.not_mem_nil,
    marked, List.filterMap_eq_flatMap_toList, List.flatMap_map]
  refine List.flatMap_congr fun entry mem => ?_
  exact captures_completed apart (Node.mem_entries_iff.mp mem)

end Query

end SourceGauge
