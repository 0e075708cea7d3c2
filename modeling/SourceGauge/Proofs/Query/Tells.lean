/-
# SourceGauge.Proofs.Query.Tells -- patterns that are tests of a node

A pattern whose children capture nothing captures its root alone, in whichever ways its children
fit.  Fits that capture the same are one match, so the pattern has as many matches as there are
nodes that it fits (`Tells.count_eq`), and whether it fits can be said by a test of the node: the
node is what the pattern asks, and some child that may stand in the slot of the inner pattern
passes the test of that (`Tells.child`).
-/
import SourceGauge.Proofs.Query.Fits
import SourceGauge.Proofs.Query.Pieces

namespace SourceGauge.Query

set_option autoImplicit false

/-! ## Slots -/

def Slot.holds (slot : Slot) (test : Node → Bool) (children : List Node) : Bool :=
  if slot.anchored then
    (children.find? Node.isNamed).any fun child => slot.fits child && test child
  else children.any fun child => slot.fits child && test child

/-- A child passes a test that stands in a slot. -/
theorem Slot.holds_iff {slot : Slot} {test : Node → Bool} {children : List (Nat × Node)} :
    slot.holds test (children.map (·.2)) = true ↔
      ∃ child rest, (child, rest) ∈ slot.candidates children ∧ test child.2 = true := by
  unfold holds
  induction children with
  | nil => simp [candidates]
  | cons first others ih =>
      rw [candidates]
      by_cases anchored : slot.anchored = true
      · simp only [anchored, if_true] at ih ⊢
        by_cases isNamed : first.2.isNamed = true
        · by_cases fits : slot.fits first.2 = true <;> simp [isNamed, fits]
        · simpa [isNamed] using ih
      · simp only [anchored, if_false, Bool.false_eq_true] at ih ⊢
        by_cases fits : slot.fits first.2 = true
        · simp only [List.map_cons, List.any_cons, fits, Bool.true_and, Bool.or_eq_true, ih,
            if_true, List.mem_cons, Prod.mk.injEq]
          constructor
          · rintro (passes | ⟨child, rest, mem, passes⟩)
            · exact ⟨first, others, .inl ⟨rfl, rfl⟩, passes⟩
            · exact ⟨child, rest, .inr mem, passes⟩
          · rintro ⟨child, rest, ⟨rfl, _⟩ | mem, passes⟩
            · exact .inl passes
            · exact .inr ⟨child, rest, mem, passes⟩
        · simpa [fits] using ih

/-! ## One match for each node -/

/-- Fits of one key are one match. -/
theorem length_distinct_of_key_eq {fits : List Fit} {key : List (String × Address)}
    (same : ∀ fit ∈ fits, fit.key = key) :
    (distinct fits).length = if fits.isEmpty then 0 else 1 := by
  have keys : (distinct fits).map Fit.key = if fits.isEmpty then [] else [key] := by
    induction fits using List.reverseRecOn with
    | nil => rfl
    | append_singleton fits last ih =>
        simp only [List.mem_append, List.mem_singleton, or_imp, forall_and, forall_eq] at same
        rw [distinct_concat, map_key_mergeInto, ih same.1, same.2]
        cases fits <;> simp
  rw [← List.length_map Fit.key, keys]
  split <;> rfl

/-- The matches of one pattern, node by node. -/
theorem count_singleton (pattern : Pattern) (source : String) (root : Node) :
    count ⟨[⟨pattern, []⟩]⟩ source root =
      (root.entries.map fun entry => (distinct (pattern.findAt entry.1 entry.2)).length).sum := by
  have each : ∀ entry ∈ root.entries, (matchesAt ⟨[⟨pattern, []⟩]⟩ source entry).length =
      (distinct (pattern.findAt entry.1 entry.2)).length := by
    intro entry _
    rw [length_matchesAt]
    simp [Clause.matchesAt]
  rw [count, found, List.length_flatMap, List.map_congr_left each]

/-- A pattern fits just the nodes that pass a test, and captures the same in every way. -/
structure Tells (pattern : Pattern) (captures : Address → Node → List Capture)
    (test : Node → Bool) : Prop where
  captures_eq : ∀ here target, ∀ fit ∈ pattern.findAt here target,
    fit.captures = captures here target
  fits_iff : ∀ here target, (∃ fit, fit ∈ pattern.findAt here target) ↔ test target = true

namespace Tells

variable {pattern inner : Pattern} {test : Node → Bool}

theorem leaf (slot : Slot) (own : Test) (names : List String) :
    Tells (.node slot own [] names []) (capturesOf names) own.accepts := by
  have found : ∀ here target, (Pattern.node slot own [] names []).findAt here target =
      if own.accepts target then [⟨capturesOf names here target, here⟩] else [] := by
    intro here target
    by_cases accepted : own.accepts target = true <;>
      simp [Pattern.findAt, Pattern.findChildren, accepted, Fit.under]
  constructor
  · intro here target fit mem
    rw [found] at mem
    split at mem
    · rw [List.mem_singleton.mp mem]
    · cases mem
  · intro here target
    rw [found]
    split
    · next accepted => simp [accepted]
    · next refused => simp [refused]

theorem exists_findChildren_iff {captures : Address → Node → List Capture}
    (tells : Tells inner captures test) (here : Address) (target : Node) :
    (∃ fit, fit ∈ Pattern.findChildren [inner] here (positioned target)) ↔
      inner.slot.holds test target.children = true := by
  rw [← map_positioned target, Slot.holds_iff]
  constructor
  · rintro ⟨fit, mem⟩
    obtain ⟨child, others, candidate, first, found, _⟩ := Pattern.mem_findChildren_cons_iff.mp mem
    exact ⟨child, others, candidate, (tells.fits_iff _ _).mp ⟨first, found⟩⟩
  · rintro ⟨child, others, candidate, passes⟩
    obtain ⟨first, found⟩ := (tells.fits_iff (here ++ [child.1]) child.2).mpr passes
    exact ⟨_, Pattern.mem_findChildren_cons_iff.mpr
      ⟨child, others, candidate, first, found, ⟨[], here⟩, by simp [Pattern.findChildren], rfl⟩⟩

/-- A node with a pattern for its children that captures nothing: which child fits, and how many
do, does not show. -/
theorem child (tells : Tells inner (fun _ _ => []) test) (slot : Slot) (own : Test)
    (names : List String) :
    Tells (.node slot own [] names [inner]) (capturesOf names)
      fun target => own.accepts target && inner.slot.holds test target.children := by
  constructor
  · intro here target fit mem
    obtain ⟨_, below, found, rfl⟩ := Pattern.mem_findAt_node_iff.mp mem
    obtain ⟨_, _, _, first, inside, later, last, rfl⟩ :=
      Pattern.mem_findChildren_cons_iff.mp found
    rw [Pattern.findChildren, List.mem_singleton] at last
    rw [Fit.under, Fit.followedBy, tells.captures_eq _ _ first inside, last]
    simp
  · intro here target
    rw [Bool.and_eq_true, ← tells.exists_findChildren_iff here target]
    simp only [Pattern.mem_findAt_node_iff]
    constructor
    · rintro ⟨fit, accepted, below, found, _⟩
      exact ⟨accepted, below, found⟩
    · rintro ⟨accepted, below, found⟩
      exact ⟨_, accepted, below, found, rfl⟩

theorem congr {captures : Address → Node → List Capture} {other : Node → Bool}
    (tells : Tells pattern captures test) (same : ∀ node, other node = test node) :
    Tells pattern captures other :=
  (funext same : other = test) ▸ tells

/-- A pattern that asks for fields to be absent as well. -/
theorem without {slot : Slot} {own : Test} {names : List String} {children : List Pattern}
    {captures : Address → Node → List Capture}
    (tells : Tells (.node slot own [] names children) captures test) (absent : List String) :
    Tells (.node slot own absent names children) captures fun target =>
      test target && absent.all fun field => (target.childByField? field).isNone := by
  have found : ∀ here target, (Pattern.node slot own absent names children).findAt here target =
      if absent.all fun field => (target.childByField? field).isNone then
        (Pattern.node slot own [] names children).findAt here target
      else [] := by
    intro here target
    cases lacks : absent.all fun field => (target.childByField? field).isNone <;>
      simp [Pattern.findAt, lacks]
  constructor
  · intro here target fit mem
    rw [found] at mem
    split at mem
    · exact tells.captures_eq here target fit mem
    · cases mem
  · intro here target
    rw [found, Bool.and_eq_true, ← tells.fits_iff here target]
    split
    · next lacks => simp [lacks]
    · next fills => simp [fills]

/-- There is a match at just the nodes that pass the test. -/
theorem exists_match_iff {captures : Address → Node → List Capture}
    (tells : Tells pattern captures test) (source : String) (here : Address) (node : Node) :
    (∃ fit, fit ∈ (Clause.mk pattern []).matchesAt source here node) ↔ test node = true := by
  rw [← tells.fits_iff here node]
  constructor
  · rintro ⟨fit, mem⟩
    exact exists_fit_of_mem_matchesAt mem
  · rintro ⟨fit, among⟩
    obtain ⟨first, mem, _⟩ := exists_mem_distinct_iff.mpr ⟨fit, among, rfl⟩
    exact ⟨first, List.mem_filter.mpr ⟨mem, rfl⟩⟩

/-- What a pattern captures tells its matches apart, so there is one for each node that it fits. -/
theorem length_distinct {captures : Address → Node → List Capture}
    (tells : Tells pattern captures test) (here : Address) (target : Node) :
    (distinct (pattern.findAt here target)).length = if test target then 1 else 0 := by
  have key : ∀ fit ∈ pattern.findAt here target,
      fit.key = (captures here target).map fun capture => (capture.name, capture.address) :=
    fun fit mem => by rw [Fit.key, tells.captures_eq here target fit mem]
  rw [length_distinct_of_key_eq key]
  by_cases passes : test target = true
  · obtain ⟨fit, mem⟩ := (tells.fits_iff here target).mpr passes
    rw [if_pos passes, if_neg]
    simpa using List.ne_nil_of_mem mem
  · have nothing : pattern.findAt here target = [] :=
      List.eq_nil_iff_forall_not_mem.mpr fun fit mem =>
        passes ((tells.fits_iff here target).mp ⟨fit, mem⟩)
    rw [nothing, if_neg passes]
    rfl

theorem count_eq {captures : Address → Node → List Capture}
    (tells : Tells pattern captures test) (source : String) (root : Node) :
    count ⟨[⟨pattern, []⟩]⟩ source root = root.entries.countP fun entry => test entry.2 := by
  simp only [count_singleton, tells.length_distinct]
  induction root.entries with
  | nil => rfl
  | cons entry rest ih => simp [List.countP_cons, ih, Nat.add_comm]

end Tells

end SourceGauge.Query
