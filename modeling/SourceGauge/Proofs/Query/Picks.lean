/-
# SourceGauge.Proofs.Query.Picks -- patterns that capture one node each

The patterns of a query may overlap: a node that fits two of them is in a match of each.  Where
every match captures one node, from whose address its root can be told (`Picks`), overlaps are the
only way to meet a node again, for the matches of one pattern at one root have a key each.  So if
no node passes the tests of two patterns, no node is captured twice (`apart_found_ofPatterns`),
and the numbers of nodes that pass a test add up to the number of those that pass any
(`sum_countP_of_exclusive`).
-/
import SourceGauge.Proofs.Query.Completed
import SourceGauge.Proofs.Query.Tells

namespace SourceGauge.Query

set_option autoImplicit false

/-! ## Exclusive tests -/

/-- No node passes both tests. -/
def Exclusive (test other : Node → Bool) : Prop :=
  ∀ node, test node = true → other node = false

theorem countP_or_of_exclusive {test other : Node → Bool} (exclusive : Exclusive test other)
    (entries : List (Address × Node)) :
    (entries.countP fun entry => test entry.2 || other entry.2) =
      (entries.countP fun entry => test entry.2) + entries.countP fun entry => other entry.2 := by
  induction entries with
  | nil => rfl
  | cons entry entries ih =>
      simp only [List.countP_cons, ih]
      cases passes : test entry.2 with
      | false => simp only [Bool.false_or, Bool.false_eq_true, if_false]; omega
      | true =>
          simp only [exclusive _ passes, Bool.true_or, Bool.false_eq_true, if_true, if_false]
          omega

/-- Of tests that exclude each other a node passes one or none. -/
theorem sum_countP_of_exclusive {tests : List (Node → Bool)}
    (exclusive : tests.Pairwise Exclusive) (entries : List (Address × Node)) :
    (tests.map fun test => entries.countP fun entry => test entry.2).sum =
      entries.countP fun entry => tests.any fun test => test entry.2 := by
  induction exclusive with
  | nil => simp
  | @cons test rest first _ ih =>
      have apart : Exclusive test fun node => rest.any fun other => other node :=
        fun node passes => List.any_eq_false.mpr fun other mem => by
          simp [first other mem node passes]
      rw [List.map_cons, List.sum_cons, ih, ← countP_or_of_exclusive apart]
      rfl

/-! ## Captured nodes -/

/-- No node is captured by two of the matches. -/
def Apart (found : List Match) : Prop :=
  found.Pairwise fun first second =>
    ∀ capture ∈ first.captures, ∀ other ∈ second.captures, capture.address ≠ other.address

/-- Every fit of a pattern captures one node, which passes a test, and the address of that node
tells where the fit is rooted. -/
structure PicksAs (pattern : Pattern) (name : String) (origin : Address → Address)
    (test : Node → Bool) : Prop where
  captures_eq : ∀ here target, ∀ fit ∈ pattern.findAt here target,
    ∃ a node, fit.captures = [⟨name, a, node⟩] ∧ origin a = here ∧ test node = true

/-- A pattern picks nodes that pass a test. -/
def Picks (pattern : Pattern) (test : Node → Bool) : Prop :=
  ∃ name origin, PicksAs pattern name origin test

/-- A pattern that is a test of its root picks the root. -/
theorem Tells.picks {pattern : Pattern} {name : String} {test : Node → Bool}
    (tells : Tells pattern (capturesOf [name]) test) : Picks pattern test :=
  ⟨name, id, ⟨fun here target fit mem => ⟨here, target, tells.captures_eq here target fit mem, rfl,
    (tells.fits_iff here target).mp ⟨fit, mem⟩⟩⟩⟩

variable {patterns : List Pattern} {tests : List (Node → Bool)} {source : String} {root : Node}

/-- What a match captures whose pattern picks nodes. -/
theorem PicksAs.of_captured {pattern : Pattern} {name : String} {origin : Address → Address}
    {test : Node → Bool} (picks : PicksAs pattern name origin test) {found : Match}
    (mem : found ∈ (ofPatterns patterns).found source root)
    (numbered : patterns[found.clause]? = some pattern) {capture : Capture}
    (captured : capture ∈ found.captures) :
    found.captures = [capture] ∧ capture.name = name ∧ origin capture.address = found.root ∧
      test capture.node = true := by
  obtain ⟨_, _, same, merged⟩ := mem_found_ofPatterns.mp mem
  cases numbered.symm.trans same
  obtain ⟨fit, memFit, captures⟩ := exists_mem_distinct_iff.mp ⟨found.toFit, merged, rfl⟩
  obtain ⟨a, node, picked, isOrigin, passes⟩ := picks.captures_eq _ _ fit memFit
  rw [← captures, picked, List.mem_singleton] at captured
  subst captured
  exact ⟨captures.symm.trans picked, rfl, isOrigin, passes⟩

/-- Matches at one root and of one pattern are the same if they have the same key. -/
theorem eq_of_key {first second : Match}
    (memFirst : first ∈ (ofPatterns patterns).found source root)
    (memSecond : second ∈ (ofPatterns patterns).found source root)
    (sameRoot : first.root = second.root) (sameClause : first.clause = second.clause)
    (sameKey : first.key = second.key) : first = second := by
  obtain ⟨there, pattern, numbered, merged⟩ := mem_found_ofPatterns.mp memFirst
  obtain ⟨thereToo, _, numberedToo, mergedToo⟩ := mem_found_ofPatterns.mp memSecond
  obtain ⟨fit, a, node, clause⟩ := first
  obtain ⟨other, b, node', clause'⟩ := second
  cases sameRoot
  cases sameClause
  cases numbered.symm.trans numberedToo
  cases Option.some.inj (there.symm.trans thereToo)
  have same : fit = other :=
    List.inj_on_of_nodup_map (nodup_key_distinct _) merged mergedToo sameKey
  rw [same]

/-- The test of a pattern stands at its place. -/
theorem exists_test_of_picks (picks : List.Forall₂ Picks patterns tests) {i : Nat}
    {pattern : Pattern} (numbered : patterns[i]? = some pattern) :
    ∃ test, tests[i]? = some test ∧ Picks pattern test := by
  induction picks generalizing i with
  | nil => cases numbered
  | @cons first test _ _ head _ ih =>
      cases i with
      | zero =>
          cases numbered
          exact ⟨test, rfl, head⟩
      | succ i => exact ih numbered

/-- A node passes one of the tests at most. -/
theorem number_eq_of_exclusive (exclusive : tests.Pairwise Exclusive) {i j : Nat}
    {test other : Node → Bool} (first : tests[i]? = some test) (second : tests[j]? = some other)
    {node : Node} (passes : test node = true) (passesToo : other node = true) : i = j := by
  obtain ⟨inFirst, rfl⟩ := List.getElem?_eq_some_iff.mp first
  obtain ⟨inSecond, rfl⟩ := List.getElem?_eq_some_iff.mp second
  have parted := List.pairwise_iff_getElem.mp exclusive
  rcases Nat.lt_trichotomy i j with less | same | more
  · simp [parted i j inFirst inSecond less node passes] at passesToo
  · exact same
  · simp [parted j i inSecond inFirst more node passesToo] at passes

/-- Where no node passes the tests of two patterns, none is captured twice. -/
theorem apart_found_ofPatterns (picks : List.Forall₂ Picks patterns tests)
    (exclusive : tests.Pairwise Exclusive) (source : String) (root : Node) :
    Apart ((ofPatterns patterns).found source root) := by
  refine (nodup_found_ofPatterns patterns source root).imp_of_mem
    fun {first second} memFirst memSecond different capture captured other capturedToo same =>
      different ?_
  obtain ⟨_, pattern, numbered, _⟩ := mem_found_ofPatterns.mp memFirst
  obtain ⟨_, patternToo, numberedToo, _⟩ := mem_found_ofPatterns.mp memSecond
  obtain ⟨test, isTest, name, origin, picksFirst⟩ := exists_test_of_picks picks numbered
  obtain ⟨testToo, isTestToo, _, _, picksSecond⟩ := exists_test_of_picks picks numberedToo
  have sameNode : capture.node = other.node := by
    have there := (completed_not_lt_of_mem_found memFirst captured).1
    rw [same, (completed_not_lt_of_mem_found memSecond capturedToo).1] at there
    exact (Option.some.inj there).symm
  obtain ⟨captures, named, isRoot, passes⟩ := picksFirst.of_captured memFirst numbered captured
  obtain ⟨_, _, _, passesToo⟩ := picksSecond.of_captured memSecond numberedToo capturedToo
  -- one node passes one test, so the pattern is one, and tells the root
  have sameClause : first.clause = second.clause :=
    number_eq_of_exclusive exclusive isTest isTestToo passes (sameNode ▸ passesToo)
  obtain ⟨capturesToo, namedToo, isRootToo, _⟩ :=
    picksFirst.of_captured memSecond (sameClause ▸ numbered) capturedToo
  refine eq_of_key memFirst memSecond (by rw [← isRoot, ← isRootToo, same]) sameClause ?_
  simp [Fit.key, captures, capturesToo, named, namedToo, same]

/-! ## A captured child -/

/-- The fit that captures a child of the node at `here`. -/
def Fit.ofChild (name : String) (here : Address) (child : Nat × Node) : Fit :=
  ⟨[⟨name, here ++ [child.1], child.2⟩], Address.later (here ++ [child.1]) here⟩

theorem Slot.map_candidates (children : List (Nat × Node)) :
    (Slot.candidates {} children).map (·.1) = children := by
  induction children with
  | nil => rfl
  | cons child rest ih => simpa [candidates, fits] using ih

variable {kind inner name : String}

theorem findChildren_captured (here : Address) (children : List (Nat × Node)) :
    Pattern.findChildren [(Pattern.ofKind inner []).capture name] here children =
      (children.filter fun child => child.2.namedKind? = some inner).map
        (Fit.ofChild name here) := by
  have each : ∀ child : Nat × Node,
      ((Pattern.ofKind inner []).capture name).findAt (here ++ [child.1]) child.2 =
        if child.2.namedKind? = some inner then
          [⟨[⟨name, here ++ [child.1], child.2⟩], here ++ [child.1]⟩]
        else [] := by
    intro child
    by_cases isInner : child.2.namedKind? = some inner <;>
      simp [Pattern.ofKind, Pattern.capture, Pattern.findAt, Pattern.findChildren, Fit.under,
        capturesOf, Pattern.accepts_named_eq, isInner]
  conv_rhs => rw [← Slot.map_candidates children]
  rw [Pattern.findChildren]
  change (Slot.candidates {} children).flatMap _ = _
  induction Slot.candidates {} children with
  | nil => rfl
  | cons candidate rest ih =>
      rw [List.flatMap_cons, ih, List.map_cons, List.filter_cons, each]
      by_cases isInner : candidate.1.2.namedKind? = some inner <;>
        simp [isInner, Pattern.findChildren, Fit.followedBy, Fit.ofChild]

/-- The fits of a kind with a child that is captured. -/
theorem findAt_captured_child (here : Address) (target : Node) :
    (Pattern.ofKind kind [(Pattern.ofKind inner []).capture name]).findAt here target =
      if target.namedKind? = some kind then
        ((positioned target).filter fun child => child.2.namedKind? = some inner).map
          (Fit.ofChild name here)
      else [] := by
  have same : Fit.under [] here target = id := rfl
  rw [Pattern.ofKind, Pattern.findAt, findChildren_captured, same, List.map_id]
  simp [Pattern.accepts_named_eq]

/-- A captured child tells its parent. -/
theorem picks_captured_child :
    Picks (.ofKind kind [(Pattern.ofKind inner []).capture name])
      fun node => node.namedKind? = some inner := by
  refine ⟨name, List.dropLast, ⟨fun here target fit mem => ?_⟩⟩
  rw [findAt_captured_child] at mem
  split at mem
  · obtain ⟨child, among, rfl⟩ := List.mem_map.mp mem
    exact ⟨here ++ [child.1], child.2, rfl, List.dropLast_concat, (List.mem_filter.mp among).2⟩
  · cases mem

/-- Fits of different keys stay apart. -/
theorem map_key_distinct_of_nodup {fits : List Fit} (nodup : (fits.map Fit.key).Nodup) :
    (distinct fits).map Fit.key = fits.map Fit.key := by
  induction fits using List.reverseRecOn with
  | nil => rfl
  | append_singleton fits fit ih =>
      rw [List.map_append, List.nodup_append] at nodup
      have new : fit.key ∉ fits.map Fit.key := fun old =>
        nodup.2.2 fit.key old fit.key (List.mem_singleton_self _) rfl
      rw [distinct_concat, map_key_mergeInto, ih nodup.1, if_neg new, List.map_append]
      rfl

theorem nodup_key_ofChild (name : String) (here : Address) (target : Node)
    (holds : Nat × Node → Bool) :
    ((((positioned target).filter holds).map (Fit.ofChild name here)).map Fit.key).Nodup := by
  have positions : ((positioned target).map (·.1)).Nodup := by
    simp [positioned, Function.comp_def, List.nodup_range']
  rw [List.map_map]
  refine List.Nodup.map_on ?_ (positions.of_map.filter _)
  intro first memFirst second memSecond same
  have position : first.1 = second.1 := by simpa [Fit.key, Fit.ofChild] using same
  exact List.inj_on_of_nodup_map positions (List.mem_of_mem_filter memFirst)
    (List.mem_of_mem_filter memSecond) position

/-- There is a match for each captured child. -/
theorem count_captured_child (source : String) (root : Node) :
    count ⟨[⟨.ofKind kind [(Pattern.ofKind inner []).capture name], []⟩]⟩ source root =
      (root.entries.map fun entry =>
        if entry.2.namedKind? = some kind then
          entry.2.children.countP fun child => child.namedKind? = some inner
        else 0).sum := by
  rw [count_singleton]
  refine congrArg List.sum (List.map_congr_left fun entry _ => ?_)
  rw [findAt_captured_child]
  split
  · have lengths := congrArg List.length (map_key_distinct_of_nodup
      (nodup_key_ofChild name entry.1 entry.2 fun child =>
        child.2.namedKind? = some inner))
    simp only [List.length_map] at lengths
    rw [lengths, ← List.countP_eq_length_filter, ← map_positioned, List.countP_map]
    rfl
  · rfl

/-! ## Texts -/

variable [Grammars]

/-- A text with one pattern, which picks nodes that pass a test. -/
def TextPicks (language : Language) (text : String) (test : Node → Bool) : Prop :=
  ∃ pattern, compile language text = .ok ⟨[⟨pattern, []⟩]⟩ ∧ Picks pattern test

/-- A text with one pattern, which captures just the nodes that pass a test. -/
def TextTells (language : Language) (text : String) (test : Node → Bool) : Prop :=
  ∃ pattern name, compile language text = .ok ⟨[⟨pattern, []⟩]⟩ ∧
    Tells pattern (capturesOf [name]) test

variable {language : Language} {text : String} {test : Node → Bool} {texts : List String}

theorem TextTells.picks (tells : TextTells language text test) : TextPicks language text test := by
  obtain ⟨pattern, name, compiled, told⟩ := tells
  exact ⟨pattern, compiled, told.picks⟩

theorem TextTells.countText_eq (tells : TextTells language text test) (source : String)
    (root : Node) :
    countText language source root text = root.entries.countP fun entry => test entry.2 := by
  obtain ⟨pattern, name, compiled, told⟩ := tells
  rw [countText, clausesOf, compiled, told.count_eq]

theorem sum_countText_of_tells (tells : List.Forall₂ (TextTells language) texts tests)
    (exclusive : tests.Pairwise Exclusive) (source : String) (root : Node) :
    (texts.map (countText language source root)).sum =
      root.entries.countP fun entry => tests.any fun test => test entry.2 := by
  have each : texts.map (countText language source root) =
      tests.map fun test => root.entries.countP fun entry => test entry.2 := by
    induction tells with
    | nil => rfl
    | cons first _ ih =>
        rw [List.map_cons, List.map_cons, first.countText_eq,
          ih (List.pairwise_cons.mp exclusive).2]
  rw [each, sum_countP_of_exclusive exclusive]

theorem compiles_of_picks (picks : List.Forall₂ (TextPicks language) texts tests) :
    ∀ text ∈ texts, Key.Compiles (language, text) := by
  induction picks with
  | nil => simp
  | cons first _ ih =>
      obtain ⟨pattern, compiled, _⟩ := first
      exact List.forall_mem_cons.mpr ⟨⟨_, compiled⟩, ih⟩

/-- Texts whose tests exclude each other make up a query that captures no node twice. -/
theorem exists_compile_join_apart (picks : List.Forall₂ (TextPicks language) texts tests)
    (exclusive : tests.Pairwise Exclusive) (source : String) (root : Node) :
    ∃ query, compile language (Text.join "\n" texts) = .ok query ∧
      Apart (query.found source root) := by
  have patterns : ∃ patterns, texts.flatMap (clausesOf language) = (ofPatterns patterns).clauses ∧
      List.Forall₂ Picks patterns tests := by
    clear exclusive
    induction picks with
    | nil => exact ⟨[], rfl, .nil⟩
    | cons first _ ih =>
        obtain ⟨pattern, compiled, picked⟩ := first
        obtain ⟨patterns, clauses, picks⟩ := ih
        refine ⟨pattern :: patterns, ?_, .cons picked picks⟩
        rw [List.flatMap_cons, clauses, clausesOf, compiled]
        rfl
  obtain ⟨patterns, clauses, picked⟩ := patterns
  refine ⟨ofPatterns patterns, ?_, apart_found_ofPatterns picked exclusive source root⟩
  rw [compile_join (compiles_of_picks picks), clauses]

end SourceGauge.Query
