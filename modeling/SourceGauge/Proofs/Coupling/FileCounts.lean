/-
# SourceGauge.Proofs.Coupling.FileCounts -- what is counted of a file

The measures of files are taken from a graph that is built edge by edge.  At every step
no two nodes are the same file, the edges are the relationships so far in their order,
and each edge goes from the node of the one file to the node of the other
(`FileGraph.Shows`).  The edges that leave a node are therefore the relationships that
leave its file (`Shows.leaving`), and likewise those that enter it, also where an edge
goes from a node to itself.

* `couplingMeasures_count_types`: the measures are what counting the relationships of
  each file gives, however often and in whatever order they are listed.
-/
import Mathlib.Data.Finset.Image
import Mathlib.Data.List.Dedup
import SourceGauge.Coupling.Measures
import SourceGauge.Proofs.Decimal.Nearest
import SourceGauge.Proofs.Path.Order

namespace SourceGauge.Coupling

set_option autoImplicit false

/-! ## Counting by definition -/

/-- The types that the relationships leaving a file lead to. -/
def typesReached (relationships : List Relationship) (file : Path) : Finset String :=
  ((relationships.filter fun r => file.same r.fromFile).map Relationship.toName).toFinset

/-- The types that the relationships entering a file come from. -/
def typesReaching (relationships : List Relationship) (file : Path) : Finset String :=
  ((relationships.filter fun r => file.same r.toFile).map Relationship.fromName).toFinset

/-- Whether a file is at an end of some relationship. -/
def Touches (relationships : List Relationship) (file : Path) : Prop :=
  ∃ r ∈ relationships, file.same r.fromFile = true ∨ file.same r.toFile = true

section Same

variable {relationships : List Relationship} {file other : Path}

theorem same_congr (same : file.same other = true) (path : Path) :
    file.same path = other.same path := by
  rw [Bool.eq_iff_iff, Path.same_iff, Path.same_iff, Path.same_iff.mp same]

theorem typesReached_congr (same : file.same other = true) :
    typesReached relationships file = typesReached relationships other := by
  simp only [typesReached, same_congr same]

theorem typesReaching_congr (same : file.same other = true) :
    typesReaching relationships file = typesReaching relationships other := by
  simp only [typesReaching, same_congr same]

end Same

/-- What is counted does not depend on the order or the repetition of relationships. -/
theorem typesReached_eq_of_mem_iff {relationships others : List Relationship}
    (members : ∀ r, r ∈ others ↔ r ∈ relationships) (file : Path) :
    typesReached others file = typesReached relationships file ∧
      typesReaching others file = typesReaching relationships file := by
  constructor <;> ext name <;> simp [typesReached, typesReaching, members]

theorem length_eraseDups {α : Type} [DecidableEq α] (items : List α) :
    items.eraseDups.length = items.toFinset.card := by
  induction items using List.reverseRecOn with
  | nil => rfl
  | append_singleton items last ih =>
      rw [List.eraseDups_append, List.length_append, ih, List.toFinset_append]
      by_cases old : last ∈ items
      · have same : items.toFinset ∪ [last].toFinset = items.toFinset :=
          Finset.union_eq_left.mpr (by simpa using old)
        rw [same]
        simp [List.removeAll, old, List.eraseDups_nil]
      · have apart : Disjoint items.toFinset [last].toFinset := by simpa using old
        rw [Finset.card_union_of_disjoint apart]
        simp [List.removeAll, old, List.eraseDups_cons]

/-! ## The graph shows the relationships -/

namespace FileGraph

/-- Different nodes are different files, the edges are the relationships, and each joins the
nodes of its files; there are no other nodes. -/
structure Shows (graph : FileGraph) (relationships : List Relationship) : Prop where
  distinct : graph.files.Pairwise fun p q => p.same q = false
  edges : graph.edges.map Edge.relationship = relationships
  source : ∀ edge ∈ graph.edges, ∃ file, graph.files[edge.source]? = some file ∧
    file.same edge.relationship.fromFile = true
  target : ∀ edge ∈ graph.edges, ∃ file, graph.files[edge.target]? = some file ∧
    file.same edge.relationship.toFile = true
  ends : ∀ file ∈ graph.files, ∃ r ∈ relationships, file = r.fromFile ∨ file = r.toFile

theorem shows_empty : Shows {} [] where
  distinct := List.Pairwise.nil
  edges := rfl
  source _ mem := (List.not_mem_nil mem).elim
  target _ mem := (List.not_mem_nil mem).elim
  ends _ mem := (List.not_mem_nil mem).elim

/-- The node of a file is a node of that file, in a graph with at most this node more. -/
theorem nodeOf_spec {graph next : FileGraph} {file : Path} {node : Nat}
    (result : graph.nodeOf file = (node, next)) :
    (∃ found, next.files[node]? = some found ∧ found.same file = true) ∧
      graph.files <+: next.files ∧ next.edges = graph.edges ∧
      (∀ other ∈ next.files, other ∈ graph.files ∨ other = file) ∧
      ((graph.files.Pairwise fun p q => p.same q = false) →
        next.files.Pairwise fun p q => p.same q = false) := by
  unfold nodeOf at result
  split at result
  · next found known =>
    cases result
    obtain ⟨inside, same, _⟩ := List.findIdx?_eq_some_iff_getElem.mp known
    exact ⟨⟨_, List.getElem?_eq_getElem inside, Path.same_symm same⟩, List.prefix_rfl, rfl,
      fun _ mem => Or.inl mem, id⟩
  · next unknown =>
    cases result
    refine ⟨⟨file, by simp, Path.same_refl file⟩, List.prefix_append _ _, rfl, ?_, ?_⟩
    · intro other mem
      simpa using mem
    · intro distinct
      refine List.pairwise_append.mpr ⟨distinct, List.pairwise_singleton _ _, ?_⟩
      intro p mem q last
      rw [List.mem_singleton.mp last, Path.same_comm]
      exact List.findIdx?_eq_none_iff.mp unknown p mem

theorem Shows.add {graph : FileGraph} {relationships : List Relationship}
    (shows : graph.Shows relationships) (r : Relationship) :
    (graph.add r).Shows (relationships ++ [r]) := by
  rcases first : graph.nodeOf r.fromFile with ⟨source, one⟩
  rcases second : one.nodeOf r.toFile with ⟨target, two⟩
  obtain ⟨⟨fromFile, atSource, sameFrom⟩, more, edgesOne, filesOne, distinctOne⟩ :=
    nodeOf_spec first
  obtain ⟨⟨toFile, atTarget, sameTo⟩, evenMore, edgesTwo, filesTwo, distinctTwo⟩ :=
    nodeOf_spec second
  have added : graph.add r = { two with edges := two.edges ++ [⟨source, target, r⟩] } := by
    simp only [FileGraph.add, first, second]
  -- a node keeps its file when nodes are added
  have keep {node : Nat} {file : Path} {few many : List Path} (within : few <+: many)
      (there : few[node]? = some file) : many[node]? = some file := by
    obtain ⟨rest, rfl⟩ := within
    rw [List.getElem?_append_left (List.getElem?_eq_some_iff.mp there).1, there]
  rw [added, edgesTwo, edgesOne]
  refine ⟨distinctTwo (distinctOne shows.distinct), by simp [shows.edges], ?_, ?_, ?_⟩
  · intro edge mem
    rcases List.mem_append.mp mem with old | last
    · obtain ⟨file, there, same⟩ := shows.source edge old
      exact ⟨file, keep evenMore (keep more there), same⟩
    · rw [List.mem_singleton.mp last]
      exact ⟨fromFile, keep evenMore atSource, sameFrom⟩
  · intro edge mem
    rcases List.mem_append.mp mem with old | last
    · obtain ⟨file, there, same⟩ := shows.target edge old
      exact ⟨file, keep evenMore (keep more there), same⟩
    · rw [List.mem_singleton.mp last]
      exact ⟨toFile, atTarget, sameTo⟩
  · intro file mem
    rcases filesTwo file mem with mem | rfl
    · rcases filesOne file mem with mem | rfl
      · obtain ⟨other, there, isEnd⟩ := shows.ends file mem
        exact ⟨other, List.mem_append_left _ there, isEnd⟩
      · exact ⟨r, by simp, Or.inl rfl⟩
    · exact ⟨r, by simp, Or.inr rfl⟩

theorem shows_ofRelationships (relationships : List Relationship) :
    (ofRelationships relationships).Shows relationships := by
  induction relationships using List.reverseRecOn with
  | nil => exact shows_empty
  | append_singleton relationships last ih =>
      rw [ofRelationships, List.foldl_append]
      exact ih.add last

/-! ## Counting at a node -/

namespace Shows

variable {graph : FileGraph} {relationships : List Relationship}

theorem eq_of_same (shows : graph.Shows relationships) {i j : Nat} {p q : Path}
    (atI : graph.files[i]? = some p) (atJ : graph.files[j]? = some q) (same : p.same q = true) :
    i = j := by
  obtain ⟨insideI, rfl⟩ := List.getElem?_eq_some_iff.mp atI
  obtain ⟨insideJ, rfl⟩ := List.getElem?_eq_some_iff.mp atJ
  have apart := List.pairwise_iff_getElem.mp shows.distinct
  rcases Nat.lt_trichotomy i j with less | equal | greater
  · rw [apart i j insideI insideJ less] at same
    cases same
  · exact equal
  · rw [Path.same_comm, apart j i insideJ insideI greater] at same
    cases same

/-- The edges at a node, by the end that `node` and `file` tell of. -/
theorem edges_at (shows : graph.Shows relationships) {node : Edge → Nat}
    {file : Relationship → Path}
    (tells : ∀ edge ∈ graph.edges, ∃ found, graph.files[node edge]? = some found ∧
      found.same (file edge.relationship) = true)
    {n : Nat} {here : Path} (there : graph.files[n]? = some here) :
    (graph.edges.filter fun edge => node edge = n).map Edge.relationship =
      relationships.filter fun r => here.same (file r) := by
  rw [← shows.edges, List.filter_map]
  refine congrArg _ (List.filter_congr fun edge mem => ?_)
  obtain ⟨found, atNode, same⟩ := tells edge mem
  rw [Bool.eq_iff_iff, decide_eq_true_eq, Function.comp_apply]
  constructor
  · rintro rfl
    rw [there, Option.some.injEq] at atNode
    exact atNode ▸ same
  · intro sameHere
    exact shows.eq_of_same atNode there (Path.same_trans same (Path.same_symm sameHere))

theorem outgoing_eq (shows : graph.Shows relationships) {node : Nat} {file : Path}
    (there : graph.files[node]? = some file) :
    graph.outgoing node = (typesReached relationships file).card := by
  have edges := shows.edges_at shows.source there
  rw [outgoing, length_eraseDups, typesReached, ← edges, List.map_map]
  rfl

theorem incoming_eq (shows : graph.Shows relationships) {node : Nat} {file : Path}
    (there : graph.files[node]? = some file) :
    graph.incoming node = (typesReaching relationships file).card := by
  have edges := shows.edges_at shows.target there
  rw [incoming, length_eraseDups, typesReaching, ← edges, List.map_map]
  rfl

end Shows

/-- Every node's file has its measures, and no other file has any. -/
theorem Shows.measures_spec {graph : FileGraph} {relationships : List Relationship}
    (shows : graph.Shows relationships) :
    graph.measures.Sorted ∧ ∀ item, item ∈ graph.measures ↔
      item.1 ∈ graph.files ∧ item.2 = .ofCounts (typesReached relationships item.1).card
        (typesReaching relationships item.1).card := by
  have distinct : (graph.files.mapIdx fun node file =>
      (file, CouplingMeasures.ofCounts (graph.outgoing node) (graph.incoming node))).Pairwise
      fun a b => a.1.same b.1 = false := by
    rw [List.pairwise_iff_getElem]
    intro i j insideI insideJ less
    rw [List.getElem_mapIdx, List.getElem_mapIdx]
    exact List.pairwise_iff_getElem.mp shows.distinct i j _ _ less
  obtain ⟨sorted, mem⟩ := PathMap.ofLast_distinct distinct
  refine ⟨sorted, fun item => (mem item).trans ?_⟩
  rw [List.mem_mapIdx]
  constructor
  · rintro ⟨node, inside, rfl⟩
    have there := List.getElem?_eq_getElem inside
    exact ⟨List.getElem_mem inside, by rw [shows.outgoing_eq there, shows.incoming_eq there]⟩
  · rintro ⟨node, counted⟩
    obtain ⟨node, inside, there⟩ := List.getElem_of_mem node
    have atNode := there ▸ List.getElem?_eq_getElem inside
    refine ⟨node, inside, ?_⟩
    rw [there, shows.outgoing_eq atNode, shows.incoming_eq atNode, ← counted]

/-- The files at the ends of relationships are nodes. -/
theorem Shows.touches_iff {graph : FileGraph} {relationships : List Relationship}
    (shows : graph.Shows relationships) {file : Path} :
    Touches relationships file ↔ ∃ node ∈ graph.files, file.same node = true := by
  constructor
  · rintro ⟨r, mem, isEnd⟩
    rw [← shows.edges] at mem
    obtain ⟨edge, memEdge, rfl⟩ := List.mem_map.mp mem
    rcases isEnd with leaves | enters
    · obtain ⟨node, there, same⟩ := shows.source edge memEdge
      exact ⟨node, List.mem_of_getElem? there, Path.same_trans leaves (Path.same_symm same)⟩
    · obtain ⟨node, there, same⟩ := shows.target edge memEdge
      exact ⟨node, List.mem_of_getElem? there, Path.same_trans enters (Path.same_symm same)⟩
  · rintro ⟨node, mem, same⟩
    obtain ⟨r, memR, rfl | rfl⟩ := shows.ends node mem
    · exact ⟨r, memR, Or.inl same⟩
    · exact ⟨r, memR, Or.inr same⟩

end FileGraph

/-! ## The measures of files -/

theorem CouplingMeasures.total_pos {relationships : List Relationship} {file : Path}
    (touches : Touches relationships file) :
    1 ≤ (typesReached relationships file).card + (typesReaching relationships file).card := by
  obtain ⟨r, mem, leaves | enters⟩ := touches
  · have reached : r.toName ∈ typesReached relationships file := by
      simp only [typesReached, List.mem_toFinset, List.mem_map, List.mem_filter]
      exact ⟨r, ⟨mem, leaves⟩, rfl⟩
    have := Finset.card_pos.mpr ⟨_, reached⟩
    omega
  · have reaching : r.fromName ∈ typesReaching relationships file := by
      simp only [typesReaching, List.mem_toFinset, List.mem_map, List.mem_filter]
      exact ⟨r, ⟨mem, enters⟩, rfl⟩
    have := Finset.card_pos.mpr ⟨_, reaching⟩
    omega

theorem sorted_couplingMeasures (relationships : List Relationship) :
    (couplingMeasures relationships).Sorted :=
  (FileGraph.shows_ofRelationships relationships).measures_spec.1

/-- The paths of the measures are spelled as in some relationship. -/
theorem exists_end_of_mem_couplingMeasures {relationships : List Relationship}
    {item : Path × CouplingMeasures} (mem : item ∈ couplingMeasures relationships) :
    ∃ r ∈ relationships, item.1 = r.fromFile ∨ item.1 = r.toFile := by
  have shows := FileGraph.shows_ofRelationships relationships
  exact shows.ends item.1 ((shows.measures_spec.2 item).mp mem).1

/-- A file has measures when it is at an end of some relationship, and then those that counting
gives. -/
theorem find?_couplingMeasures {relationships : List Relationship} {file : Path}
    {measures : CouplingMeasures} :
    (couplingMeasures relationships).find? file = some measures ↔
      Touches relationships file ∧ measures = .ofCounts (typesReached relationships file).card
        (typesReaching relationships file).card := by
  have shows := FileGraph.shows_ofRelationships relationships
  obtain ⟨sorted, mem⟩ := shows.measures_spec
  rw [couplingMeasures, sorted.find?_eq_some_iff, shows.touches_iff]
  constructor
  · rintro ⟨item, there, same, rfl⟩
    obtain ⟨node, counted⟩ := (mem item).mp there
    refine ⟨⟨item.1, node, same⟩, ?_⟩
    rw [counted, typesReached_congr same, typesReaching_congr same]
  · rintro ⟨⟨node, there, same⟩, rfl⟩
    refine ⟨(node, .ofCounts (typesReached relationships node).card
      (typesReaching relationships node).card), (mem _).mpr ⟨there, rfl⟩, same, ?_⟩
    rw [typesReached_congr same, typesReaching_congr same]

/-- **The measures of files are counts.**  The files that have measures are those at the ends of
relationships, each once, whatever its spelling.  A file's outgoing dependencies are the
distinct types that the relationships leaving it lead to and its incoming ones the distinct
types that those entering it come from; a relationship within a file counts on both sides.
Their total is at least one, and instability is the share of the outgoing ones, rounded to the
nearest binary.  Relationships may be listed in another order, or repeatedly. -/
theorem couplingMeasures_count_types (relationships : List Relationship) :
    (couplingMeasures relationships).Sorted ∧
      (∀ file, ((couplingMeasures relationships).find? file).isSome ↔
        Touches relationships file) ∧
      (∀ file measures, (couplingMeasures relationships).find? file = some measures →
        measures.outgoing = (typesReached relationships file).card ∧
        measures.incoming = (typesReaching relationships file).card ∧
        measures.total = measures.outgoing + measures.incoming ∧ 1 ≤ measures.total ∧
        0 ≤ (measures.outgoing : ℚ) / measures.total ∧
        (measures.outgoing : ℚ) / measures.total ≤ 1 ∧
        measures.instability = .ofRatio measures.outgoing measures.total ∧
        ∀ other : Decimal.Binary, other.Fits →
          |measures.instability.toRat - measures.outgoing / measures.total| ≤
            |other.toRat - measures.outgoing / measures.total|) ∧
      ∀ others : List Relationship, (∀ r, r ∈ others ↔ r ∈ relationships) → ∀ file,
        (couplingMeasures others).find? file = (couplingMeasures relationships).find? file := by
  refine ⟨sorted_couplingMeasures relationships, fun file => ?_, fun file measures found => ?_,
    fun others members file => ?_⟩
  · simp only [Option.isSome_iff_exists, find?_couplingMeasures, exists_and_left, exists_eq,
      and_true]
  · obtain ⟨touches, rfl⟩ := find?_couplingMeasures.mp found
    have total := CouplingMeasures.total_pos touches
    refine ⟨rfl, rfl, rfl, total, by positivity, ?_, rfl, fun other fits => ?_⟩
    · refine div_le_one_of_le₀ ?_ (by positivity)
      exact_mod_cast Nat.le_add_right _ _
    · exact Decimal.Binary.ofRatio_nearest (Nat.one_le_iff_ne_zero.mp total) fits
  · ext measures
    have touches : Touches others file ↔ Touches relationships file := by
      simp only [Touches, members]
    obtain ⟨reached, reaching⟩ := typesReached_eq_of_mem_iff members file
    rw [find?_couplingMeasures, find?_couplingMeasures, touches, reached, reaching]

/-! ## A relationship within a file -/

namespace WithinFile

/-- A use of one type of a file by another; the file is spelled in two ways. -/
def own : Relationship := ⟨"A", "B", ⟨"src/a.cs"⟩, ⟨"src//a.cs"⟩, "A", "B", .use⟩

def away : Relationship := ⟨"A", "C", ⟨"src/a.cs"⟩, ⟨"c.cs"⟩, "A", "C", .use⟩

end WithinFile

open WithinFile in
theorem couplingMeasures_count_types_within_file :
    (couplingMeasures [own, away, own]).find? ⟨"src/./a.cs"⟩ = some (.ofCounts 2 1) ∧
      2 = (typesReached [own, away, own] ⟨"src/./a.cs"⟩).card ∧
      1 = (typesReaching [own, away, own] ⟨"src/./a.cs"⟩).card ∧
      (∀ r, r ∈ [away, own] ↔ r ∈ [own, away, own]) ∧
      (couplingMeasures [away, own]).find? ⟨"src/./a.cs"⟩ =
        (couplingMeasures [own, away, own]).find? ⟨"src/./a.cs"⟩ := by
  obtain ⟨_, _, counts, anyOrder⟩ := couplingMeasures_count_types [own, away, own]
  have found : (couplingMeasures [own, away, own]).find? ⟨"src/./a.cs"⟩ =
      some (.ofCounts 2 1) := by decide +kernel
  have reached := (counts _ _ found).1
  have reaching := (counts _ _ found).2.1
  have members : ∀ r, r ∈ [away, own] ↔ r ∈ [own, away, own] := by
    intro r
    simp only [List.mem_cons, List.not_mem_nil, or_false]
    rw [← or_assoc, or_comm (a := r = own), or_assoc, or_self]
  exact ⟨found, reached, reaching, members, anyOrder [away, own] members _⟩

end SourceGauge.Coupling
