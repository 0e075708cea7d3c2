/-
# SourceGauge.Proofs.Coupling.ChainsApart -- call chains that do not lean on each other

What one call chain of a file gains can anchor a segment of a later one, so the
order of the chains matters (`chains_depend_on_order`).  A chain `LeansOn` another
where that happens: the other one leads to the type that declares a segment, and
the chain by itself has not come there, from the same name, when it reaches the
segment.

When every accessor name leaves one way to go (`OneWay`), a segment is told by two
names: where it has to be, and where it leads (`wayOf`).  Following it is then a
step on the pairs of names that are joined (`gainEdge`, `ends_followSegment`), and
a chain that leans on nothing gained so far gains what it gains by itself, less
what is there already (`gainEdges_eq`).

* `chains_order_irrelevant`: chains that do not lean on each other join the same
  names in every order, those that they join one by one.
-/
import SourceGauge.Proofs.Coupling.ChainComplete

namespace SourceGauge.Coupling

set_option autoImplicit false

/-! ## Edges -/

/-- Two full names that a relationship joins. -/
abbrev Edge := String × String

/-- The name from which the first edge to a name starts. -/
def originOf? (edges : List Edge) (here : String) : Option String :=
  (edges.find? fun edge => edge.2 = here).map (·.1)

/-- Gain the edge from where an edge to the first name of a way starts to its second
name, unless it is there or would join a name with itself. -/
def gainEdge (known own gained : List Edge) : Option (String × String) → List Edge
  | none => gained
  | some (here, target) =>
      match originOf? (own ++ gained) here with
      | none => gained
      | some origin =>
          if origin = target ∨ (origin, target) ∈ known ++ gained then gained
          else gained ++ [(origin, target)]

/-- Gain the edges of several ways, one after the other. -/
def gainEdges (known own gained : List Edge) (ways : List (Option (String × String))) :
    List Edge :=
  ways.foldl (gainEdge known own) gained

section Edges

variable {own gained others : List Edge}

theorem originOf?_append (edges later : List Edge) (here : String) :
    originOf? (edges ++ later) here = (originOf? edges here).or (originOf? later here) := by
  unfold originOf?
  rw [List.find?_append]
  cases edges.find? fun edge => edge.2 = here <;> simp

theorem originOf?_eq_none_iff {edges : List Edge} {here : String} :
    originOf? edges here = none ↔ ∀ edge ∈ edges, edge.2 ≠ here := by
  simp [originOf?]

/-- Edges that do not lead to a name may be left out. -/
theorem originOf?_filter {p : Edge → Bool} {edges : List Edge} {here : String}
    (keeps : ∀ edge ∈ edges, edge.2 = here → p edge = true) :
    originOf? (edges.filter p) here = originOf? edges here := by
  unfold originOf?
  rw [List.find?_filter]
  congr 1
  induction edges with
  | nil => rfl
  | cons edge rest ih =>
      have later := ih fun other mem => keeps other (List.mem_cons_of_mem _ mem)
      rw [List.find?_cons, List.find?_cons, later]
      by_cases leads : edge.2 = here
      · simp [leads, keeps edge List.mem_cons_self leads]
      · simp [leads]

/-- A way does not lean on other edges, after some were gained without them: where
only these lead to its first name, the gained edges lead there from the same name
as they do. -/
def Free (own gained others : List Edge) (way : Option (String × String)) : Prop :=
  ∀ here target, way = some (here, target) → originOf? own here = none →
    ∀ origin, originOf? others here = some origin → originOf? gained here = some origin

/-- A free way starts from one name, whether the other edges are there or not. -/
theorem Free.originOf?_eq {here target : String}
    (free : Free own gained others (some (here, target))) :
    originOf? (own ++ (others ++ gained.filter (· ∉ others))) here =
      originOf? (own ++ gained) here := by
  rw [originOf?_append, originOf?_append, originOf?_append]
  cases direct : originOf? own here with
  | some origin => rfl
  | none =>
      cases other : originOf? others here with
      | some origin => simp [free here target rfl direct origin other]
      | none =>
          have apart := originOf?_eq_none_iff.mp other
          rw [Option.none_or, Option.none_or, Option.none_or, originOf?_filter]
          intro edge _ leads
          have new : edge ∉ others := fun mem => apart edge mem leads
          simpa using new

/-- A free way adds to other edges what it adds without them, less what is there. -/
theorem gainEdge_of_free (known : List Edge) {way : Option (String × String)}
    (free : Free own gained others way) :
    gainEdge known own (others ++ gained.filter (· ∉ others)) way =
      others ++ (gainEdge known own gained way).filter (· ∉ others) := by
  match way, free with
  | none, _ => rfl
  | some (here, target), free =>
      simp only [gainEdge, free.originOf?_eq]
      cases originOf? (own ++ gained) here with
      | none => rfl
      | some origin =>
          dsimp only
          by_cases there : (origin, target) ∈ others
          · -- without the others the edge may be gained, and is left out again
            rw [if_pos (Or.inr (by simp [there]))]
            split <;> simp [List.filter_append, there]
          · have same : (origin, target) ∈ known ++ (others ++ gained.filter (· ∉ others)) ↔
                (origin, target) ∈ known ++ gained := by
              simp [there]
            simp only [same]
            split
            · rfl
            · simp [List.filter_append, there]

/-- Ways none of which leans on other edges add to them what they add by themselves,
less what is there. -/
theorem gainEdges_eq (known : List Edge) {ways : List (Option (String × String))}
    (free : ∀ before way after, ways = before ++ way :: after →
      Free own (gainEdges known own [] before) others way) :
    gainEdges known own others ways =
      others ++ (gainEdges known own [] ways).filter (· ∉ others) := by
  induction ways using List.reverseRecOn with
  | nil => simp [gainEdges]
  | append_singleton before way ih =>
      have earlier := ih fun first other later split =>
        free first other (later ++ [way]) (by simp [split])
      have here := gainEdge_of_free known (free before way [] rfl)
      simp only [gainEdges, List.foldl_append, List.foldl_cons, List.foldl_nil] at earlier here ⊢
      rw [earlier, here]

end Edges

/-! ## Segments as ways -/

section Segments

variable {accessors : List Accessor} {direct known own gained : List Relationship}

/-- Every accessor name has one accessor, that accessor one declaring type, and its
type names dependencies of that type's file that all lead to one full name. -/
structure OneWay (accessors : List Accessor) (direct : List Relationship) : Prop where
  accessor : ∀ a ∈ accessors, ∀ b ∈ accessors, a.name = b.name → a = b
  declaring : ∀ a ∈ accessors, a.declaring.length = 1
  target : ∀ a ∈ accessors, ∀ type ∈ a.declaring, ∀ d ∈ leaving type.file direct,
    ∀ e ∈ leaving type.file direct, Text.contains d.toType a.returnType = true →
      Text.contains e.toType a.returnType = true → d.toName = e.toName

/-- The way that an accessor of a declaring type opens: from that type to the first
dependency of its file that the accessor's type names. -/
def wayThrough (direct : List Relationship) (pair : Accessor × DeclaredType) :
    Option (String × String) :=
  ((leaving pair.2.file direct).find? fun d => Text.contains d.toType pair.1.returnType).map
    fun d => (pair.2.fullName, d.toName)

def wayOf (accessors : List Accessor) (direct : List Relationship) (segment : String) :
    Option (String × String) :=
  (accessorsNamed accessors (bareName segment)).head?.bind (wayThrough direct)

theorem OneWay.eq_of_mem (oneWay : OneWay accessors direct) {name : String}
    {p q : Accessor × DeclaredType} (memP : p ∈ accessorsNamed accessors name)
    (memQ : q ∈ accessorsNamed accessors name) : p = q := by
  obtain ⟨a, s⟩ := p
  obtain ⟨b, t⟩ := q
  obtain ⟨tableA, namedA, declaresA⟩ := mem_accessorsNamed.mp memP
  obtain ⟨tableB, namedB, declaresB⟩ := mem_accessorsNamed.mp memQ
  have same : a = b := oneWay.accessor a tableA b tableB (namedA.trans namedB.symm)
  subst same
  obtain ⟨type, alone⟩ := List.length_eq_one_iff.mp (oneWay.declaring a tableA)
  simp only [alone, List.mem_singleton] at declaresA declaresB
  rw [declaresA, declaresB]

/-- A search among items that are all the same is a look at the first. -/
theorem findSome?_of_all_eq {α β : Type} {items : List α}
    (same : ∀ a ∈ items, ∀ b ∈ items, a = b) (f : α → Option β) :
    items.findSome? f = items.head?.bind f := by
  cases items with
  | nil => rfl
  | cons first rest =>
      rw [List.findSome?_cons, List.head?_cons, Option.bind_some]
      cases found : f first with
      | some result => rfl
      | none =>
          refine List.findSome?_eq_none_iff.mpr fun a mem => ?_
          rw [same a (List.mem_cons_of_mem _ mem) first List.mem_cons_self]
          exact found

/-- Where the dependencies that a type names lead to one full name, the step goes to
the first of them, unless that is joined already or is where the anchor starts. -/
theorem stepTo?_eq_first (known : List Relationship) (anchor : Relationship) {returnType : String}
    {dependencies : List Relationship}
    (target : ∀ d ∈ dependencies, ∀ e ∈ dependencies, Text.contains d.toType returnType = true →
      Text.contains e.toType returnType = true → d.toName = e.toName) :
    stepTo? known anchor returnType dependencies =
      (dependencies.find? fun d => Text.contains d.toType returnType).bind fun d =>
        if anchor.fromName = d.toName ∨ areJoined known anchor.fromName d.toName = true then none
        else some (anchor.through d) := by
  induction dependencies with
  | nil => rfl
  | cons dependency rest ih =>
      have later := ih fun d memD e memE =>
        target d (List.mem_cons_of_mem _ memD) e (List.mem_cons_of_mem _ memE)
      cases names : Text.contains dependency.toType returnType with
      | false => simp [stepTo?, names, later]
      | true =>
          cases joined : areJoined known anchor.fromName dependency.toName with
          | false => simp [stepTo?, names, joined, Relationship.through]
          | true =>
              -- the rest leads to the same name, so it is joined too
              have none : stepTo? known anchor returnType rest = none := by
                refine Option.eq_none_iff_forall_not_mem.mpr fun new found => ?_
                obtain ⟨d, mem, namesD, free, _, _⟩ := stepTo?_some found
                rw [← target dependency List.mem_cons_self d (List.mem_cons_of_mem _ mem) names
                  namesD, joined] at free
                cases free
              simp [stepTo?, names, joined, none]

theorem originOf?_ends (relationships : List Relationship) (here : String) :
    originOf? (relationships.map Relationship.ends) here =
      (relationships.find? fun r => r.toName = here).map (·.fromName) := by
  unfold originOf?
  rw [List.find?_map, Option.map_map]
  rfl

/-- Following a segment is a step on the names that are joined. -/
theorem OneWay.ends_followSegment (oneWay : OneWay accessors direct)
    (known own gained : List Relationship) (segment : String) :
    (followSegment accessors direct known own gained segment).map Relationship.ends =
      gainEdge (known.map Relationship.ends) (own.map Relationship.ends)
        (gained.map Relationship.ends) (wayOf accessors direct segment) := by
  rw [followSegment_eq, findSome?_of_all_eq (fun p memP q memQ => oneWay.eq_of_mem memP memQ),
    wayOf]
  cases first : (accessorsNamed accessors (bareName segment)).head? with
  | none => simp [gainEdge]
  | some pair =>
      obtain ⟨inTable, _, declares⟩ := mem_accessorsNamed.mp (List.mem_of_head? first)
      have target := oneWay.target pair.1 inTable pair.2 declares
      simp only [Option.bind_some, wayThrough, stepThrough?, stepTo?_eq_first _ _ target]
      cases named : (leaving pair.2.file direct).find? fun d =>
          Text.contains d.toType pair.1.returnType with
      | none =>
          cases (own ++ gained).find? fun r => r.toName = pair.2.fullName <;> simp [gainEdge]
      | some dependency =>
          simp only [Option.map_some, Option.bind_some, gainEdge, ← List.map_append,
            originOf?_ends, ← areJoined_iff]
          cases (own ++ gained).find? fun r => r.toName = pair.2.fullName with
          | none => simp
          | some anchor =>
              simp only [Option.map_some]
              split <;> simp [Relationship.ends, Relationship.through]

theorem OneWay.ends_followSegments (oneWay : OneWay accessors direct)
    (known own gained : List Relationship) (segments : List String) :
    (segments.foldl (followSegment accessors direct known own) gained).map Relationship.ends =
      gainEdges (known.map Relationship.ends) (own.map Relationship.ends)
        (gained.map Relationship.ends) (segments.map (wayOf accessors direct)) := by
  induction segments generalizing gained with
  | nil => rfl
  | cons segment rest ih =>
      rw [List.foldl_cons, ih, oneWay.ends_followSegment]
      rfl

/-! ## Chains that lean on each other -/

/-- A call chain of a file leans on another one at a segment that is declared by a type
to which no direct relationship of the file leads, but the other chain does: by itself
the chain has not come there when it reaches the segment, or from another name. -/
def LeansOn (accessors : List Accessor) (direct known : List Relationship) (file : Path)
    (call other : CallChain) : Prop :=
  ∃ item ∈ call.segments.zipIdx, ∃ pair ∈ accessorsNamed accessors (bareName item.1),
    (∀ r ∈ leaving file direct, r.toName ≠ pair.2.fullName) ∧
    ∃ r ∈ followChain accessors direct known (leaving file direct) [] other,
      r.toName = pair.2.fullName ∧
      ∀ anchor ∈ ((call.segments.take item.2).foldl
          (followSegment accessors direct known (leaving file direct)) []).find?
            (fun a => a.toName = pair.2.fullName),
        anchor.fromName ≠ r.fromName

instance (accessors : List Accessor) (direct known : List Relationship) (file : Path)
    (call other : CallChain) : Decidable (LeansOn accessors direct known file call other) := by
  unfold LeansOn
  infer_instance

variable {file : Path}

/-- The ways of a chain lean on no edges that come from chains on which it does not. -/
theorem OneWay.free_of_not_leansOn (oneWay : OneWay accessors direct) {call : CallChain}
    {others : List Edge}
    (apart : ∀ edge ∈ others, ∃ other, ¬ LeansOn accessors direct known file call other ∧
      edge ∈ (followChain accessors direct known (leaving file direct) [] other).map
        Relationship.ends)
    {before after : List (Option (String × String))} {way : Option (String × String)}
    (split : call.segments.map (wayOf accessors direct) = before ++ way :: after) :
    Free ((leaving file direct).map Relationship.ends)
      (gainEdges (known.map Relationship.ends) ((leaving file direct).map Relationship.ends) []
        before) others way := by
  rintro here target rfl undirected origin leads
  obtain ⟨first, rest, segments, rfl, rest_eq⟩ := List.map_eq_append_iff.mp split
  obtain ⟨segment, later, rfl, segment_eq, rfl⟩ := List.map_eq_cons_iff.mp rest_eq
  -- the segment stands after `first` in the chain, and its way starts at its accessor's type
  have memSegment : (segment, first.length) ∈ call.segments.zipIdx := by
    rw [List.mk_mem_zipIdx_iff_getElem?, segments]
    simp
  obtain ⟨pair, head, opens⟩ := Option.bind_eq_some_iff.mp segment_eq
  have starts : here = pair.2.fullName := by
    obtain ⟨_, _, same⟩ := Option.map_eq_some_iff.mp opens
    exact (congrArg Prod.fst same).symm
  subst starts
  -- the edge that leads there comes from a chain on which this one does not lean
  obtain ⟨edge, found, rfl⟩ := Option.map_eq_some_iff.mp leads
  obtain ⟨other, leansNot, fromOther⟩ := apart edge (List.mem_of_find?_eq_some found)
  have toHere : edge.2 = pair.2.fullName := by simpa using List.find?_some found
  obtain ⟨r, memR, rfl⟩ := List.mem_map.mp fromOther
  have ends := oneWay.ends_followSegments known (leaving file direct) [] first
  rw [List.map_nil] at ends
  rw [← ends, originOf?_ends]
  by_contra elsewhere
  refine leansNot ⟨_, memSegment, pair, List.mem_of_head? head, ?_, r, memR, toHere, ?_⟩
  · intro d mem toType
    exact originOf?_eq_none_iff.mp undirected d.ends (List.mem_map_of_mem mem) toType
  · intro anchor anchored same
    rw [segments, List.take_left] at anchored
    rw [Option.mem_def.mp anchored] at elsewhere
    exact elsewhere (congrArg some same)

/-- Chains that do not lean on each other join the names that they join one by one. -/
theorem OneWay.mem_ends_followChains (oneWay : OneWay accessors direct) {calls : List CallChain}
    (distinct : calls.Nodup)
    (apart : ∀ c ∈ calls, ∀ d ∈ calls, c ≠ d → ¬ LeansOn accessors direct known file c d)
    (edge : Edge) :
    edge ∈ (calls.foldl (followChain accessors direct known (leaving file direct)) []).map
        Relationship.ends ↔
      ∃ call ∈ calls, edge ∈
        (followChain accessors direct known (leaving file direct) [] call).map
          Relationship.ends := by
  induction calls using List.reverseRecOn generalizing edge with
  | nil => simp
  | append_singleton before call ih =>
      obtain ⟨distinctBefore, _, new⟩ := List.nodup_append.mp distinct
      have earlier := ih distinctBefore fun c memC d memD =>
        apart c (List.mem_append_left _ memC) d (List.mem_append_left _ memD)
      have last : call ∈ before ++ [call] := List.mem_append_right _ (List.mem_singleton_self _)
      have fromOthers : ∀ e ∈ (before.foldl
          (followChain accessors direct known (leaving file direct)) []).map Relationship.ends,
          ∃ other, ¬ LeansOn accessors direct known file call other ∧
            e ∈ (followChain accessors direct known (leaving file direct) [] other).map
              Relationship.ends := by
        intro e mem
        obtain ⟨other, memOther, fromOther⟩ := (earlier e).mp mem
        have different : call ≠ other :=
          (new other memOther call (List.mem_singleton_self _)).symm
        exact ⟨other, apart call last other (List.mem_append_left _ memOther) different,
          fromOther⟩
      have added := gainEdges_eq (known.map Relationship.ends) fun _ _ _ =>
        oneWay.free_of_not_leansOn fromOthers
      have alone := oneWay.ends_followSegments known (leaving file direct) [] call.segments
      rw [List.map_nil] at alone
      rw [List.foldl_append, List.foldl_cons, List.foldl_nil, followChain,
        oneWay.ends_followSegments, added, ← alone]
      simp only [List.mem_append, earlier, List.mem_filter, decide_eq_true_eq,
        List.mem_singleton, or_and_right, exists_or, exists_eq_left, followChain]
      constructor
      · rintro (old | ⟨new, _⟩)
        · exact Or.inl old
        · exact Or.inr new
      · rintro (old | new)
        · exact Or.inl old
        · exact (em _).imp_right fun absent => ⟨new, absent⟩

theorem firstOfEach_unseen (seen : List String) (calls : List CallChain) :
    (firstOfEach seen calls).Nodup ∧ ∀ call ∈ firstOfEach seen calls, call.text ∉ seen := by
  induction calls generalizing seen with
  | nil => simp [firstOfEach]
  | cons head rest ih =>
      simp only [firstOfEach]
      split
      · exact ih seen
      · next unseen =>
        obtain ⟨distinct, new⟩ := ih (head.text :: seen)
        refine ⟨List.nodup_cons.mpr ⟨fun mem => new head mem List.mem_cons_self, distinct⟩, ?_⟩
        intro call mem
        rcases List.mem_cons.mp mem with rfl | later
        · simpa using unseen
        · exact fun old => new call later (List.mem_cons_of_mem _ old)

/-- The first of each text are all the chains, when chains of one text are the same. -/
theorem mem_firstOfEach_iff {calls : List CallChain}
    (texts : ∀ c ∈ calls, ∀ d ∈ calls, c.text = d.text → c = d) {call : CallChain} :
    call ∈ firstOfEach [] calls ↔ call ∈ calls := by
  refine ⟨mem_of_mem_firstOfEach, fun mem => ?_⟩
  obtain ⟨first, memFirst, text⟩ := exists_mem_firstOfEach mem List.not_mem_nil
  rwa [← texts first (mem_of_mem_firstOfEach memFirst) call mem text]

/-- **Chains that do not lean on each other have no order.**  Where accessors leave one
way to go, chains of one text are the same and none leans on another, the chains join the
same names in every order: those that each of them joins by itself. -/
theorem chains_order_irrelevant (oneWay : OneWay accessors direct) {calls others : List CallChain}
    (texts : ∀ c ∈ calls, ∀ d ∈ calls, c.text = d.text → c = d)
    (apart : ∀ c ∈ calls, ∀ d ∈ calls, c ≠ d → ¬ LeansOn accessors direct known file c d)
    (reordered : others.Perm calls) (fromName toName : String) :
    (areJoined (followCalls accessors direct known file others) fromName toName =
        areJoined (followCalls accessors direct known file calls) fromName toName) ∧
      (areJoined (followCalls accessors direct known file others) fromName toName = true ↔
        ∃ call ∈ calls, areJoined
          (followChain accessors direct known (leaving file direct) [] call) fromName toName =
            true) := by
  have oneByOne : ∀ list : List CallChain, list.Perm calls →
      (areJoined (followCalls accessors direct known file list) fromName toName = true ↔
        ∃ call ∈ calls, areJoined
          (followChain accessors direct known (leaving file direct) [] call) fromName toName =
            true) := by
    intro list perm
    have same : ∀ call, call ∈ firstOfEach [] list ↔ call ∈ calls := by
      intro call
      rw [mem_firstOfEach_iff fun c memC d memD => texts c (perm.subset memC) d (perm.subset memD)]
      exact perm.mem_iff
    simp only [areJoined_iff, followCalls_eq]
    rw [oneWay.mem_ends_followChains (firstOfEach_unseen [] list).1 fun c memC d memD =>
      apart c ((same c).mp memC) d ((same d).mp memD)]
    simp only [same]
  refine ⟨?_, oneByOne others reordered⟩
  rw [Bool.eq_iff_iff, oneByOne others reordered, oneByOne calls (List.Perm.refl _)]

end Segments

/-! ## A way through four files -/

namespace FourFiles

open TwoFiles (declared uses)

def typeP : DeclaredType := declared "P" ⟨"p.cs"⟩ 0 0

def typeB : DeclaredType := declared "B" ⟨"b.cs"⟩ 0 0

def typeC : DeclaredType := declared "C" ⟨"c.cs"⟩ 0 0

def typeD : DeclaredType := declared "D" ⟨"d.cs"⟩ 0 0

def direct : List Relationship := [uses typeP typeB, uses typeB typeC, uses typeC typeD]

def accessors : List Accessor :=
  [⟨"toC", "C", ⟨"b.cs"⟩, "B.toC", [typeB]⟩, ⟨"toD", "D", ⟨"c.cs"⟩, "C.toD", [typeC]⟩]

def toC : CallChain := ⟨"x.toC", ".", true⟩

def toD : CallChain := ⟨"y.toD", ".", true⟩

def toBoth : CallChain := ⟨"x.toC.toD", ".", true⟩

theorem oneWay : OneWay accessors direct where
  accessor := by decide +kernel
  declaring := by decide +kernel
  target := by decide +kernel

end FourFiles

theorem chains_order_irrelevant_four_files :
    areJoined (followCalls FourFiles.accessors FourFiles.direct FourFiles.direct ⟨"p.cs"⟩
        [FourFiles.toC, FourFiles.toBoth]) "P" "D" =
      areJoined (followCalls FourFiles.accessors FourFiles.direct FourFiles.direct ⟨"p.cs"⟩
        [FourFiles.toBoth, FourFiles.toC]) "P" "D" ∧
    areJoined (followCalls FourFiles.accessors FourFiles.direct FourFiles.direct ⟨"p.cs"⟩
        [FourFiles.toBoth, FourFiles.toC]) "P" "D" = true := by
  refine ⟨?_, by decide +kernel⟩
  exact (chains_order_irrelevant FourFiles.oneWay (by decide +kernel) (by decide +kernel)
    (List.Perm.swap _ _ []) "P" "D").1

/-- A chain that starts at a type to which another chain leads is followed after that
one only: where accessors leave one way to go, and each names one dependency, the order
of two chains still decides what the file gains. -/
theorem chains_depend_on_order :
    OneWay FourFiles.accessors FourFiles.direct ∧
      (∀ a ∈ FourFiles.accessors, ∀ type ∈ a.declaring,
        ((leaving type.file FourFiles.direct).filter fun d =>
          Text.contains d.toType a.returnType).length ≤ 1) ∧
      [FourFiles.toC, FourFiles.toD].Perm [FourFiles.toD, FourFiles.toC] ∧
      followCalls FourFiles.accessors FourFiles.direct FourFiles.direct ⟨"p.cs"⟩
          [FourFiles.toC, FourFiles.toD] =
        [TwoFiles.uses FourFiles.typeP FourFiles.typeC,
          TwoFiles.uses FourFiles.typeP FourFiles.typeD] ∧
      followCalls FourFiles.accessors FourFiles.direct FourFiles.direct ⟨"p.cs"⟩
          [FourFiles.toD, FourFiles.toC] =
        [TwoFiles.uses FourFiles.typeP FourFiles.typeC] := by
  refine ⟨FourFiles.oneWay, by decide +kernel, List.Perm.swap _ _ [], ?_, ?_⟩
  · decide +kernel
  · decide +kernel

end SourceGauge.Coupling
