/-
# SourceGauge.Proofs.Coupling.Growth -- how the list of relationships grows

Relationships are only ever added at the end of the list, one at a time.  `Grown`
is a list that came about so, with the rule by which each relationship was
allowed on the list before it:

* `DirectStep`: a candidate between two known types that are not joined yet;
* `ChainStep`: an anchor that leaves a file, taken further through an accessor
  that a segment of one of the file's call chains names (`Hop`).

`direct_grown` and `relationships_grown` say that the resolver does nothing else.
What the rules preserve holds of every relationship (`Grown.forall_mem`), and a
relationship that was added has all before it to rest on (`Grown.step_at`).
-/
import SourceGauge.Coupling.Analyzer

namespace SourceGauge.Coupling

set_option autoImplicit false

/-! ## Growing lists -/

/-- The lists that grow from `start`, each new relationship allowed on the list
before it. -/
inductive Grown (step : List Relationship → Relationship → Prop) (start : List Relationship) :
    List Relationship → Prop
  | start : Grown step start start
  | add {known : List Relationship} {new : Relationship} :
      Grown step start known → step known new → Grown step start (known ++ [new])

namespace Grown

variable {step : List Relationship → Relationship → Prop} {start known : List Relationship}

theorem subset (grown : Grown step start known) : start ⊆ known := by
  induction grown with
  | start => exact fun _ mem => mem
  | add _ _ ih => exact fun r mem => List.mem_append_left _ (ih mem)

/-- What every step hands on from the relationships before holds of them all. -/
theorem forall_mem (grown : Grown step start known) {P : Relationship → Prop}
    (base : ∀ r ∈ start, P r)
    (keeps : ∀ known new, (∀ r ∈ known, P r) → step known new → P new) : ∀ r ∈ known, P r := by
  induction grown with
  | start => exact base
  | @add known new _ allowed ih =>
      intro r mem
      rcases List.mem_append.mp mem with old | last
      · exact ih r old
      · rw [List.mem_singleton.mp last]
        exact keeps known new ih allowed

/-- Each relationship beyond the start was allowed on those before it. -/
theorem step_at (grown : Grown step start known) {before after : List Relationship}
    {r : Relationship} (at_r : known = start ++ before ++ r :: after) :
    step (start ++ before) r := by
  induction grown generalizing after with
  | start =>
      have lengths := congrArg List.length at_r
      simp only [List.length_append, List.length_cons] at lengths
      omega
  | @add known new _ allowed ih =>
      -- `r` is the relationship added last, or stands before it
      rcases List.eq_nil_or_concat after with rfl | ⟨rest, last, rfl⟩
      · obtain ⟨rfl, same⟩ := List.append_inj' at_r rfl
        rw [← List.singleton_inj.mp same]
        exact allowed
      · have regrouped : known ++ [new] = (start ++ before ++ r :: rest) ++ [last] := by
          rw [at_r]
          simp
        exact ih (List.append_inj' regrouped rfl).1

end Grown

/-! ## Direct relationships -/

/-- Relationships that do not join two full names may be left out. -/
theorem areJoined_filter {p : Relationship → Bool} {known : List Relationship}
    {fromName toName : String}
    (keeps : ∀ r ∈ known, r.fromName = fromName → r.toName = toName → p r = true) :
    areJoined (known.filter p) fromName toName = areJoined known fromName toName := by
  rw [Bool.eq_iff_iff]
  simp only [areJoined, List.any_eq_true, List.mem_filter]
  constructor
  · rintro ⟨r, ⟨mem, _⟩, joins⟩
    exact ⟨r, mem, joins⟩
  · rintro ⟨r, mem, joins⟩
    have ends : r.fromName = fromName ∧ r.toName = toName := by
      simpa [Relationship.joins] using joins
    exact ⟨r, ⟨mem, keeps r mem ends.1 ends.2⟩, joins⟩

/-- The relationship of a candidate is added when its ends are not joined yet. -/
def DirectStep (types : List DeclaredType) (candidates : List Candidate)
    (known : List Relationship) (new : Relationship) : Prop :=
  ∃ candidate ∈ candidates, relationshipOf? types candidate = some new ∧
    areJoined known new.fromName new.toName = false

theorem relationshipOf?_some {types : List DeclaredType} {candidate : Candidate}
    {new : Relationship} (found : relationshipOf? types candidate = some new) :
    candidate.used ≠ candidate.origin ∧
      ∃ used origin, typeNamed? types candidate.used = some used ∧
        typeNamed? types candidate.origin = some origin ∧
        new =
          { fromName := candidate.origin
            toName := candidate.used
            fromFile := candidate.file
            toFile := used.file
            fromType := origin.name
            toType := used.name
            kind := kindTowards used candidate.kind } := by
  unfold relationshipOf? at found
  split at found
  · cases found
  · next different =>
    split at found
    · next used origin usedFound originFound =>
      exact ⟨different, used, origin, usedFound, originFound, (Option.some.inj found).symm⟩
    · cases found

theorem addDirect_grown {types : List DeclaredType} {candidates : List Candidate}
    {start known : List Relationship} (grown : Grown (DirectStep types candidates) start known)
    {candidate : Candidate} (mem : candidate ∈ candidates) :
    Grown (DirectStep types candidates) start (addDirect types known candidate) := by
  unfold addDirect
  split
  · exact grown
  · next new found =>
    split
    · exact grown
    · next free => exact grown.add ⟨candidate, mem, found, by simpa using free⟩

theorem addAllDirect_grown (types : List DeclaredType) (candidates : List Candidate) :
    Grown (DirectStep types candidates) [] (addAllDirect types [] candidates) :=
  List.foldlRecOn candidates (addDirect types)
    (motive := Grown (DirectStep types candidates) []) .start
    fun _ grown _ mem => addDirect_grown grown mem

/-! ## Chains -/

/-- The name that a segment looks up: without a question mark at its end. -/
def bareName (segment : String) : String := (Text.stripEnd? "?" segment).getD segment

/-- The relationship from where an anchor starts to where a dependency leads. -/
def Relationship.through (anchor dependency : Relationship) : Relationship :=
  { fromName := anchor.fromName
    toName := dependency.toName
    fromFile := anchor.fromFile
    toFile := dependency.toFile
    fromType := anchor.fromType
    toType := dependency.toType
    kind := .use }

/-- An accessor of a name takes an anchor to a dependency: the anchor leads to a
type that declares the accessor, and the dependency leaves the file of that type
and is named in the accessor's type. -/
def Hop (accessors : List Accessor) (direct : List Relationship) (name : String)
    (anchor dependency : Relationship) : Prop :=
  ∃ accessor ∈ accessors, accessor.name = name ∧
    ∃ declaring ∈ accessor.declaring, anchor.toName = declaring.fullName ∧
      dependency ∈ leaving declaring.file direct ∧
      Text.contains dependency.toType accessor.returnType = true

theorem stepTo?_some {known : List Relationship} {anchor new : Relationship} {returnType : String}
    {dependencies : List Relationship}
    (found : stepTo? known anchor returnType dependencies = some new) :
    ∃ dependency ∈ dependencies, Text.contains dependency.toType returnType = true ∧
      areJoined known anchor.fromName dependency.toName = false ∧
      anchor.fromName ≠ dependency.toName ∧ new = anchor.through dependency := by
  induction dependencies with
  | nil => cases found
  | cons dependency rest ih =>
      unfold stepTo? at found
      split at found
      · obtain ⟨other, mem, facts⟩ := ih found
        exact ⟨other, List.mem_cons_of_mem _ mem, facts⟩
      · next suits =>
        split at found
        · cases found
        · next different =>
          simp only [Bool.or_eq_true, Bool.not_eq_true', not_or, Bool.not_eq_false,
            Bool.not_eq_true] at suits
          exact ⟨dependency, List.mem_cons_self, suits.1, suits.2, different,
            (Option.some.inj found).symm⟩

theorem mem_accessorsNamed {accessors : List Accessor} {name : String}
    {pair : Accessor × DeclaredType} :
    pair ∈ accessorsNamed accessors name ↔
      pair.1 ∈ accessors ∧ pair.1.name = name ∧ pair.2 ∈ pair.1.declaring := by
  obtain ⟨accessor, declaring⟩ := pair
  simp only [accessorsNamed, List.mem_flatMap, List.mem_filter, List.mem_map, Prod.mk.injEq,
    decide_eq_true_eq]
  constructor
  · rintro ⟨_, ⟨mem, named⟩, _, declares, rfl, rfl⟩
    exact ⟨mem, named, declares⟩
  · rintro ⟨mem, named, declares⟩
    exact ⟨accessor, ⟨mem, named⟩, declaring, declares, rfl, rfl⟩

/-- What following a segment adds is the first step through an accessor of its
name that leads to a new relationship. -/
theorem followSegment_eq (accessors : List Accessor) (direct known own gained : List Relationship)
    (segment : String) :
    followSegment accessors direct known own gained segment =
      gained ++ ((accessorsNamed accessors (bareName segment)).findSome? fun pair =>
        stepThrough? direct (known ++ gained) (own ++ gained) pair.1 pair.2).toList := by
  unfold followSegment bareName
  extract_lets name
  cases (accessorsNamed accessors name).findSome? fun pair =>
      stepThrough? direct (known ++ gained) (own ++ gained) pair.1 pair.2 with
  | none => simp
  | some new => simp

/-- Following a segment adds nothing, or one hop that joins two types that were
not joined. -/
theorem followSegment_cases (accessors : List Accessor)
    (direct known own gained : List Relationship) (segment : String) :
    followSegment accessors direct known own gained segment = gained ∨
      ∃ anchor ∈ own ++ gained, ∃ dependency,
        Hop accessors direct (bareName segment) anchor dependency ∧
        anchor.fromName ≠ dependency.toName ∧
        areJoined (known ++ gained) anchor.fromName dependency.toName = false ∧
        followSegment accessors direct known own gained segment =
          gained ++ [anchor.through dependency] := by
  rw [followSegment_eq]
  cases found : (accessorsNamed accessors (bareName segment)).findSome? fun pair =>
      stepThrough? direct (known ++ gained) (own ++ gained) pair.1 pair.2 with
  | none => exact Or.inl (List.append_nil gained)
  | some new =>
      obtain ⟨⟨accessor, declaring⟩, mem, stepped⟩ := List.exists_of_findSome?_eq_some found
      obtain ⟨inTable, named, declares⟩ := mem_accessorsNamed.mp mem
      simp only [stepThrough?] at stepped
      split at stepped
      · cases stepped
      · next anchor anchored =>
        have leads : anchor.toName = declaring.fullName := by
          simpa using List.find?_some anchored
        obtain ⟨dependency, leaves, names, free, different, rfl⟩ := stepTo?_some stepped
        have hop : Hop accessors direct (bareName segment) anchor dependency :=
          ⟨accessor, inTable, named, declaring, declares, leads, leaves, names⟩
        exact Or.inr ⟨anchor, List.mem_of_find?_eq_some anchored, dependency, hop, different, free,
          rfl⟩

def followChain (accessors : List Accessor) (direct known own gained : List Relationship)
    (call : CallChain) : List Relationship :=
  call.segments.foldl (followSegment accessors direct known own) gained

theorem followCalls_eq (accessors : List Accessor) (direct known : List Relationship) (file : Path)
    (calls : List CallChain) :
    followCalls accessors direct known file calls =
      (firstOfEach [] calls).foldl (followChain accessors direct known (leaving file direct)) [] :=
  rfl

theorem mem_of_mem_firstOfEach {seen : List String} {calls : List CallChain} {call : CallChain}
    (mem : call ∈ firstOfEach seen calls) : call ∈ calls := by
  induction calls generalizing seen with
  | nil => exact mem
  | cons head rest ih =>
      simp only [firstOfEach] at mem
      split at mem
      · exact List.mem_cons_of_mem _ (ih mem)
      · rcases List.mem_cons.mp mem with rfl | later
        · exact List.mem_cons_self
        · exact List.mem_cons_of_mem _ (ih later)

namespace Analyzer

/-- What each file gains from its call chains, in the order of the files. -/
def gains (accessors : List Accessor) (direct : List Relationship) :
    List Relationship → PathMap FileCoupling → List (List Relationship)
  | _, [] => []
  | known, (path, file) :: rest =>
      let gained := followCalls accessors direct known path file.calls
      gained :: gains accessors direct (known ++ gained) rest

theorem addChained_eq (accessors : List Accessor) (direct known : List Relationship)
    (files : PathMap FileCoupling) :
    addChained accessors direct known files =
      known ++ (gains accessors direct known files).flatten := by
  induction files generalizing known with
  | nil => simp [addChained, gains]
  | cons item rest ih => simp [addChained, gains, ih]

/-- The relationships that the files gain from their call chains, file by file. -/
def chained (analyzer : Analyzer) : List Relationship :=
  (gains analyzer.accessors analyzer.direct analyzer.direct analyzer.files).flatten

theorem relationships_eq (analyzer : Analyzer) :
    analyzer.relationships = analyzer.direct ++ analyzer.chained :=
  addChained_eq _ _ _ _

/-- A relationship is added when a segment of a call chain of a file takes an
anchor that leaves the file further, to a type that it is not joined with. -/
def ChainStep (analyzer : Analyzer) (known : List Relationship) (new : Relationship) : Prop :=
  ∃ item ∈ analyzer.files, ∃ call ∈ item.2.calls, ∃ segment ∈ call.segments,
    ∃ anchor ∈ known, item.1.same anchor.fromFile = true ∧
      ∃ dependency, Hop analyzer.accessors analyzer.direct (bareName segment) anchor dependency ∧
        anchor.fromName ≠ dependency.toName ∧
        areJoined known anchor.fromName dependency.toName = false ∧
        new = anchor.through dependency

/-- The direct relationships grow from none. -/
theorem direct_grown (analyzer : Analyzer) :
    Grown (DirectStep analyzer.types (analyzer.files.flatMap fun item => item.2.candidates)) []
      analyzer.direct :=
  addAllDirect_grown _ _

/-- What a file gained so far was added by its steps and leaves the file. -/
structure Gained (analyzer : Analyzer) (path : Path) (known gained : List Relationship) : Prop where
  grown : Grown analyzer.ChainStep analyzer.direct (known ++ gained)
  leaves : ∀ r ∈ gained, path.same r.fromFile = true

variable {analyzer : Analyzer} {known gained : List Relationship}

theorem Gained.nil (grown : Grown analyzer.ChainStep analyzer.direct known) (path : Path) :
    analyzer.Gained path known [] :=
  ⟨by simpa using grown, fun _ mem => (List.not_mem_nil mem).elim⟩

theorem Gained.followSegment {item : Path × FileCoupling}
    (sofar : analyzer.Gained item.1 known gained)
    (grown : Grown analyzer.ChainStep analyzer.direct known) (mem : item ∈ analyzer.files)
    {call : CallChain} (memCall : call ∈ item.2.calls) {segment : String}
    (memSegment : segment ∈ call.segments) :
    analyzer.Gained item.1 known (followSegment analyzer.accessors analyzer.direct known
      (leaving item.1 analyzer.direct) gained segment) := by
  rcases followSegment_cases analyzer.accessors analyzer.direct known
    (leaving item.1 analyzer.direct) gained segment with same | ⟨anchor, anchored, step⟩
  · rw [same]
    exact sofar
  · obtain ⟨dependency, hop, different, free, added⟩ := step
    have memAnchor : anchor ∈ known ++ gained ∧ item.1.same anchor.fromFile = true := by
      rcases List.mem_append.mp anchored with own | new
      · obtain ⟨direct, here⟩ := List.mem_filter.mp own
        exact ⟨List.mem_append_left _ (grown.subset direct), here⟩
      · exact ⟨List.mem_append_right _ new, sofar.leaves anchor new⟩
    rw [added]
    refine ⟨?_, ?_⟩
    · rw [← List.append_assoc]
      exact sofar.grown.add ⟨item, mem, call, memCall, segment, memSegment, anchor, memAnchor.1,
        memAnchor.2, dependency, hop, different, free, rfl⟩
    · intro r found
      rcases List.mem_append.mp found with old | new
      · exact sofar.leaves r old
      · rw [List.mem_singleton.mp new]
        exact memAnchor.2

theorem Gained.followSegments {item : Path × FileCoupling}
    (sofar : analyzer.Gained item.1 known gained)
    (grown : Grown analyzer.ChainStep analyzer.direct known) (mem : item ∈ analyzer.files)
    {call : CallChain} (memCall : call ∈ item.2.calls) {segments : List String}
    (within : segments ⊆ call.segments) :
    analyzer.Gained item.1 known (segments.foldl (Coupling.followSegment analyzer.accessors
      analyzer.direct known (leaving item.1 analyzer.direct)) gained) :=
  List.foldlRecOn segments _ (motive := analyzer.Gained item.1 known) sofar
    fun _ more _ memSegment => more.followSegment grown mem memCall (within memSegment)

theorem Gained.followChains {item : Path × FileCoupling}
    (sofar : analyzer.Gained item.1 known gained)
    (grown : Grown analyzer.ChainStep analyzer.direct known) (mem : item ∈ analyzer.files)
    {calls : List CallChain} (within : calls ⊆ item.2.calls) :
    analyzer.Gained item.1 known (calls.foldl (followChain analyzer.accessors analyzer.direct known
      (leaving item.1 analyzer.direct)) gained) :=
  List.foldlRecOn calls _ (motive := analyzer.Gained item.1 known) sofar
    fun _ more _ memCall => more.followSegments grown mem (within memCall) fun _ found => found

theorem followCalls_gained (grown : Grown analyzer.ChainStep analyzer.direct known)
    {item : Path × FileCoupling} (mem : item ∈ analyzer.files) :
    analyzer.Gained item.1 known
      (followCalls analyzer.accessors analyzer.direct known item.1 item.2.calls) :=
  (Gained.nil grown item.1).followChains grown mem fun _ => mem_of_mem_firstOfEach

theorem addChained_grown {files : PathMap FileCoupling} (within : files ⊆ analyzer.files)
    (grown : Grown analyzer.ChainStep analyzer.direct known) :
    Grown analyzer.ChainStep analyzer.direct
      (addChained analyzer.accessors analyzer.direct known files) := by
  induction files generalizing known with
  | nil => exact grown
  | cons item rest ih =>
      exact ih (fun _ mem => within (List.mem_cons_of_mem _ mem))
        (followCalls_gained grown (within List.mem_cons_self)).grown

/-- All relationships grow from the direct ones. -/
theorem relationships_grown (analyzer : Analyzer) :
    Grown analyzer.ChainStep analyzer.direct analyzer.relationships :=
  addChained_grown (fun _ mem => mem) .start

end Analyzer

end SourceGauge.Coupling
