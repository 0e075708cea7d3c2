/-
# SourceGauge.Proofs.Coupling.Sides -- files that do not refer to each other

Let every path be on a side, and let the files of different sides stay apart
(`Analyzer.Apart`): what a candidate names is declared, if at all, on the side of
its file only.  Then no relationship leaves its side.  A direct one does not by
assumption, and a chained one does not because the type that its anchor leads to
is declared in the file that its dependency leaves (`Apart.grown_stays`).

So whether two names are joined already depends on one side alone, and with it all
that the resolver does for the files of that side.

* `Apart.relationships_onSide`: the relationships that leave the files of a side
  are the relationships of that side by itself.
-/
import SourceGauge.Proofs.Coupling.ChainSound

namespace SourceGauge.Coupling

set_option autoImplicit false

/-! ## Lists -/

section Lists

variable {α β : Type}

/-- What the items that are kept give is kept, when each keeps all or nothing of
what it gives. -/
theorem flatMap_filter {p : α → Bool} {q : β → Bool} {f : α → List β} {items : List α}
    (agree : ∀ a ∈ items, ∀ b ∈ f a, q b = p a) :
    (items.filter p).flatMap f = (items.flatMap f).filter q := by
  induction items with
  | nil => rfl
  | cons a rest ih =>
      have later := ih fun a mem => agree a (List.mem_cons_of_mem _ mem)
      have here := agree a List.mem_cons_self
      rw [List.flatMap_cons, List.filter_append, ← later]
      cases kept : p a with
      | true =>
          rw [List.filter_cons_of_pos kept, List.flatMap_cons,
            List.filter_eq_self.mpr fun b mem => (here b mem).trans kept]
      | false =>
          have nothing : (f a).filter q = [] :=
            List.filter_eq_nil_iff.mpr fun b mem => by simp [(here b mem).trans kept]
          rw [List.filter_cons_of_neg (by simp [kept]), nothing, List.nil_append]

/-- A search among the items that are kept finds what a search among all finds, when the others
give nothing. -/
theorem findSome?_filter {p : α → Bool} {f g : α → Option β} {items : List α}
    (agree : ∀ a ∈ items, p a = true → f a = g a) (idle : ∀ a ∈ items, p a = false → g a = none) :
    (items.filter p).findSome? f = items.findSome? g := by
  induction items with
  | nil => rfl
  | cons a rest ih =>
      have later := ih (fun a mem => agree a (List.mem_cons_of_mem _ mem))
        fun a mem => idle a (List.mem_cons_of_mem _ mem)
      cases kept : p a with
      | true =>
          rw [List.filter_cons_of_pos kept, List.findSome?_cons, List.findSome?_cons, later,
            agree a List.mem_cons_self kept]
      | false =>
          rw [List.filter_cons_of_neg (by simp [kept]), List.findSome?_cons,
            idle a List.mem_cons_self kept, later]

theorem find?_filter {p q : α → Bool} {items : List α} {a : α} (found : items.find? q = some a)
    (kept : p a = true) : (items.filter p).find? q = some a := by
  obtain ⟨suits, before, after, rfl, earlier⟩ := List.find?_eq_some_iff_append.mp found
  rw [List.filter_append, List.filter_cons_of_pos kept]
  exact List.find?_eq_some_iff_append.mpr ⟨suits, _, _, rfl, fun b mem =>
    earlier b (List.mem_filter.mp mem).1⟩

/-- Two folds agree when their steps agree where the first one comes by. -/
theorem foldl_eq_of_motive {f g : β → α → β} {motive : β → Prop} {items : List α} {start : β}
    (base : motive start) (keeps : ∀ b, motive b → ∀ a ∈ items, motive (f b a))
    (same : ∀ b, motive b → ∀ a ∈ items, f b a = g b a) :
    items.foldl f start = items.foldl g start := by
  induction items generalizing start with
  | nil => rfl
  | cons a rest ih =>
      rw [List.foldl_cons, List.foldl_cons, ← same start base a List.mem_cons_self]
      exact ih (keeps start base a List.mem_cons_self)
        (fun b inv a mem => keeps b inv a (List.mem_cons_of_mem _ mem))
        fun b inv a mem => same b inv a (List.mem_cons_of_mem _ mem)

end Lists

/-! ## Sides -/

namespace Analyzer

variable {σ : Type} {analyzer : Analyzer} {side : Path → σ}

/-- The files of different sides do not refer to each other.  A full name may be
declared on several sides, if it has the same last name there. -/
structure Apart (analyzer : Analyzer) (side : Path → σ) : Prop where
  path : ∀ p q : Path, p.same q = true → side p = side q
  used : ∀ item ∈ analyzer.files, ∀ candidate ∈ item.2.candidates,
    ∀ path, analyzer.Declares path candidate.used → side path = side item.1
  name : ∀ type ∈ analyzer.types, ∀ other ∈ analyzer.types, side type.file ≠ side other.file →
    type.fullName = other.fullName → type.name = other.name

/-- Where a relationship leads is declared on the side that it leaves from only. -/
def Stays (analyzer : Analyzer) (side : Path → σ) (r : Relationship) : Prop :=
  ∀ path, analyzer.Declares path r.toName → side path = side r.fromFile

theorem Apart.relationshipOf?_stays (apart : analyzer.Apart side) (good : analyzer.Good)
    {item : Path × FileCoupling} (mem : item ∈ analyzer.files) {candidate : Candidate}
    (collected : candidate ∈ item.2.candidates) {new : Relationship}
    (found : relationshipOf? analyzer.types candidate = some new) :
    analyzer.Stays side new ∧ new.fromFile = item.1 := by
  obtain ⟨_, _, _, _, _, rfl⟩ := relationshipOf?_some found
  have here : candidate.file = item.1 := ((good.files item mem).candidates candidate collected).1
  refine ⟨fun path declares => ?_, here⟩
  rw [here]
  exact apart.used item mem candidate collected path declares

theorem Apart.addDirect_stays (apart : analyzer.Apart side) (good : analyzer.Good)
    {item : Path × FileCoupling} (mem : item ∈ analyzer.files) {candidate : Candidate}
    (collected : candidate ∈ item.2.candidates) {known : List Relationship}
    (stay : ∀ r ∈ known, analyzer.Stays side r) :
    ∀ r ∈ addDirect analyzer.types known candidate, analyzer.Stays side r := by
  intro r found
  unfold addDirect at found
  split at found
  · exact stay r found
  · next new related =>
    split at found
    · exact stay r found
    · rcases List.mem_append.mp found with old | last
      · exact stay r old
      · rw [List.mem_singleton.mp last]
        exact (apart.relationshipOf?_stays good mem collected related).1

theorem Apart.direct_stays (apart : analyzer.Apart side) (good : analyzer.Good) :
    ∀ r ∈ analyzer.direct, analyzer.Stays side r := by
  refine analyzer.direct_grown.forall_mem (fun _ mem => (List.not_mem_nil mem).elim) ?_
  rintro known new _ ⟨candidate, mem, found, _⟩
  obtain ⟨item, memItem, collected⟩ := List.mem_flatMap.mp mem
  exact (apart.relationshipOf?_stays good memItem collected found).1

/-- No relationship leaves its side, however far a chain goes. -/
theorem Apart.grown_stays (apart : analyzer.Apart side) (good : analyzer.Good)
    {known : List Relationship} (grown : Grown analyzer.ChainStep analyzer.direct known) :
    ∀ r ∈ known, analyzer.Stays side r := by
  refine grown.forall_mem (apart.direct_stays good) ?_
  rintro known new before ⟨_, _, _, _, _, _, anchor, memAnchor, _, dependency, hop, _, _, rfl⟩
  obtain ⟨direct, declares⟩ := good.hop_declares hop
  intro path leads
  calc side path = side dependency.fromFile := apart.direct_stays good dependency direct path leads
    _ = side anchor.fromFile := before anchor memAnchor dependency.fromFile declares

/-- What can anchor a step of a file leads to its side only. -/
theorem Apart.own_stays (apart : analyzer.Apart side) (good : analyzer.Good)
    {item : Path × FileCoupling} {known gained : List Relationship}
    (sofar : analyzer.Gained item.1 known gained) {anchor : Relationship}
    (mem : anchor ∈ leaving item.1 analyzer.direct ++ gained) {path : Path}
    (declares : analyzer.Declares path anchor.toName) : side path = side item.1 := by
  rcases List.mem_append.mp mem with own | new
  · obtain ⟨direct, leaves⟩ := List.mem_filter.mp own
    exact (apart.direct_stays good anchor direct path declares).trans (apart.path _ _ leaves).symm
  · exact (apart.grown_stays good sofar.grown anchor (List.mem_append_right _ new) path
      declares).trans (apart.path _ _ (sofar.leaves anchor new)).symm

/-! ## One side by itself -/

variable [DecidableEq σ] {s : σ}

def onSide (analyzer : Analyzer) (side : Path → σ) (s : σ) : Analyzer :=
  ⟨analyzer.files.filter fun item => side item.1 = s⟩

def leavesSide (side : Path → σ) (s : σ) (r : Relationship) : Bool := side r.fromFile = s

theorem Good.types_onSide (good : analyzer.Good) :
    (analyzer.onSide side s).types = analyzer.types.filter fun type => side type.file = s := by
  refine flatMap_filter fun item mem type declared => ?_
  rw [(good.files item mem).types.file_eq type declared]

theorem Good.candidates_onSide (good : analyzer.Good) :
    ((analyzer.onSide side s).files.flatMap fun item => item.2.candidates) =
      (analyzer.files.flatMap fun item => item.2.candidates).filter
        fun candidate => side candidate.file = s := by
  refine flatMap_filter fun item mem candidate collected => ?_
  rw [((good.files item mem).candidates candidate collected).1]

theorem accessorsNamed_eq (analyzer : Analyzer) (name : String) :
    accessorsNamed analyzer.accessors name =
      analyzer.files.flatMap fun item => accessorsNamed item.2.accessors name := by
  simp only [accessorsNamed, accessors, List.filter_flatMap, List.flatMap_assoc]

theorem Good.accessorsNamed_onSide (good : analyzer.Good) (name : String) :
    accessorsNamed (analyzer.onSide side s).accessors name =
      (accessorsNamed analyzer.accessors name).filter fun pair => side pair.2.file = s := by
  rw [accessorsNamed_eq, accessorsNamed_eq]
  refine flatMap_filter fun item mem pair found => ?_
  obtain ⟨memAccessor, _, declares⟩ := mem_accessorsNamed.mp found
  have declared := (good.files item mem).accessors pair.1 memAccessor pair.2 declares
  rw [(good.files item mem).types.file_eq pair.2 declared]

/-! ### Direct relationships -/

theorem declares_onSide {path : Path} {fullName : String} (here : side path = s)
    (declares : analyzer.Declares path fullName) :
    (analyzer.onSide side s).Declares path fullName := by
  obtain ⟨item, mem, rfl, declared⟩ := declares
  exact ⟨item, List.mem_filter.mpr ⟨mem, by simpa using here⟩, rfl, declared⟩

/-- A type of the side that is found among all types is found on the side alone. -/
theorem Good.typeNamed?_onSide_of_some (good : analyzer.Good) {fullName : String}
    {type : DeclaredType} (found : typeNamed? analyzer.types fullName = some type)
    (here : side type.file = s) :
    typeNamed? (analyzer.onSide side s).types fullName = some type := by
  rw [good.types_onSide, typeNamed?, ← List.filter_reverse]
  exact find?_filter found (by simpa using here)

/-- A name that is declared on the side only is looked up there as among all types. -/
theorem Good.typeNamed?_onSide (good : analyzer.Good) {fullName : String}
    (here : ∀ path, analyzer.Declares path fullName → side path = s) :
    typeNamed? (analyzer.onSide side s).types fullName = typeNamed? analyzer.types fullName := by
  cases found : typeNamed? analyzer.types fullName with
  | some type =>
      obtain ⟨mem, rfl⟩ := typeNamed?_some found
      exact good.typeNamed?_onSide_of_some found (here type.file (good.declares_type mem))
  | none =>
      rw [good.types_onSide]
      refine List.find?_eq_none.mpr fun type mem => ?_
      have known := (List.mem_filter.mp (List.mem_reverse.mp mem)).1
      simpa using typeNamed?_none found type known

/-- A name that is declared on the side is found there, and the last name of the type is that of
the type found among all. -/
theorem Apart.typeNamed?_name (apart : analyzer.Apart side) (good : analyzer.Good)
    {path : Path} {fullName : String} (declares : analyzer.Declares path fullName)
    (here : side path = s) :
    ∃ type other, typeNamed? analyzer.types fullName = some type ∧
      typeNamed? (analyzer.onSide side s).types fullName = some other ∧ other.name = type.name := by
  obtain ⟨type, found⟩ := exists_typeNamed? declares
  obtain ⟨other, foundHere⟩ := exists_typeNamed? (declares_onSide here declares)
  refine ⟨type, other, found, foundHere, ?_⟩
  by_cases same : side type.file = s
  · rw [good.typeNamed?_onSide_of_some found same] at foundHere
    rw [Option.some.inj foundHere]
  · obtain ⟨mem, named⟩ := typeNamed?_some found
    obtain ⟨memHere, namedHere⟩ := typeNamed?_some foundHere
    rw [good.types_onSide, List.mem_filter, decide_eq_true_eq] at memHere
    obtain ⟨memOther, hereOther⟩ := memHere
    exact apart.name other memOther type mem (fun alike => same (alike ▸ hereOther))
      (namedHere.trans named.symm)

theorem Apart.relationshipOf?_onSide (apart : analyzer.Apart side) (good : analyzer.Good)
    {item : Path × FileCoupling} (mem : item ∈ analyzer.files) {candidate : Candidate}
    (collected : candidate ∈ item.2.candidates) (here : side item.1 = s) :
    relationshipOf? (analyzer.onSide side s).types candidate =
      relationshipOf? analyzer.types candidate := by
  obtain ⟨_, declared, memDeclared, named⟩ :=
    (good.files item mem).candidates candidate collected
  have declares : analyzer.Declares item.1 candidate.origin :=
    ⟨item, mem, rfl, declared, memDeclared, named⟩
  obtain ⟨origin, originHere, found, foundHere, name⟩ := apart.typeNamed?_name good declares here
  have used : typeNamed? (analyzer.onSide side s).types candidate.used =
      typeNamed? analyzer.types candidate.used :=
    good.typeNamed?_onSide fun path leads =>
      (apart.used item mem candidate collected path leads).trans here
  unfold relationshipOf?
  rw [used, found, foundHere]
  cases typeNamed? analyzer.types candidate.used with
  | none => rfl
  | some type => simp only [name]

/-- Whether a name of a side is joined to shows on that side alone. -/
theorem areJoined_leavesSide {known : List Relationship}
    (stay : ∀ r ∈ known, analyzer.Stays side r) {path : Path} {toName : String}
    (declares : analyzer.Declares path toName) (here : side path = s) (fromName : String) :
    areJoined (known.filter (leavesSide side s)) fromName toName =
      areJoined known fromName toName := by
  refine areJoined_filter fun r mem _ leads => ?_
  have leaves : side path = side r.fromFile := stay r mem path (leads ▸ declares)
  simpa [leavesSide] using leaves.symm.trans here

/-- A candidate adds the same with its side alone. -/
theorem Apart.addDirect_onSide (apart : analyzer.Apart side) (good : analyzer.Good)
    {item : Path × FileCoupling} (mem : item ∈ analyzer.files) {candidate : Candidate}
    (collected : candidate ∈ item.2.candidates) (here : side item.1 = s)
    {known : List Relationship} (stay : ∀ r ∈ known, analyzer.Stays side r) :
    (addDirect analyzer.types known candidate).filter (leavesSide side s) =
      addDirect (analyzer.onSide side s).types (known.filter (leavesSide side s)) candidate := by
  unfold addDirect
  rw [apart.relationshipOf?_onSide good mem collected here]
  split
  · rfl
  · next new found =>
    have leaves := (apart.relationshipOf?_stays good mem collected found).2
    obtain ⟨_, used, _, usedFound, _, rfl⟩ := relationshipOf?_some found
    obtain ⟨memUsed, named⟩ := typeNamed?_some usedFound
    have declares := named ▸ good.declares_type memUsed
    have hereUsed := (apart.used item mem candidate collected _ declares).trans here
    rw [areJoined_leavesSide stay declares hereUsed]
    split
    · rfl
    · rw [List.filter_append, List.filter_cons_of_pos, List.filter_nil]
      simpa [leavesSide] using (congrArg side leaves).trans here

/-- A candidate of another side adds nothing to the side. -/
theorem Apart.addDirect_elsewhere (apart : analyzer.Apart side) (good : analyzer.Good)
    {item : Path × FileCoupling} (mem : item ∈ analyzer.files) {candidate : Candidate}
    (collected : candidate ∈ item.2.candidates) (elsewhere : side item.1 ≠ s)
    (known : List Relationship) :
    (addDirect analyzer.types known candidate).filter (leavesSide side s) =
      known.filter (leavesSide side s) := by
  unfold addDirect
  split
  · rfl
  · next new found =>
    have leaves := (apart.relationshipOf?_stays good mem collected found).2
    split
    · rfl
    · rw [List.filter_append, List.filter_cons_of_neg, List.filter_nil, List.append_nil]
      simpa [leavesSide, leaves] using elsewhere

theorem Apart.addAllDirect_onSide (apart : analyzer.Apart side) (good : analyzer.Good)
    {candidates : List Candidate}
    (within : candidates ⊆ analyzer.files.flatMap fun item => item.2.candidates)
    {known : List Relationship} (stay : ∀ r ∈ known, analyzer.Stays side r) :
    (addAllDirect analyzer.types known candidates).filter (leavesSide side s) =
      addAllDirect (analyzer.onSide side s).types (known.filter (leavesSide side s))
        (candidates.filter fun candidate => side candidate.file = s) := by
  induction candidates generalizing known with
  | nil => rfl
  | cons candidate rest ih =>
      obtain ⟨item, mem, collected⟩ := List.mem_flatMap.mp (within List.mem_cons_self)
      have file : candidate.file = item.1 :=
        ((good.files item mem).candidates candidate collected).1
      have later := ih (fun _ mem => within (List.mem_cons_of_mem _ mem))
        (apart.addDirect_stays good mem collected stay)
      have step : addAllDirect analyzer.types known (candidate :: rest) =
          addAllDirect analyzer.types (addDirect analyzer.types known candidate) rest := rfl
      by_cases here : side item.1 = s
      · rw [step, later, apart.addDirect_onSide good mem collected here stay,
          List.filter_cons_of_pos (by simpa [file] using here)]
        rfl
      · rw [step, later, apart.addDirect_elsewhere good mem collected here,
          List.filter_cons_of_neg (by simpa [file] using here)]

theorem Apart.direct_onSide (apart : analyzer.Apart side) (good : analyzer.Good) :
    (analyzer.onSide side s).direct = analyzer.direct.filter (leavesSide side s) := by
  have whole := apart.addAllDirect_onSide (s := s) good (List.Subset.refl _) (List.forall_mem_nil _)
  rw [direct, direct, good.candidates_onSide, whole, List.filter_nil]

/-! ### Chains -/

theorem stepTo?_congr {known other : List Relationship} {anchor : Relationship}
    {dependencies : List Relationship}
    (same : ∀ dependency ∈ dependencies, areJoined known anchor.fromName dependency.toName =
      areJoined other anchor.fromName dependency.toName) (returnType : String) :
    stepTo? known anchor returnType dependencies =
      stepTo? other anchor returnType dependencies := by
  induction dependencies with
  | nil => rfl
  | cons dependency rest ih =>
      have later := ih fun other mem => same other (List.mem_cons_of_mem _ mem)
      simp only [stepTo?, same dependency List.mem_cons_self, later]

theorem Apart.leaving_onSide (apart : analyzer.Apart side) {path : Path} (here : side path = s)
    (known : List Relationship) :
    leaving path (known.filter (leavesSide side s)) = leaving path known := by
  rw [leaving, leaving, List.filter_filter]
  refine List.filter_congr fun r _ => ?_
  cases same : path.same r.fromFile with
  | false => rfl
  | true => simpa [leavesSide] using (apart.path path r.fromFile same).symm.trans here

variable {item : Path × FileCoupling} {known gained : List Relationship}

theorem Apart.stepThrough?_onSide (apart : analyzer.Apart side) (good : analyzer.Good)
    (grown : Grown analyzer.ChainStep analyzer.direct known) (own : List Relationship)
    (accessor : Accessor) {declaring : DeclaredType} (here : side declaring.file = s) :
    stepThrough? (analyzer.direct.filter (leavesSide side s)) (known.filter (leavesSide side s))
        own accessor declaring =
      stepThrough? analyzer.direct known own accessor declaring := by
  unfold stepThrough?
  rw [apart.leaving_onSide here]
  cases own.find? fun relationship => relationship.toName = declaring.fullName with
  | none => rfl
  | some anchor =>
      refine stepTo?_congr (fun dependency mem => ?_) accessor.returnType
      obtain ⟨direct, leaves⟩ := List.mem_filter.mp mem
      obtain ⟨target, prevails, _⟩ := (good.direct_declaredEnds dependency direct).target
      refine areJoined_leavesSide (apart.grown_stays good grown) prevails.declares ?_ _
      calc side target.file = side dependency.fromFile :=
            apart.direct_stays good dependency direct target.file prevails.declares
        _ = side declaring.file := (apart.path _ _ leaves).symm
        _ = s := here

/-- What a file has gained leaves its side. -/
theorem Gained.filter_leavesSide (sofar : analyzer.Gained item.1 known gained)
    (apart : analyzer.Apart side) (s : σ) :
    gained.filter (leavesSide side s) = if side item.1 = s then gained else [] := by
  have leaves : ∀ r ∈ gained, side r.fromFile = side item.1 := fun r mem =>
    (apart.path _ _ (sofar.leaves r mem)).symm
  split
  · next here =>
    exact List.filter_eq_self.mpr fun r mem => by simp [leavesSide, leaves r mem, here]
  · next elsewhere =>
    exact List.filter_eq_nil_iff.mpr fun r mem => by simp [leavesSide, leaves r mem, elsewhere]

theorem Apart.followSegment_onSide (apart : analyzer.Apart side) (good : analyzer.Good)
    (here : side item.1 = s) (sofar : analyzer.Gained item.1 known gained) (segment : String) :
    followSegment analyzer.accessors analyzer.direct known (leaving item.1 analyzer.direct) gained
        segment =
      followSegment (analyzer.onSide side s).accessors (analyzer.direct.filter (leavesSide side s))
        (known.filter (leavesSide side s)) (leaving item.1 analyzer.direct) gained segment := by
  have all : known.filter (leavesSide side s) ++ gained =
      (known ++ gained).filter (leavesSide side s) := by
    rw [List.filter_append, sofar.filter_leavesSide apart, if_pos here]
  rw [followSegment_eq, followSegment_eq, good.accessorsNamed_onSide, all]
  congr 2
  refine (findSome?_filter (fun pair _ kept => ?_) fun pair mem strange => ?_).symm
  · exact apart.stepThrough?_onSide good sofar.grown _ pair.1 (by simpa using kept)
  · obtain ⟨memAccessor, _, declares⟩ := mem_accessorsNamed.mp mem
    have declared := good.declares_declaring memAccessor declares
    have unanchored : (leaving item.1 analyzer.direct ++ gained).find?
        (fun relationship => relationship.toName = pair.2.fullName) = none := by
      refine List.find?_eq_none.mpr fun anchor memAnchor leads => ?_
      have leads : anchor.toName = pair.2.fullName := by simpa using leads
      have side_eq := apart.own_stays good sofar memAnchor (leads ▸ declared)
      simp [side_eq, here] at strange
    simp only [stepThrough?, unanchored]

/-- A file of a side gains from its call chains what it gains with that side alone. -/
theorem Apart.followCalls_onSide (apart : analyzer.Apart side) (good : analyzer.Good)
    (mem : item ∈ analyzer.files) (here : side item.1 = s)
    (grown : Grown analyzer.ChainStep analyzer.direct known) :
    followCalls analyzer.accessors analyzer.direct known item.1 item.2.calls =
      followCalls (analyzer.onSide side s).accessors (analyzer.onSide side s).direct
        (known.filter (leavesSide side s)) item.1 item.2.calls := by
  rw [followCalls_eq, followCalls_eq, apart.direct_onSide good, apart.leaving_onSide here]
  refine foldl_eq_of_motive (motive := analyzer.Gained item.1 known) (.nil grown item.1) ?_ ?_
  · intro gained sofar call memCall
    exact sofar.followSegments grown mem (mem_of_mem_firstOfEach memCall) fun _ found => found
  · intro gained sofar call memCall
    refine foldl_eq_of_motive (motive := analyzer.Gained item.1 known) sofar ?_ ?_
    · intro more sofar segment memSegment
      exact sofar.followSegment grown mem (mem_of_mem_firstOfEach memCall) memSegment
    · intro more sofar segment _
      exact apart.followSegment_onSide good here sofar segment

theorem Apart.addChained_onSide (apart : analyzer.Apart side) (good : analyzer.Good)
    {files : PathMap FileCoupling} (within : files ⊆ analyzer.files)
    (grown : Grown analyzer.ChainStep analyzer.direct known) :
    (addChained analyzer.accessors analyzer.direct known files).filter (leavesSide side s) =
      addChained (analyzer.onSide side s).accessors (analyzer.onSide side s).direct
        (known.filter (leavesSide side s)) (files.filter fun item => side item.1 = s) := by
  induction files generalizing known with
  | nil => rfl
  | cons item rest ih =>
      have mem := within List.mem_cons_self
      have gained := followCalls_gained grown mem
      have later := ih (fun _ mem => within (List.mem_cons_of_mem _ mem)) gained.grown
      rw [List.filter_append, gained.filter_leavesSide apart] at later
      simp only [addChained, later]
      by_cases here : side item.1 = s
      · simp only [here, if_true, decide_true, List.filter_cons_of_pos, addChained,
          ← apart.followCalls_onSide good mem here grown]
      · simp [here]

/-- **A side by itself.**  The relationships that leave the files of a side are the relationships
of these files alone, in the same order. -/
theorem Apart.relationships_onSide (apart : analyzer.Apart side) (good : analyzer.Good) :
    analyzer.relationships.filter (leavesSide side s) =
      (analyzer.onSide side s).relationships := by
  rw [relationships, relationships, apart.addChained_onSide good (List.Subset.refl _) .start,
    apart.direct_onSide good]
  rfl

end Analyzer

end SourceGauge.Coupling
