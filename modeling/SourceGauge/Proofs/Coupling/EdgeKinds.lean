/-
# SourceGauge.Proofs.Coupling.EdgeKinds -- the kind of a direct relationship

Of the candidates that lead from one full name to another, the first one makes the
relationship and gives it its kind (`first_addAllDirect`).  The base names of a file are looked
up before its uses, so what they give comes first among the candidates of the file
(`ofFile_basesFirst`).  When one file alone declares the type that a relationship leaves, all
candidates from it are in that file, and so a use hides no base:

* `direct_kind_of_bases`: a direct relationship is a use exactly when no base name leads to its
  target; otherwise the first of those decides its kind, together with the declaration of
  the target.
-/
import SourceGauge.Proofs.Coupling.VisibleNames

namespace SourceGauge.Coupling

set_option autoImplicit false

namespace Candidate

/-- Whether a candidate leads from one full name to another. -/
def links (origin used : String) (candidate : Candidate) : Bool :=
  candidate.origin = origin && candidate.used = used

/-- Whether a candidate tells a base of a type. -/
def inherits (candidate : Candidate) : Bool := candidate.kind ≠ .use

/-- Whether a candidate tells a base that leads from one full name to another. -/
def derives (origin used : String) (candidate : Candidate) : Bool :=
  candidate.links origin used && candidate.inherits

theorem links_iff {origin used : String} {candidate : Candidate} :
    candidate.links origin used = true ↔ candidate.origin = origin ∧ candidate.used = used := by
  simp [links]

theorem derives_iff {origin used : String} {candidate : Candidate} :
    candidate.derives origin used = true ↔
      candidate.links origin used = true ∧ candidate.inherits = true := by
  simp [derives]

theorem inherits_eq_false_iff {candidate : Candidate} :
    candidate.inherits = false ↔ candidate.kind = .use := by
  simp [inherits]

end Candidate

theorem kindTowards_of_inherits {target : DeclaredType} {candidate : Candidate}
    (derived : candidate.inherits = true) :
    kindTowards target candidate.kind =
      if candidate.kind = .implementation ∧ target.kind = .interface then .implementation
      else .extension := by
  cases kind : candidate.kind with
  | use => simp [Candidate.inherits, kind] at derived
  | extension => simp [kindTowards]
  | implementation => simp [kindTowards]

/-! ## The first candidate decides -/

/-- A relationship of a candidate leads where the candidate does. -/
theorem relationshipOf?_ends {types : List DeclaredType} {candidate : Candidate}
    {new : Relationship} (found : relationshipOf? types candidate = some new) :
    candidate.links new.fromName new.toName = true := by
  obtain ⟨_, _, _, _, _, rfl⟩ := relationshipOf?_some found
  exact Candidate.links_iff.mpr ⟨rfl, rfl⟩

/-- Whether a candidate makes a relationship depends on its two ends only. -/
theorem exists_relationshipOf?_of_links {types : List DeclaredType} {candidate other : Candidate}
    {new : Relationship} (found : relationshipOf? types candidate = some new)
    (links : other.links new.fromName new.toName = true) :
    ∃ relationship, relationshipOf? types other = some relationship ∧
      relationship.fromName = new.fromName ∧ relationship.toName = new.toName := by
  obtain ⟨different, used, origin, foundUsed, foundOrigin, rfl⟩ := relationshipOf?_some found
  obtain ⟨sameOrigin, sameUsed⟩ := Candidate.links_iff.mp links
  simp only [relationshipOf?, sameOrigin, sameUsed, if_neg different, foundUsed, foundOrigin]
  exact ⟨_, rfl, rfl, rfl⟩

/-- A direct relationship is the one of the first candidate that leads where it does. -/
theorem first_addAllDirect {types : List DeclaredType} {candidates : List Candidate}
    {r : Relationship} (mem : r ∈ addAllDirect types [] candidates) :
    ∃ first, candidates.find? (Candidate.links r.fromName r.toName) = some first ∧
      relationshipOf? types first = some r := by
  induction candidates using List.reverseRecOn with
  | nil => cases mem
  | append_singleton before last ih =>
      have keeps : r ∈ addAllDirect types [] before →
          ∃ first, (before ++ [last]).find? (Candidate.links r.fromName r.toName) = some first ∧
            relationshipOf? types first = some r := by
        intro old
        obtain ⟨first, found, made⟩ := ih old
        exact ⟨first, by rw [List.find?_append, found, Option.some_or], made⟩
      rw [addAllDirect, List.foldl_append, List.foldl_cons, List.foldl_nil, ← addAllDirect,
        addDirect] at mem
      split at mem
      · exact keeps mem
      · next new made =>
        split at mem
        · exact keeps mem
        · next free =>
          rcases List.mem_append.mp mem with old | added
          · exact keeps old
          · rw [List.mem_singleton.mp added]
            -- a candidate before it with these ends would have joined them
            have none : before.find? (Candidate.links new.fromName new.toName) = none := by
              refine List.find?_eq_none.mpr fun other memOther links => free ?_
              obtain ⟨relationship, foundOther, fromName, toName⟩ :=
                exists_relationshipOf?_of_links made links
              obtain ⟨joined, memJoined, ends⟩ := exists_mem_addAllDirect memOther foundOther []
              refine areJoined_iff.mpr (List.mem_map.mpr ⟨joined, memJoined, ?_⟩)
              exact Prod.ext (ends.1.trans fromName) (ends.2.trans toName)
            refine ⟨last, ?_, made⟩
            rw [List.find?_append, none, Option.none_or,
              List.find?_cons_of_pos (relationshipOf?_ends made)]

/-! ## Base names come first -/

namespace Collected

variable {profile : Profile} {imports : List Import} {file : Path} {types : FileTypes}
  {first : DeclaredType}

/-- The candidates of a text are of its kind. -/
theorem kind_of_mem_alone {entry : UsageText} {candidate : Candidate}
    (mem : candidate ∈ (alone profile imports file types first entry).candidates) :
    candidate.kind = entry.kind := by
  cases counted : referrer? types first entry with
  | none =>
      rw [alone_of_no_referrer counted, mark_candidates] at mem
      cases mem
  | some type =>
      rw [alone_candidates counted] at mem
      obtain ⟨_, _, rfl⟩ := List.mem_map.mp mem
      rfl

/-- Looking up texts adds candidates of their kinds. -/
theorem foldl_adds_kinds (collected : Collected) (entries : List UsageText) :
    ∃ added, (entries.foldl (step profile imports file types first) collected).candidates =
        collected.candidates ++ added ∧
      ∀ candidate ∈ added, ∃ entry ∈ entries, candidate.kind = entry.kind := by
  induction entries generalizing collected with
  | nil => exact ⟨[], by simp, by simp⟩
  | cons entry rest ih =>
      obtain ⟨later, all, kinds⟩ := ih (step profile imports file types first collected entry)
      have kindsOfRest : ∀ candidate ∈ later, ∃ other ∈ entry :: rest,
          candidate.kind = other.kind := by
        intro candidate mem
        obtain ⟨other, memOther, kind⟩ := kinds candidate mem
        exact ⟨other, List.mem_cons_of_mem _ memOther, kind⟩
      by_cases noted : bareText profile.delimiter entry.text ∈ collected.seen
      · rw [step_of_noted noted] at all
        exact ⟨later, by rw [List.foldl_cons, step_of_noted noted, all], kindsOfRest⟩
      · rw [(step_adds noted).candidates, List.append_assoc] at all
        refine ⟨_, by rw [List.foldl_cons, all], fun candidate mem => ?_⟩
        rcases List.mem_append.mp mem with now | afterwards
        · exact ⟨entry, List.mem_cons_self, kind_of_mem_alone now⟩
        · exact kindsOfRest candidate afterwards

end Collected

/-- Further texts add candidates of their kinds. -/
theorem collectUsages_adds_kinds (profile : Profile) (imports : List Import) (file : Path)
    (types : FileTypes) (before entries : List UsageText) :
    ∃ added, (collectUsages profile imports file types (before ++ entries)).candidates =
        (collectUsages profile imports file types before).candidates ++ added ∧
      ∀ candidate ∈ added, ∃ entry ∈ entries, candidate.kind = entry.kind := by
  cases types with
  | nil => exact ⟨[], rfl, by simp⟩
  | cons first rest =>
      simp only [collectUsages, List.foldl_append]
      exact Collected.foldl_adds_kinds _ entries

def baseCandidates (profile : Profile) (queries : Queries) (file : ParsedFile) : List Candidate :=
  (collectUsages profile (importsOf profile queries file) file.path
    (declaredTypes profile queries file)
    (baseTexts (declaredTypes profile queries file))).candidates

/-- The candidates of a file are those of its base names, and then those of its uses. -/
theorem ofFile_candidates (profile : Profile) (queries : Queries) (file : ParsedFile) :
    ∃ used, (FileCoupling.ofFile profile queries file).candidates =
        baseCandidates profile queries file ++ used ∧
      (∀ candidate ∈ baseCandidates profile queries file, candidate.inherits = true) ∧
      ∀ candidate ∈ used, candidate.inherits = false := by
  obtain ⟨bases, allBases, baseKinds⟩ := collectUsages_adds_kinds profile
    (importsOf profile queries file) file.path (declaredTypes profile queries file) []
    (baseTexts (declaredTypes profile queries file))
  obtain ⟨used, all, kinds⟩ := collectUsages_adds_kinds profile
    (importsOf profile queries file) file.path (declaredTypes profile queries file)
    (baseTexts (declaredTypes profile queries file)) (usesIn queries file)
  have nothing : (collectUsages profile (importsOf profile queries file) file.path
      (declaredTypes profile queries file) []).candidates = [] := by
    cases declaredTypes profile queries file <;> rfl
  refine ⟨used, all, fun candidate mem => ?_, fun candidate mem => ?_⟩
  · have among : candidate ∈ bases := by
      rw [List.nil_append, nothing, List.nil_append] at allBases
      exact allBases ▸ mem
    obtain ⟨entry, memEntry, kind⟩ := baseKinds candidate among
    simpa [Candidate.inherits, kind] using (of_mem_baseTexts memEntry).2
  · obtain ⟨entry, memEntry, kind⟩ := kinds candidate mem
    exact Candidate.inherits_eq_false_iff.mpr (kind.trans (of_mem_usesIn memEntry).2)

/-- No candidate of a use stands before one of a base name. -/
def BasesFirst (candidates : List Candidate) : Prop :=
  candidates.Pairwise fun candidate later => later.inherits = true → candidate.inherits = true

theorem ofFile_basesFirst (profile : Profile) (queries : Queries) (file : ParsedFile) :
    BasesFirst (FileCoupling.ofFile profile queries file).candidates := by
  obtain ⟨used, all, bases, uses⟩ := ofFile_candidates profile queries file
  rw [all, BasesFirst]
  refine List.pairwise_append.mpr ⟨?_, ?_, fun candidate mem _ _ _ => bases candidate mem⟩
  · exact List.pairwise_of_forall_mem_list fun candidate mem _ _ _ => bases candidate mem
  · refine List.pairwise_of_forall_mem_list fun _ _ later mem inherits => ?_
    rw [uses later mem] at inherits
    cases inherits

/-- The inheriting candidates of a file are those of its base names, whatever its uses are. -/
theorem filter_inherits_ofFile (profile : Profile) (queries : Queries) (file : ParsedFile) :
    (FileCoupling.ofFile profile queries file).candidates.filter Candidate.inherits =
      baseCandidates profile queries file := by
  obtain ⟨used, all, bases, uses⟩ := ofFile_candidates profile queries file
  rw [all, List.filter_append, List.filter_eq_self.mpr bases,
    List.filter_eq_nil_iff.mpr fun candidate mem => by simp [uses candidate mem], List.append_nil]

namespace Analyzer

variable {analyzer : Analyzer}

/-- The candidates, file by file. -/
def candidates (analyzer : Analyzer) : List Candidate :=
  analyzer.files.flatMap fun item => item.2.candidates

/-- In every collected file, base names come first. -/
theorem Reachable.basesFirst [OwnGrammars] (reachable : analyzer.Reachable) :
    ∀ item ∈ analyzer.files, BasesFirst item.2.candidates := by
  intro item mem
  obtain ⟨file, collected, _⟩ := reachable.exists_file mem
  unfold FileCoupling.of? at collected
  split at collected
  · next profile queries _ _ =>
    rw [← Option.some.inj collected]
    exact ofFile_basesFirst profile queries file
  · cases collected

/-- Of the candidates from a type that one file alone declares, those of base names come first. -/
theorem Reachable.basesFirst_of_origin [OwnGrammars] (reachable : analyzer.Reachable)
    {origin : String}
    (once : ∀ path other, analyzer.Declares path origin → analyzer.Declares other origin →
      path = other) :
    analyzer.candidates.Pairwise fun candidate later =>
      candidate.origin = origin → later.origin = origin → later.inherits = true →
        candidate.inherits = true := by
  have declares {item : Path × FileCoupling} (mem : item ∈ analyzer.files) {candidate : Candidate}
      (found : candidate ∈ item.2.candidates) (leaves : candidate.origin = origin) :
      analyzer.Declares item.1 origin := by
    obtain ⟨_, type, declared, named⟩ := (reachable.good.files item mem).candidates candidate found
    exact ⟨item, mem, rfl, type, declared, named.trans leaves⟩
  refine List.pairwise_flatMap.mpr ⟨fun item mem => ?_, ?_⟩
  · exact (reachable.basesFirst item mem).imp fun order _ _ => order
  · -- two files do not declare the same type
    refine reachable.good.sorted.imp_of_mem fun {item later} mem memLater before => ?_
    intro candidate found other foundOther leaves leavesOther
    have same := once _ _ (declares mem found leaves) (declares memLater foundOther leavesOther)
    rw [Path.not_lt_of_same (same ▸ Path.same_refl item.1)] at before
    cases before

/-- The first candidate of a base name that leads from such a type to another one is the first
candidate that does. -/
theorem Reachable.find?_links [OwnGrammars] (reachable : analyzer.Reachable)
    {origin target : String}
    (once : ∀ path other, analyzer.Declares path origin → analyzer.Declares other origin →
      path = other) {base : Candidate}
    (found : analyzer.candidates.find? (Candidate.derives origin target) = some base) :
    analyzer.candidates.find? (Candidate.links origin target) = some base := by
  obtain ⟨derives, before, after, all, none⟩ := List.find?_eq_some_iff_append.mp found
  obtain ⟨links, inherits⟩ := Candidate.derives_iff.mp derives
  refine List.find?_eq_some_iff_append.mpr ⟨links, before, after, all, fun earlier mem => ?_⟩
  have order := reachable.basesFirst_of_origin once
  rw [all] at order
  cases leads : earlier.links origin target with
  | false => rfl
  | true =>
      have first := (List.pairwise_append.mp order).2.2 earlier mem base List.mem_cons_self
        (Candidate.links_iff.mp leads).1 (Candidate.links_iff.mp links).1 inherits
      have neither := none earlier mem
      rw [Candidate.derives_iff.mpr ⟨leads, first⟩] at neither
      cases neither

/-- **The kind of a direct relationship.**  Let a direct relationship leave a type that is
declared in one file only.  It is a use exactly when no base name leads to its target.
Otherwise the first base name that does decides: the relationship is an implementation when
that name is listed as implemented and the declaration of the target that prevails is an
interface, and an extension in every other case.  No use hides a base, since what the base
names of a file give does not depend on its uses. -/
theorem direct_kind_of_bases [OwnGrammars] (reachable : analyzer.Reachable) {r : Relationship}
    (direct : r ∈ analyzer.direct)
    (once : ∀ path other, analyzer.Declares path r.fromName → analyzer.Declares other r.fromName →
      path = other) :
    (r.kind = .use ↔ ∀ candidate ∈ analyzer.candidates,
      candidate.derives r.fromName r.toName = false) ∧
    (∀ base, analyzer.candidates.find? (Candidate.derives r.fromName r.toName) = some base →
      ∃ target, analyzer.Prevails r.toName target ∧
        r.kind = if base.kind = .implementation ∧ target.kind = .interface then .implementation
          else .extension) ∧
    ∀ (file : ParsedFile) (profile : Profile) (queries : Queries),
      (FileCoupling.ofFile profile queries file).candidates.filter Candidate.inherits =
        baseCandidates profile queries file := by
  obtain ⟨first, found, made⟩ := first_addAllDirect direct
  obtain ⟨_, target, _, foundTarget, _, same⟩ := relationshipOf?_some made
  have kind : r.kind = kindTowards target first.kind := congrArg Relationship.kind same
  have toName : first.used = r.toName := (congrArg Relationship.toName same).symm
  have decided : ∀ base,
      analyzer.candidates.find? (Candidate.derives r.fromName r.toName) = some base →
      r.kind = if base.kind = .implementation ∧ target.kind = .interface then .implementation
        else .extension := by
    intro base foundBase
    obtain rfl := Option.some.inj (found.symm.trans (reachable.find?_links once foundBase))
    have derives := List.find?_some foundBase
    rw [kind, kindTowards_of_inherits (Candidate.derives_iff.mp derives).2]
  refine ⟨⟨fun use candidate mem => ?_, fun uses => ?_⟩, fun base foundBase => ?_,
    fun file profile queries => filter_inherits_ofFile profile queries file⟩
  · cases derives : candidate.derives r.fromName r.toName with
    | false => rfl
    | true =>
        obtain ⟨base, foundBase⟩ := Option.isSome_iff_exists.mp
          (List.find?_isSome.mpr ⟨candidate, mem, derives⟩)
        have derived := decided base foundBase
        rw [use] at derived
        split at derived <;> cases derived
  · have links := List.find?_some found
    have plain : first.inherits = false := by
      simpa [Candidate.derives, links] using uses first (List.mem_of_find?_eq_some found)
    rw [kind, Candidate.inherits_eq_false_iff.mp plain]
    rfl
  · exact ⟨target, reachable.good.typeNamed?_prevails (toName ▸ foundTarget),
      decided base foundBase⟩

end Analyzer

/-! ## A base that is also used

`A` implements `I`, which it names with its namespace, and has a member of that type. -/

namespace UsedBase

open TwoFiles (node letter member)

/-- The class with its base, and the interface. -/
def file : ParsedFile where
  path := ⟨"a.cs"⟩
  language := .csharp
  source := "namespace N { class A : N.I { I x; } interface I { } }"
  root := node "compilation_unit" 0 54 none
    [Namespaces.spaceOf 0 54 (letter "name" 10)
      [node "class_declaration" 14 36 none
        [letter "name" 20,
          node "base_list" 22 27 none [Members.dotted "qualified_name" "qualifier" none 24],
          node "declaration_list" 28 36 (some "body") [member 30 34 []]],
      node "interface_declaration" 37 52 none
        [letter "name" 47, node "declaration_list" 49 52 (some "body") []]]]

def typeA : DeclaredType :=
  { TwoFiles.declared "A" ⟨"a.cs"⟩ 14 36 with space := "N", implemented := ["N.I"] }

def typeI : DeclaredType :=
  { TwoFiles.declared "I" ⟨"a.cs"⟩ 37 52 with space := "N", kind := .interface }

def collected : FileCoupling where
  types := [typeA, typeI]
  accessors := [⟨"x", "I", ⟨"a.cs"⟩, "N.A.x", [typeA]⟩]
  candidates := [("N.N.I", .implementation), ("N.I", .implementation), ("N.I", .use),
    ("I", .use)].map fun told => ⟨told.1, "N.A", ⟨"a.cs"⟩, told.2⟩
  calls := []

theorem file_collected : FileCoupling.of? file = some collected := by
  simp only [FileCoupling.of?, FileCoupling.ofFile, declaredTypes, usagesOf, importsOf, accessorsOf,
    Query.captures, Query.matchesWithin, Query.allMatches_eq_insertionSort]
  decide +kernel

def analyzer : Analyzer := ⟨[(⟨"a.cs"⟩, collected)]⟩

theorem reachable [OwnGrammars] : analyzer.Reachable := by
  have added : Analyzer.add {} file = analyzer := by
    simp only [Analyzer.add, file_collected]
    rfl
  rw [← added]
  exact Analyzer.Reachable.empty.add file

def implements : Relationship where
  fromName := "N.A"
  toName := "N.I"
  fromFile := ⟨"a.cs"⟩
  toFile := ⟨"a.cs"⟩
  fromType := "A"
  toType := "I"
  kind := .implementation

end UsedBase

namespace Analyzer

open UsedBase

attribute [local instance] sampleGrammars

theorem direct_kind_of_bases_used :
    implements ∈ UsedBase.analyzer.direct ∧
      (∃ candidate ∈ UsedBase.analyzer.candidates, candidate.links "N.A" "N.I" = true ∧
        candidate.kind = .use) ∧
      (¬∀ candidate ∈ UsedBase.analyzer.candidates, candidate.derives "N.A" "N.I" = false) ∧
      ∃ target, UsedBase.analyzer.Prevails "N.I" target ∧
        UsageKind.implementation =
          if UsageKind.implementation = .implementation ∧ target.kind = .interface
            then .implementation else .extension := by
  have direct : implements ∈ UsedBase.analyzer.direct := by decide +kernel
  have here (path : Path) (declares : UsedBase.analyzer.Declares path "N.A") : path = ⟨"a.cs"⟩ := by
    obtain ⟨item, mem, rfl, _⟩ := declares
    rw [List.mem_singleton.mp mem]
  have first : UsedBase.analyzer.candidates.find? (Candidate.derives "N.A" "N.I") =
      some ⟨"N.I", "N.A", ⟨"a.cs"⟩, .implementation⟩ := by decide +kernel
  obtain ⟨use, base, _⟩ := direct_kind_of_bases UsedBase.reachable direct
    fun path other declares declaresOther =>
      (here path declares).trans (here other declaresOther).symm
  refine ⟨direct, by decide +kernel, fun uses => ?_, base _ first⟩
  cases use.mpr uses

end Analyzer

end SourceGauge.Coupling
