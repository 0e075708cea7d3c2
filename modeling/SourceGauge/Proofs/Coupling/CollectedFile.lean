/-
# SourceGauge.Proofs.Coupling.CollectedFile -- what a file is collected as

Everything that is collected of a file belongs to the types that it declares
(`FileCoupling.Good`): the types are of the file and have distinct full names, a
candidate comes from one of them, an accessor is declared by some of them, and a
call chain is told by its text.

* `FileCoupling.ofFile_good`: whatever the queries report, a file is collected so.
-/
import SourceGauge.Coupling.Analyzer
import SourceGauge.Proofs.Coupling.FileTypes

namespace SourceGauge.Coupling

set_option autoImplicit false

/-! ## Declared types -/

namespace FileTypes

/-- The types are declared in the file at a path, each full name once. -/
structure Good (path : Path) (types : FileTypes) : Prop where
  file_eq : ∀ type ∈ types, type.file = path
  distinct : (types.map DeclaredType.fullName).Nodup

theorem Good.nil (path : Path) : Good path [] :=
  ⟨fun _ mem => (List.not_mem_nil mem).elim, List.nodup_nil⟩

theorem Good.modify {path : Path} {types : FileTypes} (good : types.Good path)
    {change : DeclaredType → DeclaredType}
    (keeps : ∀ type, (change type).withoutBases = type.withoutBases) (index : Nat) :
    FileTypes.Good path (types.modify index change) where
  file_eq := by
    intro type mem
    obtain ⟨old, memOld, rfl | rfl⟩ := exists_of_mem_modify mem
    · exact good.file_eq type memOld
    · have sameFile : (change old).withoutBases.file = old.withoutBases.file := by rw [keeps]
      exact sameFile.trans (good.file_eq old memOld)
  distinct := by
    have sameName : ∀ type, (change type).fullName = type.fullName := fun type => by
      rw [← DeclaredType.fullName_withoutBases, keeps, DeclaredType.fullName_withoutBases]
    rw [map_modify DeclaredType.fullName sameName]
    exact good.distinct

theorem Good.addBase {path : Path} {types : FileTypes} (good : types.Good path) (index : Nat)
    (sort : BaseSort) (base : String) : (types.addBase index sort base).Good path :=
  good.modify (fun type => type.withoutBases_addBase sort base) index

theorem Good.insert {path : Path} {types : FileTypes} (good : types.Good path)
    {declared : DeclaredType} (here : declared.file = path) :
    (types.insert declared).1.Good path := by
  rcases types.insert_cases declared with ⟨index, _, inserted⟩ | ⟨new, inserted⟩
  · rw [inserted]
    exact good.modify (fun type => type.withoutBases_merge declared) index
  · rw [inserted]
    refine ⟨?_, ?_⟩
    · exact List.forall_mem_append.mpr
        ⟨good.file_eq, List.forall_mem_singleton.mpr here⟩
    · rw [List.map_append, List.map_singleton, ← List.concat_eq_append]
      exact good.distinct.concat new

/-- A full name has one declaration in a file. -/
theorem Good.eq_of_fullName {path : Path} {types : FileTypes} (good : types.Good path)
    {s t : DeclaredType} (memS : s ∈ types) (memT : t ∈ types) (same : s.fullName = t.fullName) :
    s = t :=
  List.inj_on_of_nodup_map good.distinct memS memT same

end FileTypes

namespace Scan

@[simp] theorem closeBefore_types (scan : Scan) (byte : Nat) :
    (scan.closeBefore byte).types = scan.types := rfl

@[simp] theorem openSpace_types (scan : Scan) (source : String) (node : Node) :
    (scan.openSpace source node).types = scan.types := by
  unfold openSpace
  split <;> rfl

theorem typeOf?_file {scan : Scan} {file : Path} {delimiter source : String} {node : Node}
    {declared : DeclaredType} (made : scan.typeOf? file delimiter source node = some declared) :
    declared.file = file := by
  obtain ⟨name, _, rfl⟩ := Option.map_eq_some_iff.mp made
  rfl

theorem declare_good {scan : Scan} {file : Path} (good : scan.types.Good file)
    (delimiter source : String) (node : Node) :
    (scan.declare file delimiter source node).types.Good file := by
  unfold declare
  split
  · exact good
  · next declared made => exact good.insert (typeOf?_file made)

theorem addBase_good {scan : Scan} {file : Path} (good : scan.types.Good file) (sort : BaseSort)
    (base : String) : (scan.addBase sort base).types.Good file := by
  unfold addBase
  split
  · exact good
  · exact good.addBase _ sort base

theorem step_good {scan : Scan} {file : Path} (good : scan.types.Good file)
    (delimiter source : String) (capture : Query.Capture) :
    (scan.step file delimiter source capture).types.Good file := by
  have closed : (scan.closeBefore capture.node.start.byte).types.Good file := by simpa using good
  simp only [step]
  split
  · simpa using good
  split
  · exact declare_good closed delimiter source capture.node
  split
  · exact closed
  · exact addBase_good closed _ _

end Scan

theorem scanTypes_good (file : Path) (delimiter source : String) (captures : List Query.Capture) :
    (scanTypes file delimiter source captures).Good file :=
  List.foldlRecOn captures (Scan.step file delimiter source)
    (motive := fun scan => scan.types.Good file) (FileTypes.Good.nil file)
    fun _ good capture _ => Scan.step_good good delimiter source capture

theorem declaredTypes_good (profile : Profile) (queries : Queries) (file : ParsedFile) :
    (declaredTypes profile queries file).Good file.path :=
  scanTypes_good file.path profile.delimiter file.source _

/-! ## Candidates and call chains -/

def CallChain.ofText (profile : Profile) (text : String) : CallChain :=
  ⟨text, profile.delimiter, profile.chainsMembers && Text.contains profile.delimiter text⟩

namespace Collected

/-- Every candidate comes from one of the types of the file, and every call chain
is told by its text. -/
structure Good (profile : Profile) (file : Path) (types : FileTypes) (collected : Collected) :
    Prop where
  candidates : ∀ candidate ∈ collected.candidates,
    candidate.file = file ∧ ∃ type ∈ types, type.fullName = candidate.origin
  calls : ∀ call ∈ collected.calls, call = .ofText profile call.text

variable {profile : Profile} {file : Path} {types : FileTypes} {collected : Collected}

theorem Good.empty : Good profile file types {} :=
  ⟨fun _ mem => (List.not_mem_nil mem).elim, fun _ mem => (List.not_mem_nil mem).elim⟩

theorem Good.mark (good : collected.Good profile file types) (text : String) :
    (collected.mark text).Good profile file types := by
  unfold Collected.mark
  split
  · exact good
  · exact ⟨good.candidates, good.calls⟩

theorem Good.addCall (good : collected.Good profile file types) (text : String) :
    (collected.addCall profile text).Good profile file types where
  candidates := good.candidates
  calls := by
    intro call mem
    rcases List.mem_append.mp mem with old | new
    · exact good.calls call old
    · rw [List.mem_singleton.mp new]
      rfl

theorem Good.addCandidates (good : collected.Good profile file types) {type : DeclaredType}
    (mem : type ∈ types) (names : List String) (kind : UsageKind) :
    (collected.addCandidates names type.fullName file kind).Good profile file types where
  candidates := by
    intro candidate found
    rcases List.mem_append.mp found with old | new
    · exact good.candidates candidate old
    · obtain ⟨used, _, rfl⟩ := List.mem_map.mp new
      exact ⟨rfl, type, mem, rfl⟩
  calls := good.calls

theorem Good.addCallIf (good : collected.Good profile file types) (isCall : Bool)
    (text : String) :
    Good profile file types (if isCall then collected.addCall profile text else collected) := by
  split
  · exact good.addCall text
  · exact good

theorem Good.lookUpUnbound (good : collected.Good profile file types) {type : DeclaredType}
    (mem : type ∈ types) (imports : List Import) (entry : UsageText) (name : String) :
    (collected.lookUpUnbound profile imports file type entry name).Good profile file types := by
  unfold Collected.lookUpUnbound
  extract_lets d whole parts clean marked
  split
  · exact good.mark clean
  · exact ((good.mark clean).addCallIf entry.isCall name).addCandidates mem _ _

theorem Good.lookUpBound (good : collected.Good profile file types) {type : DeclaredType}
    (mem : type ∈ types) (declared : Import) (entry : UsageText) (name : String)
    (rest : List String) :
    (collected.lookUpBound profile file type declared entry name rest).Good profile file types := by
  unfold Collected.lookUpBound
  extract_lets chained kept called joined marked
  have goodCalled : called.Good profile file types := good.addCallIf chained name
  split
  · exact goodCalled.mark joined
  · exact (goodCalled.mark joined).addCandidates mem _ _

theorem Good.step (good : collected.Good profile file types) {first : DeclaredType}
    (mem : first ∈ types) (imports : List Import) (entry : UsageText) :
    (collected.step profile imports file types first entry).Good profile file types := by
  simp only [Collected.step]
  split
  · exact good
  · split
    · next type head rest found _ =>
      have memType : type ∈ types := by
        cases owner : entry.owner with
        | none =>
            simp only [owner, Option.some.injEq] at found
            exact found ▸ mem
        | some name =>
            simp only [owner] at found
            exact List.mem_of_find?_eq_some found
      split
      · exact (good.mark _).lookUpUnbound memType imports entry _
      · exact (good.mark _).lookUpBound memType _ entry _ rest
    · exact good.mark _

end Collected

theorem collectUsages_good (profile : Profile) (imports : List Import) (file : Path)
    (types : FileTypes) (entries : List UsageText) :
    (collectUsages profile imports file types entries).Good profile file types := by
  cases types with
  | nil => exact Collected.Good.empty
  | cons first rest =>
      exact List.foldlRecOn entries _ (motive := Collected.Good profile file (first :: rest))
        Collected.Good.empty fun _ good entry _ => good.step List.mem_cons_self imports entry

/-! ## Accessors -/

/-- Every type that declares one of the accessors is among the types. -/
def DeclaredWithin (types : FileTypes) (accessors : List Accessor) : Prop :=
  ∀ accessor ∈ accessors, ∀ type ∈ accessor.declaring, type ∈ types

theorem DeclaredWithin.addAccessor {types : FileTypes} {accessors : List Accessor}
    (within : DeclaredWithin types accessors) {type : DeclaredType} (mem : type ∈ types)
    (file : Path) (delimiter name returnType : String) :
    DeclaredWithin types (addAccessor file delimiter name returnType type accessors) := by
  induction accessors with
  | nil => simpa [DeclaredWithin, Coupling.addAccessor] using mem
  | cons head rest ih =>
      have head_within := within head List.mem_cons_self
      have rest_within : DeclaredWithin types rest := fun accessor found =>
        within accessor (List.mem_cons_of_mem _ found)
      simp only [Coupling.addAccessor]
      split
      · refine List.forall_mem_cons.mpr ⟨?_, rest_within⟩
        split
        · exact head_within
        · intro other found
          rcases List.mem_append.mp found with old | new
          · exact head_within other old
          · rw [List.mem_singleton.mp new]
            exact mem
      · exact List.forall_mem_cons.mpr ⟨head_within, ih rest_within⟩

theorem DeclaredWithin.addMatch {types : FileTypes} {accessors : List Accessor}
    (within : DeclaredWithin types accessors) {type : DeclaredType} (mem : type ∈ types)
    (file : Path) (delimiter source : String) (found : Query.Match) :
    DeclaredWithin types (addMatch file delimiter source type accessors found) := by
  unfold Coupling.addMatch
  split
  · exact within.addAccessor mem file delimiter _ _
  · exact within

theorem accessorsOf_declared (profile : Profile) (queries : Queries) (file : ParsedFile)
    (types : FileTypes) : DeclaredWithin types (accessorsOf profile queries file types) := by
  have none_within : DeclaredWithin types [] := fun _ mem => (List.not_mem_nil mem).elim
  unfold accessorsOf
  split
  · exact none_within
  · refine List.foldlRecOn types _ (motive := DeclaredWithin types) none_within ?_
    intro accessors within type mem
    exact List.foldlRecOn _ _ (motive := DeclaredWithin types) within
      fun _ grown found _ => grown.addMatch mem _ _ _ found

/-! ## The whole file -/

/-- What is collected of the file at a path belongs to the types that it declares. -/
structure FileCoupling.Good (path : Path) (file : FileCoupling) : Prop where
  types : file.types.Good path
  accessors : DeclaredWithin file.types file.accessors
  candidates : ∀ candidate ∈ file.candidates,
    candidate.file = path ∧ ∃ type ∈ file.types, type.fullName = candidate.origin
  /-- Call chains of one text are the same. -/
  calls : ∀ call ∈ file.calls, ∀ other ∈ file.calls, call.text = other.text → call = other

theorem FileCoupling.ofFile_good (profile : Profile) (queries : Queries) (file : ParsedFile) :
    (FileCoupling.ofFile profile queries file).Good file.path := by
  have usages : (usagesOf profile queries file (declaredTypes profile queries file)).Good profile
      file.path (declaredTypes profile queries file) := collectUsages_good _ _ _ _ _
  refine ⟨declaredTypes_good profile queries file, accessorsOf_declared profile queries file _,
    usages.candidates, ?_⟩
  intro call mem other memOther same
  rw [usages.calls call mem, usages.calls other memOther, same]

end SourceGauge.Coupling
