/-
# SourceGauge.Proofs.Coupling.Members -- the members that accessors tell

Accessors tell each member once, with all types within whose extent a node was found
that declares it, and have the full name of the first (`Tells`).

The extent of a type is that of its first declaration (`span_eq_of_isFirst`).  In a tree that
is `Shaped` and whose members are not empty and hold no types (`MembersShaped`), what meets it is
what lies below that declaration (`meets_iff_prefix`).  So a member of a further
declaration is told for the type only where the first one has it too
(`further_declaration_untold`).

* `accessors_tell_first_declarations`: the types that declare an accessor are those
  below whose first declaration a node declares its member.
-/
import SourceGauge.Proofs.Coupling.DeclaredMembers
import SourceGauge.Proofs.Coupling.TreeTypes

namespace SourceGauge.Coupling

set_option autoImplicit false

open Query (Capture)

/-! ## Accessors -/

def Accessor.member (accessor : Accessor) : Member := ⟨accessor.name, accessor.returnType⟩

/-- An accessor has distinct declaring types, and the full name of the first one with
its own name. -/
def Accessor.Named (delimiter : String) (accessor : Accessor) : Prop :=
  accessor.declaring.Nodup ∧ ∃ first rest, accessor.declaring = first :: rest ∧
    accessor.fullName = first.fullName ++ delimiter ++ accessor.name

/-- Accessors tell members of types: each member once, with the types that it is told
for. -/
structure Tells (delimiter : String) (told : List (DeclaredType × Member))
    (accessors : List Accessor) : Prop where
  distinct : (accessors.map Accessor.member).Nodup
  named : ∀ accessor ∈ accessors, accessor.Named delimiter
  declaring : ∀ type member,
    (∃ accessor ∈ accessors, accessor.member = member ∧ type ∈ accessor.declaring) ↔
      (type, member) ∈ told

section Accessors

variable (file : Path) (delimiter : String) (member : Member) (type : DeclaredType)

theorem map_member_addAccessor (accessors : List Accessor) :
    (addAccessor file delimiter member.name member.returnType type accessors).map
        Accessor.member =
      if member ∈ accessors.map Accessor.member then accessors.map Accessor.member
      else accessors.map Accessor.member ++ [member] := by
  induction accessors with
  | nil => simp [addAccessor, Accessor.member]
  | cons accessor rest ih =>
      rw [addAccessor]
      by_cases same : accessor.name = member.name ∧ accessor.returnType = member.returnType
      · have there : accessor.member = member := by simp [Accessor.member, same]
        have isIn : member ∈ (accessor :: rest).map Accessor.member := by simp [there]
        rw [if_pos same, if_pos isIn]
        split <;> rfl
      · have different : ¬ member = accessor.member := by
          rintro rfl
          exact same ⟨rfl, rfl⟩
        simp only [if_neg same, List.map_cons, ih, List.mem_cons, different, false_or]
        split <;> rfl

theorem named_addAccessor {accessors : List Accessor}
    (named : ∀ accessor ∈ accessors, accessor.Named delimiter) :
    ∀ accessor ∈ addAccessor file delimiter member.name member.returnType type accessors,
      accessor.Named delimiter := by
  induction accessors with
  | nil =>
      intro accessor mem
      rw [List.mem_singleton.mp mem]
      exact ⟨List.nodup_singleton type, type, [], rfl, rfl⟩
  | cons accessor rest ih =>
      obtain ⟨isNamed, restNamed⟩ := List.forall_mem_cons.mp named
      rw [addAccessor]
      split
      · refine List.forall_mem_cons.mpr ⟨?_, restNamed⟩
        split
        · exact isNamed
        · next new =>
          obtain ⟨distinct, first, others, declaring, fullName⟩ := isNamed
          have notIn : type ∉ accessor.declaring := by simpa using new
          refine ⟨?_, first, others ++ [type], by simp [declaring], fullName⟩
          rw [← List.concat_eq_append]
          exact distinct.concat notIn
      · exact List.forall_mem_cons.mpr ⟨isNamed, ih restNamed⟩

/-- An added member has its type among its declaring types. -/
theorem exists_declaring_addAccessor (accessors : List Accessor) (t : DeclaredType) (m : Member) :
    (∃ accessor ∈ addAccessor file delimiter member.name member.returnType type accessors,
        accessor.member = m ∧ t ∈ accessor.declaring) ↔
      (∃ accessor ∈ accessors, accessor.member = m ∧ t ∈ accessor.declaring) ∨
        t = type ∧ m = member := by
  induction accessors with
  | nil =>
      simp only [addAccessor, List.mem_singleton, exists_eq_left, List.not_mem_nil, false_and,
        exists_false, false_or, Accessor.member]
      exact ⟨fun told => ⟨told.2, told.1.symm⟩, fun told => ⟨told.2.symm, told.1⟩⟩
  | cons accessor rest ih =>
      rw [addAccessor]
      split
      · next same =>
        have there : accessor.member = member := by simp [Accessor.member, same]
        split
        · next old =>
          have isIn : type ∈ accessor.declaring := by simpa using old
          refine ⟨Or.inl, ?_⟩
          rintro (found | ⟨rfl, rfl⟩)
          · exact found
          · exact ⟨accessor, List.mem_cons_self, there, isIn⟩
        · have extended : ({ accessor with
              declaring := accessor.declaring ++ [type] } : Accessor).member = member := there
          simp only [List.exists_mem_cons_iff, extended, there, List.mem_append,
            List.mem_singleton]
          constructor
          · rintro (⟨same, old | new⟩ | later)
            · exact Or.inl (Or.inl ⟨same, old⟩)
            · exact Or.inr ⟨new, same.symm⟩
            · exact Or.inl (Or.inr later)
          · rintro ((⟨same, old⟩ | later) | ⟨new, same⟩)
            · exact Or.inl ⟨same, Or.inl old⟩
            · exact Or.inr later
            · exact Or.inl ⟨same.symm, Or.inr new⟩
      · simp only [List.exists_mem_cons_iff, ih, or_assoc]

/-- One more member is told. -/
theorem Tells.addAccessor {told : List (DeclaredType × Member)} {accessors : List Accessor}
    (tells : Tells delimiter told accessors) :
    Tells delimiter (told ++ [(type, member)])
      (addAccessor file delimiter member.name member.returnType type accessors) where
  distinct := by
    rw [map_member_addAccessor]
    split
    · exact tells.distinct
    · next new =>
      rw [← List.concat_eq_append]
      exact tells.distinct.concat (by simpa using new)
  named := named_addAccessor file delimiter member type tells.named
  declaring := by
    intro t m
    rw [exists_declaring_addAccessor, tells.declaring, List.mem_append, List.mem_singleton,
      Prod.mk.injEq]

end Accessors

/-! ## Matches -/

section Matches

variable {file : Path} {delimiter source : String}

theorem addMatch_eq (type : DeclaredType) (accessors : List Accessor) (found : Query.Match) :
    addMatch file delimiter source type accessors found =
      match memberOf? source found.captures with
      | some member =>
          addAccessor file delimiter member.name member.returnType type accessors
      | none => accessors := by
  unfold addMatch memberOf?
  cases captureText? source "accessor_return_type" found.captures with
  | none => rfl
  | some returnType => cases captureText? source "accessor_name" found.captures <;> rfl

/-- The members of a type are told match by match. -/
theorem Tells.addMatches {told : List (DeclaredType × Member)} {accessors : List Accessor}
    (tells : Tells delimiter told accessors) (type : DeclaredType) (found : List Query.Match) :
    Tells delimiter
      (told ++ (found.filterMap fun item => memberOf? source item.captures).map fun member =>
        (type, member))
      (found.foldl (addMatch file delimiter source type) accessors) := by
  induction found generalizing told accessors with
  | nil => simpa using tells
  | cons item rest ih =>
      rw [List.foldl_cons, addMatch_eq, List.filterMap_cons]
      cases memberOf? source item.captures with
      | none => exact ih tells
      | some member =>
          simpa using ih (tells.addAccessor file delimiter member type)

/-- The members of types are told type by type. -/
theorem tells_foldl (matchesOf : DeclaredType → List Query.Match) (types : FileTypes) :
    Tells delimiter
      (types.flatMap fun type =>
        ((matchesOf type).filterMap fun item => memberOf? source item.captures).map fun member =>
          (type, member))
      (types.foldl (fun accessors type =>
        (matchesOf type).foldl (addMatch file delimiter source type) accessors) []) := by
  induction types using List.reverseRecOn with
  | nil =>
      exact ⟨List.nodup_nil, fun _ mem => absurd mem List.not_mem_nil, by simp⟩
  | append_singleton types type ih =>
      rw [List.foldl_append, List.flatMap_append]
      simpa using ih.addMatches type (matchesOf type)

end Matches

/-! ## Extents -/

/-- The members of a tree are not empty, and no type is declared in one. -/
structure MembersShaped (rules : List Query.Rule) (root : Node) : Prop where
  members : ∀ entry ∈ root.entries, isMember entry.2 = true →
    entry.2.start.byte < entry.2.stop.byte
  apart : ∀ entry ∈ root.entries, isMember entry.2 = true →
    ∀ type ∈ Query.marked rules root, type.name = "type_declaration" →
      ¬ entry.1 <+: type.address

/-- Of two nodes that are not empty, where the second is not around the first, the
second meets the extent of the first when it lies below it. -/
theorem meets_iff_prefix {root outer inner : Node} {a b : Address} (nested : root.Nested)
    (foundA : root.at? a = some outer) (foundB : root.at? b = some inner)
    (fullA : outer.start.byte < outer.stop.byte) (fullB : inner.start.byte < inner.stop.byte)
    (notAround : ¬ b <+: a) :
    Query.meets outer.start.byte outer.stop.byte inner = true ↔ a <+: b := by
  simp only [Query.meets, Bool.and_eq_true, Bool.or_eq_true, decide_eq_true_eq]
  constructor
  · rintro ⟨⟨starts, stops⟩, apart⟩
    have different : a ≠ b := fun same => notAround (same ▸ List.prefix_rfl)
    rcases Address.lt_or_lt different with before | after
    · rcases nested.byBytes.prefix_or_after foundA foundB before with below | ended
      · exact below
      · omega
    · rcases nested.byBytes.prefix_or_after foundB foundA after with around | ended
      · exact absurd around notAround
      · omega
  · intro below
    obtain ⟨starts, stops⟩ := nested.byBytes.within_of_prefix foundA foundB below
    omega

/-- What the accessor query tells within the extent of a declaration is what nodes
below it declare. -/
theorem exists_matchesWithin_iff {rules : List Query.Rule} {root : Node}
    (shaped : Shaped rules root) (membersShaped : MembersShaped rules root) {declaration : Capture}
    (mem : declaration ∈ Query.marked rules root) (declares : isType declaration = true)
    (source : String) (member : Member) :
    (∃ found ∈ csharpAccessorQuery.matchesWithin source root declaration.node.start.byte
        declaration.node.stop.byte, memberOf? source found.captures = some member) ↔
      ∃ entry ∈ root.entries, declaration.address <+: entry.1 ∧
        Declares source entry.2 member := by
  have isDeclaration := name_of_isType declares
  have meets : ∀ entry ∈ root.entries, Declares source entry.2 member →
      (Query.meets declaration.node.start.byte declaration.node.stop.byte entry.2 = true ↔
        declaration.address <+: entry.1) := by
    intro entry there isDeclared
    have isOne := isMember_of_declares isDeclared
    exact meets_iff_prefix shaped.nested (at?_of_mem_marked mem) (Node.mem_entries_iff.mp there)
      (shaped.types _ mem isDeclaration) (membersShaped.members entry there isOne)
      (membersShaped.apart entry there isOne _ mem isDeclaration)
  simp only [Query.matchesWithin, List.mem_filter, Query.mem_allMatches_iff]
  constructor
  · rintro ⟨found, ⟨memFound, within⟩, isMember⟩
    obtain ⟨there, isDeclared⟩ := exists_mem_found_iff.mp ⟨found, memFound, rfl, rfl, isMember⟩
    have entry := Node.mem_entries_iff.mpr there
    exact ⟨_, entry, (meets _ entry isDeclared).mp within, isDeclared⟩
  · rintro ⟨entry, there, below, isDeclared⟩
    obtain ⟨found, memFound, _, isNode, isMember⟩ :=
      exists_mem_found_iff.mpr ⟨Node.mem_entries_iff.mp there, isDeclared⟩
    exact ⟨found, ⟨memFound, isNode ▸ (meets entry there isDeclared).mpr below⟩, isMember⟩

/-! ## First declarations -/

section FirstDeclarations

variable {outline : Outline} {types : FileTypes} {type : DeclaredType}

theorem exists_isFirst_of_mem
    (bare : types.map DeclaredType.withoutBases = outline.bareAmong outline.captures)
    (mem : type ∈ types) :
    ∃ declaration ∈ outline.captures, outline.isFirst declaration = true ∧
      outline.fullNameOf declaration = type.fullName := by
  have memBare : type.withoutBases ∈ types.map DeclaredType.withoutBases :=
    List.mem_map_of_mem mem
  rw [bare] at memBare
  obtain ⟨declaration, memFirst, isBare⟩ := List.mem_map.mp memBare
  obtain ⟨memDeclaration, isFirst⟩ := List.mem_filter.mp memFirst
  refine ⟨declaration, memDeclaration, isFirst, ?_⟩
  rw [← type.fullName_withoutBases, ← isBare, Outline.fullName_bareType]

/-- The extent of a type is that of the first declaration of its full name. -/
theorem span_eq_of_isFirst {path : Path} (good : types.Good path)
    (bare : types.map DeclaredType.withoutBases = outline.bareAmong outline.captures)
    (mem : type ∈ types) {declaration : Capture} (memDeclaration : declaration ∈ outline.captures)
    (isFirst : outline.isFirst declaration = true)
    (same : outline.fullNameOf declaration = type.fullName) :
    type.span = declaration.node.span := by
  have memThere : outline.bareType declaration ∈ types.map DeclaredType.withoutBases := by
    rw [bare]
    exact List.mem_map_of_mem (List.mem_filter.mpr ⟨memDeclaration, isFirst⟩)
  obtain ⟨other, memOther, isBare⟩ := List.mem_map.mp memThere
  have sameName : other.fullName = type.fullName := by
    rw [← other.fullName_withoutBases, isBare, Outline.fullName_bareType, same]
  rw [← good.eq_of_fullName memOther mem sameName]
  exact congrArg DeclaredType.span isBare

end FirstDeclarations

/-! ## The accessors of a file -/

/-- A type declares an accessor when a node below the first declaration of its full
name declares the member.  Each member has one accessor, whose declaring types are
distinct types of the file, and whose full name is that of the first one with its
name. -/
theorem accessors_tell_first_declarations {file : ParsedFile} (isCsharp : file.language = .csharp)
    (shaped : Shaped (typeRules file.language) file.root)
    (membersShaped : MembersShaped (typeRules file.language) file.root) :
    ∃ coupling, FileCoupling.of? file = some coupling ∧
      (∀ type ∈ coupling.types, ∀ member,
        (∃ accessor ∈ coupling.accessors,
          accessor.member = member ∧ type ∈ accessor.declaring) ↔
          ∃ declaration ∈ (outlineOf csharp file).captures,
            (outlineOf csharp file).isFirst declaration = true ∧
            (outlineOf csharp file).fullNameOf declaration = type.fullName ∧
            ∃ entry ∈ file.root.entries, declaration.address <+: entry.1 ∧
              Declares file.source entry.2 member) ∧
      (∀ accessor ∈ coupling.accessors, ∀ type ∈ accessor.declaring, type ∈ coupling.types) ∧
      (coupling.accessors.map Accessor.member).Nodup ∧
      ∀ accessor ∈ coupling.accessors, accessor.Named "." := by
  have known : profile? file.language = some csharp := by rw [isCsharp]; rfl
  have has : queries? file.language = some csharpQueries := by rw [isCsharp]; rfl
  obtain ⟨coupling, collected, scanned⟩ := exists_scanned_outline known
  have bare : coupling.types.map DeclaredType.withoutBases =
      (outlineOf csharp file).bareAmong (outlineOf csharp file).captures := by
    have laid : (outlineOf csharp file).Laid := shaped.laid
    rw [scanned]
    exact laid.map_withoutBases_scanTypes
  have coupled : coupling = .ofFile csharp csharpQueries file := by
    simpa [FileCoupling.of?, known, has] using collected.symm
  have good : coupling.Good file.path :=
    coupled ▸ FileCoupling.ofFile_good csharp csharpQueries file
  have tells : Tells "." (coupling.types.flatMap fun type =>
      ((csharpAccessorQuery.matchesWithin file.source file.root type.span.startByte
        type.span.endByte).filterMap fun item => memberOf? file.source item.captures).map
          fun member => (type, member)) coupling.accessors := by
    rw [coupled]
    exact tells_foldl (fun type => csharpAccessorQuery.matchesWithin file.source file.root
      type.span.startByte type.span.endByte) _
  refine ⟨coupling, collected, fun type mem member => ?_, good.accessors, tells.distinct,
    tells.named⟩
  have told : (∃ accessor ∈ coupling.accessors,
      accessor.member = member ∧ type ∈ accessor.declaring) ↔
      ∃ found ∈ csharpAccessorQuery.matchesWithin file.source file.root type.span.startByte
        type.span.endByte, memberOf? file.source found.captures = some member := by
    rw [tells.declaring]
    simp [mem]
  have within : ∀ declaration ∈ (outlineOf csharp file).captures,
      (outlineOf csharp file).isFirst declaration = true →
      (outlineOf csharp file).fullNameOf declaration = type.fullName →
      ((∃ found ∈ csharpAccessorQuery.matchesWithin file.source file.root type.span.startByte
          type.span.endByte, memberOf? file.source found.captures = some member) ↔
        ∃ entry ∈ file.root.entries, declaration.address <+: entry.1 ∧
          Declares file.source entry.2 member) := by
    intro declaration memDeclaration isFirst same
    rw [span_eq_of_isFirst good.types bare mem memDeclaration isFirst same]
    exact exists_matchesWithin_iff shaped membersShaped memDeclaration
      (Outline.isType_of_isFirst isFirst) file.source member
  rw [told]
  constructor
  · intro found
    obtain ⟨declaration, memDeclaration, isFirst, same⟩ := exists_isFirst_of_mem bare mem
    exact ⟨declaration, memDeclaration, isFirst, same,
      (within declaration memDeclaration isFirst same).mp found⟩
  · rintro ⟨declaration, memDeclaration, isFirst, same, below⟩
    exact (within declaration memDeclaration isFirst same).mpr below

/-! ## Two halves of a type -/

namespace Halves

open TwoFiles (node letter member)

/-- One declaration of a type, with one field. -/
def half (start : Nat) : Node :=
  node "class_declaration" start (start + 24) none
    [letter "name" (start + 14),
      node "declaration_list" (start + 16) (start + 24) (some "body")
        [member (start + 18) (start + 22) []]]

/-- A file that declares a type twice. -/
def file : ParsedFile where
  path := ⟨"a.cs"⟩
  language := .csharp
  source := "partial class P { A x; } partial class P { B y; }"
  root := node "compilation_unit" 0 49 none [half 0, half 25]

/-- The type, with the extent of the first declaration. -/
def typeP : DeclaredType := TwoFiles.declared "P" ⟨"a.cs"⟩ 0 24

def coupling : FileCoupling where
  types := [typeP]
  accessors := [⟨"x", "A", ⟨"a.cs"⟩, "P.x", [typeP]⟩]
  candidates := ["A", "A", "B", "B"].map fun used => ⟨used, "P", ⟨"a.cs"⟩, .use⟩
  calls := []

theorem collected : FileCoupling.of? file = some coupling := by
  simp only [FileCoupling.of?, FileCoupling.ofFile, declaredTypes, usagesOf, importsOf, accessorsOf,
    Query.captures, Query.matchesWithin, Query.allMatches_eq_insertionSort]
  decide +kernel

theorem shaped : Shaped (typeRules file.language) file.root where
  nested := by decide +kernel
  types := by decide +kernel
  bodies := by decide +kernel
  top := by decide +kernel

theorem membersShaped : MembersShaped (typeRules file.language) file.root where
  members := by decide +kernel
  apart := by decide +kernel

end Halves

theorem accessors_tell_first_declarations_halves :
    Halves.file.language = .csharp ∧ Shaped (typeRules Halves.file.language) Halves.file.root ∧
      MembersShaped (typeRules Halves.file.language) Halves.file.root ∧
      ∃ declaration ∈ (outlineOf csharp Halves.file).captures,
        (outlineOf csharp Halves.file).isFirst declaration = true ∧
        (outlineOf csharp Halves.file).fullNameOf declaration = "P" ∧
        ∃ entry ∈ Halves.file.root.entries, declaration.address <+: entry.1 ∧
          Declares Halves.file.source entry.2 ⟨"x", "A"⟩ := by
  obtain ⟨coupling, collected, tells, _⟩ :=
    accessors_tell_first_declarations rfl Halves.shaped Halves.membersShaped
  rw [Halves.collected] at collected
  cases collected
  have declared := (tells Halves.typeP (by decide) ⟨"x", "A"⟩).mp
    ⟨⟨"x", "A", ⟨"a.cs"⟩, "P.x", [Halves.typeP]⟩, by decide, rfl, by decide⟩
  exact ⟨rfl, Halves.shaped, Halves.membersShaped, declared⟩

/-- The field of the second half is in a declaration of the type, and has no
accessor. -/
theorem further_declaration_untold :
    Shaped (typeRules Halves.file.language) Halves.file.root ∧
      MembersShaped (typeRules Halves.file.language) Halves.file.root ∧
      ∃ coupling, FileCoupling.of? Halves.file = some coupling ∧ Halves.typeP ∈ coupling.types ∧
      (∃ declaration ∈ (outlineOf csharp Halves.file).captures, isType declaration = true ∧
        (outlineOf csharp Halves.file).fullNameOf declaration = Halves.typeP.fullName ∧
        ∃ entry ∈ Halves.file.root.entries, declaration.address <+: entry.1 ∧
          Declares Halves.file.source entry.2 ⟨"y", "B"⟩) ∧
      ¬ ∃ accessor ∈ coupling.accessors,
        accessor.member = ⟨"y", "B"⟩ ∧ Halves.typeP ∈ accessor.declaring := by
  refine ⟨Halves.shaped, Halves.membersShaped, Halves.coupling, Halves.collected, by decide, ?_,
    by decide⟩
  have inside : DeclaresField Halves.file.source (TwoFiles.member 43 47 []) ⟨"y", "B"⟩ :=
    ⟨rfl, _, List.mem_singleton_self _, rfl, TwoFiles.letter "type" 43, _, List.Sublist.refl _,
      ⟨rfl, rfl, rfl⟩, rfl, TwoFiles.letter "name" 45, List.mem_singleton_self _, ⟨rfl, rfl⟩,
      by decide +kernel, by decide +kernel⟩
  have second : ⟨"type_declaration", [1], Halves.half 25⟩ ∈
      (outlineOf csharp Halves.file).captures := by
    have named : ((typeRules .csharp).find? fun rule =>
        rule.Names Halves.file.root ([1], Halves.half 25)) =
          some { kinds := ["class_declaration"], name := "type_declaration" } := by
      decide +kernel
    exact mem_marked_of_at? rfl named
  exact ⟨_, second, by decide +kernel, by decide +kernel, ([1, 1, 0], TwoFiles.member 43 47 []),
    Node.mem_entries_iff.mpr rfl, by decide, Or.inr (Or.inl inside)⟩

end SourceGauge.Coupling
