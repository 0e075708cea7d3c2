/-
# SourceGauge.Proofs.Coupling.TreeTypes -- the types of a tree

The types queries of both profiles are rules on the kinds of nodes (`csharpRules`,
`phpRules`), and the nodes that they name in a tree are an `Outline`.  When the tree
is `Shaped` -- children ordered, disjoint and within their parents, types not empty
and in the bodies of the namespaces around them, namespaces without a body in none
that has one -- what a file declares is what its outline says.

* `declares_outline`: a file declares one type for each full name in its tree, in the
  order of their first declarations, with the base names that all of them are given, if
  no base name is empty (`BasesFull`).
* `outline_unnamed_empty`: a namespace without a name adds nothing to a full name, and an
  empty base name at the end of a declaration goes to no type.
-/
import SourceGauge.Proofs.Coupling.Compiled
import SourceGauge.Proofs.Coupling.KindRules
import SourceGauge.Proofs.Coupling.ScannedTypes

namespace SourceGauge.Coupling

set_option autoImplicit false

open Query (Capture Rule)

/-! ## Rules -/

/-- What declares a namespace or a type, or names a base, in C#. -/
def csharpRules : List Rule := [
  { kinds := ["namespace_declaration"], name := "namespace" },
  { kinds := ["file_scoped_namespace_declaration"], name := "namespace" },
  { kinds := ["class_declaration"], name := "type_declaration" },
  { kinds := ["interface_declaration"], name := "type_declaration" },
  { kinds := ["struct_declaration"], name := "type_declaration" },
  { kinds := ["enum_declaration"], name := "type_declaration" },
  { kinds := ["record_declaration"], name := "type_declaration" },
  { kinds := ["delegate_declaration"], name := "type_declaration" },
  { above := ["base_list"], kinds := ["identifier"], name := "implemented_class" },
  { above := ["base_list"], kinds := ["qualified_name"], name := "implemented_class" },
  { above := ["base_list", "generic_name"], kinds := ["identifier"], name := "implemented_class" }]

/-- The same in PHP. -/
def phpRules : List Rule := [
  { kinds := ["namespace_definition"], name := "namespace" },
  { kinds := ["class_declaration"], name := "type_declaration" },
  { kinds := ["interface_declaration"], name := "type_declaration" },
  { kinds := ["trait_declaration"], name := "type_declaration" },
  { kinds := ["enum_declaration"], name := "type_declaration" },
  { above := ["class_declaration", "base_clause"], kinds := ["name", "qualified_name"],
    name := "extended_class" },
  { above := ["interface_declaration", "base_clause"], kinds := ["name", "qualified_name"],
    name := "implemented_class" },
  { above := ["class_declaration", "class_interface_clause"], kinds := ["name", "qualified_name"],
    name := "implemented_class" },
  { above := ["enum_declaration", "class_interface_clause"], kinds := ["name", "qualified_name"],
    name := "implemented_class" }]

theorem csharpRules_apart : csharpRules.Pairwise Rule.Apart := by decide

theorem phpRules_apart : phpRules.Pairwise Rule.Apart := by decide

/-- The rules of a language. -/
def typeRules : Language → List Rule
  | .csharp => csharpRules
  | .php => phpRules
  | _ => []

/-- The types query of a language reports the nodes that its rules name. -/
theorem captures_types {language : Language} {queries : Queries}
    (known : queries? language = some queries) (source : String) (root : Node) :
    queries.types.captures source root = Query.marked (typeRules language) root := by
  cases language with
  | csharp =>
      cases known
      exact Query.captures_ofRules csharpRules_apart source root
  | php =>
      cases known
      exact Query.captures_ofRules phpRules_apart source root
  | _ => cases known

/-! ## Trees -/

def bodyAddress? (capture : Capture) : Option Address :=
  (capture.node.children.findIdx? fun child => child.label.field = some "body").map fun i =>
    capture.address ++ [i]

/-- A tree is laid out as a file is, with namespaces and types as they can be
written. -/
structure Shaped (rules : List Rule) (root : Node) : Prop where
  nested : root.Nested
  /-- The declaration of a type is not empty. -/
  types : ∀ type ∈ Query.marked rules root, type.name = "type_declaration" →
    type.node.start.byte < type.node.stop.byte
  /-- A type below a namespace is in its body. -/
  bodies : ∀ space ∈ Query.marked rules root, space.name = "namespace" →
    ∀ type ∈ Query.marked rules root, type.name = "type_declaration" →
      space.address <+: type.address → ∀ body ∈ bodyAddress? space, body <+: type.address
  /-- A namespace without a body is in none that has one. -/
  top : ∀ space ∈ Query.marked rules root, isBlock space = true →
    ∀ other ∈ Query.marked rules root, isBodiless other = true →
      ¬ space.address <+: other.address

/-- The outline of a file. -/
def outlineOf (profile : Profile) (file : ParsedFile) : Outline where
  file := file.path
  source := file.source
  delimiter := profile.delimiter
  captures := Query.marked (typeRules file.language) file.root

section Marked

variable {rules : List Rule} {root : Node} {capture : Capture}

/-- A node that rules name is in the tree. -/
theorem at?_of_mem_marked (mem : capture ∈ Query.marked rules root) :
    root.at? capture.address = some capture.node := by
  obtain ⟨entry, there, named⟩ := List.mem_filterMap.mp mem
  obtain ⟨rule, _, rfl⟩ := Option.map_eq_some_iff.mp named
  exact Node.mem_entries_iff.mp there

/-- A node of the tree is named by the first rule that names it. -/
theorem mem_marked_of_at? {a : Address} {node : Node} {rule : Rule}
    (found : root.at? a = some node)
    (named : (rules.find? fun rule => rule.Names root (a, node)) = some rule) :
    ⟨rule.name, a, node⟩ ∈ Query.marked rules root :=
  List.mem_filterMap.mpr ⟨(a, node), Node.mem_entries_iff.mpr found, by rw [named, Option.map_some]⟩

theorem pairwise_marked (rules : List Rule) (root : Node) :
    (Query.marked rules root).Pairwise fun m n => m.address.lt n.address = true := by
  refine List.pairwise_filterMap.mpr ((Node.pairwise_entries root).imp ?_)
  intro m n earlier first isFirst second isSecond
  obtain ⟨_, _, rfl⟩ := Option.map_eq_some_iff.mp isFirst
  obtain ⟨_, _, rfl⟩ := Option.map_eq_some_iff.mp isSecond
  exact earlier

/-- The body of a namespace is the child at its address. -/
theorem body_of_bodyStop? (mem : capture ∈ Query.marked rules root) {stop : Nat}
    (ends : bodyStop? capture = some stop) :
    ∃ address body, bodyAddress? capture = some address ∧ root.at? address = some body ∧
      body.stop.byte = stop ∧ body ∈ capture.node.children := by
  obtain ⟨body, isBody, rfl⟩ := Option.map_eq_some_iff.mp ends
  obtain ⟨field, i, bound, rfl, earlier⟩ := List.find?_eq_some_iff_getElem.mp isBody
  have index : (capture.node.children.findIdx? fun child =>
      child.label.field = some "body") = some i :=
    List.findIdx?_eq_some_iff_getElem.mpr ⟨bound, field, fun j less => by
      simpa using earlier j less⟩
  refine ⟨capture.address ++ [i], capture.node.children[i], by simp [bodyAddress?, index], ?_, rfl,
    List.getElem_mem bound⟩
  rw [Node.at?_append, at?_of_mem_marked mem]
  simp [Node.at?_cons, bound]

end Marked

/-- The outline of a shaped tree is laid out as its nodes are. -/
theorem Shaped.laid {profile : Profile} {file : ParsedFile}
    (shaped : Shaped (typeRules file.language) file.root) : (outlineOf profile file).Laid where
  sorted := pairwise_marked _ _
  starts := (pairwise_marked _ _).imp_of_mem fun memM memN earlier =>
    shaped.nested.byBytes.start_le_of_lt (at?_of_mem_marked memM) (at?_of_mem_marked memN) earlier
  apart := (pairwise_marked _ _).imp_of_mem fun memM memN earlier =>
    shaped.nested.byBytes.prefix_or_after (at?_of_mem_marked memM) (at?_of_mem_marked memN) earlier
  body_le := by
    intro space mem stop ends
    obtain ⟨_, body, _, _, rfl, isChild⟩ := body_of_bodyStop? mem ends
    exact ((shaped.nested.byBytes.laid (at?_of_mem_marked mem)).within body isChild).2
  in_body := by
    intro space mem block type memType declares below stop ends
    have isSpace := (isBlock_iff.mp block).1
    have isDeclaration := name_of_isType declares
    obtain ⟨address, body, isBody, there, rfl, _⟩ := body_of_bodyStop? mem ends
    have inBody := shaped.bodies space mem isSpace type memType isDeclaration below address isBody
    have stops :=
      (shaped.nested.byBytes.within_of_prefix there (at?_of_mem_marked memType) inBody).2
    exact (shaped.types type memType isDeclaration).trans_le stops
  top := shaped.top

/-- No base name in a tree is empty. -/
def BasesFull (rules : List Rule) (root : Node) : Prop :=
  ∀ base ∈ Query.marked rules root, (BaseSort.ofCapture? base.name).isSome = true →
    base.node.start.byte < base.node.stop.byte

/-- A base name that is not empty starts before the declarations around it end. -/
theorem Shaped.based {profile : Profile} {file : ParsedFile}
    (shaped : Shaped (typeRules file.language) file.root)
    (full : BasesFull (typeRules file.language) file.root) : (outlineOf profile file).Based := by
  intro base mem sort isBase outer memOuter _
  simp only [Outline.around, List.mem_filter, decide_eq_true_eq] at memOuter
  have stops := (shaped.nested.byBytes.within_of_prefix (at?_of_mem_marked memOuter.1)
    (at?_of_mem_marked mem) memOuter.2.1).2
  exact (full base mem (by rw [isBase]; rfl)).trans_le stops

/-! ## The types of a file -/

/-- What a file declares is what the scan makes of its outline. -/
theorem exists_scanned_outline {file : ParsedFile} {profile : Profile}
    (known : profile? file.language = some profile) :
    ∃ coupling, FileCoupling.of? file = some coupling ∧
      coupling.types = scanTypes file.path profile.delimiter file.source
        (outlineOf profile file).captures := by
  obtain ⟨queries, has⟩ := queries?_of_profile? known
  refine ⟨.ofFile profile queries file, by simp [FileCoupling.of?, known, has], ?_⟩
  rw [FileCoupling.ofFile, declaredTypes, captures_types has, outlineOf]

/-- A file declares one type for each full name in its tree, in the order of their
first declarations, which they are made from; the base names of all declarations of a
full name go to its type. -/
theorem declares_outline {file : ParsedFile} {profile : Profile}
    (known : profile? file.language = some profile)
    (shaped : Shaped (typeRules file.language) file.root)
    (full : BasesFull (typeRules file.language) file.root) :
    ∃ coupling, FileCoupling.of? file = some coupling ∧
      coupling.types = (outlineOf profile file).types ∧
      (coupling.types.map DeclaredType.fullName).Nodup ∧
      ∀ name, name ∈ coupling.types.map DeclaredType.fullName ↔
        ∃ declaration ∈ (outlineOf profile file).captures, isType declaration = true ∧
          (outlineOf profile file).fullNameOf declaration = name := by
  obtain ⟨coupling, collected, scanned⟩ := exists_scanned_outline known
  have laid : (outlineOf profile file).Laid := shaped.laid
  have whole : (outlineOf profile file).captures = (outlineOf profile file).captures ++ [] :=
    (List.append_nil _).symm
  have types : coupling.types = (outlineOf profile file).types :=
    scanned.trans (laid.scanTypes_eq (shaped.based full))
  refine ⟨coupling, collected, types, ?_, ?_⟩
  · rw [types, Outline.types, Outline.map_fullName_typesAmong]
    exact laid.nodup_namesAmong whole
  · intro name
    rw [types, Outline.types, Outline.map_fullName_typesAmong, laid.mem_namesAmong_iff whole]

/-! ## Two declarations of one type

A type is declared twice in a namespace, with another type in the first declaration. -/

namespace Partials

open TwoFiles (node letter)

def classOf (start stop name : Nat) (bases : List Nat) (body : Nat) (members : List Node) : Node :=
  node "class_declaration" start stop none
    [letter "name" name,
      node "base_list" (name + 2) (body - 1) none
        (bases.map fun base => node "identifier" base (base + 1) none []),
      node "declaration_list" body stop (some "body") members]

def file : ParsedFile where
  path := ⟨"a.cs"⟩
  language := .csharp
  source := "namespace N { partial class P : A { class Q : B { } } partial class P : A, C { } }"
  root := node "compilation_unit" 0 82 none
    [node "namespace_declaration" 0 82 none
      [letter "name" 10,
        node "declaration_list" 12 82 (some "body")
          [classOf 14 53 28 [32] 34 [classOf 36 51 42 [46] 48 []],
            classOf 54 80 68 [72, 75] 77 []]]]

/-- The type of both declarations, with the base names of both. -/
def typeP : DeclaredType :=
  { TwoFiles.declared "P" ⟨"a.cs"⟩ 14 53 with space := "N", implemented := ["A", "C"] }

def typeQ : DeclaredType :=
  { TwoFiles.declared "Q" ⟨"a.cs"⟩ 36 51 with space := "N", implemented := ["B"] }

theorem shaped : Shaped (typeRules file.language) file.root where
  nested := by decide +kernel
  types := by decide +kernel
  bodies := by decide +kernel
  top := by decide +kernel

theorem basesFull : BasesFull (typeRules file.language) file.root := by
  unfold BasesFull
  decide +kernel

end Partials

theorem declares_outline_partials :
    profile? Partials.file.language = some csharp ∧
      Shaped (typeRules Partials.file.language) Partials.file.root ∧
      BasesFull (typeRules Partials.file.language) Partials.file.root ∧
      ∃ coupling, FileCoupling.of? Partials.file = some coupling ∧
        coupling.types = [Partials.typeP, Partials.typeQ] := by
  have known : profile? Partials.file.language = some csharp := rfl
  obtain ⟨coupling, collected, types, _⟩ :=
    declares_outline known Partials.shaped Partials.basesFull
  have outline : (outlineOf csharp Partials.file).types = [Partials.typeP, Partials.typeQ] := by
    decide +kernel
  exact ⟨known, Partials.shaped, Partials.basesFull, coupling, collected, types.trans outline⟩

/-! ## A namespace without a name, and a base name without text -/

/-- The name of the namespace that a declaration is in, if the last namespace without a body counts
when it has no name. -/
def Outline.spaceWithUnnamed (outline : Outline) (capture : Capture) : String :=
  let names (spaces : List Capture) := spaces.map fun space =>
    (nameOf? outline.source space.node).getD ""
  Text.join outline.delimiter
    (names ((outline.before capture).filter isBodiless).getLast?.toList ++
      (names ((outline.around capture).filter isBlock)).filter fun name => name ≠ "")

namespace Unnamed

open TwoFiles (node letter)

def file : ParsedFile where
  path := ⟨"a.cs"⟩
  language := .csharp
  source := "namespace ; namespace B { class C { } }"
  root := node "compilation_unit" 0 39 none
    [node "file_scoped_namespace_declaration" 0 11 none
      [node "identifier" 9 9 (some "name") []],
      node "namespace_declaration" 12 39 none
        [letter "name" 22,
          node "declaration_list" 24 39 (some "body")
            [node "class_declaration" 26 37 none
              [letter "name" 32, node "declaration_list" 34 37 (some "body") []]]]]

theorem shaped : Shaped (typeRules file.language) file.root where
  nested := by decide +kernel
  types := by decide +kernel
  bodies := by decide +kernel
  top := by decide +kernel

end Unnamed

namespace EmptyBase

open TwoFiles (node letter)

/-- A class that ends where its base name should be. -/
def file : ParsedFile where
  path := ⟨"a.cs"⟩
  language := .csharp
  source := "class A :"
  root := node "compilation_unit" 0 9 none
    [node "class_declaration" 0 9 none
      [letter "name" 6,
        node "base_list" 8 9 none [node "identifier" 9 9 none []]]]

theorem shaped : Shaped (typeRules file.language) file.root where
  nested := by decide +kernel
  types := by decide +kernel
  bodies := by decide +kernel
  top := by decide +kernel

end EmptyBase

/-- The namespace without a name adds no delimiter to the namespace of `B.C`; and the empty base
name of `A`, which starts where the declaration of `A` ends, is dropped. -/
theorem outline_unnamed_empty :
    (Shaped (typeRules Unnamed.file.language) Unnamed.file.root ∧
      ∃ coupling, FileCoupling.of? Unnamed.file = some coupling ∧
        coupling.types.map DeclaredType.fullName = ["B.C"] ∧
        ∃ declaration ∈ (outlineOf csharp Unnamed.file).captures, isType declaration = true ∧
          (outlineOf csharp Unnamed.file).spaceWithUnnamed declaration = ".B" ∧
          ∀ type ∈ coupling.types, type.space ≠ ".B") ∧
    (Shaped (typeRules EmptyBase.file.language) EmptyBase.file.root ∧
      ∃ coupling, FileCoupling.of? EmptyBase.file = some coupling ∧
        coupling.types ≠ (outlineOf csharp EmptyBase.file).types) := by
  have knownUnnamed : profile? Unnamed.file.language = some csharp := rfl
  have knownEmpty : profile? EmptyBase.file.language = some csharp := rfl
  obtain ⟨unnamed, collectedUnnamed, typesUnnamed⟩ := exists_scanned_outline knownUnnamed
  obtain ⟨empty, collectedEmpty, typesEmpty⟩ := exists_scanned_outline knownEmpty
  refine ⟨⟨Unnamed.shaped, unnamed, collectedUnnamed, ?_⟩,
    EmptyBase.shaped, empty, collectedEmpty, ?_⟩
  · rw [typesUnnamed]
    decide +kernel
  · rw [typesEmpty]
    decide +kernel

end SourceGauge.Coupling
