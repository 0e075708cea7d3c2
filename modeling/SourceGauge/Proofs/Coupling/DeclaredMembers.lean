/-
# SourceGauge.Proofs.Coupling.DeclaredMembers -- what the accessor query finds

A node of a C# tree `Declares` a member: a property or a method by its type and its
name, a field by its type and the name of one of its variables.  The accessor query
has the patterns of these (`memberPatterns`), whose fits are pairs of captures.

* `exists_mem_found_iff`: the query has a match at a node that tells a member, if and
  only if the node declares it.
-/
import SourceGauge.Proofs.Coupling.Compiled
import SourceGauge.Proofs.Query.Fits

namespace SourceGauge.Coupling

set_option autoImplicit false

open Query (Capture Pattern)
open Query.Pattern (ofKind any inField)

/-! ## Members -/

/-- The name of a member with the text of its type. -/
structure Member where
  name : String
  returnType : String
  deriving DecidableEq, Repr

def memberOf? (source : String) (captures : List Capture) : Option Member :=
  match captureText? source "accessor_return_type" captures,
      captureText? source "accessor_name" captures with
  | some returnType, some name => some ⟨name, returnType⟩
  | _, _ => none

/-- A node stands in a field of its parent as the type of a member. -/
def IsTypeIn (field : String) (node : Node) : Prop :=
  node.label.field = some field ∧ node.isNamed = true ∧ node.isError = false

/-- A node is the name of its parent. -/
def IsName (node : Node) : Prop :=
  node.label.field = some "name" ∧ node.namedKind? = some "identifier"

/-- A node of a kind declares a member by one child that is its type and a later one
that is its name. -/
def DeclaresBy (kind field source : String) (node : Node) (member : Member) : Prop :=
  node.namedKind? = some kind ∧ ∃ type name, [type, name].Sublist node.children ∧
    IsTypeIn field type ∧ IsName name ∧
    type.text source = member.returnType ∧ name.text source = member.name

/-- A node declares a field, whose type comes before its variables. -/
def DeclaresField (source : String) (node : Node) (member : Member) : Prop :=
  node.namedKind? = some "field_declaration" ∧ ∃ declaration ∈ node.children,
    declaration.namedKind? = some "variable_declaration" ∧
      ∃ type declarator, [type, declarator].Sublist declaration.children ∧
        IsTypeIn "type" type ∧ declarator.namedKind? = some "variable_declarator" ∧
        ∃ name ∈ declarator.children, IsName name ∧
          type.text source = member.returnType ∧ name.text source = member.name

/-- A node declares a member: a property, a field or a method. -/
def Declares (source : String) (node : Node) (member : Member) : Prop :=
  DeclaresBy "property_declaration" "type" source node member ∨
    DeclaresField source node member ∨
    DeclaresBy "method_declaration" "returns" source node member

def isMember (node : Node) : Bool :=
  node.namedKind? = some "property_declaration" || node.namedKind? = some "field_declaration" ||
    node.namedKind? = some "method_declaration"

theorem isMember_of_declares {source : String} {node : Node} {member : Member}
    (declares : Declares source node member) : isMember node = true := by
  rcases declares with ⟨kind, _⟩ | ⟨kind, _⟩ | ⟨kind, _⟩ <;> simp [isMember, kind]

/-! ## Patterns -/

def namePattern : Pattern := inField "name" ((ofKind "identifier" []).capture "accessor_name")

def typePattern (field : String) : Pattern :=
  inField field (any.capture "accessor_return_type")

def memberPatterns : List Pattern := [
  ofKind "property_declaration" [typePattern "type", namePattern],
  ofKind "field_declaration"
    [ofKind "variable_declaration"
      [typePattern "type", ofKind "variable_declarator" [namePattern]]],
  ofKind "method_declaration" [typePattern "returns", namePattern]]

theorem csharpAccessorQuery_eq : csharpAccessorQuery = Query.ofPatterns memberPatterns := rfl

/-- A pattern fits a node with some captures. -/
def Fits (pattern : Pattern) (here : Address) (target : Node) (captures : List Capture) : Prop :=
  ∃ fit ∈ pattern.findAt here target, fit.captures = captures

section Fits

variable {kind field : String} {here : Address} {target : Node} {captures : List Capture}

theorem fits_leaf_iff {slot : Query.Slot} {test : Query.Test} {name : String} :
    Fits (.node slot test [] [name] []) here target captures ↔
      test.accepts target = true ∧ captures = [⟨name, here, target⟩] := by
  simp only [Fits, Query.Pattern.mem_findAt_node_iff, Query.Pattern.findChildren,
    List.mem_singleton, exists_eq_left]
  constructor
  · rintro ⟨_, ⟨accepted, rfl⟩, rfl⟩
    exact ⟨accepted, rfl⟩
  · rintro ⟨accepted, rfl⟩
    exact ⟨_, ⟨accepted, rfl⟩, rfl⟩

theorem fits_typePattern_iff :
    Fits (typePattern field) here target captures ↔
      (target.isNamed = true ∧ target.isError = false) ∧
        captures = [⟨"accessor_return_type", here, target⟩] := by
  have accepts : Query.Test.anyNamed.accepts target = true ↔
      target.isNamed = true ∧ target.isError = false := by simp [Query.Test.accepts]
  exact fits_leaf_iff.trans (and_congr_left' accepts)

theorem fits_namePattern_iff :
    Fits namePattern here target captures ↔
      target.namedKind? = some "identifier" ∧ captures = [⟨"accessor_name", here, target⟩] :=
  fits_leaf_iff.trans (and_congr_left' Query.Pattern.accepts_named_iff)

theorem fits_ofKind_iff {inner : Pattern} (loose : inner.slot.anchored = false) :
    Fits (ofKind kind [inner]) here target captures ↔
      target.namedKind? = some kind ∧ ∃ i child, target.children[i]? = some child ∧
        inner.slot.fits child = true ∧ Fits inner (here ++ [i]) child captures := by
  simp only [Fits, Query.Pattern.mem_findAt_ofKind_iff loose]
  constructor
  · rintro ⟨_, ⟨isKind, i, child, there, fills, first, mem, rfl⟩, rfl⟩
    exact ⟨isKind, i, child, there, fills, first, mem, by simp [Query.Fit.followedBy]⟩
  · rintro ⟨isKind, i, child, there, fills, first, mem, rfl⟩
    exact ⟨_, ⟨isKind, i, child, there, fills, first, mem, rfl⟩, by simp [Query.Fit.followedBy]⟩

theorem pair_sublist_iff {α : Type} {a b : α} {items : List α} :
    [a, b].Sublist items ↔ ∃ before rest, items = before ++ a :: rest ∧ b ∈ rest := by
  simp only [List.cons_sublist_iff, List.nil_sublist, and_true]
  constructor
  · rintro ⟨first, second, rfl, memA, third, fourth, rfl, memB⟩
    obtain ⟨before, rest, rfl⟩ := List.append_of_mem memA
    exact ⟨before, rest ++ (third ++ fourth), by simp, by simp [memB]⟩
  · rintro ⟨before, rest, rfl, memB⟩
    exact ⟨before ++ [a], rest, by simp, by simp, rest, [], by simp, memB⟩

/-- One child and a later one fit two patterns. -/
theorem fits_pair_iff {first second : Pattern} (looseFirst : first.slot.anchored = false)
    (looseSecond : second.slot.anchored = false) :
    Fits (ofKind kind [first, second]) here target captures ↔
      target.namedKind? = some kind ∧ ∃ c d, [c, d].Sublist (Query.positioned target) ∧
        first.slot.fits c.2 = true ∧ second.slot.fits d.2 = true ∧
        ∃ before after, Fits first (here ++ [c.1]) c.2 before ∧
          Fits second (here ++ [d.1]) d.2 after ∧ captures = before ++ after := by
  have under : ∀ fit : Query.Fit, fit.under [] here target = fit := fun _ => rfl
  simp only [Fits, ofKind, Query.Pattern.mem_findAt_node_iff, Query.Pattern.accepts_named_iff,
    under, exists_eq_right, Query.Pattern.mem_findChildren_cons_iff, pair_sublist_iff]
  simp only [Query.Pattern.findChildren, List.mem_singleton, exists_eq_left]
  constructor
  · rintro ⟨_, ⟨isKind, c, rest, candidate, f, memF, _, ⟨d, others, next, g, memG, rfl⟩, rfl⟩, rfl⟩
    obtain ⟨fillsC, before, split⟩ := (Query.Slot.mem_candidates_iff looseFirst).mp candidate
    obtain ⟨fillsD, between, rfl⟩ := (Query.Slot.mem_candidates_iff looseSecond).mp next
    exact ⟨isKind, c, d, ⟨before, _, split, by simp⟩, fillsC, fillsD, _, _, ⟨f, memF, rfl⟩,
      ⟨g, memG, rfl⟩, by simp [Query.Fit.followedBy]⟩
  · rintro ⟨isKind, c, d, ⟨before, rest, split, mem⟩, fillsC, fillsD, _, _, ⟨f, memF, rfl⟩,
      ⟨g, memG, rfl⟩, rfl⟩
    obtain ⟨between, others, rfl⟩ := List.append_of_mem mem
    exact ⟨_, ⟨isKind, c, _, (Query.Slot.mem_candidates_iff looseFirst).mpr ⟨fillsC, before, split⟩,
      f, memF, _, ⟨d, others, (Query.Slot.mem_candidates_iff looseSecond).mpr
        ⟨fillsD, between, rfl⟩, g, memG, rfl⟩, rfl⟩, by simp [Query.Fit.followedBy]⟩

/-- The children of a node with their positions, as far as the nodes go. -/
theorem exists_positioned_iff {c d : Node} :
    (∃ i j, [(i, c), (j, d)].Sublist (Query.positioned target)) ↔
      [c, d].Sublist target.children := by
  constructor
  · rintro ⟨i, j, sub⟩
    simpa [Query.map_positioned] using sub.map fun item => item.2
  · intro sub
    rw [← Query.map_positioned, List.sublist_map_iff] at sub
    obtain ⟨items, sub, same⟩ := sub
    match items, same, sub with
    | [first, second], same, sub =>
        simp only [List.map_cons, List.map_nil, List.cons.injEq, and_true] at same
        exact ⟨first.1, second.1, by simpa [same.1, same.2] using sub⟩

/-- A pattern fits a node with one capture, its name: a node that stands in a
relation to it. -/
def FitsName (pattern : Pattern) (names : Node → Node → Prop) : Prop :=
  pattern.slot.anchored = false ∧ ∀ here target,
    (∀ captures, Fits pattern here target captures → ∃ b name, names target name ∧
      captures = [⟨"accessor_name", b, name⟩]) ∧
    ∀ name, names target name → ∃ b, Fits pattern here target [⟨"accessor_name", b, name⟩]

theorem fitsName_namePattern :
    FitsName namePattern fun target name =>
      target = name ∧ target.namedKind? = some "identifier" := by
  refine ⟨rfl, fun here target => ⟨fun captures fits => ?_, ?_⟩⟩
  · obtain ⟨isName, rfl⟩ := fits_namePattern_iff.mp fits
    exact ⟨here, target, ⟨rfl, isName⟩, rfl⟩
  · rintro _ ⟨rfl, isName⟩
    exact ⟨here, fits_namePattern_iff.mpr ⟨isName, rfl⟩⟩

theorem slot_fits_inField {field : String} {pattern : Pattern} {child : Node} :
    (inField field pattern).slot.fits child = true ↔ child.label.field = some field := by
  cases pattern <;> exact decide_eq_true_iff

theorem fitsName_declarator :
    FitsName (ofKind "variable_declarator" [namePattern]) fun target name =>
      target.namedKind? = some "variable_declarator" ∧ name ∈ target.children ∧ IsName name := by
  have loose : namePattern.slot.anchored = false := rfl
  refine ⟨rfl, fun here target => ⟨fun captures fits => ?_, ?_⟩⟩
  · obtain ⟨isDeclarator, i, child, there, fills, fits⟩ := (fits_ofKind_iff loose).mp fits
    obtain ⟨isName, rfl⟩ := fits_namePattern_iff.mp fits
    exact ⟨_, child, ⟨isDeclarator, List.mem_of_getElem? there, slot_fits_inField.mp fills, isName⟩,
      rfl⟩
  · rintro name ⟨isDeclarator, mem, field, isName⟩
    obtain ⟨i, there⟩ := List.mem_iff_getElem?.mp mem
    exact ⟨here ++ [i], (fits_ofKind_iff loose).mpr ⟨isDeclarator, i, name, there,
      slot_fits_inField.mpr field, fits_namePattern_iff.mpr ⟨isName, rfl⟩⟩⟩

/-- What a pattern of a type and a name tells of a node. -/
theorem tells_pair_iff {pattern : Pattern} {names : Node → Node → Prop}
    (fitsName : FitsName pattern names) {source : String} {member : Member} :
    (∃ captures, Fits (ofKind kind [typePattern field, pattern]) here target captures ∧
        memberOf? source captures = some member) ↔
      target.namedKind? = some kind ∧ ∃ type outer name, [type, outer].Sublist target.children ∧
        IsTypeIn field type ∧ pattern.slot.fits outer = true ∧ names outer name ∧
        type.text source = member.returnType ∧ name.text source = member.name := by
  have loose : (typePattern field).slot.anchored = false := rfl
  have told : ∀ a b type name, memberOf? source
      [⟨"accessor_return_type", a, type⟩, ⟨"accessor_name", b, name⟩] =
        some ⟨name.text source, type.text source⟩ := by
    intro a b type name
    simp [memberOf?, captureText?]
  simp only [fits_pair_iff loose fitsName.1]
  constructor
  · rintro ⟨_, ⟨isKind, c, d, sub, fillsC, fillsD, _, _, fitsC, fitsD, rfl⟩, isMember⟩
    obtain ⟨isType, rfl⟩ := fits_typePattern_iff.mp fitsC
    obtain ⟨b, name, isName, rfl⟩ := (fitsName.2 _ d.2).1 _ fitsD
    obtain rfl : ⟨name.text source, c.2.text source⟩ = member :=
      Option.some.inj ((told _ _ _ _).symm.trans isMember)
    exact ⟨isKind, c.2, d.2, name, exists_positioned_iff.mp ⟨c.1, d.1, sub⟩,
      ⟨slot_fits_inField.mp fillsC, isType⟩, fillsD, isName, rfl, rfl⟩
  · rintro ⟨isKind, type, outer, name, sub, ⟨inType, isType⟩, fills, isName, isReturn, isNameText⟩
    obtain ⟨i, j, sub⟩ := exists_positioned_iff.mpr sub
    obtain ⟨b, fits⟩ := (fitsName.2 (here ++ [j]) outer).2 name isName
    refine ⟨_, ⟨isKind, (i, type), (j, outer), sub, slot_fits_inField.mpr inType, fills, _, _,
      fits_typePattern_iff.mpr ⟨isType, rfl⟩, fits, rfl⟩, ?_⟩
    rw [List.singleton_append, told, isReturn, isNameText]

theorem tells_declaresBy_iff {source : String} {member : Member} :
    (∃ captures, Fits (ofKind kind [typePattern field, namePattern]) here target captures ∧
        memberOf? source captures = some member) ↔
      DeclaresBy kind field source target member := by
  rw [tells_pair_iff fitsName_namePattern, DeclaresBy]
  constructor
  · rintro ⟨isKind, type, name, _, sub, isType, fills, ⟨rfl, isName⟩, told⟩
    exact ⟨isKind, type, name, sub, isType, ⟨slot_fits_inField.mp fills, isName⟩, told⟩
  · rintro ⟨isKind, type, name, sub, isType, ⟨inName, isName⟩, told⟩
    exact ⟨isKind, type, name, name, sub, isType, slot_fits_inField.mpr inName, ⟨rfl, isName⟩, told⟩

theorem tells_declaresField_iff {source : String} {member : Member} :
    (∃ captures, Fits (ofKind "field_declaration" [ofKind "variable_declaration"
        [typePattern "type", ofKind "variable_declarator" [namePattern]]]) here target captures ∧
        memberOf? source captures = some member) ↔
      DeclaresField source target member := by
  have loose : (ofKind "variable_declaration"
      [typePattern "type", ofKind "variable_declarator" [namePattern]]).slot.anchored = false := rfl
  simp only [fits_ofKind_iff loose, DeclaresField]
  constructor
  · rintro ⟨captures, ⟨isKind, i, declaration, there, _, fits⟩, isMember⟩
    obtain ⟨isDeclaration, type, declarator, name, sub, isType, _, ⟨isDeclarator, mem, isName⟩,
      told⟩ := (tells_pair_iff fitsName_declarator).mp ⟨captures, fits, isMember⟩
    exact ⟨isKind, declaration, List.mem_of_getElem? there, isDeclaration, type, declarator, sub,
      isType, isDeclarator, name, mem, isName, told⟩
  · rintro ⟨isKind, declaration, memDeclaration, isDeclaration, type, declarator, sub, isType,
      isDeclarator, name, mem, isName, told⟩
    obtain ⟨i, there⟩ := List.mem_iff_getElem?.mp memDeclaration
    obtain ⟨captures, fits, isMember⟩ := (tells_pair_iff fitsName_declarator).mpr
      ⟨isDeclaration, type, declarator, name, sub, isType, rfl, ⟨isDeclarator, mem, isName⟩, told⟩
    exact ⟨captures, ⟨isKind, i, declaration, there, rfl, fits⟩, isMember⟩

end Fits

/-- What the accessor query tells of a node is what it declares. -/
theorem exists_mem_found_iff {source : String} {root node : Node} {here : Address}
    {member : Member} :
    (∃ found ∈ csharpAccessorQuery.found source root, found.root = here ∧ found.node = node ∧
        memberOf? source found.captures = some member) ↔
      root.at? here = some node ∧ Declares source node member := by
  have tells : (∃ pattern ∈ memberPatterns, ∃ captures, Fits pattern here node captures ∧
      memberOf? source captures = some member) ↔ Declares source node member := by
    simp only [memberPatterns, List.mem_cons, List.not_mem_nil, or_false, exists_eq_or_imp,
      exists_eq_left, tells_declaresBy_iff, tells_declaresField_iff, Declares]
  simp only [csharpAccessorQuery_eq, Query.mem_found_ofPatterns, ← tells]
  constructor
  · rintro ⟨found, ⟨there, pattern, numbered, mem⟩, rfl, rfl, isMember⟩
    exact ⟨there, pattern, List.mem_of_getElem? numbered, found.captures,
      Query.exists_mem_distinct_iff.mp ⟨found.toFit, mem, rfl⟩, isMember⟩
  · rintro ⟨there, pattern, memPattern, captures, fits, isMember⟩
    obtain ⟨number, numbered⟩ := List.mem_iff_getElem?.mp memPattern
    obtain ⟨fit, mem, rfl⟩ := Query.exists_mem_distinct_iff.mpr fits
    exact ⟨⟨fit, here, node, number⟩, ⟨there, pattern, numbered, mem⟩, rfl, rfl, isMember⟩

end SourceGauge.Coupling
