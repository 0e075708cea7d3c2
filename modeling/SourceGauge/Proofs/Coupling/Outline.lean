/-
# SourceGauge.Proofs.Coupling.Outline -- the types that captures declare

What the captures of a types query amount to, told by their addresses alone: the
namespaces that a declaration is in (`Outline.spacesOf`), the declaration that a base
name belongs to (`Outline.owner?`), and the types, one for each full name
(`Outline.types`).

The types of the first captures (`Outline.typesAmong`) change with each further one
as a list of declared types does: a declaration is inserted
(`Laid.typesAmong_type`), a base name is added at the index of its owner
(`Laid.typesAmong_base`).  The captures have to lie as the nodes of a tree do
(`Outline.Laid`).
-/
import SourceGauge.Proofs.Coupling.CollectedFile
import SourceGauge.Proofs.Syntax.Layout

namespace SourceGauge.Coupling

set_option autoImplicit false

open Query (Capture)

/-! ## Captures -/

def nameOf? (source : String) (node : Node) : Option String :=
  (node.childByField? "name").map fun child => child.text source

def isType (capture : Capture) : Bool :=
  capture.name = "type_declaration" && (capture.node.childByField? "name").isSome

/-- The byte at which the body of a namespace ends. -/
def bodyStop? (capture : Capture) : Option Nat :=
  (capture.node.childByField? "body").map fun body => body.stop.byte

def isBlock (capture : Capture) : Bool :=
  capture.name = "namespace" && (bodyStop? capture).isSome

/-- A capture is a namespace without a body. -/
def isBodiless (capture : Capture) : Bool :=
  capture.name = "namespace" && (bodyStop? capture).isNone

theorem name_of_isType {capture : Capture} (declares : isType capture = true) :
    capture.name = "type_declaration" := by
  simp only [isType, Bool.and_eq_true, decide_eq_true_eq] at declares
  exact declares.1

theorem isBlock_iff {capture : Capture} :
    isBlock capture = true ↔
      capture.name = "namespace" ∧ ∃ stop, bodyStop? capture = some stop := by
  simp [isBlock, Option.isSome_iff_exists]

theorem bodyStop?_of_isBodiless {capture : Capture} (bodiless : isBodiless capture = true) :
    bodyStop? capture = none := by
  simp only [isBodiless, Bool.and_eq_true, Option.isNone_iff_eq_none] at bodiless
  exact bodiless.2

/-- The captures of a types query in a file. -/
structure Outline where
  file : Path
  source : String
  delimiter : String
  captures : List Capture

namespace Outline

variable (outline : Outline)

/-! ## The types of an outline -/

/-- The captures before a capture. -/
def before (capture : Capture) : List Capture :=
  outline.captures.filter fun other => other.address.lt capture.address

/-- The captures around a capture, outermost first. -/
def around (capture : Capture) : List Capture :=
  outline.captures.filter fun outer =>
    outer.address <+: capture.address ∧ outer.address ≠ capture.address

/-- The namespaces that a declaration is in: the last one without a body that stands
before it, and those with a body around it. -/
def spacesOf (capture : Capture) : List Capture :=
  ((outline.before capture).filter isBodiless).getLast?.toList ++
    (outline.around capture).filter isBlock

/-- The name of the namespace that a declaration is in. -/
def spaceOf (capture : Capture) : String :=
  Text.join outline.delimiter
    (((outline.spacesOf capture).map fun space =>
      (nameOf? outline.source space.node).getD "").filter fun name => name ≠ "")

/-- The full name of the type that a capture declares. -/
def fullNameOf (capture : Capture) : String :=
  qualified (outline.spaceOf capture) outline.delimiter
    ((nameOf? outline.source capture.node).getD "")

/-- The nearest declaration of a type with a name around a capture. -/
def owner? (capture : Capture) : Option Capture :=
  ((outline.around capture).filter isType).getLast?

/-- A declaration is the first one of its full name. -/
def isFirst (capture : Capture) : Bool :=
  isType capture && (outline.before capture).all fun other =>
    !isType other || outline.fullNameOf other ≠ outline.fullNameOf capture

/-- The full names that some captures declare, each once. -/
def namesAmong (captures : List Capture) : List String :=
  (captures.filter outline.isFirst).map outline.fullNameOf

def indexOf (capture : Capture) : Nat :=
  (outline.namesAmong outline.captures).idxOf (outline.fullNameOf capture)

/-- A capture gives a base name of a sort to the type of a full name. -/
def givesBase (sort : BaseSort) (fullName : String) (capture : Capture) : Bool :=
  BaseSort.ofCapture? capture.name = some sort &&
    (outline.owner? capture).map outline.fullNameOf = some fullName

/-- The base names of a sort that some captures give to the type of a full name. -/
def basesAmong (captures : List Capture) (sort : BaseSort) (fullName : String) : List String :=
  ((captures.filter (outline.givesBase sort fullName)).map fun capture =>
    capture.node.text outline.source).eraseDups

/-- The type of a declaration, without its base names. -/
def bareType (capture : Capture) : DeclaredType where
  space := outline.spaceOf capture
  name := (nameOf? outline.source capture.node).getD ""
  kind := Scan.kindOf capture.node
  file := outline.file
  delimiter := outline.delimiter
  span := capture.node.span

/-- The type of a declaration, with the base names that some captures give it. -/
def typeAmong (captures : List Capture) (capture : Capture) : DeclaredType :=
  { outline.bareType capture with
    extended := outline.basesAmong captures .extended (outline.fullNameOf capture)
    implemented := outline.basesAmong captures .implemented (outline.fullNameOf capture) }

def typesAmong (captures : List Capture) : FileTypes :=
  (captures.filter outline.isFirst).map (outline.typeAmong captures)

/-- The types of an outline: one for each full name of a declaration, in the order of
the first ones, which they are made from; base names go to the full name of their
owner. -/
def types : FileTypes := outline.typesAmong outline.captures

theorem fullName_bareType (capture : Capture) :
    (outline.bareType capture).fullName = outline.fullNameOf capture := rfl

@[simp] theorem fullName_typeAmong (captures : List Capture) (capture : Capture) :
    (outline.typeAmong captures capture).fullName = outline.fullNameOf capture := rfl

theorem withoutBases_typeAmong (captures : List Capture) (capture : Capture) :
    (outline.typeAmong captures capture).withoutBases = outline.bareType capture := rfl

theorem bases_typeAmong (captures : List Capture) (capture : Capture) (sort : BaseSort) :
    (outline.typeAmong captures capture).bases sort =
      outline.basesAmong captures sort (outline.fullNameOf capture) := by
  cases sort <;> rfl

theorem map_fullName_typesAmong (captures : List Capture) :
    (outline.typesAmong captures).map DeclaredType.fullName = outline.namesAmong captures :=
  List.map_map

/-! ## Captures of a tree -/

/-- Captures lie as nodes of a tree do, with namespaces and types as they can be
written: a type below a namespace is in its body, and starts before the body ends; a
namespace without a body is in no namespace with one. -/
structure Laid : Prop where
  sorted : outline.captures.Pairwise fun m n => m.address.lt n.address = true
  starts : outline.captures.Pairwise fun m n => m.node.start.byte ≤ n.node.start.byte
  apart : outline.captures.Pairwise fun m n =>
    m.address <+: n.address ∨ m.node.stop.byte ≤ n.node.start.byte
  body_le : ∀ m ∈ outline.captures, ∀ stop, bodyStop? m = some stop → stop ≤ m.node.stop.byte
  in_body : ∀ m ∈ outline.captures, isBlock m = true → ∀ n ∈ outline.captures,
    isType n = true → m.address <+: n.address →
      ∀ stop, bodyStop? m = some stop → n.node.start.byte < stop
  top : ∀ m ∈ outline.captures, isBlock m = true → ∀ n ∈ outline.captures,
    isBodiless n = true → ¬ m.address <+: n.address

end Outline

/-! ## Base names -/

/-- The distinct names of a list with one more are those before, with the new one. -/
theorem eraseDups_concat (names : List String) (name : String) :
    (names ++ [name]).eraseDups = addNew names.eraseDups name := by
  rw [List.eraseDups_append, addNew]
  by_cases old : name ∈ names
  · simp [List.removeAll, old]
  · simp [List.removeAll, old, List.eraseDups_cons]

namespace Outline

variable {outline : Outline} {first rest : List Capture} {capture : Capture}

theorem isType_of_isFirst (isFirst : outline.isFirst capture = true) : isType capture = true := by
  simp only [Outline.isFirst, Bool.and_eq_true] at isFirst
  exact isFirst.1

/-! ## Before and around -/

namespace Laid

theorem before_eq (laid : outline.Laid) (split : outline.captures = first ++ capture :: rest) :
    outline.before capture = first := by
  have sorted := laid.sorted
  rw [split, List.pairwise_append, List.pairwise_cons] at sorted
  have earlier : ∀ other ∈ first, other.address.lt capture.address = true := fun other mem =>
    sorted.2.2 other mem capture List.mem_cons_self
  have later : ∀ other ∈ rest, ¬ other.address.lt capture.address = true := fun other mem =>
    by simp [Address.not_lt_of_lt (sorted.2.1.1 other mem)]
  rw [before, split, List.filter_append, List.filter_cons_of_neg (by simp [Address.lt_irrefl]),
    List.filter_eq_self.mpr earlier, List.filter_eq_nil_iff.mpr later, List.append_nil]

/-- What is around a capture is before it. -/
theorem around_eq (laid : outline.Laid) (split : outline.captures = first ++ capture :: rest) :
    outline.around capture = first.filter fun outer => outer.address <+: capture.address := by
  have inBefore : outline.around capture =
      (outline.before capture).filter fun outer => outer.address <+: capture.address := by
    rw [around, before, List.filter_filter]
    refine List.filter_congr fun outer _ => Bool.eq_iff_iff.mpr ?_
    simp only [decide_eq_true_eq, Bool.and_eq_true]
    constructor
    · rintro ⟨below, different⟩
      exact ⟨below, Address.lt_of_prefix below different⟩
    · rintro ⟨below, earlier⟩
      refine ⟨below, fun same => ?_⟩
      simp [same, Address.lt_irrefl] at earlier
  rw [inBefore, laid.before_eq split]

theorem mem_of_owner? (laid : outline.Laid) (split : outline.captures = first ++ capture :: rest)
    {owner : Capture} (owned : outline.owner? capture = some owner) :
    owner ∈ first ∧ isType owner = true := by
  rw [owner?, laid.around_eq split] at owned
  obtain ⟨mem, declares⟩ := List.mem_filter.mp (List.mem_of_getLast? owned)
  exact ⟨(List.mem_filter.mp mem).1, declares⟩

/-- The full names that some captures declare are distinct. -/
theorem nodup_namesAmong (laid : outline.Laid) (split : outline.captures = first ++ rest) :
    (outline.namesAmong first).Nodup := by
  have sorted : first.Pairwise fun m n => m.address.lt n.address = true := by
    have sorted := laid.sorted
    rw [split] at sorted
    exact (List.pairwise_append.mp sorted).1
  rw [namesAmong, List.Nodup, List.pairwise_map, List.pairwise_filter]
  refine sorted.imp_of_mem fun {m n} memM memN earlier isFirstM isFirstN same => ?_
  have isBefore : m ∈ outline.before n := by simp [before, split, memM, earlier]
  have isTypeM := isType_of_isFirst isFirstM
  simp only [isFirst, Bool.and_eq_true, List.all_eq_true] at isFirstN
  have different := isFirstN.2 m isBefore
  simp only [isTypeM, Bool.not_true, Bool.false_or, decide_eq_true_eq] at different
  exact different same

/-- Before the end of some captures, a full name among them was declared first. -/
theorem exists_isFirst (laid : outline.Laid) (split : outline.captures = first ++ rest)
    (mem : capture ∈ first) (declares : isType capture = true) :
    ∃ earliest ∈ first, outline.isFirst earliest = true ∧
      outline.fullNameOf earliest = outline.fullNameOf capture := by
  have found : (first.find? fun other => isType other &&
      outline.fullNameOf other = outline.fullNameOf capture).isSome = true := by
    rw [List.find?_isSome]
    exact ⟨capture, mem, by simp [declares]⟩
  obtain ⟨earliest, found⟩ := Option.isSome_iff_exists.mp found
  obtain ⟨named, earlier, later, rfl, none⟩ := List.find?_eq_some_iff_append.mp found
  simp only [Bool.and_eq_true, decide_eq_true_eq] at named
  refine ⟨earliest, by simp, ?_, named.2⟩
  have splitThere : outline.captures = earlier ++ earliest :: (later ++ rest) := by simp [split]
  rw [isFirst, laid.before_eq splitThere, named.1, Bool.true_and, List.all_eq_true]
  intro other memOther
  simpa [named.2, Bool.or_comm] using none other memOther

theorem mem_namesAmong_iff (laid : outline.Laid) (split : outline.captures = first ++ rest)
    {name : String} :
    name ∈ outline.namesAmong first ↔
      ∃ declaration ∈ first, isType declaration = true ∧
        outline.fullNameOf declaration = name := by
  simp only [namesAmong, List.mem_map, List.mem_filter]
  constructor
  · rintro ⟨declaration, ⟨mem, isFirst⟩, rfl⟩
    exact ⟨declaration, mem, isType_of_isFirst isFirst, rfl⟩
  · rintro ⟨declaration, mem, declares, rfl⟩
    obtain ⟨earliest, there, isFirst, same⟩ := laid.exists_isFirst split mem declares
    exact ⟨earliest, ⟨there, isFirst⟩, same⟩

/-- A declaration is the first one of its full name when none before it has that name. -/
theorem isFirst_iff (laid : outline.Laid) (split : outline.captures = first ++ capture :: rest)
    (declares : isType capture = true) :
    outline.isFirst capture = true ↔ outline.fullNameOf capture ∉ outline.namesAmong first := by
  rw [laid.mem_namesAmong_iff split, isFirst, laid.before_eq split, declares, Bool.true_and,
    List.all_eq_true]
  simp only [Bool.or_eq_true, Bool.not_eq_true', decide_eq_true_eq, not_exists, not_and]
  refine forall₂_congr fun other _ => ?_
  cases isType other <;> simp

/-- The type of a declaration has its index as soon as it is declared. -/
theorem getElem?_indexOf (laid : outline.Laid) (split : outline.captures = first ++ rest)
    (mem : capture ∈ first) (declares : isType capture = true) :
    (outline.namesAmong first)[outline.indexOf capture]? = some (outline.fullNameOf capture) := by
  have known : outline.fullNameOf capture ∈ outline.namesAmong first :=
    (laid.mem_namesAmong_iff split).mpr ⟨capture, mem, declares, rfl⟩
  have whole : outline.namesAmong outline.captures =
      outline.namesAmong first ++ outline.namesAmong rest := by
    rw [split, namesAmong, List.filter_append, List.map_append]
    rfl
  rw [indexOf, whole, List.idxOf_append_of_mem known, List.getElem?_idxOf known]

end Laid

/-! ## The types with one more capture -/

theorem basesAmong_concat (captures : List Capture) (capture : Capture) (sort : BaseSort)
    (fullName : String) :
    outline.basesAmong (captures ++ [capture]) sort fullName =
      if outline.givesBase sort fullName capture = true then
        addNew (outline.basesAmong captures sort fullName) (capture.node.text outline.source)
      else outline.basesAmong captures sort fullName := by
  rw [basesAmong, List.filter_append, List.map_append]
  split
  · next found => simp [found, eraseDups_concat, basesAmong]
  · next other => simp [other, basesAmong]

/-- A capture that gives no base name leaves the type of a declaration as it is. -/
theorem typeAmong_concat {captures : List Capture}
    (noBase : ∀ sort fullName, outline.givesBase sort fullName capture = false) :
    outline.typeAmong (captures ++ [capture]) = outline.typeAmong captures := by
  funext declaration
  refine DeclaredType.eq_of_bases rfl fun sort => ?_
  rw [bases_typeAmong, bases_typeAmong, basesAmong_concat, if_neg (by simp [noBase])]

theorem typesAmong_concat_of_not_isFirst {captures : List Capture}
    (later : outline.isFirst capture = false) :
    outline.typesAmong (captures ++ [capture]) =
      (captures.filter outline.isFirst).map (outline.typeAmong (captures ++ [capture])) := by
  simp [typesAmong, List.filter_append, later]

/-- A capture that declares no new type and gives no base name leaves the types as they are. -/
theorem typesAmong_concat {captures : List Capture} (later : outline.isFirst capture = false)
    (noBase : ∀ sort fullName, outline.givesBase sort fullName capture = false) :
    outline.typesAmong (captures ++ [capture]) = outline.typesAmong captures := by
  rw [typesAmong_concat_of_not_isFirst later, typeAmong_concat noBase, typesAmong]

theorem givesBase_of_isType (declares : isType capture = true) (sort : BaseSort)
    (fullName : String) : outline.givesBase sort fullName capture = false := by
  simp [givesBase, name_of_isType declares, BaseSort.ofCapture?]

namespace Laid

/-- A base name is added to the type of its owner. -/
theorem typesAmong_base (laid : outline.Laid)
    (split : outline.captures = first ++ capture :: rest) {owner : Capture}
    (owned : outline.owner? capture = some owner) {sort : BaseSort}
    (isBase : BaseSort.ofCapture? capture.name = some sort)
    (later : outline.isFirst capture = false) :
    outline.typesAmong (first ++ [capture]) =
      (outline.typesAmong first).addBase (outline.indexOf owner) sort
        (capture.node.text outline.source) := by
  obtain ⟨mem, declares⟩ := laid.mem_of_owner? split owned
  have names := outline.map_fullName_typesAmong first
  have distinct := names ▸ laid.nodup_namesAmong split
  have there := names ▸ laid.getElem?_indexOf split mem declares
  rw [FileTypes.addBase, FileTypes.modify_eq_map distinct there,
    typesAmong_concat_of_not_isFirst later, typesAmong, List.map_map]
  refine List.map_congr_left fun declaration _ => ?_
  rw [Function.comp_apply, fullName_typeAmong]
  split
  · next same =>
    refine DeclaredType.eq_of_bases (by simp [withoutBases_typeAmong]) fun other => ?_
    rw [DeclaredType.bases_addBase, bases_typeAmong, bases_typeAmong, basesAmong_concat]
    simp [givesBase, isBase, owned, same, eq_comm]
  · next different =>
    refine DeclaredType.eq_of_bases rfl fun other => ?_
    rw [bases_typeAmong, bases_typeAmong, basesAmong_concat]
    simp [givesBase, owned, Ne.symm different]

/-- A base name before a declaration of a full name that is new is none of its type. -/
theorem basesAmong_eq_nil (laid : outline.Laid)
    (split : outline.captures = first ++ capture :: rest)
    (new : outline.fullNameOf capture ∉ outline.namesAmong first) (sort : BaseSort) :
    outline.basesAmong first sort (outline.fullNameOf capture) = [] := by
  have none : first.filter (outline.givesBase sort (outline.fullNameOf capture)) = [] := by
    refine List.filter_eq_nil_iff.mpr fun base mem gives => ?_
    simp only [givesBase, Bool.and_eq_true, decide_eq_true_eq, Option.map_eq_some_iff] at gives
    obtain ⟨_, owner, owned, same⟩ := gives
    obtain ⟨earlier, later, rfl⟩ := List.append_of_mem mem
    have splitThere : outline.captures = earlier ++ base :: (later ++ capture :: rest) := by
      simp [split]
    obtain ⟨memOwner, isOwnerType⟩ := laid.mem_of_owner? splitThere owned
    exact new ((laid.mem_namesAmong_iff split).mpr
      ⟨owner, by simp [memOwner], isOwnerType, same⟩)
  simp [basesAmong, none]

/-- A declaration adds its type, or merges it into the first one of its full name. -/
theorem typesAmong_type (laid : outline.Laid)
    (split : outline.captures = first ++ capture :: rest) (declares : isType capture = true) :
    outline.typesAmong (first ++ [capture]) =
      ((outline.typesAmong first).insert (outline.bareType capture)).1 := by
  have noBase : ∀ sort fullName, outline.givesBase sort fullName capture = false :=
    givesBase_of_isType declares
  rcases (outline.typesAmong first).insert_cases (outline.bareType capture) with
    ⟨index, there, inserted⟩ | ⟨new, inserted⟩
  · rw [map_fullName_typesAmong] at there
    have isLater : outline.isFirst capture = false := by
      rw [← Bool.not_eq_true, laid.isFirst_iff split declares, not_not]
      exact List.mem_of_getElem? there
    have unchanged : (fun type : DeclaredType => type.merge (outline.bareType capture)) = id := rfl
    rw [inserted, typesAmong_concat isLater noBase, unchanged, List.modify_id]
  · rw [map_fullName_typesAmong, fullName_bareType] at new
    have isNew : outline.isFirst capture = true := (laid.isFirst_iff split declares).mpr new
    have bare : outline.typeAmong first capture = outline.bareType capture := by
      simp [typeAmong, laid.basesAmong_eq_nil split new, bareType]
    rw [inserted, typesAmong, typeAmong_concat noBase, List.filter_append,
      List.filter_cons_of_pos isNew, List.filter_nil, List.map_append, List.map_singleton, bare,
      typesAmong]

end Laid

end Outline

end SourceGauge.Coupling
