/-
# SourceGauge.Proofs.Coupling.ScannedTypes -- the scan of captures

The scan of a types query keeps what is open by the byte at which it ends.  What it
has open at a byte is what the captures so far have around it (`Outline.Follows`), as
long as they lie as the nodes of a tree do; each capture changes both alike
(`Laid.follows_step`).

* `Outline.Laid.map_withoutBases_scanTypes`: without base names, the scan declares the types of the
  outline.
* `Outline.Laid.scanTypes_eq`: with them too, if no base name starts where a declaration around it
  ends (`Outline.Based`).
-/
import SourceGauge.Proofs.Coupling.Outline

namespace SourceGauge.Coupling

set_option autoImplicit false

open Query (Capture)

namespace Outline

/-! ## What is open -/

section

variable (outline : Outline)

def openSpaceOf (capture : Capture) : OpenSpace :=
  ⟨(nameOf? outline.source capture.node).getD "", bodyStop? capture⟩

def openTypeOf (capture : Capture) : OpenType :=
  ⟨outline.indexOf capture, capture.node.stop.byte⟩

/-- The types that some captures declare, without base names. -/
def bareAmong (captures : List Capture) : List DeclaredType :=
  (captures.filter outline.isFirst).map outline.bareType

/-- A base name starts before the declarations around it end. -/
def Based : Prop :=
  ∀ base ∈ outline.captures, ∀ sort, BaseSort.ofCapture? base.name = some sort →
    ∀ outer ∈ outline.around base, isType outer = true →
      base.node.start.byte < outer.node.stop.byte

/-- The body of a namespace goes on after a byte. -/
def blockOpen (byte : Nat) (capture : Capture) : Bool :=
  isBlock capture && (bodyStop? capture).any fun stop => byte < stop

def typeOpen (byte : Nat) (capture : Capture) : Bool :=
  isType capture && byte < capture.node.stop.byte

/-- A namespace goes on after a byte; without a body it always does. -/
def goesOn (byte : Nat) (capture : Capture) : Bool :=
  (bodyStop? capture).all fun stop => byte < stop

/-- The namespaces among captures that are open at a byte after them. -/
def spacesAt (captures : List Capture) (byte : Nat) : List Capture :=
  (captures.filter isBodiless).getLast?.toList ++ captures.filter (blockOpen byte)

/-- A scan agrees with the captures before it, and so at every byte from `start` on. -/
structure Follows (captures : List Capture) (start : Nat) (scan : Scan) : Prop where
  bare : scan.types.map DeclaredType.withoutBases = outline.bareAmong captures
  spaces : ∀ byte, start ≤ byte →
    (scan.closeBefore byte).spaces = (spacesAt captures byte).map outline.openSpaceOf
  openTypes : ∀ byte, start ≤ byte →
    (scan.closeBefore byte).openTypes =
      (captures.filter (typeOpen byte)).map outline.openTypeOf

end

variable {outline : Outline} {first rest : List Capture} {capture : Capture}

theorem blockOpen_iff {byte : Nat} :
    blockOpen byte capture = true ↔
      isBlock capture = true ∧ ∃ stop, bodyStop? capture = some stop ∧ byte < stop := by
  cases stop : bodyStop? capture <;> simp [blockOpen, stop]

namespace Laid

theorem of_split (laid : outline.Laid) (split : outline.captures = first ++ capture :: rest)
    {outer : Capture} (mem : outer ∈ first) :
    outer.node.start.byte ≤ capture.node.start.byte ∧
      (outer.address <+: capture.address ∨ outer.node.stop.byte ≤ capture.node.start.byte) := by
  have starts := laid.starts
  have apart := laid.apart
  rw [split, List.pairwise_append] at starts apart
  exact ⟨starts.2.2 outer mem capture List.mem_cons_self,
    apart.2.2 outer mem capture List.mem_cons_self⟩

/-- The types open where a capture starts are those that it is in, if it starts before they end. -/
theorem owner?_eq (laid : outline.Laid) (split : outline.captures = first ++ capture :: rest)
    (inside : ∀ outer ∈ outline.around capture, isType outer = true →
      capture.node.start.byte < outer.node.stop.byte) :
    outline.owner? capture = (first.filter (typeOpen capture.node.start.byte)).getLast? := by
  rw [laid.around_eq split] at inside
  rw [owner?, laid.around_eq split, List.filter_filter]
  congr 1
  refine List.filter_congr fun outer mem => Bool.eq_iff_iff.mpr ?_
  simp only [typeOpen, Bool.and_eq_true, decide_eq_true_eq]
  constructor
  · rintro ⟨declares, below⟩
    exact ⟨declares, inside outer (List.mem_filter.mpr ⟨mem, by simpa using below⟩) declares⟩
  · rintro ⟨declares, isOpen⟩
    refine ⟨declares, ?_⟩
    rcases (laid.of_split split mem).2 with below | ended
    · exact below
    · omega

/-- A namespace whose body is open where a capture starts is around it. -/
theorem prefix_of_blockOpen (laid : outline.Laid)
    (split : outline.captures = first ++ capture :: rest) {outer : Capture} (mem : outer ∈ first)
    (isOpen : blockOpen capture.node.start.byte outer = true) :
    outer.address <+: capture.address := by
  obtain ⟨_, stop, ends, starts⟩ := blockOpen_iff.mp isOpen
  have within := laid.body_le outer (by simp [split, mem]) stop ends
  rcases (laid.of_split split mem).2 with below | ended
  · exact below
  · omega

/-- The namespaces open where a declaration starts are those that it is in. -/
theorem spacesOf_eq (laid : outline.Laid) (split : outline.captures = first ++ capture :: rest)
    (declares : isType capture = true) :
    outline.spacesOf capture = spacesAt first capture.node.start.byte := by
  rw [spacesOf, laid.before_eq split, laid.around_eq split, List.filter_filter, spacesAt]
  congr 1
  refine List.filter_congr fun outer mem => Bool.eq_iff_iff.mpr ?_
  have there : outer ∈ outline.captures := by simp [split, mem]
  rw [Bool.and_eq_true, decide_eq_true_eq]
  constructor
  · rintro ⟨block, below⟩
    obtain ⟨_, stop, ends⟩ := isBlock_iff.mp block
    exact blockOpen_iff.mpr ⟨block, stop, ends,
      laid.in_body outer there block capture (by simp [split]) declares below stop ends⟩
  · intro isOpen
    exact ⟨(blockOpen_iff.mp isOpen).1, laid.prefix_of_blockOpen split mem isOpen⟩

/-- No namespace with a body is open where one without starts. -/
theorem blockOpen_eq_nil (laid : outline.Laid)
    (split : outline.captures = first ++ capture :: rest) (bodiless : isBodiless capture = true) :
    first.filter (blockOpen capture.node.start.byte) = [] := by
  refine List.filter_eq_nil_iff.mpr fun outer mem isOpen => ?_
  exact laid.top outer (by simp [split, mem]) (blockOpen_iff.mp isOpen).1 capture (by simp [split])
    bodiless (laid.prefix_of_blockOpen split mem isOpen)

end Laid

/-! ## The scan -/

/-- What is open at a byte, of the types open earlier. -/
theorem filter_typeOpen {start byte : Nat} (later : start ≤ byte) (captures : List Capture) :
    ((captures.filter (typeOpen start)).filter fun capture => byte < capture.node.stop.byte) =
      captures.filter (typeOpen byte) := by
  rw [List.filter_filter]
  refine List.filter_congr fun capture _ => Bool.eq_iff_iff.mpr ?_
  simp only [typeOpen, Bool.and_eq_true, decide_eq_true_eq]
  constructor
  · rintro ⟨isOpen, declares, _⟩
    exact ⟨declares, isOpen⟩
  · rintro ⟨declares, isOpen⟩
    exact ⟨isOpen, declares, by omega⟩

/-- What is open at a byte, of the namespaces with a body open earlier. -/
theorem filter_blockOpen {start byte : Nat} (later : start ≤ byte) (captures : List Capture) :
    (captures.filter (blockOpen start)).filter (goesOn byte) =
      captures.filter (blockOpen byte) := by
  rw [List.filter_filter]
  refine List.filter_congr fun space _ => Bool.eq_iff_iff.mpr ?_
  simp only [Bool.and_eq_true, blockOpen_iff]
  constructor
  · rintro ⟨isOpen, block, stop, ends, _⟩
    exact ⟨block, stop, ends, by simpa [goesOn, ends] using isOpen⟩
  · rintro ⟨block, stop, ends, isOpen⟩
    exact ⟨by simpa [goesOn, ends] using isOpen, block, stop, ends, by omega⟩

theorem bodyStop?_of_mem_getLast? {captures : List Capture} {space : Capture}
    (mem : space ∈ (captures.filter isBodiless).getLast?.toList) : bodyStop? space = none :=
  bodyStop?_of_isBodiless (List.mem_filter.mp (List.mem_of_getLast? (Option.mem_toList.mp mem))).2

/-- What is open at a byte, of the namespaces open earlier. -/
theorem filter_spacesAt {start byte : Nat} (later : start ≤ byte) (captures : List Capture) :
    (spacesAt captures start).filter (goesOn byte) = spacesAt captures byte := by
  rw [spacesAt, List.filter_append, filter_blockOpen later, spacesAt]
  congr 1
  refine List.filter_eq_self.mpr fun space mem => ?_
  simp [goesOn, bodyStop?_of_mem_getLast? mem]

/-- With no body open, a namespace that replaces the bodiless one leaves no other open. -/
theorem filter_stop_spacesAt {captures : List Capture} {byte : Nat}
    (closed : captures.filter (blockOpen byte) = []) :
    ((spacesAt captures byte).map outline.openSpaceOf).filter (fun space => space.stop.isSome) =
      [] := by
  rw [spacesAt, closed, List.append_nil, List.filter_map, List.map_eq_nil_iff,
    List.filter_eq_nil_iff]
  intro space mem
  simp [openSpaceOf, bodyStop?_of_mem_getLast? mem]

/-- A scan with some captures open agrees with the captures before it, when both
leave the same ones open at every later byte. -/
theorem Follows.of_open {captures : List Capture} {start : Nat} {scan : Scan}
    (spaces declarations : List Capture)
    (bare : scan.types.map DeclaredType.withoutBases = outline.bareAmong captures)
    (isSpaces : scan.spaces = spaces.map outline.openSpaceOf)
    (isTypes : scan.openTypes = declarations.map outline.openTypeOf)
    (spacesAgree : ∀ byte, start ≤ byte →
      spaces.filter (goesOn byte) = spacesAt captures byte)
    (typesAgree : ∀ byte, start ≤ byte →
      (declarations.filter fun capture => byte < capture.node.stop.byte) =
        captures.filter (typeOpen byte)) :
    outline.Follows captures start scan where
  bare := bare
  spaces := by
    intro byte later
    simp only [← spacesAgree byte later, Scan.closeBefore, isSpaces, List.filter_map]
    congr 1
    refine List.filter_congr fun space _ => ?_
    cases stop : bodyStop? space <;> simp [goesOn, openSpaceOf, stop]
  openTypes := by
    intro byte later
    simp only [← typesAgree byte later, Scan.closeBefore, isTypes, List.filter_map]
    rfl

/-- A capture that is no namespace opens none. -/
theorem spacesAt_concat (captures : List Capture) (other : capture.name ≠ "namespace")
    (byte : Nat) : spacesAt (captures ++ [capture]) byte = spacesAt captures byte := by
  simp [spacesAt, List.filter_append, isBodiless, blockOpen, isBlock, other]

/-- A capture that declares no type opens none. -/
theorem typeOpen_concat (captures : List Capture) (other : isType capture = false) (byte : Nat) :
    (captures ++ [capture]).filter (typeOpen byte) = captures.filter (typeOpen byte) := by
  simp [List.filter_append, typeOpen, other]

theorem isFirst_eq_false (other : isType capture = false) : outline.isFirst capture = false := by
  simp [isFirst, other]

theorem bareAmong_concat {captures : List Capture} (later : outline.isFirst capture = false) :
    outline.bareAmong (captures ++ [capture]) = outline.bareAmong captures := by
  simp [bareAmong, List.filter_append, later]

theorem map_fullName_bareAmong (captures : List Capture) :
    (outline.bareAmong captures).map DeclaredType.fullName = outline.namesAmong captures :=
  List.map_map

theorem map_fullName_of_bare {types : FileTypes} {captures : List Capture}
    (bare : types.map DeclaredType.withoutBases = outline.bareAmong captures) :
    types.map DeclaredType.fullName = outline.namesAmong captures := by
  rw [← map_fullName_bareAmong, ← bare, List.map_map]
  rfl

namespace Laid

section Step

variable {start : Nat} {scan : Scan}

theorem follows_namespace (laid : outline.Laid)
    (split : outline.captures = first ++ capture :: rest)
    (follows : outline.Follows first start scan) (later : start ≤ capture.node.start.byte)
    (isSpace : capture.name = "namespace") :
    outline.Follows (first ++ [capture]) capture.node.start.byte
      ((scan.closeBefore capture.node.start.byte).openSpace outline.source capture.node) := by
  have spaces := follows.spaces _ later
  have openTypes := follows.openTypes _ later
  have noType : isType capture = false := by simp [isType, isSpace]
  have bare : (scan.closeBefore capture.node.start.byte).types.map DeclaredType.withoutBases =
      outline.bareAmong (first ++ [capture]) := by
    rw [Scan.closeBefore_types, follows.bare, bareAmong_concat (isFirst_eq_false noType)]
  have typesAgree : ∀ byte, capture.node.start.byte ≤ byte →
      ((first.filter (typeOpen capture.node.start.byte)).filter fun declaration =>
        byte < declaration.node.stop.byte) = (first ++ [capture]).filter (typeOpen byte) := by
    intro byte after
    rw [filter_typeOpen after, typeOpen_concat first noType]
  rw [Scan.openSpace]
  cases body : capture.node.childByField? "body" with
  | some child =>
      refine .of_open (spacesAt first capture.node.start.byte ++ [capture]) _ bare ?_ openTypes
        ?_ typesAgree
      · simp [spaces, openSpaceOf, bodyStop?, body, nameOf?]
      · intro byte after
        rw [List.filter_append, filter_spacesAt after]
        simp [spacesAt, List.filter_append, isBodiless, isBlock, bodyStop?, body, isSpace,
          blockOpen, goesOn, List.filter_cons]
  | none =>
      have bodiless : isBodiless capture = true := by simp [isBodiless, isSpace, bodyStop?, body]
      have closed := laid.blockOpen_eq_nil split bodiless
      refine .of_open [capture] _ bare ?_ openTypes ?_ typesAgree
      · simp [spaces, filter_stop_spacesAt closed, openSpaceOf, bodyStop?, body, nameOf?]
      · intro byte after
        have closedAfter : first.filter (blockOpen byte) = [] := by
          rw [← filter_blockOpen after, closed, List.filter_nil]
        simp [spacesAt, List.filter_append, closedAfter, bodiless, goesOn, blockOpen,
          bodyStop?_of_isBodiless bodiless]

/-- The type made of a declaration is the one that the outline says. -/
theorem typeOf?_eq (laid : outline.Laid) (split : outline.captures = first ++ capture :: rest)
    (follows : outline.Follows first start scan) (later : start ≤ capture.node.start.byte)
    (isDeclaration : capture.name = "type_declaration") :
    (scan.closeBefore capture.node.start.byte).typeOf? outline.file outline.delimiter
        outline.source capture.node =
      if isType capture then some (outline.bareType capture) else none := by
  rw [Scan.typeOf?]
  cases name : capture.node.childByField? "name" with
  | none => simp [isType, name]
  | some child =>
      have declares : isType capture = true := by simp [isType, isDeclaration, name]
      have spaces := follows.spaces _ later
      simp [declares, bareType, spaceOf, laid.spacesOf_eq split declares, Scan.spaceName, spaces,
        nameOf?, name, Function.comp_def, openSpaceOf]

/-- To insert a declaration adds its type if it is the first one of its full name, and tells the
index of the type. -/
theorem insert_bareType (laid : outline.Laid)
    (split : outline.captures = first ++ capture :: rest) (declares : isType capture = true)
    {types : FileTypes} (bare : types.map DeclaredType.withoutBases = outline.bareAmong first) :
    (types.insert (outline.bareType capture)).1.map DeclaredType.withoutBases =
        outline.bareAmong (first ++ [capture]) ∧
      (types.insert (outline.bareType capture)).2 = outline.indexOf capture := by
  have splitAfter : outline.captures = (first ++ [capture]) ++ rest := by simp [split]
  have names := map_fullName_of_bare bare
  have bareAfter : (types.insert (outline.bareType capture)).1.map DeclaredType.withoutBases =
      outline.bareAmong (first ++ [capture]) := by
    rcases types.insert_cases (outline.bareType capture) with
      ⟨index, there, inserted⟩ | ⟨new, inserted⟩
    · rw [names] at there
      have isLater : outline.isFirst capture = false := by
        rw [← Bool.not_eq_true, laid.isFirst_iff split declares, not_not]
        exact List.mem_of_getElem? there
      rw [inserted, bareAmong_concat isLater, ← bare]
      exact FileTypes.map_modify _ (fun type => type.withoutBases_merge _) types index
    · rw [names] at new
      have isNew : outline.isFirst capture = true := (laid.isFirst_iff split declares).mpr new
      rw [inserted, bareAmong, List.filter_append, List.filter_cons_of_pos isNew, List.filter_nil,
        List.map_append, List.map_append, bare, bareAmong]
      rfl
  refine ⟨bareAfter, ?_⟩
  have there := types.getElem?_insert (outline.bareType capture)
  rw [map_fullName_of_bare bareAfter] at there
  have indexed := laid.getElem?_indexOf splitAfter (by simp) declares
  exact (List.getElem?_inj (List.getElem?_eq_some_iff.mp there).1
    (laid.nodup_namesAmong splitAfter)).mp (there.trans indexed.symm)

theorem follows_declaration (laid : outline.Laid)
    (split : outline.captures = first ++ capture :: rest)
    (follows : outline.Follows first start scan) (later : start ≤ capture.node.start.byte)
    (isDeclaration : capture.name = "type_declaration") :
    outline.Follows (first ++ [capture]) capture.node.start.byte
      ((scan.closeBefore capture.node.start.byte).declare outline.file outline.delimiter
        outline.source capture.node) := by
  have spaces := follows.spaces _ later
  have openTypes := follows.openTypes _ later
  have spacesAgree : ∀ byte, capture.node.start.byte ≤ byte →
      (spacesAt first capture.node.start.byte).filter (goesOn byte) =
        spacesAt (first ++ [capture]) byte := by
    intro byte after
    rw [filter_spacesAt after, spacesAt_concat first (by simp [isDeclaration])]
  rw [Scan.declare, laid.typeOf?_eq split follows later isDeclaration]
  by_cases declares : isType capture = true
  · obtain ⟨bare, index⟩ := laid.insert_bareType split declares follows.bare
    rw [if_pos declares]
    refine .of_open _ (first.filter (typeOpen capture.node.start.byte) ++ [capture]) bare spaces
      ?_ spacesAgree ?_
    · simp [openTypes, openTypeOf, index]
    · intro byte after
      rw [List.filter_append, filter_typeOpen after, List.filter_append]
      simp [typeOpen, declares, List.filter_cons]
  · have noType : isType capture = false := by simpa using declares
    rw [if_neg declares]
    refine .of_open _ _ ?_ spaces openTypes spacesAgree ?_
    · rw [Scan.closeBefore_types, follows.bare, bareAmong_concat (isFirst_eq_false noType)]
    · intro byte after
      rw [filter_typeOpen after, typeOpen_concat first noType]

/-- Any other capture opens nothing, and may add base names. -/
theorem follows_other (follows : outline.Follows first start scan)
    (later : start ≤ capture.node.start.byte) (noSpace : capture.name ≠ "namespace")
    (noType : isType capture = false) {types : FileTypes}
    (sameBare : types.map DeclaredType.withoutBases = scan.types.map DeclaredType.withoutBases) :
    outline.Follows (first ++ [capture]) capture.node.start.byte
      { scan.closeBefore capture.node.start.byte with types } := by
  refine .of_open _ _ ?_ (follows.spaces _ later) (follows.openTypes _ later) ?_ ?_
  · rw [sameBare, follows.bare, bareAmong_concat (isFirst_eq_false noType)]
  · intro byte after
    rw [filter_spacesAt after, spacesAt_concat first noSpace]
  · intro byte after
    rw [filter_typeOpen after, typeOpen_concat first noType]

/-- Scanning a capture keeps the scan in agreement. -/
theorem follows_step (laid : outline.Laid) (split : outline.captures = first ++ capture :: rest)
    (follows : outline.Follows first start scan) (later : start ≤ capture.node.start.byte) :
    outline.Follows (first ++ [capture]) capture.node.start.byte
      (scan.step outline.file outline.delimiter outline.source capture) := by
  simp only [Scan.step]
  by_cases isSpace : capture.name = "namespace"
  · rw [if_pos isSpace]
    exact laid.follows_namespace split follows later isSpace
  rw [if_neg isSpace]
  by_cases isDeclaration : capture.name = "type_declaration"
  · rw [if_pos isDeclaration]
    exact laid.follows_declaration split follows later isDeclaration
  have noType : isType capture = false := by simp [isType, isDeclaration]
  rw [if_neg isDeclaration]
  split
  · exact follows_other follows later isSpace noType rfl
  · next sort isBase =>
    rw [Scan.addBase]
    split
    · exact follows_other follows later isSpace noType rfl
    · refine follows_other follows later isSpace noType ?_
      exact FileTypes.map_modify _ (fun type => type.withoutBases_addBase sort _) _ _

/-- The open type to which a base name is added is that of its owner. -/
theorem getLast?_openTypes (laid : outline.Laid) (based : outline.Based)
    (split : outline.captures = first ++ capture :: rest)
    (follows : outline.Follows first start scan) (later : start ≤ capture.node.start.byte)
    {sort : BaseSort} (isBase : BaseSort.ofCapture? capture.name = some sort) :
    (scan.closeBefore capture.node.start.byte).openTypes.getLast? =
      (outline.owner? capture).map outline.openTypeOf := by
  have inside := based capture (by simp [split]) sort isBase
  rw [follows.openTypes _ later, List.getLast?_map, laid.owner?_eq split inside]

/-- Scanning a capture changes the types as it changes those of the outline. -/
theorem types_step (laid : outline.Laid) (based : outline.Based)
    (split : outline.captures = first ++ capture :: rest)
    (follows : outline.Follows first start scan) (later : start ≤ capture.node.start.byte)
    (types : scan.types = outline.typesAmong first) :
    (scan.step outline.file outline.delimiter outline.source capture).types =
      outline.typesAmong (first ++ [capture]) := by
  simp only [Scan.step]
  by_cases isSpace : capture.name = "namespace"
  · have noType : isType capture = false := by simp [isType, isSpace]
    rw [if_pos isSpace, Scan.openSpace_types, Scan.closeBefore_types, types,
      typesAmong_concat (isFirst_eq_false noType)]
    simp [givesBase, isSpace, BaseSort.ofCapture?]
  rw [if_neg isSpace]
  by_cases isDeclaration : capture.name = "type_declaration"
  · rw [if_pos isDeclaration, Scan.declare, laid.typeOf?_eq split follows later isDeclaration]
    by_cases declares : isType capture = true
    · rw [if_pos declares, laid.typesAmong_type split declares, ← types]
      rfl
    · have noType : isType capture = false := by simpa using declares
      rw [if_neg declares, typesAmong_concat (isFirst_eq_false noType), ← types]
      · rfl
      · simp [givesBase, isDeclaration, BaseSort.ofCapture?]
  have noType : isType capture = false := by simp [isType, isDeclaration]
  have notFirst : outline.isFirst capture = false := isFirst_eq_false noType
  rw [if_neg isDeclaration]
  cases isBase : BaseSort.ofCapture? capture.name with
  | none =>
      rw [typesAmong_concat notFirst (by simp [givesBase, isBase]), ← types]
      rfl
  | some sort =>
      simp only [Scan.addBase, laid.getLast?_openTypes based split follows later isBase]
      cases owned : outline.owner? capture with
      | none =>
          -- a base name outside every type is dropped
          rw [typesAmong_concat notFirst (by simp [givesBase, owned]), ← types]
          rfl
      | some owner =>
          rw [laid.typesAmong_base split owned isBase notFirst, ← types]
          rfl

end Step

theorem follows_foldl (laid : outline.Laid) (split : outline.captures = first ++ rest)
    {start : Nat} {scan : Scan} (follows : outline.Follows first start scan)
    (later : ∀ capture ∈ rest, start ≤ capture.node.start.byte) :
    (∃ stop, outline.Follows outline.captures stop
      (rest.foldl (Scan.step outline.file outline.delimiter outline.source) scan)) ∧
    (outline.Based → scan.types = outline.typesAmong first →
      (rest.foldl (Scan.step outline.file outline.delimiter outline.source) scan).types =
        outline.types) := by
  induction rest generalizing first start scan with
  | nil =>
      have whole : outline.captures = first := by simpa using split
      refine ⟨⟨start, whole ▸ follows⟩, fun _ types => ?_⟩
      rw [List.foldl_nil, types, ← whole, Outline.types]
  | cons capture rest ih =>
      have starts := laid.starts
      rw [split, List.pairwise_append, List.pairwise_cons] at starts
      have splitAfter : outline.captures = (first ++ [capture]) ++ rest := by simp [split]
      have here := later capture List.mem_cons_self
      obtain ⟨run, types⟩ := ih splitAfter (laid.follows_step split follows here) starts.2.1.1
      exact ⟨run, fun based same => types based (laid.types_step based split follows here same)⟩

theorem follows_nil : outline.Follows [] 0 {} := ⟨rfl, fun _ _ => rfl, fun _ _ => rfl⟩

/-- Without base names, the scan of captures that lie as nodes of a tree do declares the types of
their first declarations. -/
theorem map_withoutBases_scanTypes (laid : outline.Laid) :
    (scanTypes outline.file outline.delimiter outline.source outline.captures).map
      DeclaredType.withoutBases = outline.bareAmong outline.captures := by
  have whole : outline.captures = [] ++ outline.captures := rfl
  obtain ⟨⟨_, follows⟩, _⟩ := laid.follows_foldl whole follows_nil fun _ _ => Nat.zero_le _
  exact follows.bare

/-- The scan of captures that lie as nodes of a tree do declares their types. -/
theorem scanTypes_eq (laid : outline.Laid) (based : outline.Based) :
    scanTypes outline.file outline.delimiter outline.source outline.captures = outline.types := by
  have whole : outline.captures = [] ++ outline.captures := rfl
  obtain ⟨_, types⟩ := laid.follows_foldl whole follows_nil fun _ _ => Nat.zero_le _
  exact types based rfl

end Laid

end Outline

end SourceGauge.Coupling
