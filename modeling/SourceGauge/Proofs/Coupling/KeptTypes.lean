/-
# SourceGauge.Proofs.Coupling.KeptTypes -- declared types keep their places

A scan changes the list of types of a file in three ways (`Scan.Change`): not at all, by
inserting a declaration, whose index it then holds as open, or by adding a base name at the index
of an open type.  Each of them keeps the list tidy (`FileTypes.Tidy`): full names are distinct,
and no base name stands twice.  Types are only ever appended (`FileTypes.Grows`), so an index that
was pushed for a declaration (`Pushed`) goes on denoting the type of its full name.

* `scan_keeps_types`: after any captures the types are tidy and told apart by their full names; a
  declaration is appended, or merged into the one type of its name; and every index held on the
  stack of open types denotes the type that it was pushed for, then and whatever captures follow.
-/
import SourceGauge.Proofs.Coupling.TreeTypes
import SourceGauge.Proofs.Keyed

namespace SourceGauge.Coupling

set_option autoImplicit false

open Query (Capture)

/-- The names of two lists, each once, in the order in which they first occur. -/
def orderedUnion (names further : List String) : List String := (names ++ further).eraseDups

/-! ## Names without repeats -/

theorem nodup_addNew {names : List String} (nodup : names.Nodup) (name : String) :
    (addNew names name).Nodup := by
  unfold addNew
  split
  · exact nodup
  · next new =>
    rw [List.contains_iff_mem] at new
    rw [← List.concat_eq_append]
    exact nodup.concat new

theorem eraseDups_of_nodup {names : List String} (nodup : names.Nodup) :
    names.eraseDups = names := by
  induction names using List.reverseRecOn with
  | nil => rfl
  | append_singleton names name ih =>
      obtain ⟨nodupNames, _, apart⟩ := List.nodup_append.mp nodup
      have new : name ∉ names := fun mem => apart name mem name (by simp) rfl
      rw [eraseDups_concat, ih nodupNames, addNew, if_neg (by simpa using new)]

/-- Adding names one by one gives the union in order. -/
theorem foldl_addNew {names : List String} (nodup : names.Nodup) (further : List String) :
    further.foldl addNew names = orderedUnion names further := by
  unfold orderedUnion
  induction further using List.reverseRecOn with
  | nil => rw [List.append_nil, eraseDups_of_nodup nodup, List.foldl_nil]
  | append_singleton further name ih =>
      rw [List.foldl_concat, ih, ← List.append_assoc, eraseDups_concat]

theorem nodup_foldl_addNew {names : List String} (nodup : names.Nodup) (further : List String) :
    (further.foldl addNew names).Nodup :=
  List.foldlRecOn further addNew nodup fun _ nodup name _ => nodup_addNew nodup name

/-! ## Types -/

namespace FileTypes

/-- Full names are distinct, and no base name of a type stands twice in a list. -/
structure Tidy (types : FileTypes) : Prop where
  distinct : (types.map DeclaredType.fullName).Nodup
  bases : ∀ type ∈ types, ∀ sort, (type.bases sort).Nodup

variable {types : FileTypes} {declared : DeclaredType} {fullName : String}

theorem Tidy.nil : Tidy [] := ⟨List.nodup_nil, fun _ mem => (List.not_mem_nil mem).elim⟩

/-- A change of base names that repeats none keeps the types tidy. -/
theorem Tidy.modify (tidy : types.Tidy) {change : DeclaredType → DeclaredType} (index : Nat)
    (keepsName : ∀ type, (change type).fullName = type.fullName)
    (keepsBases : ∀ type : DeclaredType, (∀ sort, (type.bases sort).Nodup) →
      ∀ sort, ((change type).bases sort).Nodup) :
    FileTypes.Tidy (types.modify index change) where
  distinct := by
    rw [map_modify DeclaredType.fullName keepsName]
    exact tidy.distinct
  bases := by
    intro type mem
    obtain ⟨old, memOld, rfl | rfl⟩ := exists_of_mem_modify mem
    · exact tidy.bases type memOld
    · exact keepsBases old (tidy.bases old memOld)

theorem Tidy.addBase (tidy : types.Tidy) (index : Nat) (sort : BaseSort) (base : String) :
    (types.addBase index sort base).Tidy := by
  refine tidy.modify index ?_ ?_
  · intro type
    rw [← DeclaredType.fullName_withoutBases, DeclaredType.withoutBases_addBase,
      DeclaredType.fullName_withoutBases]
  · intro type nodup other
    rw [DeclaredType.bases_addBase]
    split
    · exact nodup_addNew (nodup other) base
    · exact nodup other

theorem Tidy.insert (tidy : types.Tidy) (nodup : ∀ sort, (declared.bases sort).Nodup) :
    (types.insert declared).1.Tidy := by
  rcases types.insert_cases declared with ⟨index, _, inserted⟩ | ⟨new, inserted⟩
  · rw [inserted]
    refine tidy.modify index (fun _ => rfl) fun type nodupType sort => ?_
    cases sort with
    | extended => exact nodup_foldl_addNew (nodupType .extended) declared.extended
    | implemented => exact nodup_foldl_addNew (nodupType .implemented) declared.implemented
  · rw [inserted]
    refine ⟨?_, List.forall_mem_append.mpr ⟨tidy.bases, List.forall_mem_singleton.mpr nodup⟩⟩
    rw [List.map_append, List.map_singleton, ← List.concat_eq_append]
    exact tidy.distinct.concat new

/-- The type of a full name is the one entry that has it. -/
theorem Tidy.get?_eq_some_iff (tidy : types.Tidy) {type : DeclaredType} :
    types.get? fullName = some type ↔ type ∈ types ∧ type.fullName = fullName :=
  find?_key_eq_some_iff tidy.distinct

/-- Into the type of its full name a declaration is merged in place. -/
theorem Tidy.insert_eq_set (tidy : types.Tidy) {old : DeclaredType} {i : Nat}
    (there : types[i]? = some old) (same : old.fullName = declared.fullName) :
    types.insert declared = (types.set i
      { old with
        extended := orderedUnion old.extended declared.extended
        implemented := orderedUnion old.implemented declared.implemented }, i) := by
  have extended : old.extended.Nodup := tidy.bases old (List.mem_of_getElem? there) .extended
  have implemented : old.implemented.Nodup :=
    tidy.bases old (List.mem_of_getElem? there) .implemented
  have named : (types.map DeclaredType.fullName)[i]? = some declared.fullName := by
    rw [List.getElem?_map, there, Option.map_some, same]
  rw [insert_of_getElem? tidy.distinct named, modify_eq_set there, DeclaredType.merge,
    foldl_addNew extended, foldl_addNew implemented]

/-- A list of types has one entry for each full name, whatever is asked of it or inserted. -/
structure OnePerName (types : FileTypes) : Prop extends Tidy types where
  get : ∀ fullName type,
    types.get? fullName = some type ↔ type ∈ types ∧ type.fullName = fullName
  append : ∀ declared : DeclaredType, declared.fullName ∉ types.map DeclaredType.fullName →
    types.insert declared = (types ++ [declared], types.length)
  merge : ∀ (declared old : DeclaredType) (i : Nat), types[i]? = some old →
    old.fullName = declared.fullName →
    types.insert declared = (types.set i
      { old with
        extended := orderedUnion old.extended declared.extended
        implemented := orderedUnion old.implemented declared.implemented }, i)

theorem Tidy.onePerName (tidy : types.Tidy) : types.OnePerName where
  toTidy := tidy
  get := fun _ _ => tidy.get?_eq_some_iff
  append := fun _ new => insert_of_not_mem new
  merge := fun _ _ _ there same => tidy.insert_eq_set there same

end FileTypes

/-! ## What a capture changes -/

namespace Scan

variable {scan next : Scan} {file : Path} {delimiter source : String} {capture : Capture}

/-- What scanning a capture can do to the types and to what is open. -/
inductive Change (file : Path) (delimiter source : String) (scan : Scan) (capture : Capture)
    (next : Scan) : Prop where
  | keeps (types : next.types = scan.types)
      (opens : ∀ opened ∈ next.openTypes, opened ∈ scan.openTypes)
  | declares (declared : DeclaredType) (isDeclaration : capture.name = "type_declaration")
      (made : (scan.closeBefore capture.node.start.byte).typeOf? file delimiter source
        capture.node = some declared)
      (types : next.types = (scan.types.insert declared).1)
      (opens : ∀ opened ∈ next.openTypes, opened ∈ scan.openTypes ∨
        opened = ⟨(scan.types.insert declared).2, capture.node.stop.byte⟩)
  | addsBase (innermost : OpenType) (isOpen : innermost ∈ scan.openTypes) (sort : BaseSort)
      (base : String) (types : next.types = scan.types.addBase innermost.index sort base)
      (opens : ∀ opened ∈ next.openTypes, opened ∈ scan.openTypes)

theorem mem_openTypes_closeBefore {byte : Nat} {opened : OpenType}
    (mem : opened ∈ (scan.closeBefore byte).openTypes) : opened ∈ scan.openTypes :=
  (List.mem_filter.mp mem).1

theorem openSpace_openTypes (scan : Scan) (source : String) (node : Node) :
    (scan.openSpace source node).openTypes = scan.openTypes := by
  unfold openSpace
  split <;> rfl

theorem change_step (scan : Scan) (file : Path) (delimiter source : String) (capture : Capture) :
    Change file delimiter source scan capture (scan.step file delimiter source capture) := by
  have closed : ∀ opened ∈ (scan.closeBefore capture.node.start.byte).openTypes,
      opened ∈ scan.openTypes := fun _ => mem_openTypes_closeBefore
  simp only [step]
  split
  · refine .keeps (by rw [openSpace_types, closeBefore_types]) ?_
    rwa [openSpace_openTypes]
  split
  · next isDeclaration =>
    rw [declare]
    split
    · exact .keeps rfl closed
    · next declared made =>
      refine .declares declared isDeclaration made rfl fun opened mem => ?_
      rcases List.mem_append.mp mem with old | new
      · exact Or.inl (closed opened old)
      · exact Or.inr (List.mem_singleton.mp new)
  split
  · exact .keeps rfl closed
  · next sort _ =>
    rw [addBase]
    split
    · exact .keeps rfl closed
    · next innermost last =>
      exact .addsBase innermost (closed innermost (List.mem_of_getLast? last)) sort _ rfl closed

namespace Change

theorem tidy (change : Change file delimiter source scan capture next) (tidy : scan.types.Tidy) :
    next.types.Tidy := by
  cases change with
  | keeps types _ => rwa [types]
  | declares declared _ made types _ =>
      obtain ⟨name, _, rfl⟩ := Option.map_eq_some_iff.mp made
      rw [types]
      exact tidy.insert fun sort => by cases sort <;> exact List.nodup_nil
  | addsBase innermost _ sort base types _ =>
      rw [types]
      exact tidy.addBase innermost.index sort base

theorem grows (change : Change file delimiter source scan capture next) :
    scan.types.Grows next.types := by
  cases change with
  | keeps types _ => rw [types]; exact .refl _
  | declares declared _ _ types _ => rw [types]; exact scan.types.grows_insert declared
  | addsBase innermost _ sort base types _ =>
      rw [types]
      exact scan.types.grows_addBase innermost.index sort base

end Change

end Scan

/-! ## The scan -/

section Scanned

variable (file : Path) (delimiter source : String)

def scanned (captures : List Capture) : Scan :=
  captures.foldl (Scan.step file delimiter source) {}

theorem scanned_concat (captures : List Capture) (capture : Capture) :
    scanned file delimiter source (captures ++ [capture]) =
      (scanned file delimiter source captures).step file delimiter source capture :=
  List.foldl_concat ..

theorem tidy_scanTypes (captures : List Capture) :
    (scanTypes file delimiter source captures).Tidy :=
  List.foldlRecOn captures (Scan.step file delimiter source)
    (motive := fun scan => scan.types.Tidy) FileTypes.Tidy.nil
    fun scan tidy capture _ => (scan.change_step file delimiter source capture).tidy tidy

/-- Whatever is scanned, types only come after those that are there. -/
theorem grows_scanTypes (captures more : List Capture) :
    (scanTypes file delimiter source captures).Grows
      (scanTypes file delimiter source (captures ++ more)) := by
  induction more using List.reverseRecOn with
  | nil => rw [List.append_nil]; exact .refl _
  | append_singleton more capture ih =>
      have change := (scanned file delimiter source (captures ++ more)).change_step file delimiter
        source capture
      rw [← scanned_concat, List.append_assoc] at change
      exact ih.trans change.grows

/-- After the captures before it, a declaration makes a type; inserting the type gives `types`, and
the index at which an open type is pushed. -/
structure Pushed (before : List Capture) (capture : Capture) (declared : DeclaredType)
    (types : FileTypes) (opened : OpenType) : Prop where
  isDeclaration : capture.name = "type_declaration"
  made : ((scanned file delimiter source before).closeBefore capture.node.start.byte).typeOf? file
    delimiter source capture.node = some declared
  inserted : (scanTypes file delimiter source before).insert declared = (types, opened.index)
  stop : opened.stop = capture.node.stop.byte

variable {file delimiter source}

/-- Every open type was pushed for a declaration, after which types were only appended. -/
theorem exists_pushed {captures : List Capture} {opened : OpenType}
    (isOpen : opened ∈ (scanned file delimiter source captures).openTypes) :
    ∃ before capture after declared types, captures = before ++ capture :: after ∧
      Pushed file delimiter source before capture declared types opened ∧
      types.Grows (scanTypes file delimiter source captures) := by
  induction captures using List.reverseRecOn with
  | nil => cases isOpen
  | append_singleton captures last ih =>
      have change := (scanned file delimiter source captures).change_step file delimiter source last
      rw [← scanned_concat] at change
      have kept (held : opened ∈ (scanned file delimiter source captures).openTypes) :
          ∃ before capture after declared types, captures ++ [last] = before ++ capture :: after ∧
            Pushed file delimiter source before capture declared types opened ∧
            types.Grows (scanTypes file delimiter source (captures ++ [last])) := by
        obtain ⟨before, capture, after, declared, types, rfl, pushed, grows⟩ := ih held
        exact ⟨before, capture, after ++ [last], declared, types, by simp, pushed,
          grows.trans change.grows⟩
      cases change with
      | keeps _ opens => exact kept (opens opened isOpen)
      | addsBase _ _ _ _ _ opens => exact kept (opens opened isOpen)
      | declares declared isDeclaration made types opens =>
          rcases opens opened isOpen with old | rfl
          · exact kept old
          · have grows : ((scanTypes file delimiter source captures).insert declared).1.Grows
                (scanned file delimiter source (captures ++ [last])).types := by
              rw [types]
              exact .refl _
            exact ⟨captures, last, [], declared, _, rfl, ⟨isDeclaration, made, rfl, rfl⟩, grows⟩

/-- An index that was pushed for a declaration denotes the type with its full name. -/
theorem Pushed.exists_entry {before : List Capture} {capture : Capture} {declared : DeclaredType}
    {types : FileTypes} {opened : OpenType}
    (pushed : Pushed file delimiter source before capture declared types opened) :
    ∃ type, types[opened.index]? = some type ∧ type.fullName = declared.fullName := by
  have there := (scanTypes file delimiter source before).getElem?_insert declared
  rw [pushed.inserted, List.getElem?_map] at there
  exact Option.map_eq_some_iff.mp there

end Scanned

/-- **Declared types keep their places.**  After any captures there is one entry for each full name,
without repeated base names: a declaration of a new name is appended, and one of a name that is
there changes this entry alone, whose base names become the unions in order.

Every index on the stack of open types was pushed for a declaration among the captures.  It denotes
the type of the full name of that declaration when it is pushed, and whatever captures follow, the
same type as it was but for its base names. -/
theorem scan_keeps_types (file : Path) (delimiter source : String) (captures : List Capture) :
    (scanTypes file delimiter source captures).OnePerName ∧
      ∀ opened ∈ (scanned file delimiter source captures).openTypes,
        ∃ before capture after declared types old, captures = before ++ capture :: after ∧
          Pushed file delimiter source before capture declared types opened ∧
          types[opened.index]? = some old ∧ old.fullName = declared.fullName ∧
          ∀ more, ∃ new,
            (scanTypes file delimiter source (captures ++ more))[opened.index]? = some new ∧
            new.fullName = declared.fullName ∧ new.withoutBases = old.withoutBases := by
  refine ⟨(tidy_scanTypes file delimiter source captures).onePerName, fun opened isOpen => ?_⟩
  obtain ⟨before, capture, after, declared, types, split, pushed, grows⟩ := exists_pushed isOpen
  obtain ⟨old, there, named⟩ := pushed.exists_entry
  refine ⟨before, capture, after, declared, types, old, split, pushed, there, named, fun more => ?_⟩
  obtain ⟨new, thereNew, same⟩ :=
    (grows.trans (grows_scanTypes file delimiter source captures more)).exists_entry there
  refine ⟨new, thereNew, ?_, same⟩
  rw [← new.fullName_withoutBases, same, old.fullName_withoutBases, named]

/-! ## A type that is open while its bases are read -/

namespace Partials

/-- The captures of the file up to the second declaration of its first type. -/
def first : List Capture := (outlineOf csharp file).captures.take 6

/-- The base names of the second declaration. -/
def rest : List Capture := (outlineOf csharp file).captures.drop 6

end Partials

open Partials in
/-- The second declaration of `N.P` holds the index of the first one, though `N.Q` was declared
between the two; the base names that follow go there. -/
theorem scan_keeps_types_second_declaration :
    (⟨0, 80⟩ : OpenType) ∈
        (scanned ⟨"a.cs"⟩ "." Partials.file.source Partials.first).openTypes ∧
      ∃ before capture declared types old new,
        Pushed ⟨"a.cs"⟩ "." Partials.file.source before capture declared types ⟨0, 80⟩ ∧
        types[0]? = some old ∧ old.fullName = declared.fullName ∧ declared.fullName = "N.P" ∧
        (scanTypes ⟨"a.cs"⟩ "." Partials.file.source (Partials.first ++ Partials.rest))[0]? =
          some new ∧
        new.withoutBases = old.withoutBases ∧ new.implemented = ["A", "C"] := by
  have isOpen : (⟨0, 80⟩ : OpenType) ∈
      (scanned ⟨"a.cs"⟩ "." Partials.file.source Partials.first).openTypes := by decide +kernel
  obtain ⟨_, places⟩ := scan_keeps_types ⟨"a.cs"⟩ "." Partials.file.source Partials.first
  obtain ⟨before, capture, _, declared, types, old, _, pushed, there, named, keeps⟩ :=
    places _ isOpen
  obtain ⟨new, thereNew, sameName, same⟩ := keeps Partials.rest
  have after : scanTypes ⟨"a.cs"⟩ "." Partials.file.source (Partials.first ++ Partials.rest) =
      [typeP, typeQ] := by decide +kernel
  rw [after] at thereNew ⊢
  obtain rfl : typeP = new := Option.some.inj thereNew
  exact ⟨isOpen, before, capture, declared, types, old, typeP, pushed, there, named,
    sameName.symm, rfl, same, rfl⟩

end SourceGauge.Coupling
