/-
# SourceGauge.Proofs.Coupling.FurtherImport -- an import more in a file

An import opens a namespace, in which unbound names are looked up too, and it binds its own last
segment or alias.  The first only adds names.  The second takes names away: those that begin
with the bound segment stand for something else from then on, and note another name than
before, under which later texts may be passed over (`further_import_takes_names`).

* `recordedNames_subset_of_further_import`: a text that does not begin with the name that is bound,
  or does so where a later import binds it too, keeps all the names that it was recorded with,
  unless a text before it begins with that name and it is passed over.
-/
import SourceGauge.Proofs.Coupling.RecordedNames

namespace SourceGauge.Coupling

set_option autoImplicit false

/-! ## What an import more binds -/

/-- An import binds only its own name, and not even that if a later import does. -/
theorem boundBy?_insert {before after : List Import} {declared : Import} {name : String}
    (hidden : name = declared.binding → ∃ later ∈ after, later.binding = declared.binding) :
    boundBy? (before ++ declared :: after) name = boundBy? (before ++ after) name := by
  simp only [boundBy?, List.reverse_append, List.reverse_cons, List.append_assoc,
    List.find?_append]
  by_cases binds : declared.binding = name
  · obtain ⟨later, mem, same⟩ := hidden binds.symm
    have binding : (after.reverse.find? fun declared => declared.binding = name).isSome := by
      rw [List.find?_isSome]
      exact ⟨later, List.mem_reverse.mpr mem, decide_eq_true (same.trans binds)⟩
    obtain ⟨found, first⟩ := Option.isSome_iff_exists.mp binding
    rw [first, Option.some_or, Option.some_or]
  · rw [List.find?_singleton, if_neg (by simpa using binds), Option.none_or]

section

variable {profile : Profile} {imports others : List Import} {space : String}

theorem unboundCandidates_subset (more : imports ⊆ others) (parts : List String) :
    unboundCandidates profile imports space parts ⊆
      unboundCandidates profile others space parts := by
  intro name mem
  simp only [unboundCandidates, List.mem_append] at mem ⊢
  rcases mem with (here | imported) | around
  · exact Or.inl (Or.inl here)
  · refine Or.inl (Or.inr ?_)
    split at imported
    · next opens =>
      rw [if_pos opens]
      rw [List.mem_flatMap] at imported ⊢
      obtain ⟨declared, memDeclared, named⟩ := imported
      exact ⟨declared, more memDeclared, named⟩
    · cases imported
  · exact Or.inr around

theorem lookedUpSegments_congr {text : UsageText}
    (agree : boundBy? others (firstSegment profile.delimiter text.text) =
      boundBy? imports (firstSegment profile.delimiter text.text)) :
    lookedUpSegments profile others text = lookedUpSegments profile imports text := by
  rw [lookedUpSegments, lookedUpSegments, agree]

/-- With more imports that bind the first segment of a text alike, it stands for more names. -/
theorem namesOf_subset (more : imports ⊆ others) {text : UsageText}
    (agree : boundBy? others (firstSegment profile.delimiter text.text) =
      boundBy? imports (firstSegment profile.delimiter text.text)) :
    namesOf profile imports space text ⊆ namesOf profile others space text := by
  rw [namesOf, namesOf, lookedUpSegments_congr agree, agree]
  split
  · exact List.Subset.refl _
  · split
    · exact unboundCandidates_subset more _
    · exact List.Subset.refl _

end

/-! ## Types that moved -/

def DeclaredType.unplaced (type : DeclaredType) : DeclaredType := { type with span := ⟨0, 0, 0, 0⟩ }

/-- The same types, in the same order, wherever they stand in the text. -/
def SameTypes (types others : FileTypes) : Prop :=
  others.map DeclaredType.unplaced = types.map DeclaredType.unplaced

instance (types others : FileTypes) : Decidable (SameTypes types others) :=
  inferInstanceAs (Decidable (_ = _))

theorem FileTypes.get?_unplaced (types : FileTypes) (fullName : String) :
    FileTypes.get? (types.map DeclaredType.unplaced) fullName =
      (types.get? fullName).map DeclaredType.unplaced := by
  rw [FileTypes.get?, FileTypes.get?, List.find?_map]
  rfl

theorem baseTexts_unplaced (types : FileTypes) :
    baseTexts (types.map DeclaredType.unplaced) = baseTexts types := by
  rw [baseTexts, List.flatMap_map]
  rfl

theorem referrer?_unplaced (types : FileTypes) (first : DeclaredType) (entry : UsageText) :
    Collected.referrer? (types.map DeclaredType.unplaced) first.unplaced entry =
      (Collected.referrer? types first entry).map DeclaredType.unplaced := by
  unfold Collected.referrer?
  cases entry.owner with
  | none => rfl
  | some owner => exact types.get?_unplaced owner

/-- A text counts for the same type. -/
theorem SameTypes.referrer? {first other : DeclaredType} {rest others : List DeclaredType}
    (same : SameTypes (first :: rest) (other :: others)) (entry : UsageText) :
    (Collected.referrer? (other :: others) other entry).map DeclaredType.unplaced =
      (Collected.referrer? (first :: rest) first entry).map DeclaredType.unplaced := by
  have heads : other.unplaced = first.unplaced := (List.cons.inj same).1
  rw [← referrer?_unplaced, ← referrer?_unplaced, heads]
  exact congrArg (fun types => Collected.referrer? types first.unplaced entry) same

/-- What is noted depends only on what the imports bind the first segments to. -/
theorem SameTypes.mem_seen_iff {profile : Profile} {imports more : List Import} {file path : Path}
    {types others : FileTypes} (same : SameTypes types others) {entries : List UsageText}
    (agree : ∀ entry ∈ entries, boundBy? more (firstSegment profile.delimiter entry.text) =
      boundBy? imports (firstSegment profile.delimiter entry.text)) (text : String) :
    text ∈ (collectUsages profile more path others entries).seen ↔
      text ∈ (collectUsages profile imports file types entries).seen := by
  match types, others, same with
  | [], [], _ => rfl
  | first :: rest, other :: others, same =>
    induction entries using List.reverseRecOn generalizing text with
    | nil => rfl
    | append_singleton entries last ih =>
        have before (text : String) :=
          ih (fun entry mem => agree entry (List.mem_append_left _ mem)) text
        have looked := lookedUpSegments_congr (agree last (by simp))
        have alone :
            text ∈ (Collected.alone profile more path (other :: others) other last).seen ↔
              text ∈ (Collected.alone profile imports file (first :: rest) first last).seen := by
          have counts := same.referrer? last
          cases counted : Collected.referrer? (first :: rest) first last with
          | none =>
              rw [counted, Option.map_none, Option.map_eq_none_iff] at counts
              rw [Collected.alone_of_no_referrer counted, Collected.alone_of_no_referrer counts]
          | some type =>
              rw [counted] at counts
              obtain ⟨_, counts, _⟩ := Option.map_eq_some_iff.mp counts
              rw [Collected.mem_seen_alone counted, Collected.mem_seen_alone counts, looked]
        simp only [collectUsages, List.foldl_append, List.foldl_cons, List.foldl_nil] at before ⊢
        simp only [Collected.mem_seen_step, before, alone]

/-! ## An import more -/

/-- A text begins with the name that an import binds, and no import after that one binds the
name. -/
def BoundBy (profile : Profile) (declared : Import) (after : List Import) (text : UsageText) :
    Prop :=
  firstSegment profile.delimiter text.text = declared.binding ∧
    ∀ later ∈ after, later.binding ≠ declared.binding

/-- A file has one import more than another, and the same types, though not in the same place of
the text, and the same uses. -/
structure AddsImport (profile : Profile) (queries : Queries) (file other : ParsedFile)
    (before : List Import) (declared : Import) (after : List Import) : Prop where
  types : SameTypes (declaredTypes profile queries file) (declaredTypes profile queries other)
  uses : usesIn queries other = usesIn queries file
  imports : importsOf profile queries file = before ++ after
  further : importsOf profile queries other = before ++ declared :: after

/-- Two files that are read alike, but for the places of the types and one import. -/
theorem ReadAs.addsImport {profile : Profile} {queries : Queries} {file other : ParsedFile}
    {before after : List Import} {declared : Import} {types others : FileTypes}
    {texts : List UsageText} (read : ReadAs profile queries file types (before ++ after) texts)
    (readOther : ReadAs profile queries other others (before ++ declared :: after) texts)
    (same : SameTypes types others) :
    AddsImport profile queries file other before declared after where
  types := by rwa [read.types, readOther.types]
  uses := by
    have bases : baseTexts others = baseTexts types := by
      rw [← baseTexts_unplaced, same, baseTexts_unplaced]
    have texts := readOther.texts.trans read.texts.symm
    rw [textsOf, textsOf, read.types, readOther.types, bases] at texts
    exact List.append_cancel_left texts
  imports := read.imports
  further := readOther.imports

namespace AddsImport

variable {profile : Profile} {queries : Queries} {file other : ParsedFile}
  {before after : List Import} {declared : Import}

/-- The same texts are looked up. -/
theorem textsOf_eq (adds : AddsImport profile queries file other before declared after) :
    textsOf profile queries other = textsOf profile queries file := by
  rw [textsOf, textsOf, ← baseTexts_unplaced, adds.types, baseTexts_unplaced, adds.uses]

/-- The first segment of a text is bound as before, unless the further import binds it. -/
theorem boundBy?_eq (adds : AddsImport profile queries file other before declared after)
    {text : UsageText} (free : ¬BoundBy profile declared after text) :
    boundBy? (importsOf profile queries other) (firstSegment profile.delimiter text.text) =
      boundBy? (importsOf profile queries file) (firstSegment profile.delimiter text.text) := by
  rw [adds.further, adds.imports]
  refine boundBy?_insert fun begins => ?_
  by_contra uncovered
  exact free ⟨begins, fun later mem same => uncovered ⟨later, mem, same⟩⟩

theorem mem_seen_iff (adds : AddsImport profile queries file other before declared after)
    {earlier : List UsageText} (free : ∀ entry ∈ earlier, ¬BoundBy profile declared after entry)
    (text : String) :
    text ∈ (afterTexts profile queries other earlier).seen ↔
      text ∈ (afterTexts profile queries file earlier).seen := by
  rw [afterTexts, afterTexts]
  exact adds.types.mem_seen_iff (fun entry mem => adds.boundBy?_eq (free entry mem)) text

/-- A text that is not passed over keeps its names. -/
theorem recordedNames_subset (adds : AddsImport profile queries file other before declared after)
    {earlier : List UsageText} {text : UsageText} (free : ¬BoundBy profile declared after text)
    (new : bareText profile.delimiter text.text ∉ (afterTexts profile queries other earlier).seen) :
    recordedNames profile queries file earlier text ⊆
      recordedNames profile queries other earlier text := by
  intro name mem
  obtain ⟨first, rest, type, types, counts, _, may⟩ := mem_recordedNames.mp mem
  have more : importsOf profile queries file ⊆ importsOf profile queries other := by
    rw [adds.further, adds.imports]
    intro declared mem
    simp only [List.mem_append, List.mem_cons] at mem ⊢
    tauto
  have same := adds.types
  rw [types] at same
  cases moved : declaredTypes profile queries other with
  | nil =>
      rw [moved] at same
      cases same
  | cons first' rest' =>
      rw [moved] at same
      have counted := same.referrer? text
      rw [counts] at counted
      obtain ⟨type', counts', placed⟩ := Option.map_eq_some_iff.mp counted
      have space : type'.unplaced.space = type.unplaced.space := congrArg DeclaredType.space placed
      refine mem_recordedNames.mpr ⟨first', rest', type', moved, counts', new, ?_⟩
      change name ∈ namesOf profile _ type'.unplaced.space text
      rw [space]
      exact namesOf_subset more (adds.boundBy?_eq free) may

end AddsImport

/-- **An import more only adds names.**  Take a text that is looked up in a file and does not
begin with the name that the further import binds, or begins with it where a later import binds
it too.  It keeps all the full names that it was recorded with, unless it is passed over: then a
text before it begins with the name. -/
theorem recordedNames_subset_of_further_import {profile : Profile} {queries : Queries}
    {file other : ParsedFile} {before after : List Import} {declared : Import}
    (adds : AddsImport profile queries file other before declared after)
    {earlier later : List UsageText} {text : UsageText}
    (texts : textsOf profile queries file = earlier ++ text :: later)
    (free : ¬BoundBy profile declared after text) :
    textsOf profile queries other = earlier ++ text :: later ∧
      (recordedNames profile queries file earlier text ⊆
          recordedNames profile queries other earlier text ∨
        bareText profile.delimiter text.text ∈ (afterTexts profile queries other earlier).seen ∧
          ∃ entry ∈ earlier, BoundBy profile declared after entry) := by
  refine ⟨adds.textsOf_eq.trans texts, ?_⟩
  by_cases noted :
      bareText profile.delimiter text.text ∈ (afterTexts profile queries other earlier).seen
  · by_cases begins : ∃ entry ∈ earlier, BoundBy profile declared after entry
    · exact Or.inr ⟨noted, begins⟩
    · -- Noted there means noted here, where the text is then recorded with no name.
      push Not at begins
      refine Or.inl fun name mem => ?_
      obtain ⟨_, _, _, _, _, new, _⟩ := mem_recordedNames.mp mem
      exact absurd ((adds.mem_seen_iff begins _).mp noted) new
  · exact Or.inl (adds.recordedNames_subset free noted)

/-! ## A class before and after a `using` more

`F` has members of the types `B.C` and `C`.  A further `using L;` adds a name to each.  A further
`using A.B;` binds the `B` of `B.C`: the type stands for `A.B.C` alone from then on, and `C`,
noted under it, is passed over. -/

namespace FurtherUsing

open TwoFiles (node member classOf)
open Members (dotted field)

def classF (start : Nat) : Node :=
  classOf start (start + 23)
    [field (start + 10) (start + 16)
      (dotted "qualified_name" "qualifier" (some "type") (start + 10)) (start + 14) [],
    member (start + 17) (start + 21) []]

def fileOf (source : String) (start : Nat) (directives : List Node) : ParsedFile where
  path := ⟨"a.cs"⟩
  language := .csharp
  source := source
  root := node "compilation_unit" 0 (start + 23) none (directives ++ [classF start])

def plain : ParsedFile := fileOf "class F { B.C x; C y; }" 0 []

def opening : ParsedFile := fileOf "using L; class F { B.C x; C y; }" 9
  [node "using_directive" 0 8 none [node "identifier" 6 7 none []]]

def binding : ParsedFile := fileOf "using A.B; class F { B.C x; C y; }" 11
  [node "using_directive" 0 10 none [dotted "qualified_name" "qualifier" none 6]]

def useBC : UsageText := ⟨false, "B.C", none, .use⟩

def useC : UsageText := ⟨false, "C", none, .use⟩

def typeF (start : Nat) : DeclaredType := TwoFiles.declared "F" ⟨"a.cs"⟩ start (start + 23)

theorem sameTypes (start other : Nat) : SameTypes [typeF start] [typeF other] := rfl

theorem files_read :
    ReadAs csharp csharpQueries plain [typeF 0] [] [useBC, useC] ∧
      ReadAs csharp csharpQueries opening [typeF 9] [⟨"L", "L", none⟩] [useBC, useC] ∧
      ReadAs csharp csharpQueries binding [typeF 11] [⟨"A.B", "B", none⟩] [useBC, useC] := by
  refine ⟨⟨?_, ?_, ?_⟩, ⟨?_, ?_, ?_⟩, ⟨?_, ?_, ?_⟩⟩
  all_goals
    simp only [declaredTypes, importsOf, textsOf, usesIn, Query.captures,
      Query.allMatches_eq_insertionSort]
    decide +kernel

theorem adds_opening : AddsImport csharp csharpQueries plain opening [] ⟨"L", "L", none⟩ [] :=
  files_read.1.addsImport files_read.2.1 (sameTypes 0 9)

theorem adds_binding : AddsImport csharp csharpQueries plain binding [] ⟨"A.B", "B", none⟩ [] :=
  files_read.1.addsImport files_read.2.2 (sameTypes 0 11)

end FurtherUsing

open FurtherUsing in
theorem recordedNames_subset_of_further_import_opening :
    AddsImport csharp csharpQueries plain opening [] ⟨"L", "L", none⟩ [] ∧
      textsOf csharp csharpQueries plain = [useBC] ++ useC :: [] ∧
      ¬BoundBy csharp ⟨"L", "L", none⟩ [] useC ∧
      "C" ∈ recordedNames csharp csharpQueries plain [useBC] useC ∧
      recordedNames csharp csharpQueries plain [useBC] useC ⊆
        recordedNames csharp csharpQueries opening [useBC] useC := by
  have plainRead := files_read.1
  have texts : textsOf csharp csharpQueries plain = [useBC] ++ useC :: [] := plainRead.texts
  have begins : firstSegment csharp.delimiter useBC.text = "B" ∧
      firstSegment csharp.delimiter useC.text = "C" := by decide +kernel
  have freeBC : ¬BoundBy csharp ⟨"L", "L", none⟩ [] useBC := fun bound =>
    absurd (begins.1.symm.trans bound.1) (by decide)
  have freeC : ¬BoundBy csharp ⟨"L", "L", none⟩ [] useC := fun bound =>
    absurd (begins.2.symm.trans bound.1) (by decide)
  refine ⟨adds_opening, texts, freeC, ?_, ?_⟩
  · simp only [recordedNames, afterTexts, plainRead.imports, plainRead.types]
    decide +kernel
  · rcases (recordedNames_subset_of_further_import adds_opening texts freeC).2 with
      kept | ⟨_, entry, mem, bound⟩
    · exact kept
    · rw [List.mem_singleton.mp mem] at bound
      exact absurd bound freeBC

open FurtherUsing in
/-- A `using` without an alias takes names away: of the text that begins with its last segment,
and of the text that is noted under that one from then on. -/
theorem further_import_takes_names :
    AddsImport csharp csharpQueries plain binding [] ⟨"A.B", "B", none⟩ [] ∧
      textsOf csharp csharpQueries plain = [useBC, useC] ∧
      ("B.C" ∈ recordedNames csharp csharpQueries plain [] useBC ∧
        "B.C" ∉ recordedNames csharp csharpQueries binding [] useBC) ∧
      "C" ∈ recordedNames csharp csharpQueries plain [useBC] useC ∧
      recordedNames csharp csharpQueries binding [useBC] useC = [] := by
  obtain ⟨plainRead, _, bindingRead⟩ := files_read
  refine ⟨adds_binding, plainRead.texts, ?_⟩
  simp only [recordedNames, afterTexts, plainRead.imports, plainRead.types, bindingRead.imports,
    bindingRead.types]
  decide +kernel

end SourceGauge.Coupling
