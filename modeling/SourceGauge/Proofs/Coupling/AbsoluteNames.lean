/-
# SourceGauge.Proofs.Coupling.AbsoluteNames -- names with a leading delimiter

In PHP a name that begins with the delimiter is absolute: it stands for itself in every
namespace.  The look-up takes that delimiter off before it does anything else, and then treats
the name as if it were written without.  It looks for the name in the namespace where it is used,
lets an import bind its first segment, and passes it over where the relative name was reached
before (`absolute_names_lose`).

* `absolute_recorded_iff`: an absolute name is recorded, and as itself only, exactly if it was not
  noted before, and what binds its first segment is the segment itself, or nothing and the type
  that it counts for is in no namespace.
-/
import SourceGauge.Proofs.Coupling.RecordedNames

namespace SourceGauge.Coupling

set_option autoImplicit false

/-! ## What a name may stand for -/

/-- An absolute name without its first delimiter. -/
theorem bareText_append (delimiter name : String) :
    bareText delimiter (delimiter ++ name) = name := by
  simp [bareText, Text.stripStart?]

theorem php_one : php.delimiter.toList = ['\\'] := by decide

/-- A text that ends in an unusable one is unusable. -/
theorem isUnusable_append (front : String) {back : String} (unusable : isUnusable back = true) :
    isUnusable (front ++ back) = true := by
  have within : back.toList <:+: (front ++ back).toList := by
    rw [String.toList_append]
    exact (List.suffix_append _ _).isInfix
  rw [isUnusable, Bool.or_eq_true, Text.contains_iff, Text.contains_iff] at unusable ⊢
  exact unusable.imp (fun space => space.trans within) fun opened => opened.trans within

/-- Only outside of all namespaces an unbound name stands for itself alone. -/
theorem unboundCandidates_alone_iff (imports : List Import) (space : String)
    (parts : List String) :
    (∀ used ∈ unboundCandidates php imports space parts, used = Text.join php.delimiter parts) ↔
      space = "" := by
  constructor
  · intro alone
    by_contra inside
    have here := alone (qualified space php.delimiter (Text.join php.delimiter parts))
      (by simp [unboundCandidates])
    rw [qualified, if_neg inside] at here
    have length := congrArg String.length here
    have dot : php.delimiter.length = 1 := by decide
    simp only [String.length_append] at length
    omega
  · rintro rfl used mem
    have some : php.delimiter ≠ "" := by decide
    have outside : properInits (Text.split php.delimiter "") = [] := by
      simp [properInits, Text.split, Text.pieces, some]
    have closed : php.importsOpenNamespaces = false := rfl
    simpa [unboundCandidates, qualified, outside, closed] using mem

/-- A bound name stands for itself if the import names what it binds. -/
theorem boundCandidates_alone_iff {declared : Import} {space head : String}
    {others : List String} (named : ∀ s ∈ others, s ≠ "") :
    (∀ used ∈ boundCandidates php space declared (Text.join php.delimiter others),
        used = Text.join php.delimiter (head :: others)) ↔
      declared.fullName = head := by
  have only : boundCandidates php space declared (Text.join php.delimiter others) =
      [if Text.join php.delimiter others = "" then declared.fullName
        else declared.fullName ++ php.delimiter ++ Text.join php.delimiter others] := by
    simp [boundCandidates, show php.aliasesSeeParents = false from rfl]
  rw [only, List.forall_mem_singleton]
  cases others with
  | nil => rfl
  | cons s others =>
      rw [if_neg (Text.join_ne_empty (named s List.mem_cons_self)),
        Text.join_cons (List.cons_ne_nil s others)]
      simp only [String.append_left_inj]

/-! ## Looking up a name -/

/-- No names but chains are cut, and in PHP no names are chains. -/
theorem namingSegments_php (isCall : Bool) (segments : List String) :
    namingSegments php isCall segments = segments := by
  cases isCall <;> rfl

section

variable {imports : List Import} {text : UsageText} {head : String} {others : List String}

/-- A name is looked up by all its segments, or by those after the bound one. -/
theorem lookedUpSegments_php
    (segments : cleanSegments php.delimiter text.text = head :: others) :
    lookedUpSegments php imports text =
      if (boundBy? imports head).isSome then others else head :: others := by
  have begins := firstSegment_eq segments
  rw [lookedUpSegments, namingSegments_php, begins, split_cleanName php_one, segments]
  cases boundBy? imports head <;> rfl

/-- What is looked up of a usable name is usable. -/
theorem isUnusable_lookedUp (segments : cleanSegments php.delimiter text.text = head :: others)
    (usable : isUnusable (Text.join php.delimiter (head :: others)) = false) :
    isUnusable (Text.join php.delimiter (lookedUpSegments php imports text)) = false := by
  rw [lookedUpSegments_php segments]
  split
  · cases others with
    | nil => rfl
    | cons s others =>
        rw [Text.join_cons (List.cons_ne_nil s others)] at usable
        exact eq_false_of_ne_true fun unusable =>
          absurd (isUnusable_append _ unusable) (by rw [usable]; decide)
  · exact usable

/-- A name stands for itself, and for nothing else, where nothing binds its first segment and it
is used in no namespace, or where the segment is bound to itself. -/
theorem namesOf_alone_iff (segments : cleanSegments php.delimiter text.text = head :: others)
    (named : ∀ s ∈ others, s ≠ "")
    (usable : isUnusable (Text.join php.delimiter (head :: others)) = false) (space : String) :
    (namesOf php imports space text ≠ [] ∧
        ∀ used ∈ namesOf php imports space text,
          used = Text.join php.delimiter (head :: others)) ↔
      (boundBy? imports head = none → space = "") ∧
        ∀ declared, boundBy? imports head = some declared → declared.fullName = head := by
  have begins := firstSegment_eq segments
  have lookedUp :
      isUnusable (Text.join php.delimiter (lookedUpSegments php imports text)) = false :=
    isUnusable_lookedUp segments usable
  rw [namesOf, lookedUp, begins, lookedUpSegments_php segments]
  cases bound : boundBy? imports head with
  | none =>
      have some : unboundCandidates php imports space (head :: others) ≠ [] := by
        simp [unboundCandidates]
      simpa [some] using unboundCandidates_alone_iff imports space (head :: others)
  | some declared =>
      have some : boundCandidates php space declared (Text.join php.delimiter others) ≠ [] := by
        simp [boundCandidates]
      have alone : (∀ used ∈ boundCandidates php space declared (Text.join php.delimiter others),
          used = Text.join php.delimiter (head :: others)) ↔ declared.fullName = head :=
        boundCandidates_alone_iff named
      simpa [some] using alone

end

/-- **Absolute names.**  Take a base name or use of a file that is written with a delimiter in
front, and count it for its type.  It is recorded, with the name that follows the delimiter
and no other, exactly if that name was not noted before, and its first segment is bound to
itself or is unbound and the type stands in no namespace.  Where a text before it is the same
name, with a delimiter in front or without, it is recorded with nothing. -/
theorem absolute_recorded_iff {queries : Queries} {file : ParsedFile} {first : DeclaredType}
    {rest : List DeclaredType} (types : declaredTypes php queries file = first :: rest)
    {before after : List UsageText} {text : UsageText}
    (texts : textsOf php queries file = before ++ text :: after)
    {name : String} (written : text.text = php.delimiter ++ name) {head : String}
    {others : List String}
    (segments : (Text.split php.delimiter name).map cleanSegment = head :: others)
    (named : ∀ s ∈ others, s ≠ "")
    (usable : isUnusable (Text.join php.delimiter (head :: others)) = false) :
    ∃ type ∈ first :: rest, Collected.referrer? (first :: rest) first text = some type ∧
      ((recordedNames php queries file before text ≠ [] ∧
          ∀ used ∈ recordedNames php queries file before text,
            used = Text.join php.delimiter (head :: others)) ↔
        name ∉ (afterTexts php queries file before).seen ∧
          (boundBy? (importsOf php queries file) head = none → type.space = "") ∧
          ∀ declared, boundBy? (importsOf php queries file) head = some declared →
            declared.fullName = head) ∧
      ((∃ entry ∈ before, bareText php.delimiter entry.text = name) →
        recordedNames php queries file before text = []) := by
  have bare : bareText php.delimiter text.text = name := by rw [written, bareText_append]
  have cleaned : cleanSegments php.delimiter text.text = head :: others := by
    rw [cleanSegments, bare, segments]
  have mem : text ∈ textsOf php queries file := by simp [texts]
  obtain ⟨type, memType, counts⟩ := exists_referrer types mem
  refine ⟨type, memType, counts, ?_, ?_⟩
  · by_cases noted : name ∈ (afterTexts php queries file before).seen
    · rw [recordedNames_of_noted types (bare.symm ▸ noted)]
      simp [noted]
    · rw [recordedNames_of_new types (bare.symm ▸ noted), counts]
      simpa only [noted, not_false_eq_true, true_and] using
        namesOf_alone_iff cleaned named usable type.space
  · rintro ⟨entry, mem, same⟩
    have noted := bareText_mem_seen types mem
    rw [same] at noted
    exact recordedNames_of_noted types (bare.symm ▸ noted)

/-! ## A class in a namespace and in none

`F` extends `U` and implements `\U` and `\T`.  Outside of all namespaces `\T` is recorded as `T`
alone; in the namespace `M` it is recorded as `M\T` too.  In both, `\U` is passed over. -/

namespace AbsoluteBases

open TwoFiles (node)

def nameAt (field : Option String) (start : Nat) : Node := node "name" start (start + 1) field []

def absoluteAt (start : Nat) : Node :=
  node "qualified_name" start (start + 2) none [nameAt none (start + 1)]

def classF (start : Nat) : Node :=
  node "class_declaration" start (start + 39) none
    [nameAt (some "name") (start + 6),
      node "base_clause" (start + 8) (start + 17) none [nameAt none (start + 16)],
      node "class_interface_clause" (start + 18) (start + 35) none
        [absoluteAt (start + 29), absoluteAt (start + 33)],
      node "declaration_list" (start + 36) (start + 39) (some "body") []]

def fileOf (source : String) (start : Nat) (spaces : List Node) : ParsedFile where
  path := ⟨"a.php"⟩
  language := .php
  source := source
  root := node "program" 0 (start + 39) none
    (node "php_tag" 0 5 none [] :: spaces ++ [classF start])

def bare : ParsedFile := fileOf "<?php class F extends U implements \\U, \\T { }" 6 []

def spaced : ParsedFile := fileOf "<?php namespace M; class F extends U implements \\U, \\T { }" 19
  [node "namespace_definition" 6 18 none
    [node "namespace_name" 16 17 (some "name") [nameAt none 16]]]

def typeF (space : String) (start : Nat) : DeclaredType where
  space := space
  name := "F"
  kind := .concrete
  file := ⟨"a.php"⟩
  delimiter := "\\"
  extended := ["U"]
  implemented := ["\\U", "\\T"]
  span := ⟨start, start + 39, 0, 0⟩

def baseU (fullName : String) : UsageText := ⟨false, "U", some fullName, .extension⟩

def absoluteU (fullName : String) : UsageText := ⟨false, "\\U", some fullName, .implementation⟩

def absoluteT (fullName : String) : UsageText := ⟨false, "\\T", some fullName, .implementation⟩

theorem files_read :
    ReadAs php phpQueries bare [typeF "" 6] [] [baseU "F", absoluteU "F", absoluteT "F"] ∧
      ReadAs php phpQueries spaced [typeF "M" 19] []
        [baseU "M\\F", absoluteU "M\\F", absoluteT "M\\F"] := by
  refine ⟨⟨?_, ?_, ?_⟩, ⟨?_, ?_, ?_⟩⟩
  all_goals
    simp only [declaredTypes, importsOf, textsOf, usesIn, Query.captures,
      Query.allMatches_eq_insertionSort]
    decide +kernel

end AbsoluteBases

open AbsoluteBases in
theorem absolute_recorded_iff_bare :
    textsOf php phpQueries bare = [baseU "F", absoluteU "F"] ++ absoluteT "F" :: [] ∧
      recordedNames php phpQueries bare [baseU "F", absoluteU "F"] (absoluteT "F") ≠ [] ∧
      ∀ used ∈ recordedNames php phpQueries bare [baseU "F", absoluteU "F"] (absoluteT "F"),
        used = "T" := by
  have written : (absoluteT "F").text = php.delimiter ++ "T" := by decide
  have segments : (Text.split php.delimiter "T").map cleanSegment = "T" :: [] := by decide +kernel
  have bareRead := files_read.1
  have texts : textsOf php phpQueries bare = [baseU "F", absoluteU "F"] ++ absoluteT "F" :: [] :=
    bareRead.texts
  obtain ⟨type, mem, _, recorded, _⟩ :=
    absolute_recorded_iff bareRead.types texts written segments (by simp) (by decide +kernel)
  have outside : type.space = "" := by
    rw [List.mem_singleton.mp mem]
    rfl
  have new : "T" ∉ (afterTexts php phpQueries bare [baseU "F", absoluteU "F"]).seen := by
    rw [afterTexts, bareRead.types, bareRead.imports]
    decide +kernel
  refine ⟨texts, recorded.mpr ⟨new, fun _ => outside, fun declared bound => ?_⟩⟩
  rw [bareRead.imports] at bound
  cases bound

open AbsoluteBases in
/-- In a namespace an absolute name is looked up there too, and it is passed over where the
relative name was reached before. -/
theorem absolute_names_lose :
    textsOf php phpQueries spaced = [baseU "M\\F", absoluteU "M\\F", absoluteT "M\\F"] ∧
      recordedNames php phpQueries spaced [baseU "M\\F"] (absoluteU "M\\F") = [] ∧
      recordedNames php phpQueries spaced [baseU "M\\F", absoluteU "M\\F"]
        (absoluteT "M\\F") = ["M\\T", "T"] := by
  have spacedRead := files_read.2
  refine ⟨spacedRead.texts, ?_⟩
  simp only [recordedNames, afterTexts, spacedRead.types, spacedRead.imports]
  decide +kernel

end SourceGauge.Coupling
