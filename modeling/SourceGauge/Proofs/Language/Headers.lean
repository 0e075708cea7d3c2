/-
# SourceGauge.Proofs.Language.Headers -- which headers are C

A header is C when all headers are, or when a listed name stands on the way to it: among the
components of its path below the root, or of its whole path when it lies elsewhere
(`HeaderPolicy.language_eq_c_iff`).  The file name is the last of these components, so a header
whose own name is listed is C as well, unless the root is the header itself: then nothing is left
below it, and no name counts.

* `header_language`: a header is C or C++; which of them, for every policy and path.
* `root_header_unnamed`: a header that is the root is C++ although its name is listed.
-/
import SourceGauge.Language.Detect
import SourceGauge.Proofs.Path.Rest

namespace SourceGauge

set_option autoImplicit false

namespace HeaderPolicy

variable {policy : HeaderPolicy} {path : Path}

/-- A listed name is the file name of a header, or stands on the way to it below the root. -/
def Names (policy : HeaderPolicy) (path : Path) : Prop :=
  (∃ name ∈ path.fileName?, name ∈ policy.names) ∨
    ∃ step ∈ path.stepsBelow policy.root, step.text ∈ policy.names

theorem language_eq (policy : HeaderPolicy) (path : Path) :
    policy.language path =
      if policy.allAsC = true ∨ ∃ step ∈ path.stepsBelow policy.root, step.text ∈ policy.names
      then .c else .cpp := by
  simp only [language, Path.components_relativeTo?, List.any_eq_true, List.contains_iff_mem]
  by_cases all : policy.allAsC = true
  · rw [if_pos all, if_pos (Or.inl all)]
  · simp only [all, if_false, false_or, Bool.false_eq_true]

theorem language_eq_c_iff :
    policy.language path = .c ↔
      policy.allAsC = true ∨ ∃ step ∈ path.stepsBelow policy.root, step.text ∈ policy.names := by
  rw [language_eq]
  split
  · next isC => exact iff_of_true rfl isC
  · next notC => exact iff_of_false (by decide) notC

theorem language_cases (policy : HeaderPolicy) (path : Path) :
    policy.language path = .c ∨ policy.language path = .cpp := by
  rw [language_eq]
  split
  · exact Or.inl rfl
  · exact Or.inr rfl

/-- The file name is the last component, and below every root but the path itself. -/
theorem names_iff (other : path.same policy.root = false) :
    policy.Names path ↔ ∃ step ∈ path.stepsBelow policy.root, step.text ∈ policy.names := by
  constructor
  · rintro (⟨name, isName, listed⟩ | below)
    · have last : path.components.getLast? = some (.name name) := by
        unfold Path.fileName? at isName
        split at isName
        · next text last =>
          rw [last, Option.some.inj isName]
        · cases isName
      exact ⟨.name name, Path.getLast?_mem_stepsBelow other last, listed⟩
    · exact below
  · exact Or.inr

end HeaderPolicy

namespace Language

/-- The extension of a header leaves its language to the policy. -/
theorem ofPath?_header {path : Path} (header : path.extension? = some "h")
    (policy : HeaderPolicy) : ofPath? policy path = some (policy.language path) := by
  simp only [ofPath?, header]
  rfl

/-- **Which headers are C.**  The language of every header is told, and is C or C++.  It is C
exactly when all headers are or a component below the root is listed.  Unless the root is the
header itself, that is when all headers are C, its file name is listed, or a component on the way to
it below the root; if the root is the header, only when all headers are. -/
theorem header_language (policy : HeaderPolicy) (path : Path)
    (header : path.extension? = some "h") :
    ∃ language, ofPath? policy path = some language ∧ (language = .c ∨ language = .cpp) ∧
      (language = .c ↔
        policy.allAsC = true ∨ ∃ step ∈ path.stepsBelow policy.root, step.text ∈ policy.names) ∧
      (path.same policy.root = false →
        (language = .c ↔ policy.allAsC = true ∨ policy.Names path)) ∧
      (path.same policy.root = true → (language = .c ↔ policy.allAsC = true)) := by
  refine ⟨policy.language path, ofPath?_header header policy, policy.language_cases path,
    HeaderPolicy.language_eq_c_iff, ?_, ?_⟩
  · intro other
    rw [HeaderPolicy.names_iff other]
    exact HeaderPolicy.language_eq_c_iff
  · intro same
    rw [HeaderPolicy.language_eq_c_iff, Path.stepsBelow_of_same same]
    simp

/-- The root is spelled with a dot and doubled slashes, and a folder below it is listed; a header of
the same name elsewhere is C++. -/
theorem header_language_listed_folder :
    (⟨"./src/legacy/./io//file.h"⟩ : Path).extension? = some "h" ∧
      ofPath? { root := ⟨"./src//"⟩, names := ["legacy", "src"] } ⟨"./src/legacy/./io//file.h"⟩ =
        some .c ∧
      ofPath? { root := ⟨"./src//"⟩, names := ["legacy", "src"] } ⟨"./src/io//file.h"⟩ =
        some .cpp := by
  have header : (⟨"./src/legacy/./io//file.h"⟩ : Path).extension? = some "h" := by decide +kernel
  refine ⟨header, ?_, ?_⟩
  · obtain ⟨language, told, _, isC, _, _⟩ :=
      header_language { root := ⟨"./src//"⟩, names := ["legacy", "src"] } _ header
    rw [told, isC.mpr (Or.inr ⟨.name "legacy", by decide +kernel, by decide⟩)]
  · obtain ⟨language, told, either, isC, _, _⟩ :=
      header_language { root := ⟨"./src//"⟩, names := ["legacy", "src"] } ⟨"./src/io//file.h"⟩
        (by decide +kernel)
    have notC : language ≠ .c := mt isC.mp (by decide +kernel)
    rw [told, either.resolve_left notC]

/-- A header that is the root itself is C++, although its own name is listed. -/
theorem root_header_unnamed :
    (⟨"only.h"⟩ : Path).extension? = some "h" ∧
      HeaderPolicy.Names { root := ⟨"only.h"⟩, names := ["only.h"] } ⟨"only.h"⟩ ∧
      ofPath? { root := ⟨"only.h"⟩, names := ["only.h"] } ⟨"only.h"⟩ = some .cpp := by
  refine ⟨by decide +kernel, Or.inl ⟨"only.h", by decide +kernel, by decide⟩, by decide +kernel⟩

end Language

end SourceGauge
