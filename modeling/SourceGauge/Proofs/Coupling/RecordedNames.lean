/-
# SourceGauge.Proofs.Coupling.RecordedNames -- the full names that a text is recorded with

The texts of a file are looked up one after the other, and each adds the candidates that it
gives at its turn.  The full names of those are what the text is recorded with
(`recordedNames`): none if it was noted before, and otherwise all names that it may stand for
in the namespace of the type that it counts for (`mem_recordedNames`).
-/
import SourceGauge.Proofs.Coupling.VisibleNames

namespace SourceGauge.Coupling

set_option autoImplicit false

/-- The full names that a text of a file is recorded with when it is reached after others. -/
def recordedNames (profile : Profile) (queries : Queries) (file : ParsedFile)
    (before : List UsageText) (text : UsageText) : List String :=
  ((afterTexts profile queries file (before ++ [text])).candidates.drop
    (afterTexts profile queries file before).candidates.length).map Candidate.used

/-- What a file is read as: its types, its imports and the texts that are looked up in it. -/
structure ReadAs (profile : Profile) (queries : Queries) (file : ParsedFile) (types : FileTypes)
    (imports : List Import) (texts : List UsageText) : Prop where
  types : declaredTypes profile queries file = types
  imports : importsOf profile queries file = imports
  texts : textsOf profile queries file = texts

section

variable {profile : Profile} {queries : Queries} {file : ParsedFile} {before : List UsageText}
  {text : UsageText} {first : DeclaredType} {rest : List DeclaredType}

/-- Every text of a file counts for one of its types. -/
theorem exists_referrer (declared : declaredTypes profile queries file = first :: rest)
    (mem : text ∈ textsOf profile queries file) :
    ∃ type ∈ first :: rest, Collected.referrer? (first :: rest) first text = some type := by
  rw [textsOf, declared] at mem
  rcases List.mem_append.mp mem with base | use
  · obtain ⟨⟨type, memType, owner⟩, _⟩ := of_mem_baseTexts base
    have good := declaredTypes_good profile queries file
    rw [declared] at good
    refine ⟨type, memType, ?_⟩
    simp only [Collected.referrer?, owner]
    exact good.get?_eq memType
  · refine ⟨first, List.mem_cons_self, ?_⟩
    simp only [Collected.referrer?, (of_mem_usesIn use).1]

/-- Every text that was reached is noted. -/
theorem bareText_mem_seen (declared : declaredTypes profile queries file = first :: rest)
    {entry : UsageText} (mem : entry ∈ before) :
    bareText profile.delimiter entry.text ∈ (afterTexts profile queries file before).seen := by
  induction before using List.reverseRecOn with
  | nil => cases mem
  | append_singleton before last ih =>
      rw [afterTexts_step declared, Collected.mem_seen_step]
      rcases List.mem_append.mp mem with earlier | here
      · exact Or.inl (ih earlier)
      · rw [List.mem_singleton.mp here]
        by_cases noted : bareText profile.delimiter last.text ∈
            (afterTexts profile queries file before).seen
        · exact Or.inl noted
        · exact Or.inr ⟨noted, Collected.bareText_mem_seen_alone last⟩

theorem recordedNames_of_no_types (none : declaredTypes profile queries file = []) :
    recordedNames profile queries file before text = [] := by
  simp [recordedNames, afterTexts, none, collectUsages]

theorem recordedNames_of_noted (declared : declaredTypes profile queries file = first :: rest)
    (noted : bareText profile.delimiter text.text ∈ (afterTexts profile queries file before).seen) :
    recordedNames profile queries file before text = [] := by
  rw [recordedNames, afterTexts_step declared, Collected.step_of_noted noted, List.drop_length,
    List.map_nil]

/-- A text that was not noted before is recorded with the names that it may stand for. -/
theorem recordedNames_of_new (declared : declaredTypes profile queries file = first :: rest)
    (new : bareText profile.delimiter text.text ∉ (afterTexts profile queries file before).seen) :
    recordedNames profile queries file before text =
      match Collected.referrer? (first :: rest) first text with
      | none => []
      | some type => namesOf profile (importsOf profile queries file) type.space text := by
  rw [recordedNames, afterTexts_concat declared new, List.drop_left]
  cases counted : Collected.referrer? (first :: rest) first text with
  | none => rw [Collected.alone_of_no_referrer counted, Collected.mark_candidates, List.map_nil]
  | some type =>
      rw [Collected.alone_candidates counted, List.map_map]
      exact List.map_id _

/-- A name is recorded when a text that counts for a type was not noted before and may stand for
the name there. -/
theorem mem_recordedNames {name : String} :
    name ∈ recordedNames profile queries file before text ↔
      ∃ first rest type, declaredTypes profile queries file = first :: rest ∧
        Collected.referrer? (first :: rest) first text = some type ∧
        bareText profile.delimiter text.text ∉ (afterTexts profile queries file before).seen ∧
        name ∈ namesOf profile (importsOf profile queries file) type.space text := by
  constructor
  · intro mem
    cases declared : declaredTypes profile queries file with
    | nil =>
        rw [recordedNames_of_no_types declared] at mem
        cases mem
    | cons first rest =>
        by_cases noted : bareText profile.delimiter text.text ∈
            (afterTexts profile queries file before).seen
        · rw [recordedNames_of_noted declared noted] at mem
          cases mem
        · rw [recordedNames_of_new declared noted] at mem
          split at mem
          · cases mem
          · next type counts => exact ⟨first, rest, type, rfl, counts, noted, mem⟩
  · rintro ⟨first, rest, type, declared, counts, new, may⟩
    rw [recordedNames_of_new declared new, counts]
    exact may

/-- A use that is no base name counts for the first type of its file. -/
theorem mem_recordedNames_of_use (declared : declaredTypes profile queries file = first :: rest)
    (use : text.owner = none) {name : String} :
    name ∈ recordedNames profile queries file before text ↔
      bareText profile.delimiter text.text ∉ (afterTexts profile queries file before).seen ∧
        name ∈ namesOf profile (importsOf profile queries file) first.space text := by
  have counts : Collected.referrer? (first :: rest) first text = some first := by
    simp only [Collected.referrer?, use]
  rw [mem_recordedNames, declared]
  constructor
  · rintro ⟨_, _, type, same, counted, new, may⟩
    cases same
    cases Option.some.inj (counted.symm.trans counts)
    exact ⟨new, may⟩
  · rintro ⟨new, may⟩
    exact ⟨first, rest, first, rfl, counts, new, may⟩

end

end SourceGauge.Coupling
