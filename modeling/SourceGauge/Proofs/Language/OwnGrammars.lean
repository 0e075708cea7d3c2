/-
# SourceGauge.Proofs.Language.OwnGrammars -- grammars that fit the library's own queries

The queries that the library writes itself are those of the built-in registry, with the patterns
that are written out for some languages, and those of the coupling profiles.  Real grammars have
the kinds that these name in their language (`OwnGrammars.knows`), so each of the texts compiles as
what it is with every kind known (`compile_own_iff`).

Of a registry that is read from a document nothing is assumed: its kinds may be unknown.
-/
import SourceGauge.Coupling.Profile
import SourceGauge.Metric.Statements
import SourceGauge.Proofs.Query.Written
import SourceGauge.Registry.Builtin

namespace SourceGauge

set_option autoImplicit false

def Coupling.Profile.texts (profile : Profile) : List String :=
  [profile.typesText, profile.importsText, profile.usagesText] ++ profile.accessorsText.toList

/-- The statements that the metrics make of the built-in registry. -/
def Metric.ownStatements : List Statement :=
  complexityStatements Registry.builtin ++ functionStatements Registry.builtin ++
    classStatements Registry.builtin ++ commentStatements Registry.builtin

/-- The texts that are compiled for a language, with the built-in registry. -/
def ownTexts (language : Language) : List String :=
  Statement.activeTexts language Metric.ownStatements ++
    ((Coupling.profile? language).map Coupling.Profile.texts).getD []

theorem mem_ownTexts_of_active {language : Language} {statements : List Statement}
    (own : statements ⊆ Metric.ownStatements) {text : String}
    (active : text ∈ Statement.activeTexts language statements) : text ∈ ownTexts language := by
  obtain ⟨statement, mem, rfl⟩ := List.mem_map.mp active
  obtain ⟨among, isActive⟩ := List.mem_filter.mp mem
  exact List.mem_append_left _
    (List.mem_map_of_mem (List.mem_filter.mpr ⟨own among, isActive⟩))

/-- Grammars that have the kinds in the library's own queries. -/
class OwnGrammars extends Grammars where
  knows : ∀ language, ∀ text ∈ ownTexts language, ∀ kind ∈ Query.words text,
    hasKind language kind = true

/-- A text of the library's own compiles as what it is with every kind known. -/
theorem Query.compile_own_iff [OwnGrammars] {language : Language} {text : String}
    (own : text ∈ ownTexts language) {query : Query} :
    compile language text = .ok query ↔ read everyKind text = .ok query := by
  rw [compile_eq_ok_iff_words]
  exact and_iff_left (OwnGrammars.knows language text own)

/-- Grammars that have every kind, for what is told of single files. -/
@[reducible]
def sampleGrammars : OwnGrammars where
  hasKind _ _ := true
  knows _ _ _ _ _ := rfl

end SourceGauge
