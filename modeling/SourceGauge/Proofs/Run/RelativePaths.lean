/-
# SourceGauge.Proofs.Run.RelativePaths -- relative paths only rename

Whether paths are reported relative to the sources decides how they are printed, and
nothing else: a run finds the same under other names.

* `run_relativePaths`: the one run is the other renamed; the names keep the order of the
  files that they stand for, tell them apart, and lead back to them from the sources.
-/
import SourceGauge.Proofs.Run.Findings
import SourceGauge.Registry.Builtin

namespace SourceGauge

set_option autoImplicit false

/-- A run whose settings pass the check renames what it finds. -/
theorem run_eq [OwnGrammars] (registry : Registry) {disk : Disk} (wellNamed : disk.root.WellNamed)
    {settings : Settings} (valid : settings.check (disk.hasItem settings.sources) = .ok ()) :
    run registry disk settings =
      .ok ((settings.surveyed registry disk).rename settings.print) := by
  rw [run, valid, survey_eq registry wellNamed]

/-- **Relative paths only rename.**  Where a run with absolute paths succeeds, the one with
relative paths gives its findings with every path printed relative to the sources, and all
lists in their order.  All paths that are found are those of discovered files.  What is
printed of them stands in their order and tells them apart, so nothing is merged or lost; and
joined to the sources it gives the path of a file below them back. -/
theorem run_relativePaths [OwnGrammars] (registry : Registry) {disk : Disk}
    (wellNamed : disk.root.WellNamed) (settings : Settings)
    (valid : settings.check (disk.hasItem settings.sources) = .ok ()) :
    ∃ found,
      run registry disk { settings with relativePaths := false } = .ok found ∧
      run registry disk { settings with relativePaths := true } =
        .ok (found.rename fun p => p.printed settings.sources true) ∧
      (∀ p ∈ found.paths, p ∈ disk.discover settings.sources settings.exclusions) ∧
      (∀ p ∈ disk.discover settings.sources settings.exclusions,
        ∀ q ∈ disk.discover settings.sources settings.exclusions,
          (p.printed settings.sources true).lt (q.printed settings.sources true) = p.lt q ∧
            ((p.printed settings.sources true).same (q.printed settings.sources true) = true →
              p = q)) ∧
      ∀ p ∈ disk.discover settings.sources settings.exclusions, p.same settings.sources = false →
        settings.sources.join (p.printed settings.sources true) = p := by
  let onlyNames : Settings := { settings with relativePaths := true }
  have absolute := @run_eq _ registry disk wellNamed { settings with relativePaths := false } valid
  have relative := @run_eq _ registry disk wellNamed onlyNames valid
  have unchanged : ({ settings with relativePaths := false } : Settings).print = id := rfl
  rw [unchanged, Findings.rename_id] at absolute
  refine ⟨_, absolute, relative, fun p => Settings.mem_discovered_of_mem_paths, ?_, ?_⟩
  · intro p memP q memQ
    exact ⟨Disk.printed_lt wellNamed memP memQ,
      @Settings.print_inj disk onlyNames wellNamed p q memP memQ⟩
  · exact fun p mem other => Disk.join_printed wellNamed mem other

/-! ## A folder with files of one name -/

namespace SameNames

def stored (file : ParsedFile) : FileTree :=
  .file { text := some file.source, trees := [(file.language, file.root)] }

def lib : FileTree :=
  .folder [("A.cs", stored Coupling.TwoFiles.calleeFile),
    ("notes.txt", .file { text := some "to do" })]

/-- Two classes in files of one name, a note, and a file that is no text. -/
def src : FileTree :=
  .folder [("A.cs", stored Coupling.TwoFiles.callerFile), ("lib", lib),
    ("old.cs", .file { text := none })]

def disk : Disk := { root := .folder [("src", src)] }

def settings : Settings := { sources := ⟨"./src//"⟩, withCoupling := true }

theorem wellNamed : disk.root.WellNamed := by
  have wellLib : lib.WellNamed :=
    .folder (by simp only [List.forall_mem_cons]; decide) (by simp)
      (List.forall_mem_cons.mpr ⟨.file _, List.forall_mem_singleton.mpr (.file _)⟩)
  have wellSrc : src.WellNamed :=
    .folder (by simp only [List.forall_mem_cons]; decide) (by simp)
      (List.forall_mem_cons.mpr ⟨.file _, List.forall_mem_cons.mpr
        ⟨wellLib, List.forall_mem_singleton.mpr (.file _)⟩⟩)
  exact .folder (by simp only [List.forall_mem_singleton]; decide) (by simp)
    (List.forall_mem_singleton.mpr wellSrc)

theorem valid : settings.check (disk.hasItem settings.sources) = .ok () := rfl

theorem discovered_eq : settings.discovered disk =
    [⟨"./src//A.cs"⟩, ⟨"./src//lib/A.cs"⟩, ⟨"./src//lib/notes.txt"⟩, ⟨"./src//old.cs"⟩] := by
  have found : disk.find settings.sources = .ok src := rfl
  rw [Settings.discovered, Disk.discover, found]
  exact List.mergeSort_of_pairwise (by decide +kernel)

end SameNames

attribute [local instance] sampleGrammars

open SameNames in
theorem run_relativePaths_same_names :
    settings.check (disk.hasItem settings.sources) = .ok () ∧
      ∃ found,
        run .builtin disk { settings with relativePaths := false } = .ok found ∧
        run .builtin disk { settings with relativePaths := true } =
          .ok (found.rename fun p => p.printed ⟨"./src//"⟩ true) ∧
        (⟨"./src//lib/A.cs"⟩ : Path).printed ⟨"./src//"⟩ true = ⟨"lib/A.cs"⟩ ∧
        (⟨"./src//"⟩ : Path).join ⟨"lib/A.cs"⟩ = ⟨"./src//lib/A.cs"⟩ := by
  obtain ⟨found, absolute, relative, _, _, back⟩ :=
    run_relativePaths .builtin wellNamed settings valid
  have printed : (⟨"./src//lib/A.cs"⟩ : Path).printed ⟨"./src//"⟩ true = ⟨"lib/A.cs"⟩ := by
    decide +kernel
  have there : (⟨"./src//lib/A.cs"⟩ : Path) ∈ settings.discovered disk := by
    rw [discovered_eq]
    decide
  refine ⟨valid, found, absolute, relative, printed, ?_⟩
  rw [← printed]
  exact back _ there (by decide +kernel)

end SourceGauge
