/-
# SourceGauge.Proofs.Run.Findings -- what a run finds, file by file

A run discovers files in increasing order, measures each as it would alone, and collects
for coupling those that have a syntax tree.  What it finds under the paths that discovery
gives is therefore told file by file (`Settings.surveyed`), and every path in it is that of
a discovered file (`Settings.mem_discovered_of_mem_paths`).

Results are put into maps under the paths that are printed.  Printing keeps the order of
discovered files, so no two meet in these maps, and the maps are the lists that they are
made of: `survey_eq` says that a run only renames what it found.
-/
import SourceGauge.Proofs.Coupling.DeclaredEnds
import SourceGauge.Proofs.Coupling.FileCounts
import SourceGauge.Proofs.Coupling.LanguagesApart
import SourceGauge.Proofs.FileTree.Discovery
import SourceGauge.Proofs.Run.Session

namespace SourceGauge

set_option autoImplicit false

/-! ## Renaming -/

namespace Coupling.CouplingResult

/-- The result with every path changed, entry by entry. -/
def rename (change : Path → Path) (result : CouplingResult) : CouplingResult :=
  { relationships := result.relationships.map fun r =>
      { r with fromFile := change r.fromFile, toFile := change r.toFile }
    measures := result.measures.map fun item => (change item.1, item.2) }

def paths (result : CouplingResult) : List Path :=
  result.relationships.flatMap (fun r => [r.fromFile, r.toFile]) ++ result.measures.map Prod.fst

variable {change : Path → Path} {result : CouplingResult}

theorem rename_id (result : CouplingResult) : result.rename id = result := by
  simp [rename]

/-- Where a change keeps the order of the paths, no measures are lost. -/
theorem mapPaths_eq_rename (sorted : result.measures.Sorted)
    (inOrder : ∀ a ∈ result.measures, ∀ b ∈ result.measures,
      (change a.1).lt (change b.1) = a.1.lt b.1) :
    result.mapPaths change = result.rename change := by
  have sortedAfter : PathMap.Sorted (result.measures.map fun item => (change item.1, item.2)) := by
    refine List.pairwise_map.mpr (sorted.imp_of_mem fun memA memB less => ?_)
    rwa [inOrder _ memA _ memB]
  rw [mapPaths, rename, sortedAfter.ofLast_eq]

end Coupling.CouplingResult

namespace Findings

/-- The findings with every path changed, entry by entry. -/
def rename (change : Path → Path) (found : Findings) : Findings :=
  { measures := found.measures.map fun item => (change item.1, item.2)
    unsupported := found.unsupported.map change
    unreadable := found.unreadable.map change
    coupling := found.coupling.map (Coupling.CouplingResult.rename change) }

def paths (found : Findings) : List Path :=
  found.measures.map Prod.fst ++ found.unsupported ++ found.unreadable ++
    found.coupling.toList.flatMap Coupling.CouplingResult.paths

theorem rename_id (found : Findings) : found.rename id = found := by
  have same : Coupling.CouplingResult.rename id = id :=
    funext Coupling.CouplingResult.rename_id
  simp [rename, same]

/-! ## The findings of files -/

def ofFiles (measures : Path → FileMeasures) (files : List Path) : Findings :=
  { measures := (files.filter fun p => (measures p).kind ≠ .unreadable).map fun p =>
      (p, measures p)
    unsupported := files.filter fun p => (measures p).kind = .unsupported
    unreadable := files.filter fun p => (measures p).kind = .unreadable }

/-- Adding a file after all others adds it at the end of every list. -/
theorem add_rename_ofFiles {print : Path → Path} (measures : Path → FileMeasures)
    {files : List Path} {last : Path}
    (after : ∀ p ∈ files, (print p).lt (print last) = true) :
    ((ofFiles measures files).rename print).add print last (measures last) =
      (ofFiles measures (files ++ [last])).rename print := by
  have before : ∀ item ∈ ((ofFiles measures files).rename print).measures,
      item.1.lt (print last) = true := by
    intro item mem
    simp only [rename, ofFiles, List.map_map, List.mem_map, List.mem_filter] at mem
    obtain ⟨p, ⟨memFile, _⟩, rfl⟩ := mem
    exact after p memFile
  have atEnd := @PathMap.insert_eq_concat _ _ _ (measures last) before
  unfold add
  cases kind : (measures last).kind <;> simp_all [ofFiles, rename]

/-- Files that are printed in their order make lists, under what is printed of them. -/
theorem ofMeasures_eq {print : Path → Path} {files : List Path}
    (inOrder : files.Pairwise fun p q => (print p).lt (print q) = true)
    (measures : Path → FileMeasures) :
    ofMeasures print (files.map fun p => (p, measures p)) =
      (ofFiles measures files).rename print := by
  induction files using List.reverseRecOn with
  | nil => rfl
  | append_singleton files last ih =>
      obtain ⟨before, _, after⟩ := List.pairwise_append.mp inOrder
      rw [← add_rename_ofFiles measures fun p mem => after p mem last (by simp), ← ih before]
      simp [ofMeasures]

end Findings

/-! ## Files that are collected -/

/-- The file, when it has a syntax tree. -/
def SourceFile.parsed? : SourceFile → Option ParsedFile
  | parsed file => some file
  | _ => none

namespace Worker

variable [OwnGrammars] {worker : Worker}

theorem collect_analyzer (sound : worker.cache.Sound) (file : SourceFile) :
    (worker.collect file).analyzer = worker.analyzer.map fun analyzer =>
      analyzer.addAll file.parsed?.toList := by
  cases wanted : worker.analyzer with
  | none => cases file <;> simp only [collect, wanted] <;> rfl
  | some analyzer =>
      cases file with
      | parsed file =>
          obtain ⟨later, collected, _⟩ := analyzer.collect_eq file sound
          simp only [collect, wanted, collected]
          rfl
      | _ =>
          simp only [collect, wanted]
          rfl

/-- A worker collects the files that have a syntax tree, in their order. -/
theorem measureAll_collected (sound : worker.cache.Sound) (registry : Registry)
    (files : List (Path × SourceFile)) :
    (worker.measureAll registry files).2.analyzer = worker.analyzer.map fun analyzer =>
      analyzer.addAll (files.filterMap fun item => item.2.parsed?) := by
  induction files generalizing worker with
  | nil =>
      rw [measureAll]
      cases worker.analyzer <;> rfl
  | cons item rest ih =>
      obtain ⟨path, file⟩ := item
      have soundMeasured := sound_perform sound registry (.measure file)
      have soundNext := sound_perform soundMeasured registry (.collect file)
      have collected : (worker.measure registry file).2.analyzer = worker.analyzer.map
          fun analyzer => analyzer.addAll file.parsed?.toList := collect_analyzer soundMeasured file
      have later : ((worker.measure registry file).2.measureAll registry rest).2.analyzer =
          (worker.measure registry file).2.analyzer.map fun analyzer =>
            analyzer.addAll (rest.filterMap fun item => item.2.parsed?) := ih soundNext
      have step : (worker.measureAll registry ((path, file) :: rest)).2.analyzer =
          ((worker.measure registry file).2.measureAll registry rest).2.analyzer := rfl
      rw [step, later, collected, Option.map_map]
      congr 1
      funext analyzer
      simp only [Function.comp_apply, Coupling.Analyzer.addAll, ← List.foldl_append]
      cases parsed : file.parsed? <;> simp [parsed]

end Worker

/-! ## A run -/

namespace Settings

variable {registry : Registry} {disk : Disk} {settings : Settings}

def discovered (settings : Settings) (disk : Disk) : List Path :=
  disk.discover settings.sources settings.exclusions

/-- The file at a path, read as a run reads it. -/
def fileAt (settings : Settings) (disk : Disk) (path : Path) : SourceFile :=
  .load settings.headerPolicy disk path

/-- What a run measures of the file at a path: what is measured of the file alone. -/
def measuresAt [Grammars] (registry : Registry) (settings : Settings) (disk : Disk)
    (path : Path) : FileMeasures :=
  ((settings.fileAt disk path).measure registry {}).1

/-- The discovered files that have a syntax tree, collected in their order. -/
def collected (settings : Settings) (disk : Disk) : Coupling.Analyzer :=
  .addAll {} ((settings.discovered disk).filterMap fun path => (settings.fileAt disk path).parsed?)

/-- What a run finds, under the paths that discovery gives. -/
def surveyed [Grammars] (registry : Registry) (settings : Settings) (disk : Disk) : Findings :=
  { Findings.ofFiles (settings.measuresAt registry disk) (settings.discovered disk) with
    coupling := if settings.withCoupling then some (settings.collected disk).aggregate else none }

theorem kind_measuresAt [Grammars] (path : Path) :
    (settings.measuresAt registry disk path).kind = (settings.fileAt disk path).kind := by
  unfold measuresAt
  cases settings.fileAt disk path with
  | parsed file =>
      simp only [SourceFile.measure, Metric.measureAll_fst Query.Cache.sound_empty]
  | unsupported path content => cases content <;> rfl
  | unreadable path error => rfl

/-! ## The paths that are found -/

theorem kind_of_parsed {path : Path} {file : ParsedFile}
    (parsed : (settings.fileAt disk path).parsed? = some file) :
    file.path = path ∧ (settings.fileAt disk path).kind ≠ .unreadable := by
  have whole : settings.fileAt disk path = .parsed file := by
    cases found : settings.fileAt disk path with
    | parsed other =>
        rw [found] at parsed
        exact congrArg SourceFile.parsed (Option.some.inj parsed)
    | _ =>
        rw [found] at parsed
        cases parsed
  constructor
  · unfold fileAt SourceFile.load at whole
    split at whole
    · cases whole
    · split at whole
      · cases whole
      · split at whole <;> cases whole
        rfl
  · rw [whole, SourceFile.kind, Language.fileKind]
    split <;> exact fun impossible => by cases impossible

/-- A path that declares something is that of a discovered file that has a syntax tree. -/
theorem discovered_of_declares {path : Path} {fullName : String}
    (declares : (settings.collected disk).Declares path fullName) :
    path ∈ settings.discovered disk ∧ (settings.fileAt disk path).kind ≠ .unreadable := by
  obtain ⟨item, mem, rfl, _⟩ := declares
  obtain ⟨file, memFile, _, here⟩ := Coupling.Analyzer.exists_of_mem_addAll mem
  obtain ⟨path, discovered, parsed⟩ := List.mem_filterMap.mp memFile
  obtain ⟨there, readable⟩ := kind_of_parsed parsed
  rw [← here, there]
  exact ⟨discovered, readable⟩

/-- A relationship joins files that were discovered and have a syntax tree. -/
theorem discovered_of_end {r : Coupling.Relationship}
    (mem : r ∈ (settings.collected disk).aggregate.relationships) {path : Path}
    (isEnd : path = r.fromFile ∨ path = r.toFile) :
    path ∈ settings.discovered disk ∧ (settings.fileAt disk path).kind ≠ .unreadable := by
  have good := Coupling.Analyzer.Good.empty.addAll
    ((settings.discovered disk).filterMap fun path => (settings.fileAt disk path).parsed?)
  have ends := good.grown_declaredEnds
    (Coupling.Analyzer.relationships_grown _) r mem
  rcases isEnd with rfl | rfl
  · exact discovered_of_declares ends.leaves
  · obtain ⟨target, prevails, file, _⟩ := ends.target
    rw [file]
    exact discovered_of_declares prevails.declares

/-- Files that have coupling measures were discovered and have a syntax tree. -/
theorem discovered_of_coupled {item : Path × Coupling.CouplingMeasures}
    (mem : item ∈ (settings.collected disk).aggregate.measures) :
    item.1 ∈ settings.discovered disk ∧ (settings.fileAt disk item.1).kind ≠ .unreadable := by
  obtain ⟨r, memR, isEnd⟩ := Coupling.exists_end_of_mem_couplingMeasures mem
  exact discovered_of_end memR isEnd

/-- Findings tell of discovered files only. -/
theorem mem_discovered_of_mem_paths [Grammars] {path : Path}
    (mem : path ∈ (settings.surveyed registry disk).paths) : path ∈ settings.discovered disk := by
  simp only [Findings.paths, surveyed, Findings.ofFiles, List.map_map, List.mem_append,
    List.mem_flatMap] at mem
  rcases mem with ((measured | unsupported) | unreadable) | ⟨result, coupled, mem⟩
  · obtain ⟨p, memP, rfl⟩ := List.mem_map.mp measured
    exact (List.mem_filter.mp memP).1
  · exact (List.mem_filter.mp unsupported).1
  · exact (List.mem_filter.mp unreadable).1
  · split at coupled
    · obtain rfl := List.mem_singleton.mp coupled
      rcases List.mem_append.mp mem with ofRelationship | ofMeasures
      · obtain ⟨r, memR, isEnd⟩ := List.mem_flatMap.mp ofRelationship
        exact (discovered_of_end memR (by simpa using isEnd)).1
      · obtain ⟨item, memItem, rfl⟩ := List.mem_map.mp ofMeasures
        exact (discovered_of_coupled memItem).1
    · cases coupled

/-! ## Printing what is found -/

/-- Discovered files are printed in their order. -/
theorem print_lt (wellNamed : disk.root.WellNamed) {p q : Path}
    (memP : p ∈ settings.discovered disk) (memQ : q ∈ settings.discovered disk) :
    (settings.print p).lt (settings.print q) = p.lt q := by
  unfold print
  cases settings.relativePaths with
  | false => rfl
  | true => exact Disk.printed_lt wellNamed memP memQ

/-- Printing tells discovered files apart. -/
theorem print_inj (wellNamed : disk.root.WellNamed) {p q : Path}
    (memP : p ∈ settings.discovered disk) (memQ : q ∈ settings.discovered disk)
    (same : (settings.print p).same (settings.print q) = true) : p = q := by
  rw [Path.same_iff_not_lt, print_lt wellNamed memP memQ, print_lt wellNamed memQ memP,
    ← Path.same_iff_not_lt] at same
  exact Disk.eq_of_same_of_discovered wellNamed memP memQ same

end Settings

/-- A run renames what it finds file by file, to what is printed. -/
theorem survey_eq [OwnGrammars] (registry : Registry) {disk : Disk}
    (wellNamed : disk.root.WellNamed) (settings : Settings) :
    survey registry disk settings = (settings.surveyed registry disk).rename settings.print := by
  have inOrder : (settings.discovered disk).Pairwise fun p q =>
      (settings.print p).lt (settings.print q) = true :=
    (Disk.discover_sorted wellNamed _ _).imp_of_mem fun memP memQ less => by
      rwa [Settings.print_lt wellNamed memP memQ]
  have measured : (settings.worker.measureAll registry (settings.sourceFiles disk)).1 =
      (settings.discovered disk).map fun p => (p, settings.measuresAt registry disk p) := by
    rw [Worker.measureAll_fst Query.Cache.sound_empty, Settings.sourceFiles, List.map_map]
    rfl
  have collected : (settings.worker.measureAll registry (settings.sourceFiles disk)).2.analyzer =
      if settings.withCoupling then some (settings.collected disk) else none := by
    rw [Worker.measureAll_collected Query.Cache.sound_empty, Settings.sourceFiles,
      List.filterMap_map]
    cases wanted : settings.withCoupling <;> simp only [Settings.worker, wanted] <;> rfl
  have renamed : (settings.collected disk).aggregate.mapPaths settings.print =
      (settings.collected disk).aggregate.rename settings.print :=
    Coupling.CouplingResult.mapPaths_eq_rename (Coupling.sorted_couplingMeasures _)
      fun a memA b memB => Settings.print_lt wellNamed (Settings.discovered_of_coupled memA).1
        (Settings.discovered_of_coupled memB).1
  simp only [survey, measured, collected, Findings.ofMeasures_eq inOrder, Settings.surveyed,
    Findings.rename]
  cases settings.withCoupling with
  | false => rfl
  | true => simp [renamed]

end SourceGauge
