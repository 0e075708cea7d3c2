/-
# SourceGauge.Proofs.Run.Session -- a cache that is shared shows in no result

A worker measures files and collects files, in any order, with one cache
(`Worker.performAll`).  The cache is asked by all of them, and what it has in the end
is told by what was asked: by the registry and the language of each file that was
measured, and by the profile of each that was collected at a new path
(`Worker.performAll_cache`).  So no file is measured otherwise than alone.  A run is one
such sequence of tasks (`Worker.measureAll_eq`).

* `session_transparent`: the measures of any sequence of tasks, the contents of the
  cache after them, and the runs with and without coupling.
-/
import SourceGauge.Proofs.Coupling.Compiled
import SourceGauge.Proofs.Metric.Value
import SourceGauge.Run

namespace SourceGauge

set_option autoImplicit false

open Query (Key)

/-! ## What collecting asks for -/

namespace Coupling

/-- The pairs of language and text of a profile. -/
def Profile.keys (profile : Profile) : List Key :=
  ([profile.typesText, profile.importsText, profile.usagesText] ++
    profile.accessorsText.toList).map fun text => (profile.language, text)

theorem Profile.compileAccessors_snd [Grammars] (profile : Profile) (cache : Query.Cache) :
    (profile.compileAccessors cache).2 =
      cache.askAll (profile.accessorsText.toList.map fun text => (profile.language, text)) := by
  unfold compileAccessors
  cases profile.accessorsText with
  | none => rfl
  | some text =>
      simp only [Option.toList_some, List.map_singleton, Query.Cache.askAll_cons,
        Query.Cache.askAll_nil, Query.Cache.ask]
      rcases cache.compile profile.language text with ⟨_ | _, _⟩ <;> rfl

/-- A profile whose texts compile is asked for in full. -/
theorem Profile.CompilesTo.compile_snd [Grammars] {profile : Profile} {queries : Queries}
    (compiles : profile.CompilesTo queries) {cache : Query.Cache} (sound : cache.Sound) :
    (profile.compile cache).2 = cache.askAll profile.keys := by
  obtain ⟨afterTypes, types, soundTypes⟩ := Query.Cache.compile_ok sound compiles.types
  obtain ⟨afterImports, imports, soundImports⟩ :=
    Query.Cache.compile_ok soundTypes compiles.imports
  obtain ⟨afterUsages, usages, soundUsages⟩ :=
    Query.Cache.compile_ok soundImports compiles.usages
  obtain ⟨later, accessors, _⟩ := compiles.compileAccessors_eq soundUsages
  have last := profile.compileAccessors_snd afterUsages
  rw [accessors] at last
  simp only [compile, types, imports, usages, accessors, last]
  simp only [keys, List.map_cons, List.cons_append, List.nil_append, Query.Cache.askAll_cons,
    Query.Cache.ask, types, imports, usages]

/-- The texts of a profile that compiles do so one by one. -/
theorem Profile.CompilesTo.compiles_keys [Grammars] {profile : Profile} {queries : Queries}
    (compiles : profile.CompilesTo queries) : ∀ key ∈ profile.keys, key.Compiles := by
  refine List.forall_mem_cons.mpr ⟨⟨_, compiles.types⟩, ?_⟩
  refine List.forall_mem_cons.mpr ⟨⟨_, compiles.imports⟩, ?_⟩
  refine List.forall_mem_cons.mpr ⟨⟨_, compiles.usages⟩, ?_⟩
  rcases compiles.accessors_cases with ⟨without, _⟩ | ⟨text, query, written, compiled, _⟩
  · rw [without]
    exact fun _ mem => (List.not_mem_nil mem).elim
  · rw [written]
    exact List.forall_mem_singleton.mpr ⟨query, compiled⟩

/-- The pairs of language and text that collecting a file asks for: those of its profile, if its
path is new. -/
def Analyzer.asks (analyzer : Analyzer) (file : ParsedFile) : List Key :=
  match profile? file.language with
  | none => []
  | some profile => if (analyzer.files.find? file.path).isSome then [] else profile.keys

theorem Analyzer.collect_snd [OwnGrammars] (analyzer : Analyzer) (file : ParsedFile)
    {cache : Query.Cache} (sound : cache.Sound) :
    (analyzer.collect file cache).2 = cache.askAll (analyzer.asks file) := by
  unfold collect asks
  cases known : profile? file.language with
  | none => rfl
  | some profile =>
      obtain ⟨queries, has⟩ := queries?_of_profile? known
      have compiles := compilesTo_of_profile? known has
      cases there : analyzer.files.find? file.path with
      | some _ => rfl
      | none =>
          simp only [Option.isSome_none, Bool.false_eq_true, if_false,
            ← compiles.compile_snd sound]
          rcases profile.compile cache with ⟨_ | _, _⟩ <;> rfl

end Coupling

/-! ## Tasks -/

/-- What a worker is told to do. -/
inductive Task where
  | measure (file : SourceFile)
  | collect (file : SourceFile)

/-- The file that a task measures. -/
def Task.measured? : Task → Option SourceFile
  | measure file => some file
  | collect _ => none

namespace Worker

section

variable [Grammars]

/-- Do a task; a file that is measured gives measures. -/
def perform (registry : Registry) (worker : Worker) : Task → Option FileMeasures × Worker
  | .measure file =>
      let (measures, cache) := file.measure registry worker.cache
      (some measures, { worker with cache })
  | .collect file => (none, worker.collect file)

def performAll (registry : Registry) : Worker → List Task → List FileMeasures × Worker
  | worker, [] => ([], worker)
  | worker, task :: rest =>
      let (measures, worker) := worker.perform registry task
      let (others, worker) := performAll registry worker rest
      (measures.toList ++ others, worker)

/-- The pairs of language and text that a task asks for. -/
def asks (registry : Registry) (worker : Worker) : Task → List Key
  | .measure file => file.asks registry
  | .collect (.parsed file) =>
      match worker.analyzer with
      | none => []
      | some analyzer => analyzer.asks file
  | .collect _ => []

/-- The pairs that were asked for, task by task. -/
def asked (registry : Registry) : Worker → List Task → List Key
  | _, [] => []
  | worker, task :: rest =>
      worker.asks registry task ++ asked registry (worker.perform registry task).2 rest

end

variable [OwnGrammars] {worker : Worker}

theorem collect_cache (sound : worker.cache.Sound) (registry : Registry) (file : SourceFile) :
    (worker.collect file).cache = worker.cache.askAll (worker.asks registry (.collect file)) := by
  cases file with
  | parsed file =>
      cases wanted : worker.analyzer with
      | none => simp only [collect, asks, wanted, Query.Cache.askAll_nil]
      | some analyzer =>
          obtain ⟨later, collected, _⟩ := analyzer.collect_eq file sound
          have after := analyzer.collect_snd file sound
          rw [collected] at after
          simp only [collect, asks, wanted, collected, ← after]
  | unsupported path content => rfl
  | unreadable path error => rfl

theorem perform_cache (sound : worker.cache.Sound) (registry : Registry) (task : Task) :
    (worker.perform registry task).2.cache = worker.cache.askAll (worker.asks registry task) := by
  cases task with
  | measure file => exact file.measure_snd registry worker.cache
  | collect file => exact collect_cache sound registry file

theorem sound_perform (sound : worker.cache.Sound) (registry : Registry) (task : Task) :
    (worker.perform registry task).2.cache.Sound := by
  rw [perform_cache sound registry]
  exact Query.Cache.sound_askAll sound _

/-- The cache shows what was asked for, and nothing else. -/
theorem performAll_cache (sound : worker.cache.Sound) (registry : Registry)
    (tasks : List Task) :
    (worker.performAll registry tasks).2.cache =
      worker.cache.askAll (worker.asked registry tasks) := by
  induction tasks generalizing worker with
  | nil => rfl
  | cons task rest ih =>
      rw [asked, Query.Cache.askAll_append, ← perform_cache sound registry]
      exact ih (sound_perform sound registry task)

/-- Each file is measured as with an empty cache. -/
theorem performAll_fst (sound : worker.cache.Sound) (registry : Registry) (tasks : List Task) :
    (worker.performAll registry tasks).1 =
      (tasks.filterMap Task.measured?).map fun file => (file.measure registry {}).1 := by
  induction tasks generalizing worker with
  | nil => rfl
  | cons task rest ih =>
      have later := ih (sound_perform sound registry task)
      cases task with
      | measure file =>
          have here := file.measure_fst sound registry
          simp only [performAll, later, List.filterMap_cons, Task.measured?, List.map_cons, ← here]
          rfl
      | collect file => exact later

/-! ## Runs -/

/-- What a run does with its files: each is measured and then collected. -/
def fileTasks (files : List (Path × SourceFile)) : List Task :=
  files.flatMap fun item => [.measure item.2, .collect item.2]

theorem measureAll_eq (registry : Registry) (worker : Worker) (files : List (Path × SourceFile)) :
    worker.measureAll registry files =
      ((files.map Prod.fst).zip (worker.performAll registry (fileTasks files)).1,
        (worker.performAll registry (fileTasks files)).2) := by
  induction files generalizing worker with
  | nil => rfl
  | cons item rest ih =>
      obtain ⟨path, file⟩ := item
      have next := ih (worker.measure registry file).2
      simp only [measureAll, next]
      rfl

/-- The files of a run are measured as each with an empty cache. -/
theorem measureAll_fst (sound : worker.cache.Sound) (registry : Registry)
    (files : List (Path × SourceFile)) :
    (worker.measureAll registry files).1 =
      files.map fun item => (item.1, (item.2.measure registry {}).1) := by
  have measured : (fileTasks files).filterMap Task.measured? = files.map Prod.snd := by
    rw [fileTasks, List.filterMap_flatMap, List.map_eq_flatMap]
    rfl
  rw [measureAll_eq, performAll_fst sound, measured, List.map_map, List.zip_map']
  rfl

/-- A worker for which coupling is not wanted never collects. -/
theorem measureAll_analyzer (unwanted : worker.analyzer = none) (registry : Registry)
    (files : List (Path × SourceFile)) :
    (worker.measureAll registry files).2.analyzer = none := by
  induction files generalizing worker with
  | nil => exact unwanted
  | cons item rest ih =>
      obtain ⟨path, file⟩ := item
      refine ih ?_
      cases file with
      | parsed file => simp only [collect, unwanted]
      | _ => exact unwanted

end Worker

/-- What is measured does not depend on whether coupling is wanted. -/
theorem survey_withCoupling [OwnGrammars] (registry : Registry) (disk : Disk)
    (settings : Settings) :
    { survey registry disk { settings with withCoupling := true } with coupling := none } =
      survey registry disk { settings with withCoupling := false } := by
  simp only [survey]
  rw [Worker.measureAll_fst Query.Cache.sound_empty,
    Worker.measureAll_fst Query.Cache.sound_empty, Worker.measureAll_analyzer rfl]
  rfl

theorem run_withCoupling [OwnGrammars] (registry : Registry) (disk : Disk) (settings : Settings) :
    (run registry disk { settings with withCoupling := true }).map
        (fun found => { found with coupling := none }) =
      run registry disk { settings with withCoupling := false } := by
  have checked : ({ settings with withCoupling := true } : Settings).check =
      ({ settings with withCoupling := false } : Settings).check := rfl
  simp only [run, checked, ← survey_withCoupling]
  cases ({ settings with withCoupling := false } : Settings).check
      (disk.hasItem settings.sources) <;> rfl

/-- **A shared cache shows in no result.**  Let files be measured and collected in any order,
with one cache that is empty at first.  Each is measured as alone.  After any number of tasks
the cache has an entry for each pair of language and text that was asked for and compiles,
exactly one and with the query that it compiles to, and no other; a text that does not
compile fails again in the same way and leaves no entry.  So a run that tells the coupling
finds the same measures, unsupported and unreadable files as a run that does not. -/
theorem session_transparent [OwnGrammars] (registry : Registry)
    (analyzer : Option Coupling.Analyzer) (tasks : List Task) :
    ∃ measured worker, Worker.performAll registry { analyzer } tasks = (measured, worker) ∧
      measured = (tasks.filterMap Task.measured?).map (fun file => (file.measure registry {}).1) ∧
      worker.cache.Sound ∧ worker.cache.keys.Nodup ∧
      (∀ key, key ∈ worker.cache.keys ↔
        key ∈ Worker.asked registry { analyzer } tasks ∧ key.Compiles) ∧
      (∀ language text fault, Query.compile language text = .error fault →
        worker.cache.compile language text = (.error ⟨language, text, fault⟩, worker.cache)) ∧
      ∀ (disk : Disk) (settings : Settings),
        (run registry disk { settings with withCoupling := true }).map
            (fun found => { found with coupling := none }) =
          run registry disk { settings with withCoupling := false } := by
  have start : ({ analyzer } : Worker).cache.Sound := Query.Cache.sound_empty
  have results := Worker.performAll_fst start registry tasks
  have cache := Worker.performAll_cache start registry tasks
  have holds := Query.Cache.holds_empty.askAll (Worker.asked registry { analyzer } tasks)
  rw [List.nil_append, ← cache] at holds
  exact ⟨_, _, rfl, results, holds.sound, holds.nodup, holds.mem_keys,
    fun _ _ _ failed => Query.Cache.compile_of_error holds.sound failed,
    run_withCoupling registry⟩

/-! ## A file that is collected before it is measured -/

section

open Coupling (csharp csharp_compilesTo)
open Coupling.TwoFiles (callerFile)

attribute [local instance] sampleGrammars

theorem session_transparent_collected_first :
    ∃ measured worker,
      Worker.performAll Registry.builtin { analyzer := some {} }
          [.collect (.parsed callerFile), .measure (.parsed callerFile)] = (measured, worker) ∧
        measured = [((SourceFile.parsed callerFile).measure Registry.builtin {}).1] ∧
        worker.cache.keys.Nodup ∧ ∀ key ∈ csharp.keys, key ∈ worker.cache.keys := by
  obtain ⟨measured, worker, performed, alone, _, nodup, holds, _⟩ :=
    session_transparent Registry.builtin (some {})
      [.collect (.parsed callerFile), .measure (.parsed callerFile)]
  refine ⟨measured, worker, performed, alone, nodup, fun key mem => ?_⟩
  exact (holds key).mpr
    ⟨List.mem_append_left _ mem, csharp_compilesTo.compiles_keys key mem⟩

end

end SourceGauge
