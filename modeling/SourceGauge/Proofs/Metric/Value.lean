/-
# SourceGauge.Proofs.Metric.Value -- what the metrics give, whatever the cache

A metric needs one query at most, that of its statements (`Metric.statements?`), and
tells its number from the query and from the tree (`Metric.ofQuery`).  The cache decides
only whether the query is compiled once more, so what a metric gives can be said
without one (`Metric.alone`).

* `Metric.measureAll_fst`: what is measured of a file is what each of its metrics gives
  alone, in their order.
* `SourceFile.measure_snd`: the cache was asked for the queries of these metrics, and for
  no others.
-/
import SourceGauge.Metric.Measure
import SourceGauge.Proofs.Query.SharedCache

namespace SourceGauge

set_option autoImplicit false

open Query (Key)

variable [Grammars]

namespace Metric

/-! ## One metric -/

/-- The statements whose matches a metric needs; none where the tree alone tells. -/
def statements? (registry : Registry) : Metric → Option (List Statement)
  | complexity => some (complexityStatements registry)
  | functions => some (functionStatements registry)
  | classes => some (classStatements registry)
  | commentLines | keywordsInComments => some (commentStatements registry)
  | linesOfCode | realLinesOfCode | maxNestingLevel => none

/-- What a metric makes of its query and a file; there is no query where no statement
applies. -/
def ofQuery (registry : Registry) (file : ParsedFile) (metric : Metric) (found : Option Query) :
    Nat :=
  match metric with
  | complexity | functions | classes =>
      (found.map fun query => query.count file.source file.root).getD 0
  | commentLines => countRows none ((found.map fun query => firstCaptures query file).getD [])
  | keywordsInComments =>
      keywordTotal file ((found.map fun query => firstCaptures query file).getD [])
  | linesOfCode => rows file
  | realLinesOfCode => realLines registry file
  | maxNestingLevel => nestingLevel registry file

def alone (registry : Registry) (file : ParsedFile) (metric : Metric) :
    Except Query.CompileError Nat :=
  match metric.statements? registry with
  | none => .ok (metric.ofQuery registry file none)
  | some statements =>
      (Query.Cache.buildAlone file.language statements).map (metric.ofQuery registry file)

def asks (registry : Registry) (language : Language) (metric : Metric) : List Key :=
  ((metric.statements? registry).map (Query.Cache.statementKeys language)).getD []

variable {registry : Registry} {file : ParsedFile} {cache : Query.Cache}

theorem countStatements_eq (statements : List Statement) (file : ParsedFile)
    (cache : Query.Cache) :
    countStatements statements file cache =
      ((cache.build file.language statements).1.map fun found =>
          (found.map fun query => query.count file.source file.root).getD 0,
        (cache.build file.language statements).2) := by
  unfold countStatements
  rcases cache.build file.language statements with ⟨_ | _ | _, _⟩ <;> rfl

theorem commentNodes_eq (registry : Registry) (file : ParsedFile) (cache : Query.Cache) :
    commentNodes registry file cache =
      ((cache.build file.language (commentStatements registry)).1.map fun found =>
          (found.map fun query => firstCaptures query file).getD [],
        (cache.build file.language (commentStatements registry)).2) := by
  unfold commentNodes
  rcases cache.build file.language (commentStatements registry) with ⟨_ | _ | _, _⟩ <;> rfl

/-- A metric builds its query, and the rest does not touch the cache. -/
theorem measure_eq (registry : Registry) (file : ParsedFile) (cache : Query.Cache)
    (metric : Metric) :
    metric.measure registry file cache =
      match metric.statements? registry with
      | none => (.ok (metric.ofQuery registry file none), cache)
      | some statements =>
          ((cache.build file.language statements).1.map (metric.ofQuery registry file),
            (cache.build file.language statements).2) := by
  cases metric with
  | linesOfCode | realLinesOfCode | maxNestingLevel => rfl
  | complexity | functions | classes => exact countStatements_eq _ file cache
  | commentLines | keywordsInComments =>
      simp only [measure, commentNodes_eq, statements?]
      cases (cache.build file.language (commentStatements registry)).1 <;> rfl

theorem measure_fst (sound : cache.Sound) (registry : Registry) (file : ParsedFile)
    (metric : Metric) : (metric.measure registry file cache).1 = metric.alone registry file := by
  rw [measure_eq, alone]
  cases metric.statements? registry with
  | none => rfl
  | some statements => simp only [Query.Cache.build_fst sound]

theorem measure_snd (registry : Registry) (file : ParsedFile) (cache : Query.Cache)
    (metric : Metric) :
    (metric.measure registry file cache).2 = cache.askAll (metric.asks registry file.language) := by
  rw [measure_eq, asks]
  cases metric.statements? registry with
  | none => rfl
  | some statements => exact cache.build_snd file.language statements

/-! ## Several metrics -/

/-- The value of a metric, if it has one. -/
def valued? (registry : Registry) (file : ParsedFile) (metric : Metric) : Option (Metric × Nat) :=
  match metric.alone registry file with
  | .ok value => some (metric, value)
  | .error _ => none

/-- The failure of a metric, if it has no value. -/
def failed? (registry : Registry) (file : ParsedFile) (metric : Metric) : Option MetricFailure :=
  match metric.alone registry file with
  | .ok _ => none
  | .error error => some ⟨metric, error.message⟩

/-- Each metric is a value or a failure, in their order, and none shows in another. -/
theorem measureAll_fst (sound : cache.Sound) (metrics : List Metric) (measures : FileMeasures) :
    (measureAll registry file metrics measures cache).1 =
      { measures with
        values := measures.values ++ metrics.filterMap (valued? registry file)
        failures := measures.failures ++ metrics.filterMap (failed? registry file) } := by
  induction metrics generalizing measures cache with
  | nil => simp [measureAll]
  | cons metric rest ih =>
      have answer := measure_fst sound registry file metric
      have soundNext : (metric.measure registry file cache).2.Sound := by
        rw [measure_snd]
        exact Query.Cache.sound_askAll sound _
      rw [measureAll]
      rcases measured : metric.measure registry file cache with ⟨_ | _, next⟩
      · rw [measured] at answer soundNext
        simp only [ih soundNext, List.filterMap_cons, valued?, failed?, ← answer,
          List.append_assoc, List.singleton_append]
      · rw [measured] at answer soundNext
        simp only [ih soundNext, List.filterMap_cons, valued?, failed?, ← answer,
          List.append_assoc, List.singleton_append]

theorem measureAll_snd (metrics : List Metric) (measures : FileMeasures) (cache : Query.Cache) :
    (measureAll registry file metrics measures cache).2 =
      cache.askAll (metrics.flatMap (asks registry file.language)) := by
  induction metrics generalizing measures cache with
  | nil => rfl
  | cons metric rest ih =>
      have after := measure_snd registry file cache metric
      rw [List.flatMap_cons, Query.Cache.askAll_append, ← after, measureAll]
      split
      · next value next measured => rw [ih, measured]
      · next error next measured => rw [ih, measured]

end Metric

/-! ## A file -/

namespace SourceFile

/-- The pairs of language and text that measuring a file asks for. -/
def asks (registry : Registry) : SourceFile → List Key
  | parsed file => file.language.fileKind.metrics.flatMap (Metric.asks registry file.language)
  | _ => []

/-- What is measured of a file does not depend on what the cache has. -/
theorem measure_fst {cache : Query.Cache} (sound : cache.Sound) (registry : Registry)
    (file : SourceFile) :
    (file.measure registry cache).1 = (file.measure registry {}).1 := by
  cases file with
  | parsed file =>
      simp only [measure, Metric.measureAll_fst sound,
        Metric.measureAll_fst Query.Cache.sound_empty]
  | unsupported path content => cases content <;> rfl
  | unreadable path error => rfl

theorem measure_snd (registry : Registry) (file : SourceFile) (cache : Query.Cache) :
    (file.measure registry cache).2 = cache.askAll (file.asks registry) := by
  cases file with
  | parsed file => exact Metric.measureAll_snd _ _ cache
  | unsupported path content => cases content <;> rfl
  | unreadable path error => rfl

end SourceFile

end SourceGauge
