/-
# SourceGauge.Proofs.Metric.Isolation -- a metric shows the records that it reads only

Each metric is told from the records of a few categories (`Metric.reads`), and its
query is built from these alone.  Another record cannot reach it: not through the text
of its query, not through the cache, and not through the failure of a metric before it.

* `SourceFile.measure_isolates`: the metrics of a file are its values and its failures,
  and a metric is the same in all registries that have the same records of the
  categories it reads.
-/
import Mathlib.Data.List.Perm.Basic
import SourceGauge.Proofs.Keyed
import SourceGauge.Proofs.Metric.Value
import SourceGauge.Proofs.Query.Order

namespace SourceGauge

set_option autoImplicit false

/-! ## Records of some categories -/

namespace Registry

variable {registry other : Registry} {categories few : List Category}

theorem filter_inCategories (within : few ⊆ categories) (registry : Registry) :
    ((registry.inCategories categories).filter fun record => few.contains record.category) =
      registry.inCategories few := by
  rw [inCategories, List.filter_filter]
  refine List.filter_congr fun record _ => ?_
  cases mem : few.contains record.category with
  | false => rfl
  | true => simpa using within (by simpa using mem)

/-- Registries with the same records of some categories have the same records of fewer. -/
theorem inCategories_congr
    (same : registry.inCategories categories = other.inCategories categories)
    (within : few ⊆ categories) : registry.inCategories few = other.inCategories few := by
  rw [← filter_inCategories within, same, filter_inCategories within]

theorem inCategory_eq (registry : Registry) (category : Category) :
    registry.inCategory category = registry.inCategories [category] := by
  refine List.filter_congr fun record _ => ?_
  simp

theorem inCategory_congr
    (same : registry.inCategories categories = other.inCategories categories)
    (category : Category) (mem : category ∈ categories) :
    registry.inCategory category = other.inCategory category := by
  rw [inCategory_eq, inCategory_eq]
  exact inCategories_congr same (by simpa using mem)

end Registry

/-! ## What a metric reads -/

namespace Metric

/-- The categories of the records that a metric is told from. -/
def reads : Metric → List Category
  | complexity =>
      [.branch, .loop, .conditional, .logicalOperation, .handler, .function, .caseLabel,
        .defaultLabel]
  | functions => [.function]
  | classes => Category.typeDefinitions
  | linesOfCode => []
  | commentLines | realLinesOfCode | keywordsInComments => [.comment]
  | maxNestingLevel => [.nesting]

variable {registry other : Registry} {metric : Metric}

theorem statements?_congr
    (same : registry.inCategories metric.reads = other.inCategories metric.reads) :
    metric.statements? registry = metric.statements? other := by
  cases metric with
  | complexity =>
      have branching : registry.inCategories branchingCategories =
          other.inCategories branchingCategories := Registry.inCategories_congr same (by decide)
      have caseLabel := Registry.inCategory_congr same .caseLabel (by decide)
      have defaultLabel := Registry.inCategory_congr same .defaultLabel (by decide)
      simp only [statements?, complexityStatements, languagesWithDefault, branching, caseLabel,
        defaultLabel]
  | functions =>
      have function := Registry.inCategory_congr same .function (by decide)
      simp only [statements?, functionStatements, function]
  | classes =>
      have types : registry.inCategories Category.typeDefinitions =
          other.inCategories Category.typeDefinitions := same
      simp only [statements?, classStatements, types]
  | commentLines | keywordsInComments =>
      have comment := Registry.inCategory_congr same .comment (by decide)
      simp only [statements?, commentStatements, comment]
  | linesOfCode | realLinesOfCode | maxNestingLevel => rfl

theorem ofQuery_congr
    (same : registry.inCategories metric.reads = other.inCategories metric.reads)
    (file : ParsedFile) (found : Option Query) :
    metric.ofQuery registry file found = metric.ofQuery other file found := by
  cases metric with
  | realLinesOfCode =>
      have comment := Registry.inCategory_congr same .comment (by decide)
      have isComment : isComment registry file.language = isComment other file.language := by
        funext node
        simp only [Metric.isComment, Registry.activeKinds, comment]
      simp only [ofQuery, realLines, isComment]
  | maxNestingLevel =>
      have nesting := Registry.inCategory_congr same .nesting (by decide)
      simp only [ofQuery, nestingLevel, Registry.activeKinds, nesting]
  | _ => rfl

variable [Grammars]

/-- A metric gives the same in registries with the same records of the categories that it
reads. -/
theorem alone_congr
    (same : registry.inCategories metric.reads = other.inCategories metric.reads)
    (file : ParsedFile) : metric.alone registry file = metric.alone other file := by
  have makes : metric.ofQuery registry file = metric.ofQuery other file :=
    funext (ofQuery_congr same file)
  simp only [alone, statements?_congr same, makes]

theorem valued?_congr
    (same : registry.inCategories metric.reads = other.inCategories metric.reads)
    (file : ParsedFile) : metric.valued? registry file = metric.valued? other file := by
  simp only [valued?, alone_congr same file]

theorem failed?_congr
    (same : registry.inCategories metric.reads = other.inCategories metric.reads)
    (file : ParsedFile) : metric.failed? registry file = metric.failed? other file := by
  simp only [failed?, alone_congr same file]

end Metric

/-! ## Results that name their items -/

namespace Metric

variable [Grammars] {registry : Registry} {file : ParsedFile}

theorem valued?_key (metric : Metric) (item : Metric × Nat)
    (valued : metric.valued? registry file = some item) : item.1 = metric := by
  unfold valued? at valued
  split at valued
  · cases valued
    rfl
  · cases valued

theorem failed?_key (metric : Metric) (failure : MetricFailure)
    (failed : metric.failed? registry file = some failure) : failure.metric = metric := by
  unfold failed? at failed
  split at failed
  · cases failed
  · cases failed
    rfl

theorem failed?_isSome (metric : Metric) :
    (metric.failed? registry file).isSome = !(metric.valued? registry file).isSome := by
  unfold failed? valued?
  cases metric.alone registry file <;> rfl

end Metric

/-! ## A file -/

def FileMeasures.failure? (measures : FileMeasures) (metric : Metric) : Option MetricFailure :=
  measures.failures.find? fun failure => failure.metric = metric

theorem FileKind.metrics_nodup (kind : FileKind) : kind.metrics.Nodup := by
  cases kind <;> decide

namespace SourceFile

variable [Grammars] {registry other : Registry} {cache otherCache : Query.Cache}

theorem values_parsed (sound : cache.Sound) (file : ParsedFile) :
    ((parsed file).measure registry cache).1.values =
      file.language.fileKind.metrics.filterMap (Metric.valued? registry file) := by
  simp only [measure, Metric.measureAll_fst sound, List.nil_append, kind]

theorem failures_parsed (sound : cache.Sound) (file : ParsedFile) :
    ((parsed file).measure registry cache).1.failures =
      file.language.fileKind.metrics.filterMap (Metric.failed? registry file) := by
  simp only [measure, Metric.measureAll_fst sound, List.nil_append, kind]

/-- A metric of a file is the same in registries with the same records of the categories that
it reads. -/
theorem measure_congr (sound : cache.Sound) (otherSound : otherCache.Sound) {metric : Metric}
    (same : registry.inCategories metric.reads = other.inCategories metric.reads)
    (file : SourceFile) :
    (file.measure registry cache).1.value? metric =
        (file.measure other otherCache).1.value? metric ∧
      (file.measure registry cache).1.failure? metric =
        (file.measure other otherCache).1.failure? metric := by
  cases file with
  | parsed file =>
      simp only [FileMeasures.value?, FileMeasures.failure?, values_parsed sound,
        values_parsed otherSound, failures_parsed sound, failures_parsed otherSound,
        find?_filterMap_of_key Metric.valued?_key, find?_filterMap_of_key Metric.failed?_key,
        Metric.valued?_congr same, Metric.failed?_congr same]
      trivial
  | unsupported path content => cases content <;> exact ⟨rfl, rfl⟩
  | unreadable path error => exact ⟨rfl, rfl⟩

/-- **Metrics do not disturb each other.**  Whatever the records of a registry, each metric of a
parsed file is either a value or a failure, once, and both stand in the order of the
metrics.  Take another registry that has the same records in the categories which a metric
reads.  On every file that metric then has the same value in both, or fails with the same
text in both. -/
theorem measure_isolates (registry : Registry) {cache : Query.Cache} (sound : cache.Sound) :
    (∀ (file : ParsedFile) (found : FileMeasures),
      ((parsed file).measure registry cache).1 = found →
      file.language.fileKind.metrics.Nodup ∧
      (found.values.map Prod.fst ++ found.failures.map MetricFailure.metric).Perm
        file.language.fileKind.metrics ∧
      (found.values.map Prod.fst).Sublist file.language.fileKind.metrics ∧
      (found.failures.map MetricFailure.metric).Sublist file.language.fileKind.metrics) ∧
    ∀ (other : Registry) (metric : Metric),
      registry.inCategories metric.reads = other.inCategories metric.reads →
      ∀ otherCache : Query.Cache, otherCache.Sound → ∀ file : SourceFile,
        (file.measure registry cache).1.value? metric =
            (file.measure other otherCache).1.value? metric ∧
          (file.measure registry cache).1.failure? metric =
            (file.measure other otherCache).1.failure? metric := by
  refine ⟨?_, fun other metric same otherCache otherSound file =>
    measure_congr sound otherSound same file⟩
  rintro file _ rfl
  rw [values_parsed sound, failures_parsed sound, map_filterMap_of_key Metric.valued?_key,
    map_filterMap_of_key Metric.failed?_key]
  simp only [Metric.failed?_isSome]
  exact ⟨FileKind.metrics_nodup _, List.filter_append_perm _ _, List.filter_sublist,
    List.filter_sublist⟩

end SourceFile

/-! ## A record that no grammar has -/

namespace BadRecord

@[reducible]
def grammars : Grammars := .allBut "no_such_"

def node (kind : String) (children : List Node) : Node :=
  .mk { kind, named := true, field := none, start := ⟨0, 0, 0⟩, stop := ⟨7, 0, 7⟩ } children

def file : ParsedFile where
  path := ⟨"a.rs"⟩
  language := .rust
  source := "// todo"
  root := node "source_file" [node "line_comment" []]

def comments : Registry := ⟨[⟨"line_comment", .comment, [.rust], [], none, none⟩]⟩

/-- The same comments, after functions of a kind that the grammar does not have. -/
def withBad : Registry :=
  ⟨⟨"no_such_function", .function, [.rust], [], none, none⟩ :: comments.records⟩

end BadRecord

attribute [local instance] BadRecord.grammars

open BadRecord in
theorem SourceFile.measure_isolates_bad_record :
    (((parsed file).measure withBad {}).1.failures.map MetricFailure.metric) =
        [.complexity, .functions] ∧
      ((parsed file).measure comments {}).1.failures = [] ∧
      ((parsed file).measure withBad {}).1.value? .keywordsInComments = some 1 := by
  refine ⟨?_, ?_, ?_⟩
  · decide +kernel
  · decide +kernel
  · have same := ((measure_isolates withBad Query.Cache.sound_empty).2 comments .keywordsInComments
      (by decide) {} Query.Cache.sound_empty (parsed file)).1
    rw [same]
    simp only [FileMeasures.value?, values_parsed Query.Cache.sound_empty, Metric.valued?,
      Metric.alone, Metric.ofQuery, Metric.firstCaptures, Query.allMatches_eq_insertionSort]
    decide +kernel

end SourceGauge
