/-
# SourceGauge.Proofs.Metric.Counts -- matches of statements add up

Complexity, functions and classes are numbers of matches.  The query is put together from all
statements that are active in a language; where each of these compiles by itself, the query finds
what they find one by one (`countStatements_of_each`).  Then nothing but the statements that
take part matters: not which of them come first, and not those that have no text in the language.

Functions are among what complexity counts (`functionStatements_sublist`).  A record counts
for complexity by its operator if it has one, and an accepted record of a function has none.

* `counts_add_up`: the count of two lists together is the sum of their counts, in every order; a
  file whose complexity can be measured has no more functions.
-/
import Mathlib.Algebra.Order.BigOperators.Group.List
import Mathlib.Algebra.Order.Group.Nat
import SourceGauge.Proofs.Language.OwnGrammars
import SourceGauge.Proofs.Metric.Value
import SourceGauge.Proofs.Query.Pieces
import SourceGauge.Proofs.Registry.Acceptable
import SourceGauge.Proofs.Syntax.Layout

namespace SourceGauge

set_option autoImplicit false

open Query (Key clausesOf countText)

/-! ## Statements that compile by themselves -/

namespace Statement

variable {language : Language} {first second statements : List Statement}

variable [Grammars]

/-- Each statement that takes part in queries of a language compiles by itself. -/
def EachCompiles (language : Language) (statements : List Statement) : Prop :=
  ∀ statement ∈ statements, statement.isActive language = true →
    Key.Compiles (language, statement.text)

instance (key : Key) : Decidable key.Compiles :=
  decidable_of_iff ((Query.compile key.1 key.2).isOk = true) <| by
    unfold Key.Compiles
    cases Query.compile key.1 key.2 <;> simp [Except.isOk, Except.toBool]

instance (language : Language) (statements : List Statement) :
    Decidable (EachCompiles language statements) :=
  inferInstanceAs (Decidable (∀ statement ∈ statements, statement.isActive language = true →
    Key.Compiles (language, statement.text)))

theorem EachCompiles.append (each : EachCompiles language first)
    (eachLater : EachCompiles language second) : EachCompiles language (first ++ second) := by
  intro statement mem
  exact (List.mem_append.mp mem).elim (each statement) (eachLater statement)

theorem EachCompiles.subset (each : EachCompiles language statements)
    (within : first ⊆ statements) : EachCompiles language first :=
  fun statement mem => each statement (within mem)

theorem EachCompiles.texts (each : EachCompiles language statements) :
    ∀ text ∈ activeTexts language statements, Key.Compiles (language, text) := by
  intro text mem
  obtain ⟨statement, active, rfl⟩ := List.mem_map.mp mem
  obtain ⟨among, isActive⟩ := List.mem_filter.mp active
  exact each statement among isActive

theorem EachCompiles.of_texts
    (each : ∀ text ∈ activeTexts language statements, Key.Compiles (language, text)) :
    EachCompiles language statements :=
  fun statement mem active =>
    each statement.text (List.mem_map_of_mem (List.mem_filter.mpr ⟨mem, active⟩))

end Statement

/-- The query of statements that compile by themselves has the clauses of one after the other; where
there is no query, there are no clauses. -/
theorem Query.Cache.exists_buildAlone [Grammars] {language : Language}
    {statements : List Statement}
    (each : Statement.EachCompiles language statements) :
    ∃ found, buildAlone language statements = .ok found ∧
      found.getD ⟨[]⟩ =
        ⟨(Statement.activeTexts language statements).flatMap (clausesOf language)⟩ := by
  have compiled := Query.compile_join each.texts
  rw [buildAlone]
  split
  · next empty =>
    rw [Statement.assemble] at empty
    rw [empty] at compiled
    exact ⟨none, rfl, Except.ok.inj compiled⟩
  · refine ⟨some _, ?_, rfl⟩
    rw [compileAlone, Statement.assemble, compiled]
    rfl

namespace Metric

/-! ## Counts of statements -/

variable [Grammars]

variable {first second statements : List Statement} {file : ParsedFile} {cache : Query.Cache}

/-- The matches in a file of some statements, each taken by itself. -/
def countEach (statements : List Statement) (file : ParsedFile) : Nat :=
  ((Statement.activeTexts file.language statements).map
    (countText file.language file.source file.root)).sum

theorem countEach_append (first second : List Statement) (file : ParsedFile) :
    countEach (first ++ second) file = countEach first file + countEach second file := by
  simp [countEach, Statement.activeTexts_append]

theorem countEach_perm (perm : first.Perm second) (file : ParsedFile) :
    countEach first file = countEach second file :=
  (((perm.filter _).map _).map _).sum_eq

theorem countEach_le_of_sublist (sublist : first.Sublist second) (file : ParsedFile) :
    countEach first file ≤ countEach second file :=
  (((sublist.filter _).map _).map _).sum_le_sum fun _ _ => Nat.zero_le _

/-- Statements that compile by themselves compile together, and their matches are those of each. -/
theorem countStatements_of_each (sound : cache.Sound)
    (each : Statement.EachCompiles file.language statements) :
    (countStatements statements file cache).1 = .ok (countEach statements file) := by
  obtain ⟨found, built, clauses⟩ := Query.Cache.exists_buildAlone each
  have nothing : Query.count ⟨[]⟩ file.source file.root = 0 := by
    simp [Query.count, Query.found, Query.matchesAt]
  rw [countStatements_eq, Query.Cache.build_fst sound, built, countEach,
    ← Query.count_flatMap_clausesOf, ← clauses]
  cases found with
  | none => exact congrArg Except.ok nothing.symm
  | some query => rfl

/-- Statements whose matches could be counted have a text that compiles. -/
theorem compiles_of_countStatements (sound : cache.Sound) {value : Nat}
    (counted : (countStatements statements file cache).1 = .ok value) :
    Key.Compiles (file.language, Statement.assemble file.language statements) := by
  rw [countStatements_eq, Query.Cache.build_fst sound, Query.Cache.buildAlone] at counted
  split at counted
  · next empty =>
    rw [empty]
    exact ⟨⟨[]⟩, rfl⟩
  · rw [Query.Cache.compileAlone] at counted
    cases compiled : Query.compile file.language
        (Statement.assemble file.language statements) with
    | error fault =>
        rw [compiled] at counted
        cases counted
    | ok query => exact ⟨query, compiled⟩

/-- No text has no matches. -/
theorem countEach_eq_zero_of_empty (each : Statement.EachCompiles file.language statements)
    (empty : Statement.assemble file.language statements = "") : countEach statements file = 0 := by
  have counted := countStatements_of_each Query.Cache.sound_empty each
  rw [countStatements, Query.Cache.build, if_pos empty] at counted
  exact (Except.ok.inj counted).symm

end Metric

/-! ## Functions among what complexity counts -/

namespace Metric

/-- What `functions` counts is among what complexity counts, in the same order. -/
theorem functionStatements_sublist {records : List Record} {registry : Registry}
    (accepted : Registry.ofRecords records = .ok registry) :
    (functionStatements registry).Sublist (complexityStatements registry) := by
  have same : (registry.inCategory .function).map Statement.ofRecord =
      (registry.inCategory .function).map branchingStatement := by
    refine List.map_congr_left fun record mem => ?_
    obtain ⟨among, isFunction⟩ := List.mem_filter.mp mem
    have plain : record.category.allowsOperator = false := by
      rw [of_decide_eq_true isFunction]
      rfl
    rw [branchingStatement, Registry.operator_eq_none_of_accepted accepted among plain]
  have among : (registry.inCategory .function).Sublist
      (registry.inCategories branchingCategories) := by
    refine List.monotone_filter_right registry.records fun record isFunction => ?_
    rw [of_decide_eq_true isFunction]
    rfl
  have block : [initializerBlock].Sublist
      ((registry.inCategory .caseLabel).flatMap
        (caseLabelStatements (languagesWithDefault registry)) ++
          ([initializerBlock] ++ csharpBranches)) :=
    (List.sublist_append_left [initializerBlock] csharpBranches).trans
      (List.sublist_append_right ..)
  rw [functionStatements, complexityStatements, same, List.append_assoc, List.append_assoc]
  exact (among.map branchingStatement).append block

/-- Two lists of statements that compile one by one can be counted, and together have the sum of
their counts, whatever their order and the cache; a list whose text is empty counts nothing.  So
where complexity can be measured, functions can, and are no more.  A text that is put together is
taken to compile only if each statement in it does. -/
theorem counts_add_up [Grammars] (file : ParsedFile) :
    (∀ first second : List Statement, Statement.EachCompiles file.language first →
      Statement.EachCompiles file.language second →
      ∃ m n, ∀ cache : Query.Cache, cache.Sound →
        (countStatements first file cache).1 = .ok m ∧
        (countStatements second file cache).1 = .ok n ∧
        (countStatements (first ++ second) file cache).1 = .ok (m + n) ∧
        (Statement.assemble file.language first = "" → m = 0) ∧
        ∀ reordered, reordered.Perm (first ++ second) →
          (countStatements reordered file cache).1 = .ok (m + n)) ∧
    ∀ (records : List Record) (registry : Registry), Registry.ofRecords records = .ok registry →
      (Key.Compiles (file.language,
          Statement.assemble file.language (complexityStatements registry)) →
        Statement.EachCompiles file.language (complexityStatements registry)) →
      ∀ cache later : Query.Cache, cache.Sound → later.Sound → ∀ value,
        (complexity.measure registry file cache).1 = .ok value →
          ∃ count, (functions.measure registry file later).1 = .ok count ∧ count ≤ value := by
  refine ⟨fun first second each eachLater =>
    ⟨countEach first file, countEach second file, fun cache sound => ?_⟩,
    fun records registry accepted apart cache later sound soundLater value measured => ?_⟩
  · have both := each.append eachLater
    refine ⟨countStatements_of_each sound each, countStatements_of_each sound eachLater, ?_,
      countEach_eq_zero_of_empty each, fun reordered perm => ?_⟩
    · rw [countStatements_of_each sound both, countEach_append]
    · rw [countStatements_of_each sound (both.subset perm.subset), countEach_perm perm,
        countEach_append]
  · have each := apart (compiles_of_countStatements sound measured)
    have sublist := functionStatements_sublist accepted
    have counted : (complexity.measure registry file cache).1 =
        .ok (countEach (complexityStatements registry) file) :=
      countStatements_of_each sound each
    refine ⟨countEach (functionStatements registry) file,
      countStatements_of_each soundLater (each.subset sublist.subset), ?_⟩
    rw [← Except.ok.inj (counted.symm.trans measured)]
    exact countEach_le_of_sublist sublist file

/-! ## A block in a class -/

namespace BlockInClass

def source : String := "class A \x7b \x7b \x7d void f() \x7b if (b) \x7b \x7d \x7d \x7d"

def node := Node.inText source

/-- The records of conditions, methods and labels. -/
def records : List Record :=
  [⟨"if_statement", .branch, [.java], [], none, none⟩,
    ⟨"method_declaration", .function, [.java], [], none, none⟩,
    ⟨"switch_label", .caseLabel, [.java], [], none, none⟩]

def registry : Registry := ⟨records⟩

def file : ParsedFile where
  path := ⟨"A.java"⟩
  language := .java
  source := source
  root := node "program" true 0 39
    [node "class_declaration" true 0 39
      [node "class" false 0 5 [], node "identifier" true 6 7 [],
        node "class_body" true 8 39
          [node "\x7b" false 8 9 [],
            node "block" true 10 13 [node "\x7b" false 10 11 [], node "\x7d" false 12 13 []],
            node "method_declaration" true 14 37
              [node "void_type" true 14 18 [], node "identifier" true 19 20 [],
                node "formal_parameters" true 20 22 [],
                node "block" true 23 37
                  [node "\x7b" false 23 24 [],
                    node "if_statement" true 25 35
                      [node "if" false 25 27 [], node "parenthesized_expression" true 28 31 [],
                        node "block" true 32 35 []],
                    node "\x7d" false 36 37 []]],
            node "\x7d" false 38 39 []]]]

end BlockInClass

attribute [local instance] sampleGrammars

open BlockInClass in
theorem counts_add_up_block_in_class :
    Registry.ofRecords records = .ok registry ∧
      Statement.EachCompiles file.language (complexityStatements registry) ∧
      (complexity.measure registry file {}).1 = .ok 3 ∧
      (∃ count, (functions.measure registry file {}).1 = .ok count ∧ count ≤ 3) ∧
      ∃ m n, (countStatements (functionStatements registry) file {}).1 = .ok m ∧
        (countStatements csharpBranches file {}).1 = .ok n ∧
        (countStatements (functionStatements registry ++ csharpBranches) file {}).1 =
          .ok (m + n) := by
  have each : Statement.EachCompiles file.language (complexityStatements registry) := by
    decide +kernel
  have measured : (complexity.measure registry file {}).1 = .ok 3 := by
    rw [measure_eq]
    decide +kernel
  obtain ⟨additive, fewer⟩ := counts_add_up file
  have accepted : Registry.ofRecords records = .ok registry := rfl
  refine ⟨accepted, each, measured, fewer records registry accepted (fun _ => each) {} {}
    Query.Cache.sound_empty Query.Cache.sound_empty 3 measured, ?_⟩
  obtain ⟨m, n, counted⟩ := additive (functionStatements registry) csharpBranches
    (each.subset (functionStatements_sublist accepted).subset) (by decide)
  obtain ⟨first, second, both, _⟩ := counted {} Query.Cache.sound_empty
  exact ⟨m, n, first, second, both⟩

end Metric

end SourceGauge
