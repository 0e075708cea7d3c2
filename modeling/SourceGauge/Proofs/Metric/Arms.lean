/-
# SourceGauge.Proofs.Metric.Arms -- which arms count for complexity

Python and Rust have no kind of their own for the arm that takes what is left, so the pattern of
their arms must tell it: an arm counts if it carries a value (`Node.carriesValue`).  No other
pattern of complexity is rooted at an arm, since each asks for another kind (`Elsewhere`), so
that is all that decides (`exists_label_root_iff`).

A Rust arm carries a value if its pattern has a named child, which a bare wildcard has not.  For the
arms of Python any named child will do, and the pattern is one itself: the wildcard arm counts.

* `arms_counted`: which arms of a Python or Rust tree are the root of a match of complexity.
* `wildcard_arm_counts`: a wildcard arm of Python that is one.
-/
import SourceGauge.Proofs.Metric.CaseLabels
import SourceGauge.Proofs.Language.OwnGrammars

namespace SourceGauge

set_option autoImplicit false

open Query (Clause Key Pattern Tells clausesOf clausesOf_eq isName)

/-! ## Roots -/

namespace Query

def Pattern.rootKind? : Pattern → Option String
  | node _ (.named kind) _ _ _ => some kind
  | _ => none

theorem Pattern.namedKind?_of_mem_findAt {pattern : Pattern} {kind : String}
    (rooted : pattern.rootKind? = some kind) {here : Address} {target : Node} {fit : Fit}
    (mem : fit ∈ pattern.findAt here target) : target.namedKind? = some kind := by
  cases pattern with
  | oneOf slot names choices => cases rooted
  | node slot own absent names children =>
      cases own with
      | token text => cases rooted
      | anyNamed => cases rooted
      | named asked =>
          cases rooted
          rw [findAt] at mem
          split at mem
          · next accepted => exact accepts_named_iff.mp (Bool.and_eq_true_iff.mp accepted).1
          · cases mem

/-- A text of patterns that are rooted at nodes of other kinds than one. -/
def Elsewhere (kind text : String) : Prop :=
  ∃ query, read everyKind text = .ok query ∧
    ∀ clause ∈ query.clauses, ∃ other, clause.pattern.rootKind? = some other ∧ other ≠ kind

instance (kind text : String) : Decidable (Elsewhere kind text) :=
  decidable_of_iff ((match read everyKind text with
    | .ok query => query.clauses.all fun clause => clause.pattern.rootKind?.any (· ≠ kind)
    | .error _ => false) = true) <| by
    unfold Elsewhere
    cases read everyKind text <;> simp [Option.any_eq_true]

/-- No match is rooted at a node of a kind that the patterns do not ask for. -/
theorem Elsewhere.not_mem_matchesAt [Grammars] {language : Language} {kind text : String}
    (elsewhere : Elsewhere kind text) (compiles : Key.Compiles (language, text)) {clause : Clause}
    (mem : clause ∈ clausesOf language text) {node : Node} (isKind : node.namedKind? = some kind)
    {source : String} {here : Address} {fit : Fit} :
    fit ∉ clause.matchesAt source here node := by
  intro found
  obtain ⟨query, reads, others⟩ := elsewhere
  have same : query = ⟨clausesOf language text⟩ := Except.ok.inj
    (reads.symm.trans (compile_eq_ok_iff_words.mp (compile_clausesOf compiles)).1)
  rw [same] at others
  obtain ⟨other, rooted, different⟩ := others clause mem
  obtain ⟨first, among⟩ := exists_fit_of_mem_matchesAt found
  have isOther := Pattern.namedKind?_of_mem_findAt rooted among
  exact different (Option.some.inj (isOther.symm.trans isKind))

/-- The matches that are rooted at a node. -/
theorem exists_root_iff {query : Query} {source : String} {root : Node} {a : Address} {node : Node}
    (there : root.at? a = some node) :
    (∃ found ∈ query.found source root, found.root = a) ↔
      ∃ clause ∈ query.clauses, ∃ fit, fit ∈ clause.matchesAt source a node := by
  simp only [mem_found_iff]
  constructor
  · rintro ⟨found, ⟨isNode, clause, numbered, fits⟩, rfl⟩
    cases there.symm.trans isNode
    exact ⟨clause, List.mem_of_getElem? numbered, found.toFit, fits⟩
  · rintro ⟨clause, mem, fit, fits⟩
    obtain ⟨number, numbered⟩ := List.mem_iff_getElem?.mp mem
    exact ⟨⟨fit, a, node, number⟩, ⟨there, clause, numbered, fits⟩, rfl⟩

end Query

namespace Metric

open Query (Elsewhere)

/-! ## Arms -/

/-- The languages whose last arm has the kind of the others, with that kind. -/
def armKinds : List (Language × String) := [(.python, "case_clause"), (.rust, "match_arm")]

/-- In the built-in registry the arms are labels that must carry a value, and no other pattern of
complexity is rooted at an arm. -/
theorem arms_builtin : ∀ arm ∈ armKinds, isName arm.2 = true ∧ arm.2 ≠ "_" ∧
    valuedLabel arm.2 ∈
      Statement.activeTexts arm.1 (complexityStatements Registry.builtin) ∧
    ∀ text ∈ Statement.activeTexts arm.1 (complexityStatements Registry.builtin),
      text = valuedLabel arm.2 ∨ Elsewhere arm.2 text := by
  decide +kernel

variable {language : Language} {kind : String}

/-- The pattern of a label has a match at a node of its kind if that carries a value. -/
theorem exists_mem_valued_iff (word : kind ≠ "_") {source : String} {here : Address} {node : Node}
    (isKind : node.namedKind? = some kind) :
    (∃ fit, fit ∈ (Clause.mk (Pattern.valued kind) []).matchesAt source here node) ↔
      node.carriesValue = true := by
  obtain ⟨test, value, carries⟩ := Query.tells_value kind
  have tells := value.child {} (Query.testOf kind) [kind]
  rw [Pattern.valued, Pattern.capture, List.nil_append, tells.exists_match_iff,
    carries node (Node.kind_of_namedKind? isKind), (accepts_testOf_iff word).mpr isKind,
    Bool.true_and]

/-- Where no other pattern is rooted at the nodes of a label's kind, these are the root of a match
if they carry a value. -/
theorem exists_label_root_iff [Grammars] {texts : List String} (named : isName kind = true)
    (word : kind ≠ "_") (label : valuedLabel kind ∈ texts)
    (each : ∀ text ∈ texts, Key.Compiles (language, text))
    (others : ∀ text ∈ texts, text = valuedLabel kind ∨ Elsewhere kind text)
    {source : String} {root : Node} {a : Address} {node : Node} (there : root.at? a = some node)
    (isKind : node.namedKind? = some kind) :
    (∃ found ∈ Query.found ⟨texts.flatMap (clausesOf language)⟩ source root, found.root = a) ↔
      node.carriesValue = true := by
  have clauses := clausesOf_eq (Query.reads_valuedLabel named) (each _ label)
  rw [Query.exists_root_iff there]
  simp only [List.mem_flatMap]
  constructor
  · rintro ⟨clause, ⟨text, among, mem⟩, fit, fits⟩
    rcases others text among with rfl | elsewhere
    · rw [clauses, List.mem_singleton] at mem
      exact (exists_mem_valued_iff word isKind).mp ⟨fit, mem ▸ fits⟩
    · exact absurd fits (elsewhere.not_mem_matchesAt (each text among) mem isKind)
  · intro carries
    obtain ⟨fit, fits⟩ := (exists_mem_valued_iff word isKind).mpr carries
    exact ⟨_, ⟨valuedLabel kind, label, clauses ▸ List.mem_singleton_self _⟩, fit, fits⟩

/-- An arm of Python carries a value if it has any named child but an error, an arm of Rust if its
pattern has one. -/
theorem carriesValue_arm (node : Node) :
    (node.kind = "case_clause" → (node.carriesValue = true ↔
      ∃ child ∈ node.children, child.isValue = true)) ∧
    (node.kind = "match_arm" → (node.carriesValue = true ↔
      ∃ pattern ∈ node.children, pattern.label.field = some "pattern" ∧
        pattern.namedKind? = some "match_pattern" ∧
        ∃ child ∈ pattern.children, child.isValue = true)) := by
  constructor <;> intro isKind
  · simp [Node.carriesValue, isKind]
  · simp [Node.carriesValue, isKind, Node.namedKind?, and_assoc]

/-- Complexity is the number of matches of a query, in which an arm is the root of one if it carries
a value. -/
theorem exists_query_of_arm [OwnGrammars] (file : ParsedFile) {kind : String}
    (arm : (file.language, kind) ∈ armKinds) {cache : Query.Cache} (sound : cache.Sound) :
    ∃ query, Query.compile file.language
        (Statement.assemble file.language (complexityStatements Registry.builtin)) = .ok query ∧
      (complexity.measure Registry.builtin file cache).1 =
        .ok (query.found file.source file.root).length ∧
      ∀ a node, file.root.at? a = some node → node.namedKind? = some kind →
        ((∃ found ∈ query.found file.source file.root, found.root = a) ↔
          node.carriesValue = true) := by
  obtain ⟨named, word, label, others⟩ := arms_builtin _ arm
  have own : complexityStatements Registry.builtin ⊆ ownStatements := fun _ mem => by
    simp [ownStatements, mem]
  have each : ∀ text ∈
      Statement.activeTexts file.language (complexityStatements Registry.builtin),
      Key.Compiles (file.language, text) := by
    intro text mem
    have own := mem_ownTexts_of_active own mem
    rcases others text mem with rfl | ⟨query, reads, _⟩
    · exact ⟨_, (Query.compile_own_iff own).mpr (Query.reads_valuedLabel named).read_eq⟩
    · exact ⟨query, (Query.compile_own_iff own).mpr reads⟩
  refine ⟨_, Query.compile_join each, ?_, fun a node there isKind =>
    exists_label_root_iff named word label each others there isKind⟩
  rw [measure, countStatements_of_each sound (.of_texts each), countEach,
    ← Query.count_flatMap_clausesOf]
  rfl

/-- Complexity is the number of matches of a query, and of the arms of a Python or Rust tree just
these are the root of one: in Python those with a named child that is no error, which the pattern
of a bare wildcard is as well, and in Rust those whose pattern has such a child, which a bare
wildcard has not. -/
theorem arms_counted [OwnGrammars] (file : ParsedFile)
    (language : file.language = .python ∨ file.language = .rust) {cache : Query.Cache}
    (sound : cache.Sound) :
    ∃ query, Query.compile file.language
        (Statement.assemble file.language (complexityStatements Registry.builtin)) = .ok query ∧
      (complexity.measure Registry.builtin file cache).1 =
        .ok (query.found file.source file.root).length ∧
      ∀ a node, file.root.at? a = some node →
        (file.language = .python → node.namedKind? = some "case_clause" →
          ((∃ found ∈ query.found file.source file.root, found.root = a) ↔
            ∃ child ∈ node.children, child.isValue = true)) ∧
        (file.language = .rust → node.namedKind? = some "match_arm" →
          ((∃ found ∈ query.found file.source file.root, found.root = a) ↔
            ∃ pattern ∈ node.children, pattern.label.field = some "pattern" ∧
              pattern.namedKind? = some "match_pattern" ∧
              ∃ child ∈ pattern.children, child.isValue = true)) := by
  rcases language with python | rust
  · have arm : (file.language, "case_clause") ∈ armKinds := by simp [python, armKinds]
    obtain ⟨query, compiled, counted, roots⟩ := exists_query_of_arm file arm sound
    refine ⟨query, compiled, counted, fun a node there => ⟨fun _ isArm => ?_, fun rust => ?_⟩⟩
    · rw [roots a node there isArm, (carriesValue_arm node).1 (Node.kind_of_namedKind? isArm)]
    · cases python.symm.trans rust
  · have arm : (file.language, "match_arm") ∈ armKinds := by simp [rust, armKinds]
    obtain ⟨query, compiled, counted, roots⟩ := exists_query_of_arm file arm sound
    refine ⟨query, compiled, counted, fun a node there => ⟨fun python => ?_, fun _ isArm => ?_⟩⟩
    · cases rust.symm.trans python
    · rw [roots a node there isArm, (carriesValue_arm node).2 (Node.kind_of_namedKind? isArm)]

/-! ## Wildcard arms -/

def inField (field : String) : Node → Node
  | .mk label children => .mk { label with field := some field } children

namespace RustArms

def source : String := "fn f() \x7b match x \x7b 1 => a, _ => b \x7d \x7d"

def node := Node.inText source

def valueArm : Node :=
  node "match_arm" true 19 26
    [inField "pattern" (node "match_pattern" true 19 20 [node "integer_literal" true 19 20 []]),
      node "=>" false 21 23 [], inField "value" (node "identifier" true 24 25 []),
      node "," false 25 26 []]

def wildcardArm : Node :=
  node "match_arm" true 27 33
    [inField "pattern" (node "match_pattern" true 27 28 [node "_" false 27 28 []]),
      node "=>" false 29 31 [], inField "value" (node "identifier" true 32 33 [])]

def file : ParsedFile where
  path := ⟨"f.rs"⟩
  language := .rust
  source := source
  root := node "source_file" true 0 37
    [node "function_item" true 0 37
      [node "fn" false 0 2 [], inField "name" (node "identifier" true 3 4 []),
        inField "parameters" (node "parameters" true 4 6 []),
        inField "body" (node "block" true 7 37
          [node "\x7b" false 7 8 [],
            node "expression_statement" true 9 35
              [node "match_expression" true 9 35
                [node "match" false 9 14 [], inField "value" (node "identifier" true 15 16 []),
                  inField "body" (node "match_block" true 17 35
                    [node "\x7b" false 17 18 [], valueArm, wildcardArm,
                      node "\x7d" false 34 35 []])]],
            node "\x7d" false 36 37 []])]]

end RustArms

attribute [local instance] sampleGrammars

open RustArms in
theorem arms_counted_two_arms :
    (file.language = .python ∨ file.language = .rust) ∧ Query.Cache.Sound {} ∧
      ∃ query, Query.compile .rust
          (Statement.assemble .rust (complexityStatements Registry.builtin)) = .ok query ∧
        (complexity.measure Registry.builtin file {}).1 =
          .ok (query.found source file.root).length ∧
        (∃ found ∈ query.found source file.root, found.root = [0, 3, 1, 0, 2, 1]) ∧
        ¬ ∃ found ∈ query.found source file.root, found.root = [0, 3, 1, 0, 2, 2] := by
  obtain ⟨query, compiled, counted, roots⟩ :=
    arms_counted file (.inr rfl) Query.Cache.sound_empty
  refine ⟨.inr rfl, Query.Cache.sound_empty, query, compiled, counted, ?_, ?_⟩
  · exact ((roots _ valueArm rfl).2 rfl rfl).mpr ⟨_, List.mem_cons_self, rfl, rfl, _,
      List.mem_cons_self, rfl⟩
  · exact fun rooted => absurd (((roots _ wildcardArm rfl).2 rfl rfl).mp rooted) (by decide)

/-- An arm of Python for a bare wildcard: it has one pattern, without named children, and no
guard. -/
def isWildcardArm (node : Node) : Bool :=
  node.namedKind? = some "case_clause" && (node.childByField? "guard").isNone &&
    match node.children.filter fun child => child.namedKind? = some "case_pattern" with
    | [pattern] => pattern.namedChildren.isEmpty
    | _ => false

namespace PythonArm

def source : String := "match x:\n    case _:\n        pass\n"

def node := Node.inText source

def arm : Node :=
  inField "alternative" (node "case_clause" true 13 33
    [node "case" false 13 17 [], node "case_pattern" true 18 19 [node "_" false 18 19 []],
      node ":" false 19 20 [],
      inField "consequence" (node "block" true 29 33
        [node "pass_statement" true 29 33 [node "pass" false 29 33 []]])])

def file : ParsedFile where
  path := ⟨"test.py"⟩
  language := .python
  source := source
  root := node "module" true 0 34
    [node "match_statement" true 0 33
      [node "match" false 0 5 [], inField "subject" (node "identifier" true 6 7 []),
        node ":" false 7 8 [], inField "body" (node "block" true 8 33 [arm])]]

end PythonArm

open PythonArm in
/-- The arm of a bare wildcard is the root of a match that complexity counts. -/
theorem wildcard_arm_counts :
    file.root.at? [0, 3, 0] = some arm ∧ isWildcardArm arm = true ∧
      ∃ query, Query.compile .python
          (Statement.assemble .python (complexityStatements Registry.builtin)) = .ok query ∧
        (complexity.measure Registry.builtin file {}).1 =
          .ok (query.found source file.root).length ∧
        ∃ found ∈ query.found source file.root, found.root = [0, 3, 0] := by
  obtain ⟨query, compiled, counted, roots⟩ := exists_query_of_arm file
    (List.mem_cons_self : (Language.python, "case_clause") ∈ armKinds) Query.Cache.sound_empty
  exact ⟨rfl, by decide, query, compiled, counted, (roots _ arm rfl rfl).mpr (by decide)⟩

end Metric

end SourceGauge
