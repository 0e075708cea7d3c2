/-
# SourceGauge.Proofs.Metric.Constructs -- each construct is counted once

Functions and classes are numbers of matches of queries that have a pattern for each kind and
written ones for what a kind alone does not tell.  A written pattern is told by a `Shape`: a kind,
a child that the node must have and a field that it must not.  The shapes of a language
exclude each other (`Shape.Apart`): their kinds differ, or the one asks for a child in a field that
the other asks to be absent, as for the enums of C++.  So no node is captured twice, and the
number of matches is the number of nodes that have a shape.

A block in the body of a Java class is captured below the root of its match.  It lies in one body
only and no function has its kind, so it counts once too.

* `constructs_counted_once`: what classes and functions are for a tree, and that no node is
  captured by two matches of their queries.
-/
import SourceGauge.Proofs.Metric.CaseLabels
import SourceGauge.Proofs.Query.Picks

namespace SourceGauge

set_option autoImplicit false

open Query (Apart Exclusive Pattern Tells TextPicks TextTells capturesOf countText isName testOf)

namespace Metric

/-! ## Shapes -/

/-- What a child must be: in a field, if one is given, and of a kind or, if none is given, any named
node but an error. -/
structure Part where
  field : Option String := none
  kind : Option String := none
  deriving DecidableEq, Repr

def Part.fits (part : Part) (child : Node) : Bool :=
  (part.field.isNone || child.label.field = part.field) &&
    match part.kind with
    | some kind => child.namedKind? = some kind
    | none => child.isValue

/-- What tells a construct: the kind of its node, a part that it must have and a field that no
child may fill. -/
structure Shape where
  kind : String
  part : Option Part := none
  absent : Option String := none
  deriving DecidableEq, Repr

namespace Shape

def holds (shape : Shape) (node : Node) : Bool :=
  node.namedKind? = some shape.kind &&
    (shape.part.all fun part => node.children.any part.fits) &&
    shape.absent.all fun field => (node.childByField? field).isNone

def ofKind (kind : String) : Shape := { kind := kind }

theorem holds_ofKind (kind : String) (node : Node) :
    (ofKind kind).holds node = decide (node.namedKind? = some kind) :=
  (Bool.and_true _).trans (Bool.and_true _)

def pattern (name : String) (shape : Shape) : Pattern :=
  .node {} (.named shape.kind) shape.absent.toList [name]
    (shape.part.map fun part =>
      .node { field := part.field } (part.kind.elim .anyNamed .named) [] [] []).toList

/-- The pattern of a part asks for a child that fits. -/
theorem holds_part (part : Part) (children : List Node) :
    Query.Slot.holds { field := part.field } (part.kind.elim Query.Test.anyNamed .named).accepts
      children = children.any part.fits := by
  have same : ∀ child : Node, part.fits child = (Query.Slot.fits { field := part.field } child &&
      (part.kind.elim Query.Test.anyNamed .named).accepts child) := by
    intro child
    obtain ⟨field, _ | kind⟩ := part
    · rfl
    · simp [Part.fits, Query.Slot.fits, Pattern.accepts_named_eq]
  simp [Query.Slot.holds, ← same]

theorem tells (name : String) (shape : Shape) :
    Tells (shape.pattern name) (capturesOf [name]) shape.holds := by
  obtain ⟨kind, part, absent⟩ := shape
  cases part with
  | none =>
      refine ((Tells.leaf {} (.named kind) [name]).without absent.toList).congr fun node => ?_
      cases absent <;> simp [holds, Pattern.accepts_named_eq]
  | some part =>
      have isPart := Tells.leaf { field := part.field } (part.kind.elim .anyNamed .named) []
      refine ((isPart.child {} (.named kind) [name]).without absent.toList).congr fun node => ?_
      rw [Pattern.slot, holds_part]
      cases absent <;> simp [holds, Pattern.accepts_named_eq]

/-- Shapes that no node has both of: their kinds differ, or the field of a part of the one is
absent from the other. -/
def Apart (shape other : Shape) : Prop :=
  shape.kind ≠ other.kind ∨
    ∃ part ∈ shape.part, part.field.isSome ∧ part.field = other.absent

instance (shape other : Shape) : Decidable (Apart shape other) :=
  inferInstanceAs (Decidable (_ ∨ _))

theorem Apart.exclusive {shape other : Shape} (apart : shape.Apart other) :
    Exclusive shape.holds other.holds := by
  intro node passes
  simp only [holds, Bool.and_eq_true, decide_eq_true_eq] at passes
  obtain ⟨⟨isKind, hasPart⟩, _⟩ := passes
  rcases apart with different | ⟨part, isPart, given, absent⟩
  · simp [holds, isKind, different]
  · obtain ⟨field, isField⟩ := Option.isSome_iff_exists.mp given
    simp only [Option.mem_def.mp isPart, Option.all_some, List.any_eq_true] at hasPart
    obtain ⟨child, mem, fits⟩ := hasPart
    have fills : (node.childByField? field).isSome = true := by
      rw [Node.childByField?, List.find?_isSome]
      refine ⟨child, mem, ?_⟩
      simpa [Part.fits, isField] using (Bool.and_eq_true_iff.mp fits).1
    simp [holds, ← absent, isField, fills]

end Shape

/-! ## Kinds and shapes of a language -/

def kindsOf (records : List Record) (language : Language) : List String :=
  (records.filter fun record => record.isActive language).map Record.kind

def typeKinds (language : Language) : List String :=
  kindsOf (Registry.builtin.inCategories Category.typeDefinitions) language

def functionKinds (language : Language) : List String :=
  kindsOf (Registry.builtin.inCategory .function) language

/-- The type definitions that a kind alone does not tell, with their languages. -/
def writtenShapes : List (List Language × Shape) :=
  [([.c, .cpp],
      { kind := "struct_specifier", part := some ⟨"body", "field_declaration_list"⟩ }),
    ([.c, .cpp],
      { kind := "union_specifier", part := some ⟨"body", "field_declaration_list"⟩ }),
    ([.cpp],
      { kind := "class_specifier", part := some ⟨"body", "field_declaration_list"⟩ }),
    ([.c, .cpp], { kind := "enum_specifier", part := some ⟨"body", "enumerator_list"⟩ }),
    ([.cpp], { kind := "enum_specifier", part := some ⟨"base", none⟩, absent := "body" }),
    ([.typescript, .tsx],
      { kind := "type_alias_declaration", part := some ⟨"value", "object_type"⟩ }),
    ([.java], { kind := "object_creation_expression", part := some ⟨none, "class_body"⟩ }),
    ([.php], { kind := "object_creation_expression", part := some ⟨none, "anonymous_class"⟩ })]

def writtenShapesOf (language : Language) : List Shape :=
  (writtenShapes.filter fun item => item.1.contains language).map (·.2)

def definesType (language : Language) (node : Node) : Bool :=
  (typeKinds language).any (fun kind => node.namedKind? = some kind) ||
    (writtenShapesOf language).any fun shape => shape.holds node

def isFunction (language : Language) (node : Node) : Bool :=
  (functionKinds language).any fun kind => node.namedKind? = some kind

/-- The number of blocks directly in a class body. -/
def initializerBlocks (root : Node) : Nat :=
  (root.entries.map fun entry =>
    if entry.2.namedKind? = some "class_body" then
      entry.2.children.countP fun child => child.namedKind? = some "block"
    else 0).sum

def typeShapes (language : Language) : List Shape :=
  (typeKinds language).map Shape.ofKind ++ writtenShapesOf language

def functionShapes (language : Language) : List Shape :=
  (functionKinds language).map Shape.ofKind ++
    if language = .java then [Shape.ofKind "block"] else []

/-- The kinds of the built-in registry are names, and its shapes exclude each other. -/
theorem shapes_builtin : ∀ language ∈ Language.all,
    (∀ kind ∈ typeKinds language ++ functionKinds language, isName kind = true ∧ kind ≠ "_") ∧
      (typeShapes language).Pairwise Shape.Apart ∧
      (functionShapes language).Pairwise Shape.Apart := by
  decide +kernel

/-! ## The texts of the statements -/

variable {language : Language}

theorem activeTexts_ofRecord (records : List Record) (language : Language) :
    Statement.activeTexts language (records.map .ofRecord) =
      (kindsOf records language).map fun kind => "(" ++ kind ++ ") @" ++ kind := by
  rw [Statement.activeTexts, kindsOf, List.filter_map, List.map_map, List.map_map]
  rfl

/-- The lines of kinds that are names. -/
theorem tells_kinds [OwnGrammars] {kinds : List String}
    (names : ∀ kind ∈ kinds, isName kind = true ∧ kind ≠ "_")
    (own : ∀ kind ∈ kinds, "(" ++ kind ++ ") @" ++ kind ∈ ownTexts language) :
    List.Forall₂ (TextTells language) (kinds.map fun kind => "(" ++ kind ++ ") @" ++ kind)
      ((kinds.map Shape.ofKind).map Shape.holds) := by
  rw [List.map_map, List.forall₂_map_left_iff, List.forall₂_map_right_iff, List.forall₂_same]
  intro kind mem
  obtain ⟨named, word⟩ := names kind mem
  have compiled := (Query.compile_own_iff (own kind mem)).mpr (Query.reads_kind named).read_eq
  refine ⟨_, kind, compiled, (Tells.leaf {} (testOf kind) [kind]).congr fun node => ?_⟩
  rw [Function.comp_apply, Shape.holds_ofKind, Bool.eq_iff_iff, accepts_testOf_iff word,
    decide_eq_true_iff]

theorem isActive_forLanguages (text : String) (languages : List Language) (language : Language) :
    (Statement.forLanguages text languages).isActive language = languages.contains language := by
  rw [Bool.eq_iff_iff, List.contains_iff_mem, ← Language.mem_sorted]
  simp [Statement.forLanguages, Statement.isActive, Statement.isApplicable, Statement.isActivated]

/-- Each written statement has the pattern of its shape. -/
theorem writtenTypes_shapes : List.Forall₂
    (fun item statement => ∃ text name, statement = Statement.forLanguages text item.1 ∧
      Query.Reads Query.everyKind text [⟨item.2.pattern name, []⟩]) writtenShapes writtenTypes := by
  exact .cons ⟨_, "struct_definition", rfl, Query.reads_ofList rfl⟩ <|
    .cons ⟨_, "union_definition", rfl, Query.reads_ofList rfl⟩ <|
    .cons ⟨_, "class_definition", rfl, Query.reads_ofList rfl⟩ <|
    .cons ⟨_, "enum_definition", rfl, Query.reads_ofList rfl⟩ <|
    .cons ⟨_, "enum_definition", rfl, Query.reads_ofList rfl⟩ <|
    .cons ⟨_, "object_type_alias", rfl, Query.reads_ofList rfl⟩ <|
    .cons ⟨_, "anonymous_class", rfl, Query.reads_ofList rfl⟩ <|
    .cons ⟨_, "anonymous_class", rfl, Query.reads_ofList rfl⟩ .nil

/-- The written statements that take part in queries of a language are those of its shapes. -/
theorem tells_written [OwnGrammars] (language : Language)
    (own : ∀ text ∈ Statement.activeTexts language writtenTypes, text ∈ ownTexts language) :
    List.Forall₂ (TextTells language) (Statement.activeTexts language writtenTypes)
      ((writtenShapesOf language).map Shape.holds) := by
  have written := writtenTypes_shapes
  unfold writtenShapesOf Statement.activeTexts at *
  generalize writtenShapes = shapes at written ⊢
  generalize writtenTypes = statements at written own ⊢
  induction written with
  | nil => exact .nil
  | @cons item statement _ _ first _ ih =>
      obtain ⟨text, name, rfl, reads⟩ := first
      rw [List.filter_cons, isActive_forLanguages] at own ⊢
      rw [List.filter_cons]
      split
      · next active =>
        rw [if_pos active, List.map_cons, List.forall_mem_cons] at own
        have compiled := (Query.compile_own_iff own.1).mpr reads.read_eq
        exact .cons ⟨_, name, compiled, item.2.tells name⟩ (ih own.2)
      · next idle =>
        rw [if_neg idle] at own
        exact ih own

/-! ## Texts of the library's own -/

theorem classStatements_subset_own : classStatements Registry.builtin ⊆ ownStatements :=
  fun _ mem => by simp [ownStatements, mem]

theorem functionStatements_subset_own : functionStatements Registry.builtin ⊆ ownStatements :=
  fun _ mem => by simp [ownStatements, mem]

theorem activeTexts_classStatements (language : Language) :
    Statement.activeTexts language (classStatements Registry.builtin) =
      (typeKinds language).map (fun kind => "(" ++ kind ++ ") @" ++ kind) ++
        Statement.activeTexts language writtenTypes := by
  rw [classStatements, Statement.activeTexts_append, activeTexts_ofRecord, typeKinds]

theorem tells_types [OwnGrammars] (language : Language) :
    List.Forall₂ (TextTells language)
      (Statement.activeTexts language (classStatements Registry.builtin))
      ((typeShapes language).map Shape.holds) := by
  have names := (shapes_builtin language (Language.mem_all language)).1
  have own : ∀ text ∈ Statement.activeTexts language (classStatements Registry.builtin),
      text ∈ ownTexts language := fun _ => mem_ownTexts_of_active classStatements_subset_own
  rw [activeTexts_classStatements] at own ⊢
  rw [typeShapes, List.map_append]
  refine List.rel_append (tells_kinds (fun kind mem => names kind (List.mem_append_left _ mem))
    fun kind mem => own _ (List.mem_append_left _ (List.mem_map_of_mem mem))) ?_
  exact tells_written language fun text mem => own text (List.mem_append_right _ mem)

/-- The query of initializer blocks picks the blocks. -/
theorem reads_initializerBlock : Query.Reads Query.everyKind initializerBlock.text
    [⟨.ofKind "class_body" [(Pattern.ofKind "block" []).capture "init_block"], []⟩] :=
  Query.reads_ofList rfl

theorem activeTexts_functionStatements (language : Language) :
    Statement.activeTexts language (functionStatements Registry.builtin) =
      (functionKinds language).map (fun kind => "(" ++ kind ++ ") @" ++ kind) ++
        if language = .java then [initializerBlock.text] else [] := by
  have active : initializerBlock.isActive language = decide (language = .java) := by
    cases language <;> rfl
  rw [functionStatements, Statement.activeTexts_append, activeTexts_ofRecord, functionKinds]
  rw [Statement.activeTexts, List.filter_singleton, active, Bool.cond_decide,
    apply_ite (List.map _)]
  rfl

theorem tells_functionKinds [OwnGrammars] (language : Language) :
    List.Forall₂ (TextTells language)
      ((functionKinds language).map fun kind => "(" ++ kind ++ ") @" ++ kind)
      (((functionKinds language).map Shape.ofKind).map Shape.holds) := by
  have names := (shapes_builtin language (Language.mem_all language)).1
  refine tells_kinds (fun kind mem => names kind (List.mem_append_right _ mem)) fun kind mem => ?_
  refine mem_ownTexts_of_active functionStatements_subset_own ?_
  rw [activeTexts_functionStatements]
  exact List.mem_append_left _ (List.mem_map_of_mem mem)

/-- Java compiles the query of initializer blocks. -/
theorem compile_initializerBlock [OwnGrammars] :
    Query.compile .java initializerBlock.text =
      .ok ⟨[⟨.ofKind "class_body" [(Pattern.ofKind "block" []).capture "init_block"], []⟩]⟩ := by
  refine (Query.compile_own_iff ?_).mpr reads_initializerBlock.read_eq
  refine mem_ownTexts_of_active functionStatements_subset_own ?_
  rw [activeTexts_functionStatements]
  exact List.mem_append_right _ (List.mem_singleton_self _)

theorem picks_functions [OwnGrammars] (language : Language) :
    List.Forall₂ (TextPicks language)
      (Statement.activeTexts language (functionStatements Registry.builtin))
      ((functionShapes language).map Shape.holds) := by
  rw [activeTexts_functionStatements, functionShapes, List.map_append]
  refine List.rel_append ((tells_functionKinds language).imp fun _ _ tells => tells.picks) ?_
  split
  · next java =>
    subst java
    have same : (Shape.ofKind "block").holds =
        fun node => decide (node.namedKind? = some "block") := funext (Shape.holds_ofKind "block")
    refine .cons ⟨_, compile_initializerBlock, ?_⟩ .nil
    rw [same]
    exact Query.picks_captured_child
  · exact .nil

theorem exclusive_holds {shapes : List Shape} (apart : shapes.Pairwise Shape.Apart) :
    (shapes.map Shape.holds).Pairwise Exclusive :=
  List.pairwise_map.mpr (apart.imp Shape.Apart.exclusive)

/-! ## Counts -/

theorem countEach_types [OwnGrammars] (file : ParsedFile) :
    countEach (classStatements Registry.builtin) file =
      file.root.entries.countP fun entry => definesType file.language entry.2 := by
  obtain ⟨_, apart, _⟩ := shapes_builtin file.language (Language.mem_all file.language)
  rw [countEach, Query.sum_countText_of_tells (tells_types file.language) (exclusive_holds apart)]
  simp only [typeShapes, List.any_append, definesType, List.any_map, Function.comp_def,
    Shape.holds_ofKind]

theorem countText_initializerBlock [OwnGrammars] (source : String) (root : Node) :
    countText .java source root initializerBlock.text = initializerBlocks root := by
  rw [countText, Query.clausesOf, compile_initializerBlock]
  exact Query.count_captured_child source root

theorem countEach_functions [OwnGrammars] (file : ParsedFile) :
    countEach (functionStatements Registry.builtin) file =
      (file.root.entries.countP fun entry => isFunction file.language entry.2) +
        if file.language = .java then initializerBlocks file.root else 0 := by
  obtain ⟨_, _, apart⟩ := shapes_builtin file.language (Language.mem_all file.language)
  have kinds := Query.sum_countText_of_tells (tells_functionKinds file.language)
    (exclusive_holds (List.pairwise_append.mp apart).1) file.source file.root
  rw [countEach, activeTexts_functionStatements, List.map_append, List.sum_append, kinds]
  simp only [List.any_map, Function.comp_def, Shape.holds_ofKind, isFunction]
  split
  · next java =>
    rw [List.map_singleton, List.sum_singleton, java, countText_initializerBlock]
  · rfl

/-- With the built-in registry no node of any tree is captured by two matches of the query of
classes, or of that of functions.  Classes are the type definitions: the nodes of a kind of these
and those of a written shape.  Functions are the nodes of their kinds and, in Java, the blocks
directly in a class body. -/
theorem constructs_counted_once [OwnGrammars] (file : ParsedFile) {cache : Query.Cache}
    (sound : cache.Sound) :
    (∃ query, Query.compile file.language
        (Statement.assemble file.language (classStatements Registry.builtin)) = .ok query ∧
      Apart (query.found file.source file.root)) ∧
    (∃ query, Query.compile file.language
        (Statement.assemble file.language (functionStatements Registry.builtin)) = .ok query ∧
      Apart (query.found file.source file.root)) ∧
    (classes.measure Registry.builtin file cache).1 =
      .ok (file.root.entries.countP fun entry => definesType file.language entry.2) ∧
    (functions.measure Registry.builtin file cache).1 =
      .ok ((file.root.entries.countP fun entry => isFunction file.language entry.2) +
        if file.language = .java then initializerBlocks file.root else 0) := by
  obtain ⟨_, typesApart, functionsApart⟩ :=
    shapes_builtin file.language (Language.mem_all file.language)
  have types := (tells_types file.language).imp fun _ _ tells => tells.picks
  have functions := picks_functions file.language
  refine ⟨Query.exists_compile_join_apart types (exclusive_holds typesApart) ..,
    Query.exists_compile_join_apart functions (exclusive_holds functionsApart) .., ?_, ?_⟩
  · rw [← countEach_types]
    exact countStatements_of_each sound (.of_texts (Query.compiles_of_picks types))
  · rw [← countEach_functions]
    exact countStatements_of_each sound (.of_texts (Query.compiles_of_picks functions))

/-! ## A class in a class -/

namespace ClassInClass

def source : String :=
  "class A \x7b \x7b f(); \x7d void f() \x7b \x7d B b = new B() \x7b \x7b \x7d \x7d; \x7d"

def node := Node.inText source

def object : Node :=
  node "object_creation_expression" true 38 53
    [node "new" false 38 41 [], node "type_identifier" true 42 43 [],
      node "argument_list" true 43 45 [node "(" false 43 44 [], node ")" false 44 45 []],
      node "class_body" true 46 53
        [node "\x7b" false 46 47 [],
          node "block" true 48 51 [node "\x7b" false 48 49 [], node "\x7d" false 50 51 []],
          node "\x7d" false 52 53 []]]

def file : ParsedFile where
  path := ⟨"A.java"⟩
  language := .java
  source := source
  root := node "program" true 0 56
    [node "class_declaration" true 0 56
      [node "class" false 0 5 [], node "identifier" true 6 7 [],
        node "class_body" true 8 56
          [node "\x7b" false 8 9 [],
            node "block" true 10 18
              [node "\x7b" false 10 11 [],
                node "expression_statement" true 12 16
                  [node "method_invocation" true 12 15
                    [node "identifier" true 12 13 [], node "argument_list" true 13 15 []],
                    node ";" false 15 16 []],
                node "\x7d" false 17 18 []],
            node "method_declaration" true 19 31
              [node "void_type" true 19 23 [], node "identifier" true 24 25 [],
                node "formal_parameters" true 25 27 [],
                node "block" true 28 31 [node "\x7b" false 28 29 [], node "\x7d" false 30 31 []]],
            node "field_declaration" true 32 54
              [node "type_identifier" true 32 33 [],
                node "variable_declarator" true 34 53
                  [node "identifier" true 34 35 [], node "=" false 36 37 [], object],
                node ";" false 53 54 []],
            node "\x7d" false 55 56 []]]]

end ClassInClass

attribute [local instance] sampleGrammars

open ClassInClass in
theorem constructs_counted_once_class_in_class :
    Query.Cache.Sound {} ∧
      (∃ query, Query.compile .java
          (Statement.assemble .java (classStatements Registry.builtin)) = .ok query ∧
        Apart (query.found source file.root)) ∧
      (∃ query, Query.compile .java
          (Statement.assemble .java (functionStatements Registry.builtin)) = .ok query ∧
        Apart (query.found source file.root)) ∧
      (classes.measure Registry.builtin file {}).1 = .ok 2 ∧
      (functions.measure Registry.builtin file {}).1 = .ok 3 := by
  have types : (file.root.entries.countP fun entry => definesType .java entry.2) = 2 := by
    decide +kernel
  have functions : (file.root.entries.countP fun entry => isFunction .java entry.2) +
      initializerBlocks file.root = 3 := by decide +kernel
  obtain ⟨typesApart, functionsApart, typesCounted, functionsCounted⟩ :=
    constructs_counted_once file Query.Cache.sound_empty
  exact ⟨Query.Cache.sound_empty, typesApart, functionsApart, types ▸ typesCounted,
    functions ▸ functionsCounted⟩

end Metric

end SourceGauge
