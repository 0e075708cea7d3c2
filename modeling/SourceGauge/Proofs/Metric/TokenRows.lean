/-
# SourceGauge.Proofs.Metric.TokenRows -- no row with a token is lost

A token is a leaf below the root that has a text.  The row that it begins on is a row of code,
unless the token is in a comment; then the comment is captured, if its own line is in the query,
and the row is one of those that the comment holds, also where the comment ends with its line
break (`row_le_lastRow`).

Held is not yet counted: the count passes over rows that lie above what was counted before.  But
comments are reported where their match is complete, and whatever else a query captures stands no
later than that.  So no node that is reported before the comment starts below the token
(`reaches_of_found`), and the rows that are reached in this way are counted (`card_le_countRows`).

* `tokenRows_le`: there are no more rows with a token than lines of comments and lines of code, if
  each comment statement compiles by itself.
* `joined_line_loses_row`: lines that make up one pattern together can capture nothing at all.
-/
import SourceGauge.Proofs.Metric.CodeRows
import SourceGauge.Proofs.Metric.CommentRows
import SourceGauge.Proofs.Metric.Counts
import SourceGauge.Proofs.Query.Completed

namespace SourceGauge

set_option autoImplicit false

open Text (Place)

namespace Metric

/-! ## The last row of a node -/

/-- A token that begins before a node ends is not below the last row of the node. -/
theorem row_le_lastRow {source : String} {root leaf node : Node} (placed : root.PlacedIn source)
    {a b : Address} (foundLeaf : root.at? a = some leaf) (foundNode : root.at? b = some node)
    (before : leaf.start.byte < node.stop.byte) (within : leaf.start.row ≤ node.stop.row) :
    leaf.start.row ≤ lastRow node := by
  have here := (placed (a, leaf) (Node.mem_entries_iff.mpr foundLeaf)).1
  have there := (placed (b, node) (Node.mem_entries_iff.mpr foundNode)).2
  unfold lastRow
  split
  · next ends => exact Nat.le_sub_one_of_lt (Place.row_lt_of_byte_lt here there before ends.1)
  · exact within

/-! ## Rows that the count reaches -/

/-- Counting reaches a row: some node holds it, and no node before that one starts below the row. -/
def Reaches (row : Nat) : List Node → Prop
  | [] => False
  | node :: rest => node.start.row ≤ row ∧ (row ≤ lastRow node ∨ Reaches row rest)

theorem reaches_append {row : Nat} {before after : List Node} {node : Node}
    (starts : ∀ other ∈ before, other.start.row ≤ row) (since : node.start.row ≤ row)
    (upTo : row ≤ lastRow node) : Reaches row (before ++ node :: after) := by
  induction before with
  | nil => exact ⟨since, Or.inl upTo⟩
  | cons first rest ih =>
      obtain ⟨start, others⟩ := List.forall_mem_cons.mp starts
      exact ⟨start, Or.inr (ih others)⟩

theorem exists_mem_of_reaches {row : Nat} {nodes : List Node} (reached : Reaches row nodes) :
    ∃ node ∈ nodes, node.start.row ≤ row ∧ row ≤ lastRow node := by
  induction nodes with
  | nil => exact reached.elim
  | cons node rest ih =>
      rcases reached with ⟨since, upTo | later⟩
      · exact ⟨node, List.mem_cons_self, since, upTo⟩
      · obtain ⟨other, mem, held⟩ := ih later
        exact ⟨other, List.mem_cons_of_mem _ mem, held⟩

/-- Rows that are reached beyond the last row counted are counted. -/
theorem card_le_countRows {nodes : List Node} {counted : Option Nat} {held : Finset Nat}
    (reached : ∀ row ∈ held, Reaches row nodes ∧ counted.all (· < row) = true) :
    held.card ≤ countRows counted nodes := by
  induction nodes generalizing counted held with
  | nil =>
      have none : held = ∅ :=
        Finset.eq_empty_iff_forall_notMem.mpr fun row mem => (reached row mem).1
      rw [none, Finset.card_empty]
      exact Nat.zero_le _
  | cons node rest ih =>
      have first : ∀ row ∈ held, firstUncounted counted node.start.row ≤ row := fun row mem =>
        firstUncounted_le_iff.mpr ⟨(reached row mem).1.1, (reached row mem).2⟩
      rw [countRows_cons]
      split
      · next new =>
        have own : (held.filter fun row => row ≤ lastRow node) ⊆
            Finset.Icc (firstUncounted counted node.start.row) (lastRow node) := by
          intro row mem
          obtain ⟨among, upTo⟩ := Finset.mem_filter.mp mem
          exact Finset.mem_Icc.mpr ⟨first row among, upTo⟩
        have later : (held.filter fun row => ¬ row ≤ lastRow node).card ≤
            countRows (some (lastRow node)) rest := by
          refine ih fun row mem => ?_
          obtain ⟨among, past⟩ := Finset.mem_filter.mp mem
          exact ⟨(reached row among).1.2.resolve_left past, by simpa using past⟩
        have ownCard := Finset.card_le_card own
        rw [Nat.card_Icc] at ownCard
        have parts := Finset.card_filter_add_card_filter_not (s := held)
          (fun row => row ≤ lastRow node)
        omega
      · next old =>
        refine ih fun row mem => ⟨(reached row mem).1.2.resolve_left ?_, (reached row mem).2⟩
        exact fun upTo => old ((first row mem).trans upTo)

/-! ## The comments of a query put together -/

section Tokens

variable {registry : Registry} {file : ParsedFile} {cache : Query.Cache}

/-- The clauses of the comment query, statement by statement. -/
def commentClauses [Grammars] (registry : Registry) (language : Language) : List Query.Clause :=
  (Statement.activeTexts language (commentStatements registry)).flatMap (Query.clausesOf language)

/-- Comment statements that compile by themselves compile together. -/
theorem commentNodes_of_each [Grammars] (sound : cache.Sound)
    (each : Statement.EachCompiles file.language (commentStatements registry)) :
    (commentNodes registry file cache).1 =
      .ok (firstCaptures ⟨commentClauses registry file.language⟩ file) := by
  obtain ⟨found, built, clauses⟩ := Query.Cache.exists_buildAlone each
  have nothing : firstCaptures ⟨[]⟩ file = [] := by
    simp [firstCaptures, Query.allMatches, Query.found, Query.matchesAt]
  rw [commentNodes_eq, Query.Cache.build_fst sound, built, commentClauses, ← clauses]
  cases found with
  | none => exact congrArg Except.ok nothing.symm
  | some query => rfl

theorem mem_commentClauses [Grammars] {language : Language} {statement : Statement}
    {clauses : List Query.Clause}
    (each : Statement.EachCompiles language (commentStatements registry))
    (mem : statement ∈ commentStatements registry) (active : statement.isActive language = true)
    (reads : Query.Reads Query.everyKind statement.text clauses) {clause : Query.Clause}
    (among : clause ∈ clauses) : clause ∈ commentClauses registry language := by
  refine List.mem_flatMap.mpr ⟨statement.text, ?_, ?_⟩
  · exact List.mem_map_of_mem (List.mem_filter.mpr ⟨mem, active⟩)
  · rw [Query.clausesOf_eq reads (each statement mem active)]
    exact among

/-- What makes a comment is on named nodes only, and a comment kind that a node has is a name. -/
structure NamesComments (registry : Registry) (language : Language) (root : Node) : Prop where
  comment : ∀ a node, root.at? a = some node →
    node.kind ∈ registry.activeKinds .comment language →
      node.isNamed = true ∧ Query.isName node.kind = true ∧ node.kind ≠ "_"
  docstring : language = .python → ∀ a node, root.at? a = some node →
    node.kind = "expression_statement" ∨ node.kind = "string" → node.isNamed = true

theorem docstringChild?_of_isDocstring {root node : Node} {b : Address}
    (named : ∀ a node, root.at? a = some node →
      node.kind = "expression_statement" ∨ node.kind = "string" → node.isNamed = true)
    (there : root.at? b = some node) (docstring : node.isDocstring = true) :
    node.docstringChild? = some 0 ∧ node.children.length = 1 := by
  simp only [Node.isDocstring, Bool.and_eq_true, decide_eq_true_eq] at docstring
  obtain ⟨statement, alone⟩ := docstring
  split at alone
  · next child only =>
    have isString : child.kind = "string" := of_decide_eq_true alone
    have below : root.at? (b ++ [0]) = some child := by
      simp [Node.at?_append, there, Node.at?_cons, only]
    have whole := named b node there (.inl statement)
    have inner := named (b ++ [0]) child below (.inr isString)
    refine ⟨?_, by rw [only]; rfl⟩
    simp [Node.docstringChild?, Node.namedKind?, whole, statement, Query.positioned, only, inner,
      isString]
  · cases alone

/-- A comment that is left out of the code is captured by a match that is complete at the comment or
at its only child. -/
theorem exists_found_of_isComment [Grammars] {language : Language} {root : Node}
    {source : String}
    (each : Statement.EachCompiles language (commentStatements registry))
    (names : NamesComments registry language root) {b : Address} {node : Node}
    (there : root.at? b = some node) (comment : isComment registry language node = true) :
    ∃ found ∈ Query.found ⟨commentClauses registry language⟩ source root,
      found.captures.head?.map Query.Capture.node = some node ∧
        (found.completed = b ∨ node.children.length = 1 ∧ found.completed = b ++ [0]) := by
  have numbered : ∀ {pattern : Query.Pattern} {fit : Query.Fit},
      ⟨pattern, []⟩ ∈ commentClauses registry language →
      fit ∈ Query.distinct (pattern.findAt b node) →
        ∃ number, (⟨fit, b, node, number⟩ : Query.Match) ∈
          Query.found ⟨commentClauses registry language⟩ source root := by
    intro pattern fit mem fits
    obtain ⟨number, has⟩ := List.mem_iff_getElem?.mp mem
    exact ⟨number, Query.mem_found_iff.mpr
      ⟨there, _, has, List.mem_filter.mpr ⟨fits, rfl⟩⟩⟩
  simp only [isComment, Bool.or_eq_true, Bool.and_eq_true, decide_eq_true_eq,
    List.contains_iff_mem] at comment
  rcases comment with ofKind | ⟨python, docstring⟩
  · obtain ⟨isNamed, name, word⟩ := names.comment b node there ofKind
    obtain ⟨record, active, kind⟩ := List.mem_map.mp ofKind
    obtain ⟨inCategory, isActive⟩ := List.mem_filter.mp active
    have mem := mem_commentClauses each
      (List.mem_append_left _ (List.mem_map_of_mem inCategory)) isActive
      (Query.reads_kind (kind ▸ name)) List.mem_cons_self
    have accepted : (Query.testOf record.kind).accepts node = true := by
      rw [kind, accepts_testOf_iff word, Node.namedKind?, if_pos isNamed]
    obtain ⟨number, found⟩ := numbered mem (Query.mem_distinct_ofName_iff.mpr ⟨accepted, rfl⟩)
    exact ⟨_, found, rfl, Or.inl rfl⟩
  · subst python
    obtain ⟨string, alone⟩ := docstringChild?_of_isDocstring (names.docstring rfl) there docstring
    have mem := mem_commentClauses each (List.mem_append_right _ List.mem_cons_self) rfl
      reads_docstring List.mem_cons_self
    obtain ⟨number, found⟩ := numbered mem
      (Query.mem_distinct_docstring_iff.mpr ⟨0, string, rfl⟩)
    exact ⟨_, found, rfl, Or.inr ⟨alone, rfl⟩⟩

/-- A node with one child has every leaf below it at the child or below that. -/
theorem prefix_of_leaf {root node leaf : Node} {a b : Address} (there : root.at? b = some node)
    (found : root.at? a = some leaf) (below : b <+: a) (childless : leaf.children = [])
    (alone : node.children.length = 1) : b ++ [0] <+: a := by
  obtain ⟨rest, rfl⟩ := below
  rw [Node.at?_append, there, Option.bind_some] at found
  cases rest with
  | nil =>
      cases found
      rw [childless] at alone
      cases alone
  | cons i rest =>
      obtain ⟨child, isChild, _⟩ := Option.bind_eq_some_iff.mp found
      have first : i = 0 := by
        have within := (List.getElem?_eq_some_iff.mp isChild).1
        omega
      exact ⟨rest, by simp [first]⟩

/-- Counting reaches the rows of the tokens of a comment that is captured: what is reported before
it is complete no later, so it stands before the token. -/
theorem reaches_of_found {query : Query} (nested : file.root.NestedBy Place.row)
    {found : Query.Match} (mem : found ∈ query.found file.source file.root)
    {node leaf : Node} (captured : found.captures.head?.map Query.Capture.node = some node)
    {a : Address} (foundLeaf : file.root.at? a = some leaf)
    (complete : a.lt found.completed = false) (since : node.start.row ≤ leaf.start.row)
    (upTo : leaf.start.row ≤ lastRow node) :
    Reaches leaf.start.row (firstCaptures query file) := by
  obtain ⟨before, after, split⟩ := List.append_of_mem (Query.mem_allMatches_iff.mpr mem)
  have sorted := Query.pairwise_allMatches query file.source file.root
  rw [split, List.pairwise_append] at sorted
  rw [firstCaptures, split, List.filterMap_append, List.filterMap_cons, captured]
  refine reaches_append (fun other isOther => ?_) since upTo
  obtain ⟨earlier, among, first⟩ := List.mem_filterMap.mp isOther
  obtain ⟨capture, head, rfl⟩ := Option.map_eq_some_iff.mp first
  have memEarlier : earlier ∈ query.found file.source file.root :=
    Query.mem_allMatches_iff.mp (split ▸ List.mem_append_left _ among)
  obtain ⟨foundOther, notAfter⟩ :=
    Query.completed_not_lt_of_mem_found memEarlier (List.mem_of_head? head)
  have inOrder := completed_not_lt_of_precedes (sorted.2.2 earlier among found List.mem_cons_self)
  -- in order: the other node, the place where its match is complete, that of this one, the token
  have notAfterLeaf := Address.not_lt_trans (Address.not_lt_trans notAfter inOrder) complete
  by_cases same : capture.address = a
  · rw [same, foundLeaf] at foundOther
    cases foundOther
    exact le_rfl
  · rcases Address.lt_or_lt same with earlierThanLeaf | later
    · exact nested.start_le_of_lt foundOther foundLeaf earlierThanLeaf
    · rw [later] at notAfterLeaf
      cases notAfterLeaf

/-! ## Rows of tokens -/

/-- A token of a tree: a leaf below the root that has a text. -/
structure TokenAt (root : Node) (a : Address) (leaf : Node) : Prop where
  found : root.at? a = some leaf
  below : a ≠ []
  childless : leaf.children = []
  solid : leaf.start.byte < leaf.stop.byte

/-- The rows on which a token of a tree begins. -/
def tokenRows (root : Node) : Finset Nat :=
  ((root.entries.filter fun entry => !entry.1.isEmpty && entry.2.children.isEmpty &&
    decide (entry.2.start.byte < entry.2.stop.byte)).map fun entry => entry.2.start.row).toFinset

theorem mem_tokenRows_iff {root : Node} {row : Nat} :
    row ∈ tokenRows root ↔ ∃ a leaf, TokenAt root a leaf ∧ leaf.start.row = row := by
  simp only [tokenRows, List.mem_toFinset, List.mem_map, List.mem_filter, Prod.exists,
    Node.mem_entries_iff, Bool.and_eq_true, Bool.not_eq_true', decide_eq_true_eq,
    List.isEmpty_iff, List.isEmpty_eq_false_iff]
  constructor
  · rintro ⟨a, leaf, ⟨found, ⟨below, childless⟩, solid⟩, here⟩
    exact ⟨a, leaf, ⟨found, below, childless, solid⟩, here⟩
  · rintro ⟨a, leaf, ⟨found, below, childless, solid⟩, here⟩
    exact ⟨a, leaf, ⟨found, ⟨below, childless⟩, solid⟩, here⟩

/-- A token begins on a row of code, or counting the rows of comments reaches its row. -/
theorem codeRow_or_reaches [Grammars]
    (each : Statement.EachCompiles file.language (commentStatements registry))
    (nested : file.root.Nested) (placed : file.root.PlacedIn file.source)
    (names : NamesComments registry file.language file.root) {a : Address} {leaf : Node}
    (token : TokenAt file.root a leaf) :
    leaf.start.row ∈ codeRowsOf (isComment registry file.language) file.root.children ∨
      Reaches leaf.start.row
        (firstCaptures ⟨commentClauses registry file.language⟩ file) := by
  by_cases outside : OutsideComments (isComment registry file.language) file.root a
  · exact Or.inl (mem_codeRowsOf_children_iff.mpr
      ⟨a, leaf, token.below, token.found, outside, Or.inl rfl⟩)
  · simp only [OutsideComments, not_forall, Bool.not_eq_false] at outside
    obtain ⟨b, node, _, above, there, comment⟩ := outside
    obtain ⟨found, mem, captured, complete⟩ := exists_found_of_isComment each names there comment
    have rows := nested.byRows placed
    have inRows := rows.within_of_prefix there token.found above
    have inBytes := nested.byBytes.within_of_prefix there token.found above
    have leafRows := (rows.laid token.found).start_le_stop
    -- the match is complete at the comment or at its only child, both on the way to the token
    have notAfter : a.lt found.completed = false := by
      rcases complete with here | ⟨alone, below⟩
      · exact here ▸ Address.not_lt_of_prefix above
      · exact below ▸ Address.not_lt_of_prefix
          (prefix_of_leaf there token.found above token.childless alone)
    exact Or.inr (reaches_of_found rows mem captured token.found notAfter inRows.1
      (row_le_lastRow placed token.found there (token.solid.trans_le inBytes.2)
        (leafRows.trans inRows.2)))

/-- Each row on which a token begins is held by a captured comment or is a row of code, and there
are no more of these rows than lines of comments and lines of code.  The cache is sound, the
comment statements that are active in the language compile by themselves, and the tree is nested,
has the places of its text, and has what makes a comment on named nodes only. -/
theorem tokenRows_le [Grammars] (sound : cache.Sound)
    (each : Statement.EachCompiles file.language (commentStatements registry))
    (nested : file.root.Nested) (placed : file.root.PlacedIn file.source)
    (names : NamesComments registry file.language file.root) :
    ∃ nodes comments code,
      (commentNodes registry file cache).1 = .ok nodes ∧
      (commentLines.measure registry file cache).1 = .ok comments ∧
      (realLinesOfCode.measure registry file cache).1 = .ok code ∧
      ∃ rows : Finset Nat,
        (∀ row, row ∈ rows ↔ ∃ a leaf, TokenAt file.root a leaf ∧ leaf.start.row = row) ∧
        (∀ row ∈ rows, (∃ node ∈ nodes, node.start.row ≤ row ∧ row ≤ lastRow node) ∨
          row ∈ codeRowsOf (isComment registry file.language) file.root.children) ∧
        rows.card ≤ comments + code := by
  have captured := commentNodes_of_each sound each
  have told : ∀ row ∈ tokenRows file.root,
      row ∈ codeRowsOf (isComment registry file.language) file.root.children ∨
        Reaches row (firstCaptures ⟨commentClauses registry file.language⟩ file) := by
    intro row mem
    obtain ⟨a, leaf, token, rfl⟩ := mem_tokenRows_iff.mp mem
    exact codeRow_or_reaches each nested placed names token
  refine ⟨_, _, _, captured, (measure_of_commentNodes captured).1, rfl, tokenRows file.root,
    fun row => mem_tokenRows_iff, fun row mem => ?_, ?_⟩
  · exact (told row mem).symm.imp_left exists_mem_of_reaches
  · let code := (codeRowsOf (isComment registry file.language) file.root.children).toFinset
    have commented : (tokenRows file.root \ code).card ≤
        countRows none (firstCaptures ⟨commentClauses registry file.language⟩ file) := by
      refine card_le_countRows fun row mem => ?_
      obtain ⟨among, plain⟩ := Finset.mem_sdiff.mp mem
      exact ⟨(told row among).resolve_left fun isCode => plain (List.mem_toFinset.mpr isCode), rfl⟩
    have real : code.card = realLines registry file := by
      rw [realLines, Coupling.length_eraseDups]
    have parts := Finset.card_le_card_sdiff_add_card (s := tokenRows file.root) (t := code)
    omega

end Tokens

/-! ## A comment that ends with its line break -/

theorem NamesComments.ofEntries {registry : Registry} {language : Language} {root : Node}
    (comment : ∀ entry ∈ root.entries, entry.2.kind ∈ registry.activeKinds .comment language →
      entry.2.isNamed = true ∧ Query.isName entry.2.kind = true ∧ entry.2.kind ≠ "_")
    (other : language ≠ .python) : NamesComments registry language root where
  comment := fun a node found => comment (a, node) (Node.mem_entries_iff.mpr found)
  docstring := fun python => absurd python other

namespace DocComment

def source : String := "/// a\nstruct S;\n"

def node := Node.inText source

def comments : Registry := ⟨[⟨"line_comment", .comment, [.rust], [], none, none⟩]⟩

def file : ParsedFile where
  path := ⟨"a.rs"⟩
  language := .rust
  source := source
  root := node "source_file" true 0 16
    [node "line_comment" true 0 6
      [node "//" false 0 2 [],
        node "outer_doc_comment_marker" true 2 3 [node "/" false 2 3 []],
        node "doc_comment" true 3 6 []],
      node "struct_item" true 6 15
        [node "struct" false 6 12 [], node "type_identifier" true 13 14 [],
          node ";" false 14 15 []]]

end DocComment

attribute [local instance] sampleGrammars

open DocComment in
theorem tokenRows_le_doc_comment :
    (commentLines.measure comments file {}).1 = .ok 1 ∧
      (realLinesOfCode.measure comments file {}).1 = .ok 1 ∧ tokenRows file.root = {0, 1} ∧
      ∃ nodes, (commentNodes comments file {}).1 = .ok nodes ∧ ∀ row ∈ tokenRows file.root,
        (∃ node ∈ nodes, node.start.row ≤ row ∧ row ≤ lastRow node) ∨
          row ∈ codeRowsOf (isComment comments file.language) file.root.children := by
  have each : Statement.EachCompiles file.language (commentStatements comments) := by
    decide +kernel
  have names : NamesComments comments file.language file.root := .ofEntries (by decide) (by decide)
  obtain ⟨nodes, _, _, captured, _, _, rows, tells, held, _⟩ :=
    tokenRows_le Query.Cache.sound_empty each (by decide) (by decide) names
  have same : rows = tokenRows file.root := by
    ext row
    rw [tells, mem_tokenRows_iff]
  have read : (commentNodes comments file {}).1.toOption.map (countRows none) = some 1 := by
    simp only [commentNodes_eq, firstCaptures, Query.allMatches_eq_insertionSort]
    decide +kernel
  obtain ⟨_, again, one⟩ := exists_commentNodes_of_map read
  exact ⟨one ▸ (measure_of_commentNodes again).1, by rfl, by decide, nodes, captured, same ▸ held⟩

/-! ## Lines that make up one pattern -/

namespace JoinedLines

def source : String := "const y = 1;\n"

def node := Node.inText source

/-- A registry of comments.  The line of the first leaves a bracket open, the line of the last
closes it. -/
def comments : Registry :=
  ⟨[⟨"program ;", .comment, [.javascript], [], none, none⟩,
    ⟨"lexical_declaration", .comment, [.javascript], [], none, none⟩,
    ⟨"expression_statement)) ;", .comment, [.javascript], [], none, none⟩]⟩

def file : ParsedFile where
  path := ⟨"a.js"⟩
  language := .javascript
  source := source
  root := node "program" true 0 13
    [node "lexical_declaration" true 0 12
      [node "const" false 0 5 [],
        node "variable_declarator" true 6 11
          [node "identifier" true 6 7 [], node "=" false 8 9 [], node "number" true 10 11 []],
        node ";" false 11 12 []]]

end JoinedLines

open JoinedLines in
/-- The query asks for a declaration before an expression.  There is none, so nothing is captured;
and the declaration is left out of the code. -/
theorem joined_line_loses_row :
    file.root.Nested ∧ file.root.PlacedIn source ∧
      NamesComments comments file.language file.root ∧
      Query.Key.Compiles
        (file.language, Statement.assemble file.language (commentStatements comments)) ∧
      (commentLines.measure comments file {}).1 = .ok 0 ∧
      (realLinesOfCode.measure comments file {}).1 = .ok 0 ∧
      ∃ leaf, TokenAt file.root [0, 0] leaf ∧ leaf.start.row = 0 := by
  have read : (commentNodes comments file {}).1.toOption.map (countRows none) = some 0 := by
    simp only [commentNodes_eq, firstCaptures, Query.allMatches_eq_insertionSort]
    decide +kernel
  obtain ⟨_, captured, none⟩ := exists_commentNodes_of_map read
  exact ⟨by decide, by decide, .ofEntries (by decide) (by decide), by decide +kernel,
    none ▸ (measure_of_commentNodes captured).1, by rfl, node "const" false 0 5 [],
    ⟨rfl, by decide, rfl, by decide⟩, rfl⟩

end Metric

end SourceGauge
