/-
# SourceGauge.Proofs.Metric.CommentRows -- each row of comments is counted once

Rows of comments are counted in one pass that remembers the last row counted.  What it gives is the
number of rows that the nodes hold, if no node starts above the one before it
(`countRows_eq_card`): then all rows of a node up to the last row counted were counted already.

Comments are reported in this order (`pairwise_firstCaptures`).  A match is reported where it is
complete.  For a node captured by its kind that is the node itself, and nodes in pre-order start one
below the other.  A string statement of Python is reported only at its string, so what it
holds before the string must not be captured (`StringsLead`); what shares the place of the
string is reported after the statement, being deeper.

* `commentLines_eq_card`: where the comment kinds are names, the lines of comments are the rows
  that captured nodes hold, each counted once.
* `program_rows_missed`: a kind that is no name can have a whole program reported after a comment
  in it.
-/
import Mathlib.Order.Interval.Finset.Nat
import SourceGauge.Proofs.Metric.CommentNodes
import SourceGauge.Proofs.Text.Places

namespace SourceGauge

set_option autoImplicit false

open Text (Place)

namespace Metric

/-! ## One pass over nodes -/

/-- The rows that some nodes hold, each from its first row to its last. -/
def heldRows : List Node → Finset Nat
  | [] => ∅
  | node :: rest => Finset.Icc node.start.row (lastRow node) ∪ heldRows rest

theorem mem_heldRows_iff {nodes : List Node} {row : Nat} :
    row ∈ heldRows nodes ↔ ∃ node ∈ nodes, node.start.row ≤ row ∧ row ≤ lastRow node := by
  induction nodes with
  | nil => simp [heldRows]
  | cons node rest ih => simp [heldRows, ih]

/-- The first row from `start` on that is beyond the last row counted. -/
def firstUncounted (counted : Option Nat) (start : Nat) : Nat :=
  match counted with
  | some last => if start ≤ last then last + 1 else start
  | none => start

theorem firstUncounted_le_iff {counted : Option Nat} {start row : Nat} :
    firstUncounted counted start ≤ row ↔ start ≤ row ∧ counted.all (· < row) = true := by
  cases counted with
  | none => simp [firstUncounted]
  | some last =>
      simp only [firstUncounted, Option.all_some, decide_eq_true_eq]
      split <;> omega

theorem countRows_cons (counted : Option Nat) (node : Node) (rest : List Node) :
    countRows counted (node :: rest) =
      if firstUncounted counted node.start.row ≤ lastRow node then
        (lastRow node - firstUncounted counted node.start.row + 1) +
          countRows (some (lastRow node)) rest
      else countRows counted rest := by
  cases counted <;> rfl

def beyond (counted : Option Nat) (rows : Finset Nat) : Finset Nat :=
  rows.filter fun row => counted.all (· < row)

theorem mem_beyond_iff {counted : Option Nat} {rows : Finset Nat} {row : Nat} :
    row ∈ beyond counted rows ↔ row ∈ rows ∧ counted.all (· < row) = true :=
  Finset.mem_filter

theorem beyond_none (rows : Finset Nat) : beyond none rows = rows :=
  Finset.filter_true_of_mem fun _ _ => rfl

/-- What a node holds beyond the last row counted. -/
theorem beyond_Icc (counted : Option Nat) (start last : Nat) :
    beyond counted (Finset.Icc start last) = Finset.Icc (firstUncounted counted start) last := by
  ext row
  rw [mem_beyond_iff, Finset.mem_Icc, Finset.mem_Icc, firstUncounted_le_iff, and_right_comm]

/-- Beyond the rows of a node there is nothing else up to its last row, if what comes after does
not start above it. -/
theorem beyond_union {counted : Option Nat} {start last : Nat} {rows : Finset Nat}
    (starts : ∀ row ∈ rows, start ≤ row) (new : firstUncounted counted start ≤ last) :
    beyond counted (Finset.Icc start last ∪ rows) =
      Finset.Icc (firstUncounted counted start) last ∪ beyond (some last) rows := by
  have later : ∀ row, last < row → counted.all (· < row) = true := by
    intro row past
    exact (firstUncounted_le_iff.mp (new.trans past.le)).2
  ext row
  rw [Finset.mem_union, mem_beyond_iff, mem_beyond_iff, Finset.mem_union, Finset.mem_Icc,
    Finset.mem_Icc, firstUncounted_le_iff, Option.all_some, decide_eq_true_eq]
  constructor
  · rintro ⟨⟨since, upTo⟩ | mem, uncounted⟩
    · exact Or.inl ⟨⟨since, uncounted⟩, upTo⟩
    · exact (Nat.lt_or_ge last row).symm.imp (fun upTo => ⟨⟨starts row mem, uncounted⟩, upTo⟩)
        fun past => ⟨mem, past⟩
  · rintro (⟨⟨since, uncounted⟩, upTo⟩ | ⟨mem, past⟩)
    · exact ⟨Or.inl ⟨since, upTo⟩, uncounted⟩
    · exact ⟨Or.inr mem, later row past⟩

/-- What is counted of nodes is what they hold beyond the last row counted before, if none of
them starts above the one before it. -/
theorem countRows_eq_card {nodes : List Node}
    (sorted : nodes.Pairwise fun node next => node.start.row ≤ next.start.row)
    (counted : Option Nat) : countRows counted nodes = (beyond counted (heldRows nodes)).card := by
  induction nodes generalizing counted with
  | nil => rfl
  | cons node rest ih =>
      obtain ⟨starts, sortedRest⟩ := List.pairwise_cons.mp sorted
      rw [countRows_cons, heldRows]
      split
      · next new =>
        have below : ∀ row ∈ heldRows rest, node.start.row ≤ row := by
          intro row mem
          obtain ⟨other, later, since, _⟩ := mem_heldRows_iff.mp mem
          exact (starts other later).trans since
        have apart : Disjoint (Finset.Icc (firstUncounted counted node.start.row) (lastRow node))
            (beyond (some (lastRow node)) (heldRows rest)) := by
          rw [Finset.disjoint_left]
          intro row mem later
          have upTo := (Finset.mem_Icc.mp mem).2
          have past := (mem_beyond_iff.mp later).2
          rw [Option.all_some, decide_eq_true_eq] at past
          omega
        rw [beyond_union below new, Finset.card_union_of_disjoint apart, Nat.card_Icc,
          ih sortedRest]
        omega
      · next old =>
        have nothing : beyond counted (Finset.Icc node.start.row (lastRow node)) = ∅ := by
          rw [beyond_Icc, Finset.Icc_eq_empty old]
        rw [beyond, Finset.filter_union, ← beyond, ← beyond, nothing, Finset.empty_union,
          ih sortedRest]

/-! ## Subtractions -/

/-- A difference, if it is not below zero. -/
def sub? (a b : Nat) : Option Nat := if b ≤ a then some (a - b) else none

theorem sub?_of_le {a b : Nat} (le : b ≤ a) : sub? a b = some (a - b) := if_pos le

/-- The last row that a node occupies, with a subtraction that can fail. -/
def lastRow? (node : Node) : Option Nat :=
  if node.stop.column = 0 ∧ node.start.row < node.stop.row then sub? node.stop.row 1
  else some node.stop.row

def countRows? : Option Nat → List Node → Option Nat
  | _, [] => some 0
  | counted, node :: rest =>
      (lastRow? node).bind fun last =>
        if firstUncounted counted node.start.row ≤ last then
          (sub? last (firstUncounted counted node.start.row)).bind fun more =>
            (countRows? (some last) rest).map fun others => more + 1 + others
        else countRows? counted rest

theorem lastRow?_eq (node : Node) : lastRow? node = some (lastRow node) := by
  unfold lastRow? lastRow
  split
  · next ends => exact sub?_of_le (by omega)
  · rfl

/-- No subtraction fails. -/
theorem countRows?_eq (counted : Option Nat) (nodes : List Node) :
    countRows? counted nodes = some (countRows counted nodes) := by
  induction nodes generalizing counted with
  | nil => rfl
  | cons node rest ih =>
      rw [countRows_cons, countRows?, lastRow?_eq, Option.bind_some]
      split
      · next new => rw [sub?_of_le new, Option.bind_some, ih, Option.map_some]
      · exact ih counted

/-! ## The order of the nodes -/

end Metric

/-- Nothing that a string statement of Python has before its first string is among some nodes. -/
def Node.StringsLead (root : Node) (nodes : List Node) : Prop :=
  ∀ a statement i, root.at? a = some statement → statement.docstringChild? = some i →
    ∀ j < i, ∀ x node, root.at? (a ++ j :: x) = some node → node ∉ nodes

namespace Metric

open Query (ofPatterns Match)

variable {kinds : List String} {language : Language} {source : String} {root : Node}

theorem lt_append_of_lt {a b : Address} (before : b.lt a = true) (x : Address) :
    b.lt (a ++ x) = true := by
  cases x with
  | nil => rwa [List.append_nil]
  | cons i x => exact Address.lt_trans before (Address.lt_append_cons a i x)

/-- What comes after an address, and not after one of its children, is below an earlier child or
is that child itself. -/
theorem below_of_not_lt_child {a b x : Address} {i : Nat} (after : b.lt a = true)
    (notPast : (b ++ [i]).lt (a ++ x) = false) :
    ∃ j more, a = b ++ j :: more ∧ (j < i ∨ j = i ∧ more ++ x = []) := by
  rcases Address.prefix_or_parts after with ⟨more, rfl⟩ | ⟨here, k, l, u, v, less, rfl, rfl⟩
  · cases more with
    | nil =>
        rw [List.append_nil, Address.lt_irrefl] at after
        cases after
    | cons j more =>
        refine ⟨j, more, rfl, ?_⟩
        rw [List.append_assoc, Address.lt_append_left, List.cons_append, ← Bool.not_eq_true,
          Address.lt_cons_iff, not_or, not_and] at notPast
        rcases (Nat.not_lt.mp notPast.1).lt_or_eq with less | rfl
        · exact Or.inl less
        · cases rest : more ++ x with
          | nil => exact Or.inr ⟨rfl, rfl⟩
          | cons k rest => exact absurd (by rw [rest]; rfl) (notPast.2 rfl)
  · rw [List.append_assoc, List.append_assoc, Address.lt_append_left, ← Bool.not_eq_true,
      List.cons_append, List.cons_append, Address.lt_cons_iff] at notPast
    exact absurd (Or.inl less) notPast

theorem completed_not_lt_of_precedes {first second : Match}
    (precedes : first.precedes second = true) :
    second.completed.lt first.completed = false := by
  rcases Match.precedes_iff.mp precedes with less | ⟨same, _⟩
  · exact Address.not_lt_of_lt less
  · rw [same, Address.lt_irrefl]

/-- The match that is reported first does not have its root after that of the other: a string
statement is reported at its string, and nothing is captured in it before the string. -/
theorem root_not_lt_of_precedes {nodes : List Node}
    (lead : language = .python → root.StringsLead nodes) {first second : Match} {x y : Address}
    (foundFirst : root.at? first.root = some first.node)
    (foundSecond : root.at? second.root = some second.node) (mem : first.node ∈ nodes)
    (noted : Noted kinds language second.node y)
    (completed : first.completed = first.root ++ x)
    (completedSecond : second.completed = second.root ++ y)
    (precedes : first.precedes second = true) : second.root.lt first.root = false := by
  have inOrder := completed_not_lt_of_precedes precedes
  rw [completed, completedSecond] at inOrder
  rw [Bool.eq_false_iff]
  intro after
  cases noted with
  | ofKind kind active accepted =>
      rw [List.append_nil, lt_append_of_lt after x] at inOrder
      cases inOrder
  | docstring i python string =>
      obtain ⟨j, more, inside, less | ⟨rfl, nothing⟩⟩ := below_of_not_lt_child after inOrder
      · exact lead python second.root second.node i foundSecond string j less more first.node
          (inside ▸ foundFirst) mem
      · -- the first match captures the string itself, so its root is the deeper one
        obtain ⟨rfl, rfl⟩ := List.append_eq_nil_iff.mp nothing
        have same : first.completed = second.completed := by
          rw [completed, completedSecond, inside, List.append_nil]
        have deeper : second.root.length < first.root.length := by
          rw [inside, List.length_append, List.length_singleton]
          exact Nat.lt_succ_self _
        rw [Match.precedes_iff, same, Address.lt_irrefl] at precedes
        rcases precedes with less | ⟨_, depth | ⟨depth, _⟩⟩
        · cases less
        · omega
        · omega

/-- The captured nodes are reported from the top of the file to the bottom. -/
theorem pairwise_firstCaptures {file : ParsedFile} (nested : file.root.NestedBy Place.row)
    (lead : file.language = .python → file.root.StringsLead
      (firstCaptures (ofPatterns (commentPatterns kinds file.language)) file)) :
    (firstCaptures (ofPatterns (commentPatterns kinds file.language)) file).Pairwise
      fun node next => node.start.row ≤ next.start.row := by
  have captured : ∀ found : Match, found ∈ (ofPatterns
      (commentPatterns kinds file.language)).allMatches file.source file.root →
        found.node ∈ firstCaptures (ofPatterns (commentPatterns kinds file.language)) file := by
    intro found mem
    rw [firstCaptures_eq_map]
    exact List.mem_map_of_mem mem
  have inOrder : ∀ first second : Match,
      first ∈ (ofPatterns (commentPatterns kinds file.language)).allMatches file.source file.root →
      second ∈ (ofPatterns (commentPatterns kinds file.language)).allMatches file.source file.root →
      first.precedes second = true → first.node.start.row ≤ second.node.start.row := by
    intro first second memFirst memSecond precedes
    obtain ⟨foundFirst, _, x, _, completed⟩ :=
      noted_of_mem_found (Query.mem_allMatches_iff.mp memFirst)
    obtain ⟨foundSecond, _, y, noted, completedSecond⟩ :=
      noted_of_mem_found (Query.mem_allMatches_iff.mp memSecond)
    have notAfter := root_not_lt_of_precedes lead foundFirst foundSecond
      (captured first memFirst) noted completed completedSecond precedes
    by_cases same : first.root = second.root
    · rw [same, foundSecond] at foundFirst
      rw [Option.some.inj foundFirst]
    · rcases Address.lt_or_lt same with before | after
      · exact nested.start_le_of_lt foundFirst foundSecond before
      · rw [after] at notAfter
        cases notAfter
  rw [firstCaptures_eq_map, List.pairwise_map]
  exact (Query.pairwise_allMatches _ _ _).imp_of_mem
    fun memFirst memSecond precedes => inOrder _ _ memFirst memSecond precedes

/-! ## The count -/

variable {registry : Registry} {file : ParsedFile} {cache : Query.Cache}

theorem exists_commentNodes_of_measure [Grammars] {value : Nat}
    (measured : (commentLines.measure registry file cache).1 = .ok value) :
    ∃ nodes, (commentNodes registry file cache).1 = .ok nodes ∧ value = countRows none nodes := by
  rcases whole : commentNodes registry file cache with ⟨_ | nodes, later⟩
  · rw [measure, whole] at measured
    cases measured
  · have captured : (commentNodes registry file cache).1 = .ok nodes := by rw [whole]
    exact ⟨nodes, rfl, Except.ok.inj (measured.symm.trans (measure_of_commentNodes captured).1)⟩

/-- A node of a tree that is nested by rows occupies no row beyond the last one of the tree. -/
theorem lastRow_lt_rows (nested : file.root.NestedBy Place.row) {a : Address} {node : Node}
    (found : file.root.at? a = some node) : lastRow node < rows file := by
  have inside : node.stop.row ≤ file.root.stop.row :=
    (nested.within_of_prefix (Node.at?_nil _) found List.nil_prefix).2
  have last : lastRow node ≤ node.stop.row := by
    unfold lastRow
    split <;> omega
  exact Nat.lt_succ_of_le (last.trans inside)

/-- **Each row of comments is counted once.**  The cache is sound, the comment kinds that count in
the language are names, and the tree is nested by rows; in Python nothing that a string
statement has before its first string is captured.  If the lines of comments have a value, then
comments were captured, and the value is the number of rows from the first to the last row of
some captured node.  No subtraction of the count goes below zero, and the lines of comments are no
more than the lines of the file. -/
theorem commentLines_eq_card [Grammars] (sound : cache.Sound)
    (names : ∀ kind ∈ registry.activeKinds .comment file.language, Query.isName kind = true)
    (nested : file.root.NestedBy Place.row)
    (lead : file.language = .python → ∀ nodes, (commentNodes registry file cache).1 = .ok nodes →
      file.root.StringsLead nodes)
    {value : Nat} (measured : (commentLines.measure registry file cache).1 = .ok value) :
    ∃ nodes, (commentNodes registry file cache).1 = .ok nodes ∧
      ∃ held : Finset Nat,
        (∀ row, row ∈ held ↔ ∃ node ∈ nodes, node.start.row ≤ row ∧ row ≤ lastRow node) ∧
        value = held.card ∧ countRows? none nodes = some value ∧
        ∀ lines, (linesOfCode.measure registry file cache).1 = .ok lines → value ≤ lines := by
  obtain ⟨nodes, captured, count⟩ := exists_commentNodes_of_measure measured
  have same := commentNodes_eq_firstCaptures sound names captured
  have sorted : nodes.Pairwise fun node next => node.start.row ≤ next.start.row := by
    rw [same]
    exact pairwise_firstCaptures nested fun python => same ▸ lead python nodes captured
  have card : value = (heldRows nodes).card := by
    rw [count, countRows_eq_card sorted, beyond_none]
  have within : heldRows nodes ⊆ Finset.range (rows file) := by
    intro row mem
    obtain ⟨node, captures, _, upTo⟩ := mem_heldRows_iff.mp mem
    rw [same] at captures
    obtain ⟨a, _, found, _⟩ := mem_firstCaptures_iff.mp captures
    exact Finset.mem_range.mpr (upTo.trans_lt (lastRow_lt_rows nested found))
  refine ⟨nodes, captured, heldRows nodes, fun row => mem_heldRows_iff, card, ?_, ?_⟩
  · rw [countRows?_eq, count]
  · rintro _ ⟨⟩
    rw [card]
    simpa using Finset.card_le_card within

end Metric

/-! ## Rows and bytes

The places of a node are those of its bytes in the text.  So its rows need not be looked at: they
are in order when its bytes are. -/

namespace Node

/-- The places of a tree are those that its bytes have in a text. -/
def PlacedIn (source : String) (root : Node) : Prop :=
  ∀ entry ∈ root.entries, entry.2.start = Place.ofByte source entry.2.start.byte ∧
    entry.2.stop = Place.ofByte source entry.2.stop.byte

instance (source : String) (root : Node) : Decidable (root.PlacedIn source) :=
  inferInstanceAs (Decidable (∀ entry ∈ root.entries,
    entry.2.start = Place.ofByte source entry.2.start.byte ∧
      entry.2.stop = Place.ofByte source entry.2.stop.byte))

/-- A tree of a text that is nested by bytes is nested by rows. -/
theorem Nested.byRows {source : String} {root : Node} (nested : root.Nested)
    (placed : root.PlacedIn source) : root.NestedBy Place.row := by
  intro entry mem
  have laid := nested entry mem
  have own := placed entry mem
  have below : ∀ child ∈ entry.2.children, child.start = Place.ofByte source child.start.byte ∧
      child.stop = Place.ofByte source child.stop.byte := by
    intro child isChild
    obtain ⟨i, there⟩ := List.mem_iff_getElem?.mp isChild
    refine placed (entry.1 ++ [i], child) (mem_entries_iff.mpr ?_)
    simp [at?_append, mem_entries_iff.mp mem, at?_cons, there]
  refine ⟨Place.row_le_of_byte_le own.1 own.2 laid.start_le_stop, fun child isChild => ?_, ?_⟩
  · obtain ⟨starts, stops⟩ := laid.within child isChild
    exact ⟨Place.row_le_of_byte_le own.1 (below child isChild).1 starts,
      Place.row_le_of_byte_le (below child isChild).2 own.2 stops⟩
  · exact laid.apart.imp_of_mem fun isChild isNext apart =>
      Place.row_le_of_byte_le (below _ isChild).2 (below _ isNext).1 apart

end Node

namespace Metric

attribute [local instance] sampleGrammars

open TwoStrings in
theorem commentLines_eq_card_two_strings :
    (commentLines.measure comments file {}).1 = .ok 2 ∧
      ∃ nodes, (commentNodes comments file {}).1 = .ok nodes ∧ countRows? none nodes = some 2 := by
  have nested : file.root.NestedBy Place.row :=
    Node.Nested.byRows (by decide : file.root.Nested) (by decide : file.root.PlacedIn source)
  have lead : ∀ nodes, file.root.StringsLead nodes := by
    have first : ∀ entry ∈ file.root.entries,
        entry.2.docstringChild? = none ∨ entry.2.docstringChild? = some 0 := by decide
    intro nodes a statement i found string j before
    rcases first (a, statement) (Node.mem_entries_iff.mpr found) with none | zero
    · exact absurd (none.symm.trans string) (by simp)
    · cases Option.some.inj (zero.symm.trans string)
      exact absurd before (Nat.not_lt_zero j)
  have read : (commentNodes comments file {}).1.toOption.map (countRows none) = some 2 := by
    simp only [commentNodes_eq, firstCaptures, Query.allMatches_eq_insertionSort]
    decide +kernel
  obtain ⟨nodes, captured, two⟩ := exists_commentNodes_of_map read
  have measured : (commentLines.measure comments file {}).1 = .ok 2 :=
    two ▸ (measure_of_commentNodes captured).1
  obtain ⟨nodes, captured, _, _, _, counted, _⟩ := commentLines_eq_card Query.Cache.sound_empty
    (by decide) nested (fun _ nodes _ => lead nodes) measured
  exact ⟨measured, nodes, captured, counted⟩

/-! ## A kind that is no name -/

namespace ProgramKind

def source : String := "a\n// c\nconst y = 1;\n"

def node := Node.inText source

def comments : Registry :=
  ⟨[⟨"comment", .comment, [.javascript], [], none, none⟩,
    ⟨"program (lexical_declaration)", .comment, [.javascript], [], none, none⟩]⟩

def file : ParsedFile where
  path := ⟨"a.js"⟩
  language := .javascript
  source := source
  root := node "program" true 0 20
    [node "expression_statement" true 0 1 [node "identifier" true 0 1 []],
      node "comment" true 2 6 [],
      node "lexical_declaration" true 7 19
        [node "const" false 7 12 [],
          node "variable_declarator" true 13 18
            [node "identifier" true 13 14 [], node "=" false 15 16 [],
              node "number" true 17 18 []],
          node ";" false 18 19 []]]

end ProgramKind

open ProgramKind in
/-- The whole program is captured after the comment, and its first row is not counted. -/
theorem program_rows_missed :
    file.root.NestedBy Place.row ∧ (commentLines.measure comments file {}).1 = .ok 2 ∧
      ∃ nodes, (commentNodes comments file {}).1 = .ok nodes ∧
        ∀ held : Finset Nat,
          (∀ row, row ∈ held ↔ ∃ node ∈ nodes, node.start.row ≤ row ∧ row ≤ lastRow node) →
            held.card = 3 := by
  have read : (commentNodes comments file {}).1.toOption.map
      (fun nodes => (countRows none nodes, (heldRows nodes).card)) = some (2, 3) := by
    simp only [commentNodes_eq, firstCaptures, Query.allMatches_eq_insertionSort]
    decide +kernel
  obtain ⟨nodes, captured, counts⟩ := exists_commentNodes_of_map read
  obtain ⟨two, three⟩ := Prod.mk.inj counts
  refine ⟨Node.Nested.byRows (by decide : file.root.Nested) (by decide : file.root.PlacedIn source),
    two ▸ (measure_of_commentNodes captured).1, nodes, captured, fun held tells => ?_⟩
  have same : held = heldRows nodes := by
    ext row
    rw [tells, mem_heldRows_iff]
  rw [same, three]

end Metric

end SourceGauge
