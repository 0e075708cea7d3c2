/-
# SourceGauge.Proofs.Query.Pieces -- queries of texts that compile by themselves

A query is often put together: its text is that of several statements, one below the other.  Each of
these may be any text, and what one leaves open the next may close.  But a text that compiles
by itself leaves nothing open.  It is read in the same way wherever it stands: its tokens differ
by their places only (`tokensFrom_unplaced`), which say where a fault is and nothing else
(`Draft.run_unplaced`), and clauses that were read before it take no part (`Draft.run_behind`).

* `read_eq_ok_iff_reads`: a text is read as some clauses if it adds just these wherever it stands.
* `compile_join`: texts that compile by themselves compile together, to the clauses of one after the
  other.
* `count_flatMap_clausesOf`: the matches are then those of one text and those of the next, and so
  on.
-/
import Mathlib.Algebra.BigOperators.Group.List.Basic
import Mathlib.Algebra.GroupWithZero.Nat
import Mathlib.Data.List.Induction
import SourceGauge.Proofs.Query.Lines
import SourceGauge.Proofs.Query.SharedCache

namespace SourceGauge.Query

set_option autoImplicit false

open Text (Place)

/-! ## Places -/

def Token.unplaced : Token → Token
  | .word text _ => .word text Place.start
  | token => token

def Mode.unplaced : Mode → Mode
  | .word sigil _ reversed => .word sigil Place.start reversed
  | mode => mode

/-- What a character does, without places. -/
def unplacedStep (next : Mode × List Token) : Mode × List Token :=
  (next.1.unplaced, next.2.map Token.unplaced)

theorem start?_unplaced (place other : Place) (c : Char) :
    (start? place c).map unplacedStep = (start? other c).map unplacedStep := by
  simp only [start?, apply_ite (Option.map unplacedStep), Option.map_some, unplacedStep,
    Mode.unplaced]

theorem wordToken_unplaced (sigil : Sigil) (place other : Place) (reversed : List Char) :
    (wordToken sigil place reversed).unplaced = (wordToken sigil other reversed).unplaced := by
  cases sigil <;> rfl

/-- What a character does depends on no place. -/
theorem Mode.step_unplaced (mode : Mode) (place other : Place) (c : Char) :
    (mode.step place c).map unplacedStep = (mode.unplaced.step other c).map unplacedStep := by
  cases mode with
  | between => exact start?_unplaced place other c
  | string reversed => rfl
  | escape reversed => rfl
  | comment => rfl
  | word sigil begun reversed =>
      have starts := start?_unplaced place other c
      have ended := wordToken_unplaced sigil begun Place.start reversed
      simp only [Mode.unplaced, Mode.step]
      split_ifs
      · rfl
      · rfl
      · cases here : start? place c <;> cases there : start? other c <;>
          simp_all [unplacedStep]

theorem Mode.finish?_unplaced (mode : Mode) :
    mode.finish?.map (List.map Token.unplaced) =
      mode.unplaced.finish?.map (List.map Token.unplaced) := by
  cases mode with
  | word sigil begun reversed =>
      simp [Mode.finish?, Mode.unplaced, wordToken_unplaced sigil begun Place.start reversed]
  | _ => rfl

theorem map_unplaced_map_some (tokens : List Token) :
    (tokens.map some).map (Option.map Token.unplaced) = (tokens.map Token.unplaced).map some := by
  simp

/-- A text has the same tokens wherever it stands. -/
theorem tokensFrom_unplaced (place other : Place) (mode : Mode) (cs : List Char) :
    (tokensFrom place mode cs).map (Option.map Token.unplaced) =
      (tokensFrom other mode.unplaced cs).map (Option.map Token.unplaced) := by
  induction cs generalizing place other mode with
  | nil =>
      have ends := mode.finish?_unplaced
      simp only [tokensFrom]
      cases here : mode.finish? with
      | none =>
          rw [here] at ends
          rw [Option.map_eq_none_iff.mp ends.symm]
      | some done =>
          rw [here] at ends
          obtain ⟨same, there, equal⟩ := Option.map_eq_some_iff.mp ends.symm
          simp only [there, map_unplaced_map_some, equal]
  | cons c cs ih =>
      have steps := mode.step_unplaced place other c
      simp only [tokensFrom]
      cases here : mode.step place c with
      | none =>
          rw [here] at steps
          rw [Option.map_eq_none_iff.mp steps.symm]
      | some next =>
          rw [here] at steps
          obtain ⟨after, there, same⟩ := Option.map_eq_some_iff.mp steps.symm
          obtain ⟨sameMode, sameTokens⟩ := Prod.mk.inj same
          simp only [there, List.map_append, map_unplaced_map_some, sameTokens]
          rw [ih (place.after c) (other.after c), ← sameMode, ← ih (other.after c)]

/-! ## Clauses read before -/

variable {known : String → Bool}

/-- A state with clauses before those that it has read. -/
def Draft.behind (before : List Clause) (draft : Draft) : Draft :=
  { draft with clauses := before ++ draft.clauses }

namespace Draft

variable (before : List Clause) (draft : Draft)

theorem push_behind (opening : Opening) :
    (draft.behind before).push opening = (draft.push opening).behind before := by
  obtain ⟨clauses, conditions, _ | ⟨frame, stack⟩⟩ := draft <;> rfl

theorem add?_behind (pattern : Pattern) :
    (draft.behind before).add? pattern = (draft.add? pattern).map (behind before) := by
  obtain ⟨clauses, conditions, _ | ⟨⟨opening⟩, stack⟩⟩ := draft
  · simp [add?, behind]
  · cases opening <;> rfl

theorem update?_behind (change : Frame → Option Frame) :
    (draft.behind before).update? change = (draft.update? change).map (behind before) := by
  obtain ⟨clauses, conditions, _ | ⟨frame, stack⟩⟩ := draft
  · rfl
  · simp only [update?, behind, Option.map_map]
    rfl

theorem closeNode?_behind :
    (draft.behind before).closeNode? = draft.closeNode?.map (behind before) := by
  obtain ⟨clauses, conditions, _ | ⟨frame, stack⟩⟩ := draft
  · rfl
  · have closed := add?_behind before ⟨clauses, conditions, stack⟩
    simp only [behind] at closed
    simp only [closeNode?, behind]
    split
    · exact closed _
    · split
      · exact closed _
      · rfl
    · cases condition? _ _ _ <;> rfl
    · rfl

theorem closeChoice?_behind :
    (draft.behind before).closeChoice? = draft.closeChoice?.map (behind before) := by
  obtain ⟨clauses, conditions, _ | ⟨frame, stack⟩⟩ := draft
  · rfl
  · have closed := add?_behind before ⟨clauses, conditions, stack⟩
    simp only [behind] at closed
    simp only [closeChoice?, behind]
    split
    · exact closed _
    · rfl

end Draft

theorem captureLastClause?_append (name : String) (before : List Clause)
    {clauses captured : List Clause} (captures : captureLastClause? name clauses = some captured) :
    captureLastClause? name (before ++ clauses) = some (before ++ captured) := by
  cases clauses using List.reverseRecOn with
  | nil => cases captures
  | append_singleton rest last =>
      rw [captureLastClause?_concat] at captures
      rw [← Option.some.inj captures, ← List.append_assoc, captureLastClause?_concat,
        List.append_assoc]

/-- Clauses that were read before take no part in what is read. -/
theorem Draft.next?_behind {draft next : Draft} (before : List Clause) {token : Token}
    (read : draft.next? token = some next) :
    (draft.behind before).next? token = some (next.behind before) := by
  cases token with
  | openNode | openChoice =>
      cases read
      simp only [next?, push_behind]
  | closeNode =>
      simp only [next?] at read
      simp only [next?, closeNode?_behind, read, Option.map_some]
  | closeChoice =>
      simp only [next?] at read
      simp only [next?, closeChoice?_behind, read, Option.map_some]
  | anchor | field name | absent name | condition name | word text place =>
      simp only [next?] at read
      simp only [next?, update?_behind, read, Option.map_some]
  | capture name =>
      obtain ⟨clauses, conditions, _ | ⟨⟨opening⟩, stack⟩⟩ := draft
      · simp only [next?, behind] at read ⊢
        obtain ⟨captured, captures, rfl⟩ := Option.map_eq_some_iff.mp read
        rw [captureLastClause?_append name before captures]
        rfl
      · cases opening with
        | condition =>
            cases read
            rfl
        | node | choice =>
            obtain ⟨children, captures, rfl⟩ := Option.map_eq_some_iff.mp read
            simp only [next?, behind, captures, Option.map_some]
  | string text =>
      obtain ⟨clauses, conditions, _ | ⟨⟨opening⟩, stack⟩⟩ := draft
      · cases read
        simp [next?, behind, add?]
      · cases opening <;> cases read <;> rfl

theorem Draft.step_behind {draft next : Draft} (before : List Clause) {token : Option Token}
    (stepped : draft.step known token = .ok next) :
    (draft.behind before).step known token = .ok (next.behind before) := by
  obtain ⟨read, isKnown⟩ := step_eq_ok_iff.mp stepped
  obtain ⟨token, rfl, read⟩ := Option.bind_eq_some_iff.mp read
  exact step_eq_ok_iff.mpr ⟨next?_behind before read, isKnown⟩

theorem Draft.run_behind {draft last : Draft} (before : List Clause)
    {tokens : List (Option Token)} (run : Draft.run known draft tokens = .ok last) :
    Draft.run known (draft.behind before) tokens = .ok (last.behind before) := by
  induction tokens generalizing draft with
  | nil =>
      cases run
      rfl
  | cons token rest ih =>
      rw [Draft.run] at run ⊢
      cases stepped : draft.step known token with
      | error fault =>
          rw [stepped] at run
          cases run
      | ok next =>
          rw [stepped] at run
          rw [Draft.step_behind before stepped]
          exact ih run

/-! ## Texts -/

/-- Tokens that differ by a place only are the same word, or the same token. -/
theorem Token.eq_of_unplaced {token other : Token} (same : token.unplaced = other.unplaced) :
    (∃ text place there, token = .word text place ∧ other = .word text there) ∨
      token = other := by
  cases token <;> cases other <;> simp_all [unplaced]

theorem Draft.step_unplaced {draft next : Draft} {token other : Option Token}
    (same : token.map Token.unplaced = other.map Token.unplaced)
    (stepped : draft.step known token = .ok next) : draft.step known other = .ok next := by
  cases token with
  | none => cases stepped
  | some token =>
      obtain ⟨there, rfl, sameToken⟩ := Option.map_eq_some_iff.mp same.symm
      rcases Token.eq_of_unplaced sameToken with ⟨text, place, begun, rfl, rfl⟩ | rfl
      · have read := step_eq_ok_iff.mp stepped
        exact step_eq_ok_iff.mpr read
      · exact stepped

/-- Tokens are read to the end whatever their places. -/
theorem Draft.run_unplaced {draft last : Draft} {tokens others : List (Option Token)}
    (same : tokens.map (Option.map Token.unplaced) = others.map (Option.map Token.unplaced))
    (run : Draft.run known draft tokens = .ok last) : Draft.run known draft others = .ok last := by
  induction tokens generalizing draft others with
  | nil =>
      rw [List.map_eq_nil_iff.mp same.symm]
      exact run
  | cons token rest ih =>
      obtain ⟨other, more, rfl, sameToken, sameRest⟩ := List.map_eq_cons_iff.mp same.symm
      rw [Draft.run] at run ⊢
      cases stepped : draft.step known token with
      | error fault =>
          rw [stepped] at run
          cases run
      | ok next =>
          rw [stepped] at run
          rw [Draft.step_unplaced sameToken.symm stepped]
          exact ih sameRest.symm run

/-- A text that is read as some clauses adds them wherever it stands. -/
theorem read_eq_ok_iff_reads {text : String} {clauses : List Clause} :
    read known text = .ok ⟨clauses⟩ ↔ Reads known text clauses := by
  constructor
  · intro readAs place before
    rw [read, tokens] at readAs
    cases run : Draft.run known {} (tokensFrom Place.start .between text.toList) with
    | error fault =>
        rw [run] at readAs
        cases readAs
    | ok draft =>
        rw [run] at readAs
        obtain ⟨found, conditions, stack⟩ := draft
        cases stack <;> cases conditions <;> cases readAs
        have unplaced := tokensFrom_unplaced Place.start place .between text.toList
        simpa [Draft.behind, Mode.unplaced] using
          Draft.run_behind before (Draft.run_unplaced unplaced run)
  · exact Reads.read_eq

/-- A text that takes what was read before it to something else, wherever it stands. -/
def Leads (draft : Draft) (text : String) (next : Draft) : Prop :=
  ∀ place, Draft.run everyKind draft (tokensFrom place .between text.toList) = .ok next

/-- A literal is `String.ofList` of its characters, and these are read by evaluation. -/
theorem leads_ofList {draft next : Draft} {cs : List Char}
    (run : Draft.run everyKind draft (tokensFrom Place.start .between cs) = .ok next) :
    Leads draft (String.ofList cs) next := by
  intro place
  rw [String.toList_ofList]
  exact Draft.run_unplaced (tokensFrom_unplaced Place.start place .between cs) run

/-- A line may leave brackets open for the lines below it. -/
theorem Leads.above {draft last : Draft} (between : Draft) {line next : String}
    {rest : List String} (first : Leads draft line between)
    (later : Leads between (Text.join "\n" (next :: rest)) last) :
    Leads draft (Text.join "\n" (line :: next :: rest)) last := by
  intro place
  rw [Text.join_cons (List.cons_ne_nil next rest)]
  have chars : (line ++ "\n" ++ Text.join "\n" (next :: rest)).toList =
      line.toList ++ '\n' :: (Text.join "\n" (next :: rest)).toList := by simp
  obtain ⟨below, tokens⟩ := tokensFrom_newline (Text.join "\n" (next :: rest)).toList
    (Draft.none_not_mem_of_run (first place))
  rw [chars, tokens, Draft.run_append, first]
  exact later below

theorem Leads.reads {text : String} {clauses : List Clause} (leads : Leads {} text { clauses }) :
    Reads everyKind text clauses := by
  refine read_eq_ok_iff_reads.mp ?_
  rw [read, tokens, leads]
  rfl

theorem reads_ofList {cs : List Char} {clauses : List Clause}
    (run : Draft.run everyKind {} (tokensFrom Place.start .between cs) = .ok { clauses }) :
    Reads everyKind (String.ofList cs) clauses :=
  (leads_ofList run).reads

/-- Lines that are read as a pattern each are read as these patterns, with line breaks around
them. -/
theorem reads_lines {lines : List String} {patterns : List Pattern}
    (each : List.Forall₂ (fun line pattern => Reads everyKind line [⟨pattern, []⟩])
      lines patterns) :
    Reads everyKind (Text.join "\n" ("" :: lines ++ [""])) (ofPatterns patterns).clauses := by
  have inner : List.Forall₂ (Reads everyKind) lines
      (patterns.map fun pattern => [(⟨pattern, []⟩ : Clause)]) :=
    List.forall₂_map_right_iff.mpr each
  have whole := Reads.join (.cons Reads.empty (List.rel_append inner (.cons Reads.empty .nil)))
  rwa [List.flatten_cons, List.nil_append, List.flatten_append, List.flatten_singleton,
    List.append_nil, ← List.flatMap_def, ← List.map_eq_flatMap] at whole

/-! ## Counts -/

theorem length_matchesAt (clauses : List Clause) (source : String) (entry : Address × Node) :
    (matchesAt ⟨clauses⟩ source entry).length =
      (clauses.map fun clause => (clause.matchesAt source entry.1 entry.2).length).sum := by
  have unnumbered : (clauses.zipIdx.map fun item =>
      (item.1.matchesAt source entry.1 entry.2).length) =
      clauses.map fun clause => (clause.matchesAt source entry.1 entry.2).length := by
    conv_rhs => rw [← List.zipIdx_map_fst 0 clauses, List.map_map]
    rfl
  simp only [matchesAt, List.length_flatMap, List.length_map, unnumbered]

/-- The number of matches of clauses is the sum of those of the first and of the later ones. -/
theorem count_append (first second : List Clause) (source : String) (root : Node) :
    count ⟨first ++ second⟩ source root =
      count ⟨first⟩ source root + count ⟨second⟩ source root := by
  simp only [count, found, List.length_flatMap, length_matchesAt, List.map_append, List.sum_append]
  exact List.sum_map_add

/-! ## Texts that compile -/

variable [Grammars]

def clausesOf (language : Language) (text : String) : List Clause :=
  match compile language text with
  | .ok query => query.clauses
  | .error _ => []

theorem compile_clausesOf {language : Language} {text : String}
    (compiles : Key.Compiles (language, text)) :
    compile language text = .ok ⟨clausesOf language text⟩ := by
  obtain ⟨query, compiled⟩ := compiles
  rw [clausesOf, compiled]

/-- The clauses of a text that adds them. -/
theorem clausesOf_eq {language : Language} {text : String} {clauses : List Clause}
    (reads : Reads everyKind text clauses) (compiles : Key.Compiles (language, text)) :
    clausesOf language text = clauses := by
  have same := reads.compile_eq (compile_clausesOf compiles)
  cases same
  rfl

/-- Texts that compile one by one compile together, to the clauses of one after the other. -/
theorem compile_join {language : Language} {texts : List String}
    (each : ∀ text ∈ texts, Key.Compiles (language, text)) :
    compile language (Text.join "\n" texts) = .ok ⟨texts.flatMap (clausesOf language)⟩ := by
  refine Reads.read_eq (Reads.join (List.forall₂_map_right_iff.mpr (List.forall₂_same.mpr ?_)))
  intro text mem
  exact read_eq_ok_iff_reads.mp (compile_clausesOf (each text mem))

/-- The number of matches of a text by itself. -/
def countText (language : Language) (source : String) (root : Node) (text : String) : Nat :=
  count ⟨clausesOf language text⟩ source root

theorem count_flatMap_clausesOf (language : Language) (texts : List String) (source : String)
    (root : Node) :
    count ⟨texts.flatMap (clausesOf language)⟩ source root =
      (texts.map (countText language source root)).sum := by
  induction texts with
  | nil => simp [count, found, matchesAt]
  | cons text texts ih =>
      rw [List.flatMap_cons, count_append, ih, List.map_cons, List.sum_cons, countText]

end SourceGauge.Query
