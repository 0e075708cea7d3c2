/-
# SourceGauge.Proofs.Query.Written -- what a text writes, whatever the grammars are

The grammars decide whether a text compiles, and not what it compiles to: a text that can be read
with some kinds known is read as the same query with every kind known (`everyKind`), and with
others known as long as the kinds that it names (`words`) are among them (`read_eq_ok_iff`).  So a
text is read once, with every kind known, and the grammars are asked for its words only
(`compile_eq_ok_iff_words`).

Queries are written down here as lists of patterns (`ofPatterns`).
-/
import SourceGauge.Query.Cache

namespace SourceGauge.Query

set_option autoImplicit false

/-! ## Patterns -/

namespace Pattern

/-- A named node of a kind with children. -/
def ofKind (kind : String) (children : List Pattern) : Pattern :=
  .node {} (.named kind) [] [] children

def any : Pattern := .node {} .anyNamed [] [] []

/-- The same pattern in a field of its parent. -/
def inField (field : String) (pattern : Pattern) : Pattern := pattern.inSlot { field := some field }

end Pattern

/-- The query of patterns without conditions. -/
def ofPatterns (patterns : List Pattern) : Query := ⟨patterns.map fun pattern => ⟨pattern, []⟩⟩

/-! ## Known kinds -/

def everyKind (_kind : String) : Bool := true

/-- The kind that a token names; the wildcard is none. -/
def word? : Option Token → Option String
  | some (.word text _) => if text = "_" then none else some text
  | _ => none

def words (text : String) : List String := (tokens text).filterMap word?

variable {known : String → Bool}

/-- A token has a fault when it names a kind that is not known. -/
theorem Token.fault?_eq_none_iff {token : Token} :
    token.fault? known = none ↔ ∀ kind ∈ word? (some token), known kind = true := by
  cases token with
  | word text place => by_cases wildcard : text = "_" <;> simp [fault?, word?, wildcard]
  | _ => simp [fault?, word?]

theorem Draft.step_eq_ok_iff {draft next : Draft} {token : Option Token} :
    draft.step known token = .ok next ↔
      token.bind draft.next? = some next ∧ ∀ kind ∈ word? token, known kind = true := by
  cases token with
  | none => simp [step]
  | some token =>
      rw [← Token.fault?_eq_none_iff, step, Option.bind_some]
      cases draft.next? token <;> cases token.fault? known <;> simp

/-- Tokens are read to the end if they are with every kind known, and name known kinds only. -/
theorem Draft.run_eq_ok_iff {draft last : Draft} {tokens : List (Option Token)} :
    Draft.run known draft tokens = .ok last ↔
      Draft.run everyKind draft tokens = .ok last ∧
        ∀ kind ∈ tokens.filterMap word?, known kind = true := by
  induction tokens generalizing draft with
  | nil => simp [run]
  | cons token rest ih =>
      have steps : ∀ known : String → Bool, Draft.run known draft (token :: rest) = .ok last ↔
          ∃ next, draft.step known token = .ok next ∧ Draft.run known next rest = .ok last := by
        intro known
        rw [run]
        cases draft.step known token <;> simp
      have words : (∀ kind ∈ (token :: rest).filterMap word?, known kind = true) ↔
          (∀ kind ∈ word? token, known kind = true) ∧
            ∀ kind ∈ rest.filterMap word?, known kind = true := by
        rw [List.filterMap_cons]
        cases word? token <;> simp
      rw [steps, steps, words]
      constructor
      · rintro ⟨next, stepped, run⟩
        obtain ⟨whole, first⟩ := step_eq_ok_iff.mp stepped
        obtain ⟨runs, later⟩ := ih.mp run
        exact ⟨⟨next, step_eq_ok_iff.mpr ⟨whole, fun _ _ => rfl⟩, runs⟩, first, later⟩
      · rintro ⟨⟨next, stepped, run⟩, first, later⟩
        exact ⟨next, step_eq_ok_iff.mpr ⟨(step_eq_ok_iff.mp stepped).1, first⟩,
          ih.mpr ⟨run, later⟩⟩

/-- A text is read as what it is with every kind known, if the kinds that it names are known. -/
theorem read_eq_ok_iff {text : String} {query : Query} :
    read known text = .ok query ↔
      read everyKind text = .ok query ∧ ∀ kind ∈ words text, known kind = true := by
  have reads : ∀ known : String → Bool, read known text = .ok query ↔
      ∃ draft, Draft.run known {} (tokens text) = .ok draft ∧
        (draft.stack.isEmpty && draft.conditions.isEmpty) = true ∧ ⟨draft.clauses⟩ = query := by
    intro known
    rw [read]
    cases Draft.run known {} (tokens text) with
    | error fault => simp
    | ok draft =>
        simp only [Except.ok.injEq, exists_eq_left']
        cases draft.stack.isEmpty && draft.conditions.isEmpty <;> simp
  rw [reads, reads]
  constructor
  · rintro ⟨draft, run, closed⟩
    obtain ⟨runs, known⟩ := Draft.run_eq_ok_iff.mp run
    exact ⟨⟨draft, runs, closed⟩, known⟩
  · rintro ⟨⟨draft, run, closed⟩, known⟩
    exact ⟨draft, Draft.run_eq_ok_iff.mpr ⟨run, known⟩, closed⟩

theorem compile_eq_ok_iff_words [Grammars] {language : Language} {text : String} {query : Query} :
    compile language text = .ok query ↔
      read everyKind text = .ok query ∧
        ∀ kind ∈ words text, Grammars.hasKind language kind = true :=
  read_eq_ok_iff

end SourceGauge.Query
