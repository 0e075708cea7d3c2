/-
# SourceGauge.Proofs.Query.Lines -- queries that are written line by line

The text of a query is the texts of its statements, a line each.  A line that can be read to its
end is read the same way wherever it stands (`tokensFrom_newline`), and one that closes what it
opens adds clauses of its own to whatever was read before it (`Reads`).  So the lines of a text
can be read one by one: the text has the clauses of its lines, in their order (`Reads.join`).

The line of a kind names the kind twice, and it adds one clause where the kind is a name
(`reads_kind`).  A kind that is not, such as `a) (b`, may say anything.
-/
import Mathlib.Data.List.Forall2
import SourceGauge.Proofs.Query.Written

namespace SourceGauge.Query

set_option autoImplicit false

open Text (Place)

/-! ## Tokens -/

/-- A line break ends what a line that can be read leaves open. -/
theorem tokensFrom_newline {place : Place} {mode : Mode} {cs : List Char} (rest : List Char)
    (readable : none ∉ tokensFrom place mode cs) :
    ∃ later, tokensFrom place mode (cs ++ '\n' :: rest) =
      tokensFrom place mode cs ++ tokensFrom later .between rest := by
  induction cs generalizing place mode with
  | nil =>
      refine ⟨place.after '\n', ?_⟩
      cases mode with
      | between => rfl
      | comment => rfl
      | word sigil begun reversed => cases sigil <;> rfl
      | string reversed => simp [tokensFrom, Mode.finish?] at readable
      | escape reversed => simp [tokensFrom, Mode.finish?] at readable
  | cons c cs ih =>
      rw [List.cons_append, tokensFrom, tokensFrom]
      rw [tokensFrom] at readable
      cases stepped : mode.step place c with
      | none => simp [stepped] at readable
      | some next =>
          simp only [stepped, List.mem_append, not_or] at readable
          obtain ⟨later, same⟩ := ih readable.2
          exact ⟨later, by simp only [same, List.append_assoc]⟩

/-- A word goes on as long as its characters do. -/
theorem tokensFrom_word {sigil : Sigil} {cs : List Char}
    (word : ∀ c ∈ cs, isWordChar sigil c = true) (place begun : Place)
    (reversed rest : List Char) :
    ∃ later, tokensFrom place (.word sigil begun reversed) (cs ++ rest) =
      tokensFrom later (.word sigil begun (cs.reverse ++ reversed)) rest := by
  induction cs generalizing place reversed with
  | nil => exact ⟨place, rfl⟩
  | cons c cs ih =>
      obtain ⟨first, others⟩ := List.forall_mem_cons.mp word
      obtain ⟨later, same⟩ := ih others (place.after c) (c :: reversed)
      refine ⟨later, ?_⟩
      rw [List.cons_append, tokensFrom, Mode.step, if_pos first]
      simpa using same

/-! ## Names -/

/-- A name: characters of words, the first of them no dot. -/
def isName (name : String) : Bool :=
  match name.toList with
  | [] => false
  | c :: cs => c ≠ '.' && (c :: cs).all (isWordChar .plain)

theorem isName_iff {name : String} :
    isName name = true ↔ ∃ c cs, name.toList = c :: cs ∧ c ≠ '.' ∧
      ∀ d ∈ c :: cs, isWordChar .plain d = true := by
  unfold isName
  cases name.toList with
  | nil => simp
  | cons c cs =>
      simp only [Bool.and_eq_true, decide_eq_true_eq, List.all_eq_true, List.cons.injEq]
      constructor
      · rintro ⟨dot, word⟩
        exact ⟨c, cs, ⟨rfl, rfl⟩, dot, word⟩
      · rintro ⟨_, _, ⟨rfl, rfl⟩, dot, word⟩
        exact ⟨dot, word⟩

/-- A word begins with each of its characters but the dot, which is an anchor there. -/
theorem start?_of_isWordChar {c : Char} (word : isWordChar .plain c = true) (dot : c ≠ '.')
    (place : Place) : start? place c = some (.word .plain place [c], []) := by
  have apart : ∀ d, isWordChar .plain d = false → c ≠ d := by
    rintro d other rfl
    exact absurd word (by simp [other])
  have solid : c.isWhitespace = false := by
    rw [Bool.eq_false_iff]
    intro blank
    simp only [Char.isWhitespace, Bool.or_eq_true, decide_eq_true_eq] at blank
    rcases blank with ((rfl | rfl) | rfl) | rfl <;> exact absurd word (by decide)
  simp only [start?, apart '(' (by decide), apart ')' (by decide), apart '[' (by decide),
    apart ']' (by decide), apart '"' (by decide), dot, apart ';' (by decide),
    apart '@' (by decide), apart '#' (by decide), apart '!' (by decide), solid, word, if_true,
    if_false, Bool.false_eq_true]

theorem tokensFrom_step (place : Place) (mode : Mode) (c : Char) {next : Mode} {done : List Token}
    (stepped : mode.step place c = some (next, done)) (cs : List Char) :
    tokensFrom place mode (c :: cs) = done.map some ++ tokensFrom (place.after c) next cs := by
  rw [tokensFrom, stepped]

/-- A name behind a bracket, with what comes after it. -/
theorem tokensFrom_opened {name : String} (named : isName name = true) (place : Place)
    (rest : List Char) :
    ∃ later, tokensFrom place .between ('(' :: (name.toList ++ rest)) =
      some .openNode ::
        tokensFrom later (.word .plain (place.after '(') name.toList.reverse) rest := by
  obtain ⟨c, cs, chars, dot, word⟩ := isName_iff.mp named
  obtain ⟨first, others⟩ := List.forall_mem_cons.mp word
  obtain ⟨later, inBrackets⟩ := tokensFrom_word others ((place.after '(').after c)
    (place.after '(') [c] rest
  refine ⟨later, ?_⟩
  calc tokensFrom place .between ('(' :: (name.toList ++ rest))
    _ = some .openNode :: tokensFrom (place.after '(') .between (c :: (cs ++ rest)) := by
        rw [chars]
        rfl
    _ = some .openNode ::
          tokensFrom later (.word .plain (place.after '(') name.toList.reverse) rest := by
        rw [tokensFrom_step _ .between c (start?_of_isWordChar first dot _), inBrackets, chars,
          List.reverse_cons]
        rfl

/-- A name at the end that is a capture. -/
theorem tokensFrom_captured {name : String} (named : isName name = true) (place : Place) :
    tokensFrom place .between ('@' :: name.toList) = [some (.capture name)] := by
  obtain ⟨c, cs, chars, _, word⟩ := isName_iff.mp named
  have captured : ∀ d ∈ name.toList, isWordChar .capture d = true := chars ▸ word
  obtain ⟨last, asCapture⟩ := tokensFrom_word captured (place.after '@') place [] []
  rw [tokensFrom_step _ .between '@' rfl, ← List.append_nil name.toList, asCapture]
  simp [tokensFrom, Mode.finish?, wordToken, String.ofList_toList]

/-- The token of a name. -/
theorem wordToken_reverse (name : String) (begun : Place) :
    wordToken .plain begun name.toList.reverse = .word name begun := by
  simp [wordToken, String.ofList_toList]

/-- The line of a name has it between brackets, and again as a capture. -/
theorem tokensFrom_kind {name : String} (named : isName name = true) (place : Place) :
    ∃ begun, tokensFrom place .between ("(" ++ name ++ ") @" ++ name).toList =
      [.openNode, .word name begun, .closeNode, .capture name].map some := by
  have line : ("(" ++ name ++ ") @" ++ name).toList =
      '(' :: (name.toList ++ (')' :: ' ' :: '@' :: name.toList)) := by simp
  obtain ⟨later, opened⟩ := tokensFrom_opened named place (')' :: ' ' :: '@' :: name.toList)
  refine ⟨place.after '(', ?_⟩
  rw [line, opened, tokensFrom_step _ (.word ..) ')' rfl, tokensFrom_step _ .between ' ' rfl,
    tokensFrom_captured named, wordToken_reverse]
  rfl

/-! ## Clauses -/

variable {known : String → Bool}

theorem Draft.run_append (known : String → Bool) (draft : Draft)
    (first rest : List (Option Token)) :
    Draft.run known draft (first ++ rest) =
      (Draft.run known draft first).bind fun next => Draft.run known next rest := by
  induction first generalizing draft with
  | nil => rfl
  | cons token first ih =>
      rw [List.cons_append, Draft.run, Draft.run]
      cases draft.step known token with
      | error fault => rfl
      | ok next => exact ih next

theorem Draft.none_not_mem_of_run {draft last : Draft} {tokens : List (Option Token)}
    (run : Draft.run known draft tokens = .ok last) : none ∉ tokens := by
  induction tokens generalizing draft with
  | nil => exact List.not_mem_nil
  | cons token rest ih =>
      rw [Draft.run] at run
      cases stepped : draft.step known token with
      | error fault =>
          rw [stepped] at run
          cases run
      | ok next =>
          rw [stepped] at run
          rw [List.mem_cons, not_or]
          refine ⟨?_, ih run⟩
          rintro rfl
          cases stepped

/-- A text that is read to its end wherever it stands, with some kinds known, and adds clauses to
those before it. -/
def Reads (known : String → Bool) (text : String) (clauses : List Clause) : Prop :=
  ∀ place before, Draft.run known { clauses := before }
    (tokensFrom place .between text.toList) = .ok { clauses := before ++ clauses }

namespace Reads

variable {text rest : String} {clauses others : List Clause}

theorem empty : Reads known "" [] := by
  intro place before
  rw [List.append_nil]
  rfl

/-- A text above another one. -/
theorem newline (reads : Reads known text clauses) (readsRest : Reads known rest others) :
    Reads known (text ++ "\n" ++ rest) (clauses ++ others) := by
  intro place before
  have chars : (text ++ "\n" ++ rest).toList = text.toList ++ '\n' :: rest.toList := by simp
  obtain ⟨later, tokens⟩ := tokensFrom_newline rest.toList
    (Draft.none_not_mem_of_run (reads place before))
  rw [chars, tokens, Draft.run_append, reads]
  exact (readsRest later _).trans (by rw [List.append_assoc])

/-- Texts one below the other add their clauses one after the other. -/
theorem join {texts : List String} {clauses : List (List Clause)}
    (each : List.Forall₂ (Reads known) texts clauses) :
    Reads known (Text.join "\n" texts) clauses.flatten := by
  induction each with
  | nil => exact empty
  | @cons text added texts others first later ih =>
      cases later with
      | nil => simpa [Text.join] using first
      | cons _ _ =>
          rw [Text.join_cons (by simp), List.flatten_cons]
          exact first.newline ih

/-- Lines that add a pattern each add these patterns. -/
theorem join_patterns {lines : List String} {patterns : List Pattern}
    (each : List.Forall₂ (fun line pattern => Reads known line [⟨pattern, []⟩]) lines patterns) :
    Reads known (Text.join "\n" lines) (ofPatterns patterns).clauses := by
  have whole : Reads known (Text.join "\n" lines)
      (patterns.map fun pattern => [(⟨pattern, []⟩ : Clause)]).flatten :=
    join (List.forall₂_map_right_iff.mpr each)
  rwa [← List.flatMap_def, ← List.map_eq_flatMap] at whole

/-- The query of a text is that of its clauses. -/
theorem read_eq (reads : Reads known text clauses) : read known text = .ok ⟨clauses⟩ := by
  rw [read, tokens, show ({} : Draft) = { clauses := [] } from rfl, reads]
  rfl

/-- What a text can compile to is told with every kind known. -/
theorem compile_eq [Grammars] (reads : Reads everyKind text clauses) {language : Language}
    {query : Query} (compiled : compile language text = .ok query) : query = ⟨clauses⟩ :=
  Except.ok.inj ((compile_eq_ok_iff_words.mp compiled).1.symm.trans reads.read_eq)

end Reads

/-! ## Lines of kinds -/

/-- The pattern of a kind: its nodes, captured under its name. -/
def Pattern.ofName (name : String) : Pattern := (node {} (testOf name) [] [] []).capture name

theorem captureLastClause?_concat (name : String) (clauses : List Clause) (last : Clause) :
    captureLastClause? name (clauses ++ [last]) =
      some (clauses ++ [{ last with pattern := last.pattern.capture name }]) := by
  induction clauses with
  | nil => rfl
  | cons clause rest ih =>
      cases rest with
      | nil => rfl
      | cons next rest => simpa [captureLastClause?] using ih

/-- A capture at the end of a line belongs to the clause that was closed last. -/
theorem Draft.run_capture (known : String → Bool) (name : String) (clauses : List Clause)
    (last : Clause) :
    Draft.run known { clauses := clauses ++ [last] } [some (.capture name)] =
      .ok { clauses := clauses ++ [{ last with pattern := last.pattern.capture name }] } := by
  simp [Draft.run, Draft.step, Draft.next?, Token.fault?, captureLastClause?_concat]

/-- A line that closes a pattern and captures it adds the captured pattern. -/
theorem reads_capture {line name : String} {pattern : Pattern}
    (closes : ∀ place, ∃ body : List Token,
      tokensFrom place .between line.toList = (body ++ [Token.capture name]).map some ∧
        ∀ before, Draft.run known { clauses := before } (body.map some) =
          .ok { clauses := before ++ [⟨pattern, []⟩] }) :
    Reads known line [⟨pattern.capture name, []⟩] := by
  intro place before
  obtain ⟨body, tokens, closed⟩ := closes place
  rw [tokens, List.map_append, Draft.run_append, closed]
  exact Draft.run_capture known name before _

/-- The line of a name adds its pattern. -/
theorem reads_kind {name : String} (named : isName name = true) :
    Reads everyKind ("(" ++ name ++ ") @" ++ name) [⟨.ofName name, []⟩] := by
  refine reads_capture fun place => ?_
  obtain ⟨begun, tokens⟩ := tokensFrom_kind named place
  refine ⟨[.openNode, .word name begun, .closeNode], tokens, fun before => ?_⟩
  simp [Draft.run, Draft.step, Draft.next?, Token.fault?, everyKind, Draft.push, Draft.update?,
    Draft.closeNode?, Draft.add?]

end SourceGauge.Query
