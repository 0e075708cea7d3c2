/-
# SourceGauge.Query.Reader -- queries from their text

A query text is compiled by a fold over its tokens.  Brackets that are still
open are frames on a stack; a closed bracket becomes a pattern among the
children of the frame around it, or a clause of its own.  A capture belongs to
the pattern that closed last.

A text is read with some kinds of nodes known (`Query.read`), and compiled with
those that the grammar of a language has (`Query.compile`).  The first unknown kind
of a text is the fault that is reported, unless the text cannot be read that far.
-/
import SourceGauge.Language.Grammars
import SourceGauge.Query.Pattern
import SourceGauge.Query.Token

namespace SourceGauge

set_option autoImplicit false

open Text (Place)

namespace Query

/-- Why a text is no query. -/
inductive Fault where
  /-- A kind that the grammar does not have, and where its name begins. -/
  | unknownKind (kind : String) (place : Place)
  | malformed
  deriving DecidableEq, Repr

/-- The text of a fault.  Rows and columns are counted from one. -/
def Fault.message : Fault → String
  | unknownKind kind place =>
      "Query error at " ++ toString (place.row + 1) ++ ":" ++ toString (place.column + 1) ++
        ". Invalid node type " ++ kind
  | malformed => "Query error: malformed pattern"

/-- What an open bracket will become. -/
inductive Opening where
  /-- A round bracket, with the test read so far. -/
  | node (test : Option Test)
  | choice
  /-- A condition, with the captures and texts it is about. -/
  | condition (name : String) (captures texts : List String)
  deriving Repr

/-- An open bracket: its slot among the children of the frame around it, and
what stands in it so far.  `next` is the slot of the pattern that comes next. -/
structure Frame where
  opening : Opening
  slot : Slot := {}
  absent : List String := []
  children : List Pattern := []
  next : Slot := {}

/-- The clauses read so far, the conditions of the clause being read, and the
open brackets, innermost first. -/
structure Draft where
  clauses : List Clause := []
  conditions : List Condition := []
  stack : List Frame := []

def captureLast? (name : String) : List Pattern → Option (List Pattern)
  | [] => none
  | [pattern] => some [pattern.capture name]
  | pattern :: rest => (captureLast? name rest).map (pattern :: ·)

def captureLastClause? (name : String) : List Clause → Option (List Clause)
  | [] => none
  | [clause] => some [{ clause with pattern := clause.pattern.capture name }]
  | clause :: rest => (captureLastClause? name rest).map (clause :: ·)

/-- Add a pattern to the innermost open bracket, or as a clause. -/
def Draft.add? (draft : Draft) (pattern : Pattern) : Option Draft :=
  match draft.stack with
  | [] =>
      some { draft with
        clauses := draft.clauses ++ [⟨pattern, draft.conditions⟩], conditions := [] }
  | frame :: stack =>
      match frame.opening with
      | .condition .. => none
      | _ =>
          some { draft with
            stack := { frame with children := frame.children ++ [pattern], next := {} } :: stack }

/-- Open a bracket in the slot that comes next. -/
def Draft.push (draft : Draft) (opening : Opening) : Draft :=
  match draft.stack with
  | [] => { draft with stack := [{ opening }] }
  | frame :: stack =>
      { draft with stack := { opening, slot := frame.next } :: { frame with next := {} } :: stack }

/-- The condition of a name, a capture and a text. -/
def condition? (name capture text : String) : Option Condition :=
  if name = "not-eq?" then some (.differs capture text)
  else if name = "match?" then
    match text.toList with
    | '^' :: literal =>
        if literal.all fun c => c.isAlphanum || c = '_' then
          some (.startsWith capture (String.ofList literal))
        else none
    | _ => none
  else none

def Draft.closeNode? (draft : Draft) : Option Draft :=
  match draft.stack with
  | [] => none
  | frame :: stack =>
      let rest := { draft with stack }
      match frame.opening with
      | .node (some test) => rest.add? (.node frame.slot test frame.absent [] frame.children)
      | .node none =>
          match frame.children with
          | [pattern] => rest.add? (pattern.inSlot frame.slot)
          | _ => none
      | .condition name [capture] [text] =>
          (condition? name capture text).map fun condition =>
            { rest with conditions := rest.conditions ++ [condition] }
      | _ => none

def Draft.closeChoice? (draft : Draft) : Option Draft :=
  match draft.stack with
  | [] => none
  | frame :: stack =>
      match frame.opening with
      | .choice => { draft with stack }.add? (.oneOf frame.slot [] frame.children)
      | _ => none

def Draft.update? (draft : Draft) (change : Frame → Option Frame) : Option Draft :=
  match draft.stack with
  | [] => none
  | frame :: stack => (change frame).map fun frame => { draft with stack := frame :: stack }

def testOf (word : String) : Test := if word = "_" then .anyNamed else .named word

def Draft.next? (draft : Draft) : Token → Option Draft
  | .openNode => some (draft.push (.node none))
  | .openChoice => some (draft.push .choice)
  | .closeNode => draft.closeNode?
  | .closeChoice => draft.closeChoice?
  | .anchor => draft.update? fun frame =>
      some { frame with next := { frame.next with anchored := true } }
  | .field name => draft.update? fun frame =>
      some { frame with next := { frame.next with field := some name } }
  | .absent name => draft.update? fun frame =>
      some { frame with absent := frame.absent ++ [name] }
  | .word text _ => draft.update? fun frame =>
      match frame.opening, frame.children with
      | .node none, [] => some { frame with opening := .node (some (testOf text)) }
      | _, _ => none
  | .condition name => draft.update? fun frame =>
      match frame.opening, frame.children with
      | .node none, [] => some { frame with opening := .condition name [] [] }
      | _, _ => none
  | .string text =>
      match draft.stack with
      | [] => draft.add? (.node {} (.token text) [] [] [])
      | frame :: stack =>
          match frame.opening with
          | .condition name captures texts =>
              let opening := .condition name captures (texts ++ [text])
              some { draft with stack := { frame with opening } :: stack }
          | _ => draft.add? (.node frame.next (.token text) [] [] [])
  | .capture name =>
      match draft.stack with
      | [] => (captureLastClause? name draft.clauses).map fun clauses =>
          { draft with clauses }
      | frame :: stack =>
          match frame.opening with
          | .condition condition captures texts =>
              let opening := .condition condition (captures ++ [name]) texts
              some { draft with stack := { frame with opening } :: stack }
          | _ => (captureLast? name frame.children).map fun children =>
              { draft with stack := { frame with children } :: stack }

def Token.fault? (known : String → Bool) : Token → Option Fault
  | .word text place =>
      if text ≠ "_" ∧ known text = false then some (.unknownKind text place) else none
  | _ => none

/-- Read one token, with some kinds known. -/
def Draft.step (known : String → Bool) (draft : Draft) : Option Token → Except Fault Draft
  | none => .error .malformed
  | some token =>
      match draft.next? token, token.fault? known with
      | none, _ => .error .malformed
      | some _, some fault => .error fault
      | some next, none => .ok next

def Draft.run (known : String → Bool) : Draft → List (Option Token) → Except Fault Draft
  | draft, [] => .ok draft
  | draft, token :: rest =>
      match draft.step known token with
      | .ok next => run known next rest
      | .error fault => .error fault

/-- The query that a text writes, with some kinds known. -/
def read (known : String → Bool) (text : String) : Except Fault Query :=
  match Draft.run known {} (tokens text) with
  | .error fault => .error fault
  | .ok draft =>
      if draft.stack.isEmpty && draft.conditions.isEmpty then .ok ⟨draft.clauses⟩
      else .error .malformed

/-- The query that a text writes for the grammar of a language. -/
def compile [Grammars] (language : Language) (text : String) : Except Fault Query :=
  read (Grammars.hasKind language) text

end Query

end SourceGauge
