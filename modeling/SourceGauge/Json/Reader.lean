/-
# SourceGauge.Json.Reader -- the value of a JSON text

A value is read by a fold over its tokens.  The containers that are still open
are frames on a stack, and the state says what may come next (`Reading`), so
nothing limits the depth of a value and no measure is needed.
-/
import SourceGauge.Json
import SourceGauge.Json.Token

namespace SourceGauge.Json

set_option autoImplicit false

/-- An open container: what it holds so far, in reverse, and in an object the
name of the field whose value is being read. -/
inductive Frame where
  | array (reversed : List Json)
  | object (reversed : List (Option String × Json)) (name : Option String)

/-- What may come next. -/
inductive Reading where
  /-- A value, or the end of the array when nothing stands in it yet. -/
  | value (stack : List Frame) (mayClose : Bool)
  /-- The name of a field, or the end of the object when it is empty. -/
  | key (reversed : List (Option String × Json)) (stack : List Frame) (mayClose : Bool)
  /-- The colon after a name. -/
  | colon (reversed : List (Option String × Json)) (name : Option String) (stack : List Frame)
  /-- A comma, or the end of the innermost container. -/
  | more (top : Frame) (stack : List Frame)
  /-- Nothing more. -/
  | done (value : Json)

def Reading.give (value : Json) : List Frame → Reading
  | [] => .done value
  | .array reversed :: stack => .more (.array (value :: reversed)) stack
  | .object reversed name :: stack => .more (.object ((name, value) :: reversed) none) stack

def Reading.step : Reading → Token → Option Reading
  | .value stack _, .null => some (give .null stack)
  | .value stack _, .bool b => some (give (.bool b) stack)
  | .value stack _, .number text => some (give (.number text) stack)
  | .value stack _, .string (some text) => some (give (.string text) stack)
  | .value stack _, .string none => some (give .unpaired stack)
  | .value stack _, .openArray => some (.value (.array [] :: stack) true)
  | .value stack _, .openObject => some (.key [] stack true)
  | .value (.array [] :: stack) true, .closeArray => some (give (.array []) stack)
  | .key reversed stack _, .string name => some (.colon reversed name stack)
  | .key [] stack true, .closeObject => some (give (.object []) stack)
  | .colon reversed name stack, .colon => some (.value (.object reversed name :: stack) false)
  | .more (.array reversed) stack, .comma => some (.value (.array reversed :: stack) false)
  | .more (.array reversed) stack, .closeArray => some (give (.array reversed.reverse) stack)
  | .more (.object reversed _) stack, .comma => some (.key reversed stack false)
  | .more (.object reversed _) stack, .closeObject => some (give (.object reversed.reverse) stack)
  | _, _ => none

def Reading.run : Reading → List Token → Option Reading
  | state, [] => some state
  | state, token :: rest =>
      match state.step token with
      | none => none
      | some next => run next rest

def ofTokens? (tokens : List Token) : Option Json :=
  match (Reading.value [] false).run tokens with
  | some (.done value) => some value
  | _ => none

/-- The value of a JSON text; none when the text is not one JSON value. -/
def parse? (text : String) : Option Json := (tokens? text).bind ofTokens?

theorem Reading.run_append (state : Reading) (first second : List Token) :
    state.run (first ++ second) = (state.run first).bind fun next => next.run second := by
  induction first generalizing state with
  | nil => rfl
  | cons token rest ih =>
      simp only [List.cons_append, run]
      cases h : state.step token with
      | none => rfl
      | some next => exact ih next

end SourceGauge.Json
