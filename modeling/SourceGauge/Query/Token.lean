/-
# SourceGauge.Query.Token -- the tokens of a query text

Query texts are read like data: a fold over the characters with a state that
says whether the next one stands between tokens, in a word, in a string or in a
comment (`Mode.step`).  A word may carry a sigil: `@` for a capture, `#` for a
condition, `!` for a field that must be absent; a plain word followed by a colon
names the field of the next pattern.  A plain word keeps the place where it
begins.
-/
import SourceGauge.Text.Lines

namespace SourceGauge.Query

set_option autoImplicit false

open Text (Place)

/-- A token of a query text. -/
inductive Token where
  | openNode
  | closeNode
  | openChoice
  | closeChoice
  | anchor
  | word (text : String) (place : Place)
  | field (text : String)
  | absent (text : String)
  | capture (text : String)
  | condition (text : String)
  | string (text : String)
  deriving DecidableEq, Repr

/-- What stands in front of a word. -/
inductive Sigil where
  | plain
  | capture
  | condition
  | absent
  deriving DecidableEq, Repr

/-- Where the next character stands. -/
inductive Mode where
  | between
  | word (sigil : Sigil) (place : Place) (reversed : List Char)
  | string (reversed : List Char)
  | escape (reversed : List Char)
  | comment
  deriving Repr

/-- The characters of a word; a condition may also end in a mark. -/
def isWordChar (sigil : Sigil) (c : Char) : Bool :=
  c.isAlphanum || c = '_' || c = '-' || c = '.' ||
    (sigil = .condition && (c = '?' || c = '!'))

def wordToken (sigil : Sigil) (place : Place) (reversed : List Char) : Token :=
  let text := String.ofList reversed.reverse
  match sigil with
  | .plain => .word text place
  | .capture => .capture text
  | .condition => .condition text
  | .absent => .absent text

/-- Read a character that continues no token; none when no token starts with it. -/
def start? (place : Place) (c : Char) : Option (Mode × List Token) :=
  if c = '(' then some (.between, [.openNode])
  else if c = ')' then some (.between, [.closeNode])
  else if c = '[' then some (.between, [.openChoice])
  else if c = ']' then some (.between, [.closeChoice])
  else if c = '"' then some (.string [], [])
  else if c = '.' then some (.between, [.anchor])
  else if c = ';' then some (.comment, [])
  else if c = '@' then some (.word .capture place [], [])
  else if c = '#' then some (.word .condition place [], [])
  else if c = '!' then some (.word .absent place [], [])
  else if c.isWhitespace then some (.between, [])
  else if isWordChar .plain c then some (.word .plain place [c], [])
  else none

def escaped (c : Char) : Char :=
  if c = 'n' then '\n' else if c = 'r' then '\r' else if c = 't' then '\t'
  else if c = '0' then '\x00' else c

/-- Read the character at `place`: the next state and the tokens that it ends. -/
def Mode.step (place : Place) : Mode → Char → Option (Mode × List Token)
  | .between, c => start? place c
  | .word sigil begun reversed, c =>
      if isWordChar sigil c then some (.word sigil begun (c :: reversed), [])
      else if sigil = .plain ∧ c = ':' then
        some (.between, [.field (String.ofList reversed.reverse)])
      else
        (start? place c).map fun next => (next.1, wordToken sigil begun reversed :: next.2)
  | .string reversed, c =>
      if c = '"' then some (.between, [.string (String.ofList reversed.reverse)])
      else if c = '\\' then some (.escape reversed, [])
      else some (.string (c :: reversed), [])
  | .escape reversed, c => some (.string (escaped c :: reversed), [])
  | .comment, c => some (if c = '\n' then .between else .comment, [])

/-- The tokens that the end of the text ends. -/
def Mode.finish? : Mode → Option (List Token)
  | .between => some []
  | .comment => some []
  | .word sigil place reversed => some [wordToken sigil place reversed]
  | _ => none

/-- The tokens of the text from `place` on, read from a state; `none` stands at
the end when the text cannot be read further. -/
def tokensFrom : Place → Mode → List Char → List (Option Token)
  | _, mode, [] =>
      match mode.finish? with
      | some done => done.map some
      | none => [none]
  | place, mode, c :: cs =>
      match mode.step place c with
      | some (next, done) => done.map some ++ tokensFrom (place.after c) next cs
      | none => [none]

def tokens (text : String) : List (Option Token) := tokensFrom Place.start .between text.toList

end SourceGauge.Query
