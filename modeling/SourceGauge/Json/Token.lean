/-
# SourceGauge.Json.Token -- the tokens of a JSON text

Tokens are read by a fold over the characters (`Mode.step`): the state says
whether the next character stands between tokens, in a word, or in a string,
where it may belong to an escape.  A word is a maximal run of characters that
are neither space, quote nor punctuation; it must be a number or one of the
three names (`Token.ofWord?`).

A string has no text when it holds half of a surrogate pair, and is refused
when it holds a control character as it is.
-/

namespace SourceGauge.Json

set_option autoImplicit false

/-- A token.  The text of a string is `none` when half a surrogate pair stands
in it. -/
inductive Token where
  | openArray
  | closeArray
  | openObject
  | closeObject
  | comma
  | colon
  | null
  | bool (value : Bool)
  | number (text : String)
  | string (text : Option String)
  deriving DecidableEq, Repr

/-! ## Words -/

/-- What is left of a number after its exponent, if the exponent is one. -/
def afterExponent? : List Char → Option (List Char)
  | c :: cs =>
      if c = 'e' ∨ c = 'E' then
        let digits := match cs with
          | '+' :: rest => rest
          | '-' :: rest => rest
          | rest => rest
        match digits with
        | d :: rest => if d.isDigit then some (rest.dropWhile Char.isDigit) else none
        | [] => none
      else some (c :: cs)
  | [] => some []

/-- What is left of a number after its fraction, if the fraction is one. -/
def afterFraction? : List Char → Option (List Char)
  | '.' :: d :: rest => if d.isDigit then some (rest.dropWhile Char.isDigit) else none
  | '.' :: [] => none
  | cs => some cs

/-- What is left of a number after its whole part: `0`, or digits that do not
begin with `0`. -/
def afterWhole? : List Char → Option (List Char)
  | '0' :: rest => some rest
  | d :: rest => if d.isDigit then some (rest.dropWhile Char.isDigit) else none
  | [] => none

def isNumber (word : List Char) : Bool :=
  let unsigned := match word with
    | '-' :: rest => rest
    | rest => rest
  ((afterWhole? unsigned).bind afterFraction?).bind afterExponent? = some []

def Token.ofWord? (word : List Char) : Option Token :=
  if word = "null".toList then some .null
  else if word = "true".toList then some (.bool true)
  else if word = "false".toList then some (.bool false)
  else if isNumber word then some (.number (String.ofList word))
  else none

/-! ## Strings -/

/-- A string that is being read: its characters so far in reverse, whether all
surrogates were paired, and a first half that waits for its second. -/
structure Draft where
  reversed : List Char := []
  paired : Bool := true
  high : Option Nat := none
  deriving Repr

namespace Draft

/-- Give up a first half whose second did not come. -/
def settle (draft : Draft) : Draft :=
  match draft.high with
  | some _ => { draft with paired := false, high := none }
  | none => draft

def push (draft : Draft) (c : Char) : Draft :=
  let draft := draft.settle
  { draft with reversed := c :: draft.reversed }

/-- Add the UTF-16 unit of an escape. -/
def pushUnit (draft : Draft) (unit : Nat) : Draft :=
  if 0xdc00 ≤ unit ∧ unit ≤ 0xdfff then
    match draft.high with
    | some high =>
        { draft with
          reversed :=
            Char.ofNat (0x10000 + (high - 0xd800) * 0x400 + (unit - 0xdc00)) :: draft.reversed
          high := none }
    | none => { draft with paired := false }
  else if 0xd800 ≤ unit ∧ unit ≤ 0xdbff then { draft.settle with high := some unit }
  else draft.push (Char.ofNat unit)

/-- The text, unless half a surrogate pair stands in it. -/
def text? (draft : Draft) : Option String :=
  if draft.settle.paired then some (String.ofList draft.reversed.reverse) else none

end Draft

def shortEscape? : Char → Option Char
  | '"' => some '"'
  | '\\' => some '\\'
  | '/' => some '/'
  | 'b' => some '\x08'
  | 'f' => some '\x0c'
  | 'n' => some '\n'
  | 'r' => some '\r'
  | 't' => some '\t'
  | _ => none

def hexDigit? (c : Char) : Option Nat :=
  if '0' ≤ c ∧ c ≤ '9' then some (c.toNat - '0'.toNat)
  else if 'a' ≤ c ∧ c ≤ 'f' then some (c.toNat - 'a'.toNat + 10)
  else if 'A' ≤ c ∧ c ≤ 'F' then some (c.toNat - 'A'.toNat + 10)
  else none

/-! ## The scan -/

/-- Where the next character stands. -/
inductive Mode where
  | between
  | word (reversed : List Char)
  | string (draft : Draft)
  | escape (draft : Draft)
  | hex (draft : Draft) (digits value : Nat)
  deriving Repr

def isSpace (c : Char) : Bool := c = ' ' || c = '\n' || c = '\t' || c = '\r'

def punctuation? : Char → Option Token
  | '[' => some .openArray
  | ']' => some .closeArray
  | '{' => some .openObject
  | '}' => some .closeObject
  | ',' => some .comma
  | ':' => some .colon
  | _ => none

def start (c : Char) : Mode × List Token :=
  if isSpace c then (.between, [])
  else if c = '"' then (.string {}, [])
  else
    match punctuation? c with
    | some token => (.between, [token])
    | none => (.word [c], [])

def isWordChar (c : Char) : Bool := !isSpace c && c ≠ '"' && (punctuation? c).isNone

/-- Read one character: the next state and the tokens that end before it. -/
def Mode.step : Mode → Char → Option (Mode × List Token)
  | .between, c => some (start c)
  | .word reversed, c =>
      if isWordChar c then some (.word (c :: reversed), [])
      else
        match Token.ofWord? reversed.reverse with
        | some token => some ((start c).1, token :: (start c).2)
        | none => none
  | .string draft, c =>
      if c = '"' then some (.between, [.string draft.text?])
      else if c = '\\' then some (.escape draft, [])
      else if c.toNat < 0x20 then none
      else some (.string (draft.push c), [])
  | .escape draft, c =>
      if c = 'u' then some (.hex draft 0 0, [])
      else (shortEscape? c).map fun meant => (.string (draft.push meant), [])
  | .hex draft digits value, c =>
      match hexDigit? c with
      | none => none
      | some digit =>
          if digits = 3 then some (.string (draft.pushUnit (value * 16 + digit)), [])
          else some (.hex draft (digits + 1) (value * 16 + digit), [])

/-- The tokens that the end of the text ends. -/
def Mode.finish : Mode → Option (List Token)
  | .between => some []
  | .word reversed => (Token.ofWord? reversed.reverse).map fun token => [token]
  | _ => none

/-- The tokens of a text, read from the state `mode`. -/
def tokensFrom? : Mode → List Char → Option (List Token)
  | mode, [] => mode.finish
  | mode, c :: cs =>
      match mode.step c with
      | none => none
      | some (next, done) => (tokensFrom? next cs).map (done ++ ·)

def tokens? (text : String) : Option (List Token) := tokensFrom? .between text.toList

end SourceGauge.Json
