/-
# SourceGauge.Json.Printer -- the compact text of a JSON value

No space stands between tokens.  In a string the quote, the backslash and the
control characters are escaped, by a letter where there is one and by four
lower case hexadecimal digits otherwise; every other character stands for
itself.
-/
import SourceGauge.Json

namespace SourceGauge.Json

set_option autoImplicit false

/-- The letter that escapes a character, if it has one. -/
def escapeLetter? : Char → Option Char
  | '"' => some '"'
  | '\\' => some '\\'
  | '\x08' => some 'b'
  | '\x0c' => some 'f'
  | '\n' => some 'n'
  | '\r' => some 'r'
  | '\t' => some 't'
  | _ => none

/-- A hexadecimal digit in lower case. -/
def hexDigit (n : Nat) : Char := if n < 10 then Char.ofNat (48 + n) else Char.ofNat (87 + n)

def escapeChar (c : Char) : List Char :=
  match escapeLetter? c with
  | some letter => ['\\', letter]
  | none =>
      if c.toNat < 0x20 then ['\\', 'u', '0', '0', hexDigit (c.toNat / 16), hexDigit (c.toNat % 16)]
      else [c]

def quote (text : String) : String := "\"" ++ String.ofList (text.toList.flatMap escapeChar) ++ "\""

/-- The string token of a field's name; a name without text is written as the
replacement character. -/
def quoteName : Option String → String
  | some text => quote text
  | none => quote "\ufffd"

mutual

/-- The compact text of a value. -/
def render : Json → String
  | .null => "null"
  | .bool true => "true"
  | .bool false => "false"
  | .number text => text
  | .string text => quote text
  | .unpaired => quote "\ufffd"
  | .array items => "[" ++ renderItems items ++ "]"
  | .object fields => "\x7b" ++ renderFields fields ++ "\x7d"

def renderItems : List Json → String
  | [] => ""
  | [item] => render item
  | item :: next :: rest => render item ++ "," ++ renderItems (next :: rest)

def renderFields : List (Option String × Json) → String
  | [] => ""
  | [(name, value)] => quoteName name ++ ":" ++ render value
  | (name, value) :: next :: rest =>
      quoteName name ++ ":" ++ render value ++ "," ++ renderFields (next :: rest)

end

end SourceGauge.Json
