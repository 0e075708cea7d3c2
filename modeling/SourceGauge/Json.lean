/-
# SourceGauge.Json -- JSON values

A value keeps numbers as they were written and objects as lists of fields in
their order, repeated names included; what a repeated or unknown name means is
for the reader of the value to say.  A string may be written with half of a
surrogate pair: it is well formed JSON but has no text (`Json.unpaired`).
-/

namespace SourceGauge

set_option autoImplicit false

/-- A JSON value.  A field's name is `none` when it has no text. -/
inductive Json where
  | null
  | bool (value : Bool)
  | number (text : String)
  | string (text : String)
  | unpaired
  | array (items : List Json)
  | object (fields : List (Option String × Json))

namespace Json

def record (fields : List (String × Json)) : Json :=
  object (fields.map fun field => (some field.1, field.2))

def nat (n : Nat) : Json := number (toString n)

def strings (texts : List String) : Json := array (texts.map string)

def field? (name : String) : Json → Option Json
  | object fields => (fields.find? fun field => field.1 = some name).map (·.2)
  | _ => none

def text? : Json → Option String
  | string text => some text
  | _ => none

def bool? : Json → Option Bool
  | bool value => some value
  | _ => none

def items? : Json → Option (List Json)
  | array items => some items
  | _ => none

/-- The number, when it is written with digits alone. -/
def nat? : Json → Option Nat
  | number text => if text.toList.all Char.isDigit then text.toNat? else none
  | _ => none

end Json

end SourceGauge
