/-
# SourceGauge.Toml.Quoted -- quoted texts

A quoted text stands between double quotes, where a backslash begins an escape,
or between single quotes, where every character is itself.  Three quotes begin a
long text, which may hold line ends and up to two quotes in a row; the line end
right after them does not count, and neither does blank space after a backslash
at the end of a line.

Texts are read character by character; a `Mode` says what the characters before
mean for the next one (`read?`).  Line ends are single line feeds here.
-/

namespace SourceGauge.Toml

set_option autoImplicit false

def isSpace (c : Char) : Bool := c = ' ' || c = '\t'

/-- A character that may stand in a comment or a quoted text: a tab, or no
control character of ASCII. -/
def isPlain (c : Char) : Bool := c = '\t' || (0x20 ≤ c.toNat && c.toNat ≠ 0x7f)

def hexValue? (c : Char) : Option Nat :=
  if c.isDigit then some (c.toNat - '0'.toNat)
  else if 'a' ≤ c ∧ c ≤ 'f' then some (c.toNat - 'a'.toNat + 10)
  else if 'A' ≤ c ∧ c ≤ 'F' then some (c.toNat - 'A'.toNat + 10)
  else none

def charOfCode? (code : Nat) : Option Char :=
  if code.isValidChar then some (Char.ofNat code) else none

def escaped? : Char → Option Char
  | '"' => some '"'
  | '\\' => some '\\'
  | 'b' => some '\x08'
  | 'f' => some '\x0c'
  | 'n' => some '\n'
  | 'r' => some '\r'
  | 't' => some '\t'
  | _ => none

namespace Quoted

/-- The form of a quoted text. -/
structure Form where
  quote : Char
  /-- A backslash begins an escape. -/
  escapes : Bool
  /-- Three quotes end the text, and lines may end in it. -/
  long : Bool
  deriving DecidableEq, Repr

/-- What the characters before mean for the next one. -/
inductive Mode where
  /-- The next character is itself. -/
  | plain
  /-- So many quotes came in a row, at least one. -/
  | quotes (count : Nat)
  /-- A backslash came. -/
  | escape
  /-- So many digits of a code are missing, at least one. -/
  | code (missing value : Nat)
  /-- A backslash and space came, and the line must end. -/
  | lineEnd
  /-- A backslash and a line end came, and blank space does not count. -/
  | blank
  deriving DecidableEq, Repr

/-- What reading a character leads to: the next mode and the text so far in
reverse, or the end of the text, or nothing. -/
inductive Step where
  | next (mode : Mode) (reversed : List Char)
  /-- The text is over; the character belongs to it or not. -/
  | done (reversed : List Char) (taken : Bool)
  | wrong

/-- Read a character that is not part of an escape. -/
def stepPlain (form : Form) (reversed : List Char) (c : Char) : Step :=
  if c = form.quote then
    if form.long then .next (.quotes 1) reversed else .done reversed true
  else if c = '\\' ∧ form.escapes then .next .escape reversed
  else if c = '\n' then
    if form.long then .next .plain (c :: reversed) else .wrong
  else if isPlain c then .next .plain (c :: reversed)
  else .wrong

def stepEscape (form : Form) (reversed : List Char) (c : Char) : Step :=
  if c = 'u' then .next (.code 4 0) reversed
  else if c = 'U' then .next (.code 8 0) reversed
  else if form.long && isSpace c then .next .lineEnd reversed
  else if form.long && c = '\n' then .next .blank reversed
  else
    match escaped? c with
    | some d => .next .plain (d :: reversed)
    | none => .wrong

def stepCode (missing value : Nat) (reversed : List Char) (c : Char) : Step :=
  match hexValue? c with
  | none => .wrong
  | some digit =>
      let value := 16 * value + digit
      if 1 < missing then .next (.code (missing - 1) value) reversed
      else
        match charOfCode? value with
        | some d => .next .plain (d :: reversed)
        | none => .wrong

/-- Read the character after quotes in a row: the fifth of them ends a text that
holds two, any other character after three or four ends one that holds none or
one. -/
def stepQuotes (form : Form) (count : Nat) (reversed : List Char) (c : Char) : Step :=
  if c = form.quote then
    if count = 4 then .done (List.replicate 2 c ++ reversed) true
    else .next (.quotes (count + 1)) reversed
  else if 3 ≤ count then .done (List.replicate (count - 3) form.quote ++ reversed) false
  else stepPlain form (List.replicate count form.quote ++ reversed) c

def step (form : Form) (reversed : List Char) (c : Char) : Mode → Step
  | .plain => stepPlain form reversed c
  | .quotes count => stepQuotes form count reversed c
  | .escape => stepEscape form reversed c
  | .code missing value => stepCode missing value reversed c
  | .lineEnd =>
      if isSpace c then .next .lineEnd reversed
      else if c = '\n' then .next .blank reversed
      else .wrong
  | .blank =>
      if isSpace c || c = '\n' then .next .blank reversed else stepPlain form reversed c

/-- The text that ends with the document, after three or four quotes. -/
def atEnd? (form : Form) (reversed : List Char) : Mode → Option String
  | .quotes count =>
      if 3 ≤ count then
        some (String.ofList (List.replicate (count - 3) form.quote ++ reversed).reverse)
      else none
  | _ => none

/-- The text whose first quotes were read, and what follows it. -/
def readFrom? (form : Form) : Mode → List Char → List Char → Option (String × List Char)
  | mode, reversed, [] => (atEnd? form reversed mode).map fun text => (text, [])
  | mode, reversed, c :: rest =>
      match step form reversed c mode with
      | .next mode reversed => readFrom? form mode reversed rest
      | .done reversed taken =>
          some (String.ofList reversed.reverse, if taken then rest else c :: rest)
      | .wrong => none

def dropLineEnd : List Char → List Char
  | '\n' :: rest => rest
  | cs => cs

def readShort? : List Char → Option (String × List Char)
  | '"' :: rest => readFrom? ⟨'"', true, false⟩ .plain [] rest
  | '\'' :: rest => readFrom? ⟨'\'', false, false⟩ .plain [] rest
  | _ => none

def read? : List Char → Option (String × List Char)
  | '"' :: '"' :: '"' :: rest => readFrom? ⟨'"', true, true⟩ .plain [] (dropLineEnd rest)
  | '\'' :: '\'' :: '\'' :: rest => readFrom? ⟨'\'', false, true⟩ .plain [] (dropLineEnd rest)
  | cs => readShort? cs

end Quoted

end SourceGauge.Toml
