/-
# SourceGauge.Text.Lines -- places in a text and its lines

A `Place` is a byte offset in the UTF-8 form of a text with the row and the
column (in bytes) that it falls on; only `\n` ends a row.  Raw text that no
grammar reads is counted in lines of its own rule: each of `\r\n`, `\r` and `\n`
ends one (`lineCount`).  `slice` is the text between two byte offsets.
-/

namespace SourceGauge.Text

set_option autoImplicit false

/-! ## Lines of raw text -/

/-- The number of lines, each of `\r\n`, `\r` and `\n` ending one. -/
def countLines : List Char → Nat
  | [] => 1
  | '\r' :: '\n' :: cs => countLines cs + 1
  | c :: cs => countLines cs + if c = '\n' ∨ c = '\r' then 1 else 0

/-- The number of lines of a raw text; the empty text has one. -/
def lineCount (s : String) : Nat := countLines s.toList

/-! ## Places -/

/-- A byte offset with its row and its column in bytes, all from zero. -/
structure Place where
  byte : Nat
  row : Nat
  column : Nat
  deriving DecidableEq, Repr

namespace Place

def start : Place := ⟨0, 0, 0⟩

/-- The place after the character `c`. -/
def after (place : Place) (c : Char) : Place :=
  if c = '\n' then ⟨place.byte + 1, place.row + 1, 0⟩
  else ⟨place.byte + c.utf8Size, place.row, place.column + c.utf8Size⟩

/-- The place at byte offset `byte` of the text `cs` that begins at `place`:
the first place at or beyond the offset, or the end. -/
def seek (byte : Nat) (place : Place) : List Char → Place
  | [] => place
  | c :: cs => if byte ≤ place.byte then place else seek byte (place.after c) cs

def ofByte (text : String) (byte : Nat) : Place := seek byte start text.toList

end Place

/-! ## Slices -/

/-- What is left after the first `n` bytes, if they are whole characters. -/
def dropBytes : Nat → List Char → Option (List Char)
  | 0, cs => some cs
  | _ + 1, [] => none
  | n + 1, c :: cs => if c.utf8Size ≤ n + 1 then dropBytes (n + 1 - c.utf8Size) cs else none

/-- The first `n` bytes, if they are whole characters. -/
def takeBytes : Nat → List Char → Option (List Char)
  | 0, _ => some []
  | _ + 1, [] => none
  | n + 1, c :: cs =>
      if c.utf8Size ≤ n + 1 then (takeBytes (n + 1 - c.utf8Size) cs).map (c :: ·) else none

/-- The text from byte `start` to byte `stop`; empty when these are not places
between characters in order. -/
def slice (text : String) (start stop : Nat) : String :=
  let cut := (dropBytes start text.toList).bind (takeBytes (stop - start))
  match if start ≤ stop then cut else none with
  | some cs => String.ofList cs
  | none => ""

end SourceGauge.Text
