/-
# SourceGauge.Toml.Reader -- documents in TOML

A document is lines of pairs and headers (`readLine?`); a pair belongs to the
table that the last header named.  Values nest in arrays, which may span lines,
and in braces, which may not.  A document that cannot be read gives the line at
which reading stopped (`Document.read`).

Keys have fewer than `limit` names and brackets nest less than `limit` deep.
Lines end with a line feed, before which one carriage return does not count
(`unifyLineEnds`); no other carriage return has a place in a document.
-/
import SourceGauge.Toml
import SourceGauge.Toml.Quoted
import SourceGauge.Toml.Word

namespace SourceGauge.Toml

set_option autoImplicit false

/-- How long keys and how deep brackets must not become. -/
def limit : Nat := 80

/-! ## Space and comments -/

/-- The characters with every line end a single line feed. -/
def unifyLineEnds : List Char → List Char
  | [] => []
  | '\r' :: '\n' :: rest => '\n' :: unifyLineEnds rest
  | c :: rest => c :: unifyLineEnds rest

def skipSpace (cs : List Char) : List Char := cs.dropWhile isSpace

/-- The characters after space and, if there is one, a comment. -/
def skipComment (cs : List Char) : List Char :=
  match skipSpace cs with
  | '#' :: rest => rest.dropWhile isPlain
  | rest => rest

/-- What follows the line end, before which only space and a comment may stand;
the end of the document is a line end. -/
def endLine? (cs : List Char) : Option (List Char) :=
  match skipComment cs with
  | [] => some []
  | '\n' :: rest => some rest
  | _ => none

/-- The characters after any number of line ends with space and comments. -/
def skipLines : Nat → List Char → List Char
  | 0, cs => cs
  | fuel + 1, cs =>
      match skipComment cs with
      | '\n' :: rest => skipLines fuel rest
      | rest => rest

/-- The characters after all blank lines, comments and space at their start. -/
def skipBlank (cs : List Char) : List Char := skipLines cs.length cs

/-! ## Keys -/

def isNameLetter (c : Char) : Bool := c.isAlphanum || c = '_' || c = '-'

def readName? (cs : List Char) : Option (String × List Char) :=
  match cs with
  | [] => none
  | c :: _ =>
      if c = '"' || c = '\'' then Quoted.readShort? cs
      else if isNameLetter c then
        some (String.ofList (cs.takeWhile isNameLetter), cs.dropWhile isNameLetter)
      else none

/-- At most `fuel` names joined by dots, with space around each. -/
def readNames? : Nat → List Char → Option (List String × List Char)
  | 0, _ => none
  | fuel + 1, cs =>
      match readName? (skipSpace cs) with
      | none => none
      | some (name, rest) =>
          match skipSpace rest with
          | '.' :: rest => (readNames? fuel rest).map fun read => (name :: read.1, read.2)
          | rest => some ([name], rest)

def readKey? (cs : List Char) : Option (List String × List Char) := readNames? (limit - 1) cs

/-! ## Values -/

def ofPairs? (pairs : List (List String × Toml)) : Option Toml :=
  match pairs.foldlM (fun target pair => addPair? pair.1 pair.2 target) root with
  | some (table _ _ fields) => some (closed fields)
  | _ => none

mutual

/-- The value at the start of some characters, within `depth` brackets. -/
def readValue? (depth : Nat) : Nat → List Char → Option (Toml × List Char)
  | 0, _ => none
  | fuel + 1, cs =>
      match cs with
      | [] => none
      | c :: rest =>
          if c = '"' || c = '\'' then
            (Quoted.read? cs).map fun read => (string read.1, read.2)
          else if c = '[' then
            if depth + 1 < limit then
              (readItems? (depth + 1) fuel rest).map fun read => (array read.1, read.2)
            else none
          else if c = '{' then
            if depth + 1 < limit then
              match skipSpace rest with
              | '}' :: rest => some (closed [], rest)
              | rest =>
                  match readPairs? (depth + 1) fuel rest with
                  | none => none
                  | some (pairs, rest) => (ofPairs? pairs).map fun value => (value, rest)
            else none
          else
            let split := splitWord cs
            (ofWord? split.1).map fun value => (value, split.2)

/-- The items of an array up to its closing bracket; a comma may follow the last
one. -/
def readItems? (depth : Nat) : Nat → List Char → Option (List Toml × List Char)
  | 0, _ => none
  | fuel + 1, cs =>
      match skipBlank cs with
      | ']' :: rest => some ([], rest)
      | cs =>
          match readValue? depth fuel cs with
          | none => none
          | some (item, rest) =>
              match skipBlank rest with
              | ']' :: rest => some ([item], rest)
              | ',' :: rest =>
                  (readItems? depth fuel rest).map fun read => (item :: read.1, read.2)
              | _ => none

/-- The pairs in braces up to the closing one, at least one. -/
def readPairs? (depth : Nat) : Nat → List Char → Option (List (List String × Toml) × List Char)
  | 0, _ => none
  | fuel + 1, cs =>
      match readKey? cs with
      | some (key, '=' :: rest) =>
          match readValue? depth fuel (skipSpace rest) with
          | none => none
          | some (value, rest) =>
              match skipSpace rest with
              | '}' :: rest => some ([(key, value)], rest)
              | ',' :: rest =>
                  (readPairs? depth fuel rest).map fun read => ((key, value) :: read.1, read.2)
              | _ => none
      | _ => none

end

/-! ## Documents -/

/-- A document: its top table, and for each name in it the first line that
defines it. -/
structure Document where
  value : Toml := root
  lines : List (String × String) := []

def Document.fields (document : Document) : List (String × Toml) :=
  match document.value with
  | table _ _ fields => fields
  | _ => []

def Document.lineOf (document : Document) (name : String) : String :=
  ((document.lines.find? fun item => item.1 = name).map (·.2)).getD ""

/-- A document that is being read. -/
structure Draft where
  document : Document := {}
  /-- The names of the table that the last header named. -/
  header : List String := []

def firstLine (cs : List Char) : String := String.ofList (cs.takeWhile (· ≠ '\n'))

/-- The document with a new value, in which a line defines some names. -/
def Document.advance (document : Document) (value : Toml) (names : List String) (line : String) :
    Document :=
  match names with
  | [] => { document with value }
  | name :: _ =>
      if document.lines.any fun item => item.1 = name then { document with value }
      else { value, lines := document.lines ++ [(name, line)] }

def readPair? (draft : Draft) (cs : List Char) : Option (Draft × List Char) :=
  match readKey? cs with
  | some (key, '=' :: rest) =>
      match readValue? 0 (2 * rest.length + 2) (skipSpace rest) with
      | none => none
      | some (value, rest) =>
          match endLine? rest, addPairAt? draft.header key value draft.document.value with
          | some rest, some value =>
              let document := draft.document.advance value (draft.header ++ key) (firstLine cs)
              some ({ draft with document }, rest)
          | _, _ => none
  | _ => none

/-- Read the names of a header, its closing brackets and the rest of its line. -/
def readHeader? (isElement : Bool) (draft : Draft) (cs : List Char) : Option (Draft × List Char) :=
  match readKey? cs with
  | none => none
  | some (names, rest) =>
      let rest := if isElement then (after? ']' rest).bind (after? ']') else after? ']' rest
      let value := if isElement then addElement? names draft.document.value
        else addTable? names draft.document.value
      match rest.bind endLine?, value with
      | some rest, some value =>
          some ({ document := draft.document.advance value names (firstLine cs), header := names },
            rest)
      | _, _ => none

/-- Read one line, or the lines that its value spans. -/
def readLine? (draft : Draft) (cs : List Char) : Option (Draft × List Char) :=
  match skipSpace cs with
  | '[' :: '[' :: rest => readHeader? true draft rest
  | '[' :: rest => readHeader? false draft rest
  | c :: rest =>
      if c = '#' || c = '\n' then (endLine? (c :: rest)).map fun rest => (draft, rest)
      else readPair? draft (c :: rest)
  | [] => some (draft, [])

def readLines : Nat → Draft → List Char → Except String Document
  | _, draft, [] => .ok draft.document
  | 0, _, cs => .error (firstLine cs)
  | fuel + 1, draft, cs =>
      match readLine? draft cs with
      | some (draft, rest) => readLines fuel draft rest
      | none => .error (firstLine cs)

def skipMark : List Char → List Char
  | '\uFEFF' :: rest => rest
  | cs => cs

/-- The document that a text writes, or the line at which it cannot be read. -/
def Document.read (text : String) : Except String Document :=
  let cs := unifyLineEnds (skipMark text.toList)
  readLines cs.length {} cs

end SourceGauge.Toml
