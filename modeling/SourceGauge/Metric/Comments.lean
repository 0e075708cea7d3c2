/-
# SourceGauge.Metric.Comments -- lines of comments, lines of code, keywords

The comment nodes of a file come in the order of their matches.  `countRows`
adds up the rows they occupy, each row once, by remembering the last row
counted.  `keywordCount` counts the words `bug`, `wtf`, `todo` and `hack`,
whatever their case, by one pass over the text.

Lines of code are told from the tree alone: a row counts when a node that is in
no comment starts on it, or a leaf that is no line break spans it
(`codeRows`).
-/
import SourceGauge.Query.Pattern
import SourceGauge.Registry
import SourceGauge.Text.WordChar

namespace SourceGauge.Metric

set_option autoImplicit false

/-! ## Rows of comments -/

/-- The last row that a node occupies; a line break at its end does not count. -/
def lastRow (node : Node) : Nat :=
  if node.stop.column = 0 ∧ node.start.row < node.stop.row then node.stop.row - 1 else node.stop.row

/-- The rows of some nodes that lie beyond the last row counted before. -/
def countRows : Option Nat → List Node → Nat
  | _, [] => 0
  | counted, node :: rest =>
      let first := match counted with
        | some last => if node.start.row ≤ last then last + 1 else node.start.row
        | none => node.start.row
      if first ≤ lastRow node then
        (lastRow node - first + 1) + countRows (some (lastRow node)) rest
      else countRows counted rest

def firstCaptures (query : Query) (file : ParsedFile) : List Node :=
  (query.allMatches file.source file.root).filterMap fun found =>
    found.captures.head?.map Query.Capture.node

/-! ## Rows of code -/

/-- Leaves that only end a line. -/
def isLineBreak (kind : String) : Bool :=
  kind = "" || kind = "\n" || kind = "\r" || kind = "\r\n"

def ownRows (node : Node) : List Nat :=
  node.start.row ::
    if node.children.isEmpty && !isLineBreak node.kind then
      List.range' (node.start.row + 1) (node.stop.row - node.start.row)
    else []

mutual

/-- The rows on which a node and what is below it put code, comments left out. -/
def codeRows (isComment : Node → Bool) : Node → List Nat
  | .mk label children =>
      if isComment (.mk label children) then []
      else ownRows (.mk label children) ++ codeRowsOf isComment children

def codeRowsOf (isComment : Node → Bool) : List Node → List Nat
  | [] => []
  | node :: rest => codeRows isComment node ++ codeRowsOf isComment rest

end

/-- Whether a node is a comment by its kind, or a string statement of Python. -/
def isComment (registry : Registry) (language : Language) (node : Node) : Bool :=
  (registry.activeKinds .comment language).contains node.kind ||
    (language = .python && node.isDocstring)

def realLines (registry : Registry) (file : ParsedFile) : Nat :=
  (codeRowsOf (isComment registry file.language) file.root.children).eraseDups.length

/-! ## Keywords -/

/-- The keywords, in lower case. -/
def keywords : List (List Char) :=
  ["bug".toList, "wtf".toList, "todo".toList, "hack".toList]

/-- Whether a character is a letter of a keyword, whatever its case; the Kelvin
sign is a `k`. -/
def sameLetter (letter c : Char) : Bool :=
  c = letter || ('A' ≤ c && c ≤ 'Z' && Char.ofNat (c.toNat + 32) = letter) ||
    (letter = 'k' && c = '\u212a')

/-- Whether a text begins with a word, whatever its case, that ends there. -/
def beginsWord : List Char → List Char → Bool
  | [], [] => true
  | [], c :: _ => !Text.isWordChar c
  | _ :: _, [] => false
  | letter :: letters, c :: cs => sameLetter letter c && beginsWord letters cs

def keywordAt? (cs : List Char) : Option (List Char) :=
  keywords.find? fun word => beginsWord word cs

/-- The number of keywords in a text.  `inWord` says whether the character
before is a word character, and `skip` characters belong to the keyword found
last. -/
def countKeywords (inWord : Bool) : Nat → List Char → Nat
  | _, [] => 0
  | skip + 1, c :: cs => countKeywords (Text.isWordChar c) skip cs
  | 0, c :: cs =>
      match if inWord then none else keywordAt? (c :: cs) with
      | some word => countKeywords (Text.isWordChar c) (word.length - 1) cs + 1
      | none => countKeywords (Text.isWordChar c) 0 cs

def keywordCount (text : String) : Nat := countKeywords false 0 text.toList

end SourceGauge.Metric
