/-
# SourceGauge.Workspace -- disks as JSON

A workspace document lists files and folders.  A file has a path and either its
`source` or its `bytes`; a file whose name fits a grammar carries the tag of its
language and its `tree`, and a header also the tree that C gives it, `tree_c`.
Bytes are text when they are valid UTF-8.

A document says nothing of the grammars; every kind is taken as known unless its name begins with
`no_such_`, which is how a document writes an unknown one.
-/
import SourceGauge.Disk
import SourceGauge.Json
import SourceGauge.Language.Grammars
import SourceGauge.Syntax.Document

namespace SourceGauge.Workspace

set_option autoImplicit false

@[reducible]
def grammars : Grammars := .allBut "no_such_"

/-- The tree of one field of a file, for a language. -/
def treesOf (source : String) (language : Option Language) (value : Option Json) :
    List (Language × Node) :=
  match language, value.bind (Node.ofJson? source) with
  | some language, some root => [(language, root)]
  | _, _ => []

/-- The text of a list of bytes, when they are valid UTF-8. -/
def textOfBytes? (bytes : List Nat) : Option String :=
  String.fromUTF8? ⟨(bytes.map UInt8.ofNat).toArray⟩

def fileOfJson (value : Json) : StoredFile :=
  match value.field? "bytes" with
  | some (.array bytes) => { text := textOfBytes? (bytes.filterMap Json.nat?) }
  | _ =>
      let source := ((value.field? "source").bind Json.text?).getD ""
      let language := ((value.field? "lang").bind Json.text?).bind Language.ofTag?
      { text := some source
        trees := treesOf source language (value.field? "tree") ++
          treesOf source (some .c) (value.field? "tree_c") }

def names (path : String) : List String :=
  (Path.components ⟨path⟩).filterMap fun
    | .name name => some name
    | _ => none

def addFolder (top : FileTree) (path : String) : FileTree :=
  match top.get? (names path) with
  | some _ => top
  | none => FileTree.put (.folder []) (names path) top

def addFile (top : FileTree) (value : Json) : FileTree :=
  match (value.field? "path").bind Json.text? with
  | none => top
  | some path => FileTree.put (.file (fileOfJson value)) (names path) top

def treeOfJson (value : Json) : FileTree :=
  let files := ((value.field? "files").bind Json.items?).getD []
  let folders := (((value.field? "dirs").bind Json.items?).getD []).filterMap Json.text?
  files.foldl addFile (folders.foldl addFolder (.folder []))

/-- The disk of a workspace document: the workspace is the current folder, and there is
nothing else. -/
def ofJson (value : Json) : Disk where
  root := .folder [("workspace", treeOfJson value)]
  current := ["workspace"]

end SourceGauge.Workspace
