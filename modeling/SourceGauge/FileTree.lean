/-
# SourceGauge.FileTree -- folders and files held in memory

A `FileTree` is a file, or a folder of named items.  A stored file holds its text,
unless its bytes are no UTF-8, and the syntax trees that the grammars give it.

Steps are followed one by one (`FileTree.resolveFrom`): every step but the last
must lead to a folder, an idle step stays in one, and `..` leaves it for the one
above.  Above the top folder there is only the top folder itself.
-/
import SourceGauge.Path
import SourceGauge.Syntax.Node

namespace SourceGauge

set_option autoImplicit false

/-- What reading or writing a file can meet. -/
inductive FileError where
  | notFound
  | notFolder
  | isFolder
  /-- The bytes are no UTF-8 text. -/
  | notText
  /-- No grammar gave a tree for the file. -/
  | noTree
  /-- The system refuses, for a reason that the file tree does not show. -/
  | refused (reason : String)
  deriving DecidableEq, Repr

def FileError.message : FileError → String
  | notFound => "No such file or directory (os error 2)"
  | notFolder => "Not a directory (os error 20)"
  | isFolder => "Is a directory (os error 21)"
  | notText => "stream did not contain valid UTF-8"
  | noTree => "no syntax tree"
  | refused reason => reason

/-- The content of a file. -/
structure StoredFile where
  /-- The text; none when the bytes are no UTF-8 text. -/
  text : Option String
  /-- The trees of the text in the grammars that fit the file's name. -/
  trees : List (Language × Node) := []
  /-- The bytes are the text compressed by gzip. -/
  compressed : Bool := false

def StoredFile.read (file : StoredFile) : Except FileError String :=
  match file.compressed, file.text with
  | false, some text => .ok text
  | _, _ => .error .notText

def StoredFile.treeFor? (file : StoredFile) (language : Language) : Option Node :=
  (file.trees.find? fun item => item.1 = language).map (·.2)

/-- A file, or a folder of named items. -/
inductive FileTree where
  | file (content : StoredFile)
  | folder (items : List (String × FileTree))

namespace FileTree

def isFolder : FileTree → Bool
  | folder _ => true
  | file _ => false

def items : FileTree → List (String × FileTree)
  | folder items => items
  | file _ => []

def item? (tree : FileTree) (name : String) : Option FileTree :=
  (tree.items.find? fun item => item.1 = name).map (·.2)

def get? : List String → FileTree → Option FileTree
  | [], tree => some tree
  | name :: names, tree => (tree.item? name).bind (get? names)

/-- Put an item at the end of names, with the folders that lead there. -/
def put (leaf : FileTree) : List String → FileTree → FileTree
  | [], _ => leaf
  | name :: names, tree =>
      let inner := put leaf names ((tree.item? name).getD (folder []))
      if (tree.item? name).isSome then
        folder (tree.items.map fun item => if item.1 = name then (name, inner) else item)
      else folder (tree.items ++ [(name, inner)])

/-! ## Following steps -/

/-- The names that lead from the top folder to where `steps` lead from
`here`.  `create` allows the last name not to exist. -/
def resolveFrom (top : FileTree) (create : Bool) (here : List String) :
    List String → Except FileError (List String)
  | [] => .ok here
  | step :: rest =>
      match top.get? here with
      | none => .error .notFound
      | some (file _) => .error .notFolder
      | some (folder items) =>
          if Path.isIdle step then resolveFrom top create here rest
          else if step = ".." then resolveFrom top create here.dropLast rest
          else if items.any fun item => item.1 = step then
            resolveFrom top create (here ++ [step]) rest
          else if create && rest.isEmpty then .ok (here ++ [step])
          else .error .notFound

/-! ## Walking -/

mutual

/-- The files below an item whose path is `here`, leaving out the folders that
have one of the excluded names. -/
def walk (excluded : List String) (here : Path) : FileTree → List Path
  | file _ => [here]
  | folder items => walkItems excluded here items

def walkItems (excluded : List String) (here : Path) : List (String × FileTree) → List Path
  | [] => []
  | (name, item) :: rest =>
      (if item.isFolder && excluded.contains name then []
        else walk excluded (here.child name) item) ++ walkItems excluded here rest

end

end FileTree

end SourceGauge
