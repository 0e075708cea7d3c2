/-
# SourceGauge.Disk -- a tree of files, and the folder that a program is in

A run reads from and writes to a `Disk`.  A path that begins with a slash is
followed from the root, any other one from the current folder (`Disk.resolve`).
-/
import SourceGauge.FileTree

namespace SourceGauge

set_option autoImplicit false

/-- A tree of files, with the names that lead from its root to the current folder. -/
structure Disk where
  root : FileTree
  current : List String := []

namespace Disk

def start (disk : Disk) (path : Path) : List String := if path.isRooted then [] else disk.current

/-- The names that lead from the root to where a path does.  An empty path leads nowhere. -/
def resolve (disk : Disk) (path : Path) (create : Bool) : Except FileError (List String) :=
  if path.text = "" then .error .notFound
  else disk.root.resolveFrom create (disk.start path) path.steps

/-- The item at a path. -/
def find (disk : Disk) (path : Path) : Except FileError FileTree :=
  match disk.resolve path false with
  | .error error => .error error
  | .ok names =>
      match disk.root.get? names with
      | some item => .ok item
      | none => .error .notFound

def hasItem (disk : Disk) (path : Path) : Bool := (disk.find path).isOk

def findFile (disk : Disk) (path : Path) : Except FileError StoredFile :=
  match disk.find path with
  | .ok (.file content) => .ok content
  | .ok (.folder _) => .error .isFolder
  | .error error => .error error

def readText (disk : Disk) (path : Path) : Except FileError String :=
  match disk.findFile path with
  | .ok content => content.read
  | .error error => .error error

/-- Write a file, in place of the one at the path if there is one.  A path that
ends in a slash names a folder. -/
def write (disk : Disk) (path : Path) (content : StoredFile) : Except FileError Disk :=
  if path.text.toList.getLast? = some '/' then
    match disk.resolve path.trimmed true with
    | .error error => .error error
    | .ok _ => .error .isFolder
  else
    match disk.resolve path true with
    | .error error => .error error
    | .ok names =>
        match disk.root.get? names with
        | some (.folder _) => .error .isFolder
        | _ => .ok { disk with root := FileTree.put (.file content) names disk.root }

/-- Every file below `sources`, in increasing order, leaving out the folders
below it that have one of the excluded names; a file yields itself. -/
def discover (disk : Disk) (sources : Path) (excluded : List String) : List Path :=
  match disk.find sources with
  | .error _ => []
  | .ok item => (item.walk excluded sources).mergeSort fun p q => !q.lt p

end Disk

end SourceGauge
