/-
# SourceGauge.Path -- paths, compared by component and printed as written

A path keeps the text it was given, and every comparison looks at its
components only: repeated slashes, inner `.` and a trailing slash do not
matter, a leading `.` is a component, and `..` is never resolved
(`Path.components`).  Components are ordered root, `.`, `..`, names, so that a
folder's files stand together (`Path.lt`).

* `Path.relativeTo?` strips a base by component and keeps the rest as written.
* `PathMap` is a map keyed by path: entries in increasing order, one for each
  list of components.  `PathMap.insert` replaces the value and keeps the first
  spelling, `PathMap.insertNew` keeps the first value, `PathMap.ofLast` keeps
  the last spelling with the last value.
-/
import SourceGauge.Text.Split

namespace SourceGauge

set_option autoImplicit false

/-- One step of a path. -/
inductive Component where
  | root
  | current
  | parent
  | name (text : String)
  deriving DecidableEq, Repr

namespace Component

/-- Root before `.` before `..` before names; names by code point. -/
def lt : Component → Component → Bool
  | root, root => false
  | root, _ => true
  | current, root => false
  | current, current => false
  | current, _ => true
  | parent, name _ => true
  | parent, _ => false
  | name s, name t => decide (s < t)
  | name _, _ => false

def text : Component → String
  | root => "/"
  | current => "."
  | parent => ".."
  | name s => s

end Component

/-- A path as it was written. -/
structure Path where
  text : String
  deriving DecidableEq, Repr

namespace Path

/-! ## Components -/

def steps (path : Path) : List String := Text.split "/" path.text

/-- A step that goes nowhere: the text between two slashes, or `.`. -/
def isIdle (step : String) : Bool := step = "" || step = "."

def component (step : String) : Component := if step = ".." then .parent else .name step

def inner (steps : List String) : List Component :=
  (steps.filter fun step => !isIdle step).map component

def isRooted (path : Path) : Bool := Text.startsWith "/" path.text

/-- Whether the first step is a component of its own though it goes nowhere:
the root, or a leading `.`. -/
def hasHead (path : Path) : Bool := path.isRooted || path.steps.head? = some "."

def components (path : Path) : List Component :=
  if path.isRooted then .root :: inner path.steps.tail
  else if path.steps.head? = some "." then .current :: inner path.steps.tail
  else inner path.steps

/-- Two paths are the same path when their components are. -/
def same (p q : Path) : Bool := p.components = q.components

/-- The lexicographic order of lists of components. -/
def componentsLt : List Component → List Component → Bool
  | [], [] => false
  | [], _ :: _ => true
  | _ :: _, [] => false
  | a :: as, b :: bs => if a = b then componentsLt as bs else a.lt b

/-- Paths are ordered by their components. -/
def lt (p q : Path) : Bool := componentsLt p.components q.components

/-- The last component, when it is a name. -/
def fileName? (path : Path) : Option String :=
  match path.components.getLast? with
  | some (.name text) => some text
  | _ => none

/-- The text after the last dot of the file name, unless that dot comes first. -/
def extension? (path : Path) : Option String :=
  match path.fileName? with
  | none => none
  | some name =>
      match Text.afterLast? ['.'] name.toList with
      | none => none
      | some ending =>
          if ending.length + 1 = name.toList.length then none else some (String.ofList ending)

/-! ## Joining and stripping -/

def child (folder : Path) (name : String) : Path :=
  if folder.text = "" ∨ folder.text.toList.getLast? = some '/' then ⟨folder.text ++ name⟩
  else ⟨folder.text ++ "/" ++ name⟩

/-- The steps left after `n` components of them. -/
def dropSteps : Nat → List String → List String
  | 0, steps => steps
  | _ + 1, [] => []
  | n + 1, step :: steps => if isIdle step then dropSteps (n + 1) steps else dropSteps n steps

def trimEnd (steps : List String) : List String := (steps.reverse.dropWhile isIdle).reverse

/-- The path without idle steps at its end. -/
def trimmed (path : Path) : Path :=
  if path.isRooted then ⟨"/" ++ Text.join "/" (trimEnd path.steps.tail)⟩
  else if path.hasHead then ⟨Text.join "/" ("." :: trimEnd path.steps.tail)⟩
  else ⟨Text.join "/" (trimEnd path.steps)⟩

/-- The rest of the path after its first `n` components, as written, without
idle steps at either end. -/
def dropComponents (n : Nat) (path : Path) : Path :=
  match n with
  | 0 => path.trimmed
  | n + 1 =>
      let rest := if path.hasHead then dropSteps n path.steps.tail else dropSteps (n + 1) path.steps
      ⟨Text.join "/" (trimEnd (rest.dropWhile isIdle))⟩

/-- The rest of the path below `base`; none when `base` is not a path above it. -/
def relativeTo? (path base : Path) : Option Path :=
  if base.components.isPrefixOf path.components then
    some (path.dropComponents base.components.length)
  else none

/-- How a report prints `path`: as it is, or relative to `sources`, or its file
name alone when it is `sources` itself. -/
def printed (path sources : Path) (relative : Bool) : Path :=
  if !relative then path
  else if path.same sources then
    match path.fileName? with
    | some name => ⟨name⟩
    | none => path
  else
    match path.relativeTo? sources with
    | some rest => rest
    | none => path

end Path

/-! ## Maps keyed by path -/

/-- Entries in increasing order of path. -/
abbrev PathMap (α : Type) := List (Path × α)

namespace PathMap

variable {α : Type}

/-- Set the value at a path; the path first inserted stays as it was spelled. -/
def insert (path : Path) (value : α) : PathMap α → PathMap α
  | [] => [(path, value)]
  | (key, old) :: rest =>
      if path.same key then (key, value) :: rest
      else if path.lt key then (path, value) :: (key, old) :: rest
      else (key, old) :: insert path value rest

/-- Set the value at a path, replacing the spelling too. -/
def replace (path : Path) (value : α) : PathMap α → PathMap α
  | [] => [(path, value)]
  | (key, old) :: rest =>
      if path.same key then (path, value) :: rest
      else if path.lt key then (path, value) :: (key, old) :: rest
      else (key, old) :: replace path value rest

def find? (path : Path) : PathMap α → Option α
  | [] => none
  | (key, value) :: rest => if path.same key then some value else find? path rest

def insertNew (path : Path) (value : α) (map : PathMap α) : PathMap α :=
  match map.find? path with
  | some _ => map
  | none => map.insert path value

/-- The map of a list of entries; of two entries at one path the later one
counts, in spelling and value. -/
def ofLast (items : List (Path × α)) : PathMap α :=
  items.foldl (fun map item => map.replace item.1 item.2) []

end PathMap

end SourceGauge
