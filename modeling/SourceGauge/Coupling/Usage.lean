/-
# SourceGauge.Coupling.Usage -- what a file may refer to

Every base name of a type and every captured use of a name is looked up in the
way of the language, which gives candidates: full names that it may stand for.
A candidate that names no known type is dropped later.  Uses other than base
names count for the first type of the file.

A text is looked up once: `Collected.seen` holds the texts done, and also the
cleaned names looked up under them.  Call chains are kept for chain resolution,
since the type of their receiver is not known yet.
-/
import SourceGauge.Coupling.DeclaredType

namespace SourceGauge.Coupling

set_option autoImplicit false

/-- How one type depends on another. -/
inductive UsageKind where
  | use
  | extension
  | implementation
  deriving DecidableEq, Repr

namespace UsageKind

def name : UsageKind → String
  | use => "usage"
  | extension => "extends"
  | implementation => "implements"

def ofName? (text : String) : Option UsageKind :=
  [use, extension, implementation].find? fun kind => kind.name = text

end UsageKind

/-- A possible reference from a type to a full name. -/
structure Candidate where
  used : String
  /-- The full name of the type that refers. -/
  origin : String
  file : Path
  kind : UsageKind
  deriving DecidableEq, Repr

/-- A chain of member accesses. -/
structure CallChain where
  text : String
  delimiter : String
  /-- The first segment is a variable. -/
  hasReceiver : Bool
  deriving DecidableEq, Repr

/-- A text to look up. -/
structure UsageText where
  isCall : Bool
  text : String
  /-- The full name of the type whose base it is. -/
  owner : Option String
  kind : UsageKind
  deriving DecidableEq, Repr

/-! ## Names -/

/-- A segment without one array or call suffix or question mark. -/
def cleanSegment (segment : String) : String :=
  match Text.stripEnd? "[]" segment with
  | some rest => rest
  | none =>
      match Text.stripEnd? "()" segment with
      | some rest => rest
      | none => (Text.stripEnd? "?" segment).getD segment

/-- Texts with a space or an opened type argument name no single type. -/
def isUnusable (name : String) : Bool := Text.contains " " name || Text.contains "<" name

/-- The proper beginnings of a list, longest first, down to one item. -/
def properInits (parts : List String) : List (List String) :=
  ((List.range (parts.length - 1)).reverse).map fun n => parts.take (n + 1)

def inits (parts : List String) : List (List String) :=
  ((List.range parts.length).reverse).map fun n => parts.take (n + 1)

def dropLastOfMany (parts : List String) : List String :=
  if 1 < parts.length then parts.dropLast else parts

/-- The full names that an unbound name may stand for: in the same namespace, as
it is, in every imported namespace, and in the namespaces around. -/
def unboundCandidates (profile : Profile) (imports : List Import) (space : String)
    (parts : List String) : List String :=
  let d := profile.delimiter
  let name := Text.join d parts
  [qualified space d name, name] ++
    (if profile.importsOpenNamespaces then
      imports.flatMap fun declared =>
        if profile.chainsMembers then
          (inits parts).map fun part => declared.fullName ++ d ++ Text.join d part
        else [declared.fullName ++ d ++ name]
    else []) ++
    (properInits (Text.split d space)).map fun outer => Text.join d outer ++ d ++ name

/-- The full names that a bound name may stand for: what the import names, and
for an alias, where the language sees it, that below the namespaces around. -/
def boundCandidates (profile : Profile) (space : String) (declared : Import) (rest : String) :
    List String :=
  let d := profile.delimiter
  (if rest = "" then declared.fullName else declared.fullName ++ d ++ rest) ::
    if declared.localName.isSome && profile.aliasesSeeParents then
      (inits ((Text.split d space).filter fun part => part ≠ "")).map fun outer =>
        Text.join d outer ++ d ++ declared.fullName
    else []

/-! ## Looking up -/

/-- What was found so far. -/
structure Collected where
  seen : List String := []
  candidates : List Candidate := []
  calls : List CallChain := []

namespace Collected

def mark (collected : Collected) (text : String) : Collected :=
  if collected.seen.contains text then collected
  else { collected with seen := text :: collected.seen }

def addCall (collected : Collected) (profile : Profile) (text : String) : Collected :=
  { collected with
    calls := collected.calls ++
      [⟨text, profile.delimiter,
        profile.chainsMembers && Text.contains profile.delimiter text⟩] }

def addCandidates (collected : Collected) (names : List String) (origin : String) (file : Path)
    (kind : UsageKind) : Collected :=
  { collected with
    candidates := collected.candidates ++ names.map fun used => ⟨used, origin, file, kind⟩ }

def lookUpUnbound (profile : Profile) (imports : List Import) (file : Path) (type : DeclaredType)
    (entry : UsageText) (name : String) (collected : Collected) : Collected :=
  let d := profile.delimiter
  let parts := Text.split d name
  let parts := if entry.isCall && profile.chainsMembers then dropLastOfMany parts else parts
  let clean := Text.join d parts
  let collected := collected.mark clean
  if isUnusable clean then collected
  else
    let collected := if entry.isCall then collected.addCall profile name else collected
    collected.addCandidates (unboundCandidates profile imports type.space parts) type.fullName file
      entry.kind

/-- Look up a text whose first segment an import binds; `rest` are the other
segments. -/
def lookUpBound (profile : Profile) (file : Path) (type : DeclaredType) (declared : Import)
    (entry : UsageText) (name : String) (rest : List String) (collected : Collected) : Collected :=
  let chained := entry.isCall && profile.chainsMembers
  let rest := if chained then dropLastOfMany rest else rest
  let collected := if chained then collected.addCall profile name else collected
  let rest := Text.join profile.delimiter rest
  let collected := collected.mark rest
  if isUnusable rest then collected
  else
    collected.addCandidates (boundCandidates profile type.space declared rest) type.fullName file
      entry.kind

/-- Look up one text in a file whose first type is `first`. -/
def step (profile : Profile) (imports : List Import) (file : Path) (types : FileTypes)
    (first : DeclaredType) (collected : Collected) (entry : UsageText) : Collected :=
  let d := profile.delimiter
  let text := (Text.stripStart? d entry.text).getD entry.text
  if collected.seen.contains text then collected
  else
    let collected := collected.mark text
    let type? := match entry.owner with
      | some owner => types.get? owner
      | none => some first
    match type?, (Text.split d text).map cleanSegment with
    | some type, head :: rest =>
        let name := Text.join d (head :: rest)
        match boundBy? imports head with
        | none => lookUpUnbound profile imports file type entry name collected
        | some declared => lookUpBound profile file type declared entry name rest collected
    | _, _ => collected

end Collected

/-! ## The usages of a file -/

def baseTexts (types : FileTypes) : List UsageText :=
  types.flatMap fun type =>
    (type.extended.map fun name => ⟨false, name, some type.fullName, .extension⟩) ++
      type.implemented.map fun name => ⟨false, name, some type.fullName, .implementation⟩

def capturedTexts (source : String) (captures : List Query.Capture) : List UsageText :=
  captures.filterMap fun capture =>
    if capture.name = "qualified_name" then
      some ⟨false, capture.node.text source, none, .use⟩
    else if capture.name = "call_expression" then
      some ⟨true, capture.node.text source, none, .use⟩
    else none

/-- Look up texts one after the other; a file without types refers to nothing. -/
def collectUsages (profile : Profile) (imports : List Import) (file : Path) (types : FileTypes)
    (entries : List UsageText) : Collected :=
  match types with
  | [] => {}
  | first :: _ => entries.foldl (Collected.step profile imports file types first) {}

def importsOf (profile : Profile) (queries : Queries) (file : ParsedFile) : List Import :=
  (queries.imports.captures file.source file.root).flatMap fun capture =>
    profile.importForm.read profile.delimiter capture.node file.source

/-- What a file may refer to, and its call chains. -/
def usagesOf (profile : Profile) (queries : Queries) (file : ParsedFile) (types : FileTypes) :
    Collected :=
  collectUsages profile (importsOf profile queries file) file.path types
    (baseTexts types ++
      capturedTexts file.source (queries.usages.captures file.source file.root))

end SourceGauge.Coupling
