/-
# SourceGauge.Language.Detect -- the language of a file name

A file's extension decides its language.  `c`, `C` and `H` are read as they
are, `h` goes by the header policy, and every other extension is looked up in
lower case.  A header is C when all headers are, or when some component of its
path below the sources root (of its whole path, when it lies elsewhere) is one
of the listed names; otherwise it is C++.
-/
import SourceGauge.Language
import SourceGauge.Path
import SourceGauge.Text.Letters

namespace SourceGauge

set_option autoImplicit false

/-- Which headers are C. -/
structure HeaderPolicy where
  /-- Names are looked for below this path. -/
  root : Path := ⟨""⟩
  allAsC : Bool := false
  /-- Names of folders and files whose headers are C. -/
  names : List String := []

namespace HeaderPolicy

def language (policy : HeaderPolicy) (path : Path) : Language :=
  if policy.allAsC then .c
  else
    let below := (path.relativeTo? policy.root).getD path
    if below.components.any fun step => policy.names.contains step.text then .c else .cpp

end HeaderPolicy

namespace Language

/-- Extensions whose case decides the language. -/
def ofExactExtension? : String → Option Language
  | "c" => some c
  | "C" => some cpp
  | "H" => some cpp
  | _ => none

def ofLowerExtension? : String → Option Language
  | "cs" => some csharp
  | "cpp" => some cpp
  | "cp" => some cpp
  | "cxx" => some cpp
  | "cc" => some cpp
  | "hpp" => some cpp
  | "hxx" => some cpp
  | "hh" => some cpp
  | "go" => some go
  | "java" => some java
  | "kt" => some kotlin
  | "kts" => some kotlin
  | "js" => some javascript
  | "mjs" => some javascript
  | "cjs" => some javascript
  | "ts" => some typescript
  | "tsx" => some tsx
  | "php" => some php
  | "py" => some python
  | "rb" => some ruby
  | "rs" => some rust
  | "sh" => some bash
  | "json" => some json
  | "yaml" => some yaml
  | "yml" => some yaml
  | _ => none

/-- The language of the file at `path`, if a grammar fits its name. -/
def ofPath? (policy : HeaderPolicy) (path : Path) : Option Language :=
  match path.extension? with
  | none => none
  | some ext =>
      match ofExactExtension? ext with
      | some language => some language
      | none =>
          if ext = "h" then some (policy.language path) else ofLowerExtension? (Text.lower ext)

end Language

end SourceGauge
