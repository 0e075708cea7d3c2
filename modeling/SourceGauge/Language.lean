/-
# SourceGauge.Language -- the languages and how their files are treated

A `Language` has a short tag (`Language.tag`), by which registries and reports
name it.  `Language.all` lists the languages in the order in which sets of them
are written; a set is kept as the sublist of `Language.all` that it holds
(`Language.sorted`), so two equal sets are equal lists.

Data formats are measured by size and nesting only (`Language.isStructuredText`).
-/

namespace SourceGauge

set_option autoImplicit false

/-- The languages that have a grammar. -/
inductive Language where
  | c
  | cpp
  | csharp
  | go
  | java
  | kotlin
  | javascript
  | typescript
  | tsx
  | php
  | python
  | ruby
  | rust
  | bash
  | json
  | yaml
  deriving DecidableEq, Repr

/-- How a file is treated: by its program code, as a data format, as raw text
because no grammar fits its name, or not at all because it could not be read. -/
inductive FileKind where
  | sourceCode
  | structuredText
  | unsupported
  | unreadable
  deriving DecidableEq, Repr

namespace FileKind

def name : FileKind → String
  | sourceCode => "source_code"
  | structuredText => "structured_text"
  | unsupported => "unsupported_file"
  | unreadable => "error_file"

def all : List FileKind := [sourceCode, structuredText, unsupported, unreadable]

def ofName? (text : String) : Option FileKind := all.find? fun kind => kind.name = text

end FileKind

namespace Language

def all : List Language :=
  [c, cpp, csharp, go, java, kotlin, javascript, typescript, tsx, php, python, ruby, rust, bash,
    json, yaml]

theorem mem_all (language : Language) : language ∈ all := by
  cases language <;> decide

/-- The short tag by which registries and reports name a language. -/
def tag : Language → String
  | c => "c"
  | cpp => "cpp"
  | csharp => "cs"
  | go => "go"
  | java => "java"
  | kotlin => "kt"
  | javascript => "js"
  | typescript => "ts"
  | tsx => "tsx"
  | php => "php"
  | python => "py"
  | ruby => "rb"
  | rust => "rs"
  | bash => "sh"
  | json => "json"
  | yaml => "yaml"

def ofTag? (text : String) : Option Language := all.find? fun language => language.tag = text

theorem ofTag?_tag (language : Language) : ofTag? language.tag = some language := by
  cases language <;> decide

/-- Data formats are measured by size and nesting only. -/
def isStructuredText : Language → Bool
  | json => true
  | yaml => true
  | _ => false

def fileKind (language : Language) : FileKind :=
  if language.isStructuredText then .structuredText else .sourceCode

/-- The set of the given languages: each once, in the order of `all`. -/
def sorted (languages : List Language) : List Language := all.filter fun l => languages.contains l

theorem mem_sorted {languages : List Language} {language : Language} :
    language ∈ sorted languages ↔ language ∈ languages := by
  simp [sorted, mem_all]

theorem sorted_sorted (languages : List Language) :
    sorted (sorted languages) = sorted languages := by
  simp only [sorted, List.contains_eq_mem]
  apply List.filter_congr
  intro l _
  simp [mem_all]

end Language

end SourceGauge
