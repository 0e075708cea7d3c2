/-
# SourceGauge.Registry.Document -- registries as JSON

A registry document is an array of records.  A record is an object, whose
unknown fields are skipped and whose known fields may stand once, or an array
of the fields in their order, from which the last three may be missing.  The
optional texts may be `null`.  The name of a category or a language may also be
written as an object with that one field, `null`.

A record is written with its sets sorted, and without an empty set of
deactivated languages and absent texts.
-/
import SourceGauge.Registry
import SourceGauge.Json.Reader

namespace SourceGauge

set_option autoImplicit false

namespace Json

/-- The name of a case without data: a string, or an object with that one
field, `null`. -/
def caseName? : Json → Option String
  | .string name => some name
  | .object [(some name, .null)] => some name
  | _ => none

/-- Apply a reading to each item of a list; all must succeed. -/
def readAll {α : Type} (read : Json → Option α) : List Json → Option (List α)
  | [] => some []
  | item :: rest =>
      match read item, readAll read rest with
      | some value, some values => some (value :: values)
      | _, _ => none

def valuesOf (name : String) (fields : List (Option String × Json)) : List Json :=
  (fields.filter fun field => field.1 = some name).map (·.2)

end Json

namespace Record

def readLanguages? : Json → Option (List Language)
  | .array items =>
      (Json.readAll (fun item => item.caseName?.bind Language.ofTag?) items).map Language.sorted
  | _ => none

def readOptional? : Json → Option (Option String)
  | .null => some none
  | .string text => some (some text)
  | _ => none

/-- The value of a field that must stand exactly once. -/
def required {α : Type} (read : Json → Option α) : List Json → Option α
  | [value] => read value
  | _ => none

def optional {α : Type} (fallback : α) (read : Json → Option α) : List Json → Option α
  | [] => some fallback
  | [value] => read value
  | _ => none

def ofValues? (typeName category languages deactivated grammarName operator : List Json) :
    Option Record := do
  let typeName ← required Json.text? typeName
  let category ← required (fun value => value.caseName?.bind Category.ofName?) category
  let languages ← required readLanguages? languages
  let deactivated ← optional [] readLanguages? deactivated
  let grammarName ← optional none readOptional? grammarName
  let operator ← optional none readOptional? operator
  some { typeName, category, languages, deactivated, grammarName, operator }

def ofJson? : Json → Option Record
  | .object fields =>
      if fields.any fun field => field.1.isNone then none
      else
        ofValues? (Json.valuesOf "type_name" fields) (Json.valuesOf "category" fields)
          (Json.valuesOf "languages" fields) (Json.valuesOf "deactivated_for_languages" fields)
          (Json.valuesOf "grammar_type_name" fields) (Json.valuesOf "operator" fields)
  | .array items =>
      if items.length ≤ 6 then
        ofValues? items[0]?.toList items[1]?.toList items[2]?.toList items[3]?.toList
          items[4]?.toList items[5]?.toList
      else none
  | _ => none

def languagesToJson (languages : List Language) : Json :=
  .array (languages.map fun language => .string language.tag)

def toFields (record : Record) : List (String × Json) :=
  [("type_name", .string record.typeName), ("category", .string record.category.name),
    ("languages", languagesToJson record.languages)] ++
  (if record.deactivated.isEmpty then []
    else [("deactivated_for_languages", languagesToJson record.deactivated)]) ++
  (record.grammarName.map fun text => ("grammar_type_name", Json.string text)).toList ++
  (record.operator.map fun text => ("operator", Json.string text)).toList

def toJson (record : Record) : Json := Json.record record.toFields

end Record

namespace Registry

/-- The records of a registry document, whether accepted or not. -/
def readRecords? (text : String) : Option (List Record) :=
  match Json.parse? text with
  | some (.array items) => Json.readAll Record.ofJson? items
  | _ => none

def ofDocument (text : String) : Except RegistryError Registry :=
  match readRecords? text with
  | some records => ofRecords records
  | none => .error .unreadable

def toJson (registry : Registry) : Json := .array (registry.records.map Record.toJson)

end Registry

end SourceGauge
