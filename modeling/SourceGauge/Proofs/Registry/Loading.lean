/-
# SourceGauge.Proofs.Registry.Loading -- a registry's document loads as the registry

A registry is written as JSON with the optional fields left out where they say nothing
(`Record.valuesOf_toFields`).  Each record is read back with its sets of languages in order
(`Record.ofJson?_toJson`): the record itself where the sets are listed in order already, and the
`Record.Same` record in any case.

* `ofDocument_render_of_read`: a registry that was read from a document is read again as it is.
* `loads_records`: when a list is accepted, what the registry made of it answers, and that its
  document loads and gives the same records.
-/
import Mathlib.Data.List.Forall2
import SourceGauge.Proofs.Json.RoundTrip
import SourceGauge.Proofs.Registry.Acceptable
import SourceGauge.Registry.Document

namespace SourceGauge

set_option autoImplicit false

/-! ## Records as they are read back -/

namespace Json

theorem readAll_map {α β : Type} {read : Json → Option α} {write : β → Json} {back : β → α}
    (each : ∀ value, read (write value) = some (back value)) (values : List β) :
    readAll read (values.map write) = some (values.map back) := by
  induction values with
  | nil => rfl
  | cons value rest ih => rw [List.map_cons, readAll, each, ih, List.map_cons]

theorem exists_of_mem_readAll {α : Type} {read : Json → Option α} {items : List Json}
    {values : List α} (all : readAll read items = some values) {value : α} (mem : value ∈ values) :
    ∃ item, read item = some value := by
  induction items generalizing values with
  | nil =>
      cases all
      exact absurd mem List.not_mem_nil
  | cons item rest ih =>
      rw [readAll] at all
      split at all
      · next first later isFirst isLater =>
        cases all
        rcases List.mem_cons.mp mem with rfl | mem
        · exact ⟨item, isFirst⟩
        · exact ih isLater mem
      · cases all

/-- The values of a name among fields of one name. -/
theorem valuesOf_field (name other : String) (values : List Json) :
    valuesOf name (values.map fun value => (some other, value)) =
      if other = name then values else [] := by
  rw [valuesOf, List.filter_map, List.map_map]
  split_ifs with same
  · simp [Function.comp_def, same]
  · simp [Function.comp_def, same]

theorem valuesOf_append (name : String) (front back : List (Option String × Json)) :
    valuesOf name (front ++ back) = valuesOf name front ++ valuesOf name back := by
  rw [valuesOf, List.filter_append, List.map_append]
  rfl

end Json

namespace Record

def inOrder (record : Record) : Record :=
  { record with
    languages := Language.sorted record.languages
    deactivated := Language.sorted record.deactivated }

/-- Two records differ at most in how their sets of languages are listed. -/
structure Same (left right : Record) : Prop where
  typeName : left.typeName = right.typeName
  category : left.category = right.category
  languages : ∀ language, language ∈ left.languages ↔ language ∈ right.languages
  deactivated : ∀ language, language ∈ left.deactivated ↔ language ∈ right.deactivated
  grammarName : left.grammarName = right.grammarName
  operator : left.operator = right.operator

theorem same_inOrder (record : Record) : Same record record.inOrder where
  typeName := rfl
  category := rfl
  languages := fun _ => Language.mem_sorted.symm
  deactivated := fun _ => Language.mem_sorted.symm
  grammarName := rfl
  operator := rfl

theorem readLanguages?_languagesToJson (languages : List Language) :
    readLanguages? (languagesToJson languages) = some (Language.sorted languages) := by
  have each (language : Language) :
      (Json.string language.tag).caseName?.bind Language.ofTag? = some language :=
    Language.ofTag?_tag language
  rw [languagesToJson, readLanguages?, Json.readAll_map each, List.map_id', Option.map_some]

/-- No deactivated languages are written as no field. -/
theorem optional_languages (languages : List Language) :
    optional [] readLanguages?
        (if languages.isEmpty then [] else [languagesToJson languages]) =
      some (Language.sorted languages) := by
  cases languages with
  | nil => rfl
  | cons language rest => exact readLanguages?_languagesToJson (language :: rest)

/-- An absent text is written as no field. -/
theorem optional_text (text : Option String) :
    optional none readOptional? (text.map Json.string).toList = some text := by
  cases text <;> rfl

def fieldValues (record : Record) : List (String × List Json) :=
  [("type_name", [.string record.typeName]), ("category", [.string record.category.name]),
    ("languages", [languagesToJson record.languages]),
    ("deactivated_for_languages",
      if record.deactivated.isEmpty then [] else [languagesToJson record.deactivated]),
    ("grammar_type_name", (record.grammarName.map Json.string).toList),
    ("operator", (record.operator.map Json.string).toList)]

theorem valuesOf_toFields (record : Record) (name : String) :
    Json.valuesOf name (record.toFields.map fun field => (some field.1, field.2)) =
      record.fieldValues.flatMap fun field => if field.1 = name then field.2 else [] := by
  have pieces : record.toFields.map (fun field => (some field.1, field.2)) =
      record.fieldValues.flatMap fun field => field.2.map fun value => (some field.1, value) := by
    obtain ⟨typeName, category, languages, deactivated, grammarName, operator⟩ := record
    cases deactivated <;> cases grammarName <;> cases operator <;> rfl
  rw [pieces]
  induction record.fieldValues with
  | nil => rfl
  | cons field rest ih =>
      rw [List.flatMap_cons, List.flatMap_cons, Json.valuesOf_append, Json.valuesOf_field, ih]

theorem ofJson?_toJson (record : Record) : ofJson? record.toJson = some record.inOrder := by
  have allNamed : ((record.toFields.map fun field => (some field.1, field.2)).any
      fun field => field.1.isNone) = false := by
    simp
  rw [toJson, Json.record, ofJson?, allNamed, if_neg Bool.false_ne_true]
  simp only [valuesOf_toFields, fieldValues, List.flatMap_cons, List.flatMap_nil, reduceIte,
    String.reduceEq, List.append_nil, List.nil_append]
  have category : (Json.string record.category.name).caseName?.bind Category.ofName? =
      some record.category :=
    Category.ofName?_name record.category
  rw [ofValues?, required, required, required, category, readLanguages?_languagesToJson,
    optional_languages, optional_text, optional_text]
  rfl

theorem textual_languagesToJson (languages : List Language) :
    (languagesToJson languages).Textual := by
  refine .array fun item mem => ?_
  obtain ⟨language, -, rfl⟩ := List.mem_map.mp mem
  exact .string language.tag

theorem textual_toJson (record : Record) : record.toJson.Textual := by
  refine .record fun field mem => ?_
  simp only [toFields, List.mem_append, List.mem_cons, List.not_mem_nil, or_false] at mem
  rcases mem with (((rfl | rfl | rfl) | deactivated) | grammarName) | operator
  · exact .string record.typeName
  · exact .string record.category.name
  · exact textual_languagesToJson record.languages
  · split_ifs at deactivated
    · exact absurd deactivated List.not_mem_nil
    · obtain rfl := List.mem_singleton.mp deactivated
      exact textual_languagesToJson record.deactivated
  · obtain ⟨text, -, rfl⟩ := Option.map_eq_some_iff.mp (Option.mem_toList.mp grammarName)
    exact .string text
  · obtain ⟨text, -, rfl⟩ := Option.map_eq_some_iff.mp (Option.mem_toList.mp operator)
    exact .string text

/-! ## Records are read in order -/

theorem sorted_of_readLanguages? {value : Json} {languages : List Language}
    (read : readLanguages? value = some languages) : Language.sorted languages = languages := by
  unfold readLanguages? at read
  split at read
  · obtain ⟨listed, -, rfl⟩ := Option.map_eq_some_iff.mp read
    exact Language.sorted_sorted listed
  · cases read

theorem exists_of_required {α : Type} {read : Json → Option α} {values : List Json} {found : α}
    (one : required read values = some found) : ∃ value, read value = some found := by
  unfold required at one
  split at one
  · exact ⟨_, one⟩
  · cases one

theorem exists_of_optional {α : Type} {fallback found : α} {read : Json → Option α}
    {values : List Json} (one : optional fallback read values = some found) :
    found = fallback ∨ ∃ value, read value = some found := by
  unfold optional at one
  split at one
  · exact Or.inl (Option.some.inj one).symm
  · exact Or.inr ⟨_, one⟩
  · cases one

theorem inOrder_of_ofValues? {typeName category languages deactivated grammarName operator :
      List Json} {record : Record}
    (read : ofValues? typeName category languages deactivated grammarName operator =
      some record) : record.inOrder = record := by
  simp only [ofValues?, Option.bind_eq_bind, Option.bind_eq_some_iff] at read
  obtain ⟨_, -, _, -, listed, readListed, idle, readIdle, _, -, _, -, made⟩ := read
  cases made
  obtain ⟨value, readValue⟩ := exists_of_required readListed
  have sortedIdle : Language.sorted idle = idle := by
    rcases exists_of_optional readIdle with rfl | ⟨value, readValue⟩
    · rfl
    · exact sorted_of_readLanguages? readValue
  rw [inOrder, sorted_of_readLanguages? readValue, sortedIdle]

theorem inOrder_of_ofJson? {value : Json} {record : Record}
    (read : ofJson? value = some record) : record.inOrder = record := by
  unfold ofJson? at read
  split at read
  · split at read
    · cases read
    · exact inOrder_of_ofValues? read
  · split at read
    · exact inOrder_of_ofValues? read
    · cases read
  · cases read

end Record

/-! ## Registries -/

namespace Registry

theorem textual_toJson (registry : Registry) : registry.toJson.Textual := by
  refine .array fun item mem => ?_
  obtain ⟨record, -, rfl⟩ := List.mem_map.mp mem
  exact record.textual_toJson

theorem readRecords?_render (registry : Registry) :
    readRecords? (Json.render registry.toJson) = some (registry.records.map Record.inOrder) := by
  rw [readRecords?, Json.parse?_render registry.textual_toJson, toJson]
  exact Json.readAll_map Record.ofJson?_toJson registry.records

/-- How the languages are listed does not matter. -/
theorem Acceptable.inOrder {records : List Record} (acceptable : Acceptable records) :
    Acceptable (records.map Record.inOrder) where
  named := List.forall_mem_map.mpr acceptable.named
  distinct := by
    rw [List.map_map]
    exact acceptable.distinct
  operators := List.forall_mem_map.mpr acceptable.operators

theorem ofDocument_render {records : List Record} (acceptable : Acceptable records) :
    ofDocument (Json.render (toJson ⟨records⟩)) = .ok ⟨records.map Record.inOrder⟩ := by
  rw [ofDocument, readRecords?_render]
  exact ofRecords_eq_ok_iff.mpr ⟨acceptable.inOrder, rfl⟩

theorem inOrder_of_readRecords? {text : String} {records : List Record}
    (read : readRecords? text = some records) : records.map Record.inOrder = records := by
  unfold readRecords? at read
  split at read
  · have same : ∀ record ∈ records, record.inOrder = id record := by
      intro record mem
      obtain ⟨item, readItem⟩ := Json.exists_of_mem_readAll read mem
      exact Record.inOrder_of_ofJson? readItem
    rw [List.map_congr_left same, List.map_id]
  · cases read

/-- A registry that was read is written so that it is read again. -/
theorem ofDocument_render_of_read {text : String} {registry : Registry}
    (read : ofDocument text = .ok registry) :
    ofDocument (Json.render registry.toJson) = .ok registry := by
  unfold ofDocument at read
  split at read
  · next records isRead =>
    obtain ⟨acceptable, rfl⟩ := ofRecords_eq_ok_iff.mp read
    rw [ofDocument_render acceptable, inOrder_of_readRecords? isRead]
  · cases read

/-- The lists that make a registry are the acceptable ones.  The registry keeps the records; a name
finds the one record that has it; the records of some categories are the one sublist that holds just
these; and the document of the registry loads and gives the same records. -/
theorem loads_records (records : List Record) :
    ((∃ registry, ofRecords records = .ok registry) ↔ Acceptable records) ∧
    ∀ registry, ofRecords records = .ok registry →
      registry.records = records ∧
      (∀ name record, registry.get? name = some record ↔
        record ∈ records ∧ record.typeName = name) ∧
      (∀ categories part, part = registry.inCategories categories ↔
        part.Sublist records ∧
          ∀ record, record ∈ part ↔ record ∈ records ∧ record.category ∈ categories) ∧
      ∃ again, ofDocument (Json.render registry.toJson) = .ok again ∧
        List.Forall₂ Record.Same records again.records := by
  constructor
  · constructor
    · rintro ⟨registry, made⟩
      exact (ofRecords_eq_ok_iff.mp made).1
    · intro acceptable
      exact ⟨⟨records⟩, ofRecords_eq_ok_iff.mpr ⟨acceptable, rfl⟩⟩
  · intro registry made
    obtain ⟨acceptable, rfl⟩ := ofRecords_eq_ok_iff.mp made
    refine ⟨rfl, fun name record => ?_, fun categories part => ?_, ?_⟩
    · exact get?_eq_some_iff acceptable.distinct
    · exact eq_inCategories_iff acceptable.distinct
    · refine ⟨_, ofDocument_render acceptable, ?_⟩
      show List.Forall₂ Record.Same records (records.map Record.inOrder)
      rw [List.forall₂_map_right_iff, List.forall₂_same]
      exact fun record _ => record.same_inOrder

/-- A name that has to be escaped, languages that are out of order and repeated, and a kind without
letters. -/
def escapedSection : Record where
  typeName := "a \"quoted\"\n\x01\\ section"
  category := .other
  languages := [.rust, .c, .rust]
  deactivated := [.go, .c]
  grammarName := some ""

/-- An operator, in no language. -/
def conjunction : Record where
  typeName := "boolean_and"
  category := .logicalOperation
  languages := []
  operator := some "&&"

/-- Of the two records a registry is made, and its document loads; with one of them once more none
is made. -/
theorem loads_records_escaped_name :
    ofRecords [escapedSection, conjunction] = .ok ⟨[escapedSection, conjunction]⟩ ∧
      get? ⟨[escapedSection, conjunction]⟩ "boolean_and" = some conjunction ∧
      [escapedSection] = inCategories ⟨[escapedSection, conjunction]⟩ [.loop, .other] ∧
      (∃ again, ofDocument (Json.render (toJson ⟨[escapedSection, conjunction]⟩)) = .ok again ∧
        List.Forall₂ Record.Same [escapedSection, conjunction] again.records) ∧
      ¬∃ registry, ofRecords [escapedSection, conjunction, escapedSection] = .ok registry := by
  have made : ofRecords [escapedSection, conjunction] = .ok ⟨[escapedSection, conjunction]⟩ := rfl
  obtain ⟨-, finds, parts, loads⟩ := (loads_records [escapedSection, conjunction]).2 _ made
  refine ⟨made, (finds _ _).mpr ⟨by decide, rfl⟩, (parts _ _).mpr ⟨by decide, ?_⟩, loads, ?_⟩
  · intro record
    simp only [List.mem_cons, List.not_mem_nil, or_false]
    constructor
    · rintro rfl
      exact ⟨Or.inl rfl, Or.inr rfl⟩
    · rintro ⟨rfl | rfl, among⟩
      · rfl
      · exact absurd among (by decide)
  · rw [(loads_records [escapedSection, conjunction, escapedSection]).1]
    intro acceptable
    exact absurd acceptable.distinct (by decide)

end Registry

end SourceGauge
