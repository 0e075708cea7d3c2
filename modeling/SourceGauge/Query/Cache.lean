/-
# SourceGauge.Query.Cache -- compiled queries, kept for a run

A cache holds one query for each pair of language and text that has compiled.
A text that does not compile leaves no entry and fails again when it is asked
again.

* `Cache.compile_fst`: the answer is that of compiling without a cache, in every
  cache that holds compiled queries only (`Cache.Sound`), and
  `Cache.sound_compile` keeps that so.
-/
import SourceGauge.Query.Reader
import SourceGauge.Query.Statement

namespace SourceGauge.Query

set_option autoImplicit false

variable [Grammars]

/-- Why no query could be had: a fault of the text for a language. -/
structure CompileError where
  language : Language
  text : String
  fault : Fault
  deriving DecidableEq, Repr

/-- The text of a compile error: the fault, and the query it was found in. -/
def CompileError.message (error : CompileError) : String :=
  "Invalid query for " ++ error.language.tag ++ ": " ++ error.fault.message ++ " in query:\n" ++
    error.text

/-- A compiled query with the language and text that it was compiled from. -/
structure Entry where
  language : Language
  text : String
  query : Query

/-- The queries compiled so far. -/
structure Cache where
  entries : List Entry := []

namespace Cache

def size (cache : Cache) : Nat := cache.entries.length

def find? (cache : Cache) (language : Language) (text : String) : Option Query :=
  (cache.entries.find? fun entry => entry.language = language && entry.text = text).map Entry.query

/-- Compile a text for a language, unless the cache has it. -/
def compile (cache : Cache) (language : Language) (text : String) :
    Except CompileError Query × Cache :=
  match cache.find? language text with
  | some query => (.ok query, cache)
  | none =>
      match Query.compile language text with
      | .ok query => (.ok query, ⟨cache.entries ++ [⟨language, text, query⟩]⟩)
      | .error fault => (.error ⟨language, text, fault⟩, cache)

/-- Compile the text that some statements have in a language; an empty text is
no query. -/
def build (cache : Cache) (language : Language) (statements : List Statement) :
    Except CompileError (Option Query) × Cache :=
  let text := Statement.assemble language statements
  if text = "" then (.ok none, cache)
  else
    match cache.compile language text with
    | (.ok query, cache) => (.ok (some query), cache)
    | (.error error, cache) => (.error error, cache)

/-! ## A cache changes no answer -/

/-- Every entry is what its text compiles to. -/
def Sound (cache : Cache) : Prop :=
  ∀ entry ∈ cache.entries, Query.compile entry.language entry.text = .ok entry.query

theorem sound_empty : Sound {} := by
  intro entry mem
  cases mem

def compileAlone (language : Language) (text : String) : Except CompileError Query :=
  match Query.compile language text with
  | .ok query => .ok query
  | .error fault => .error ⟨language, text, fault⟩

theorem compile_fst {cache : Cache} (sound : cache.Sound) (language : Language) (text : String) :
    (cache.compile language text).1 = compileAlone language text := by
  unfold compile
  cases found : cache.find? language text with
  | some query =>
      simp only [find?, Option.map_eq_some_iff] at found
      obtain ⟨entry, here, rfl⟩ := found
      have key := List.find?_some here
      simp only [Bool.and_eq_true, decide_eq_true_eq] at key
      have compiled := sound entry (List.mem_of_find?_eq_some here)
      rw [key.1, key.2] at compiled
      simp [compileAlone, compiled]
  | none =>
      cases compiled : Query.compile language text <;> simp [compileAlone, compiled]

theorem sound_compile {cache : Cache} (sound : cache.Sound) (language : Language) (text : String) :
    (cache.compile language text).2.Sound := by
  unfold compile
  cases found : cache.find? language text with
  | some query => exact sound
  | none =>
      cases compiled : Query.compile language text with
      | error fault => exact sound
      | ok query =>
          intro entry mem
          rcases List.mem_append.mp mem with old | new
          · exact sound entry old
          · rw [List.mem_singleton.mp new]
            exact compiled

/-- A text that compiles does with every sound cache. -/
theorem compile_ok {cache : Cache} (sound : cache.Sound) {language : Language} {text : String}
    {query : Query} (compiled : Query.compile language text = .ok query) :
    ∃ later : Cache, cache.compile language text = (.ok query, later) ∧ later.Sound := by
  have first : (cache.compile language text).1 = .ok query := by
    rw [compile_fst sound, compileAlone, compiled]
  exact ⟨_, Prod.ext first rfl, sound_compile sound language text⟩

end Cache

end SourceGauge.Query
