/-
# SourceGauge.Proofs.Query.SharedCache -- what a cache has of the texts asked of it

Many askers share a cache and often ask for the same text.  What becomes of the cache
is told by the pairs of language and text alone that were asked for (`Cache.askAll`);
building the query of some statements asks for their text, if they have any
(`build_snd`).

* `Holds.askAll`: the cache then has each asked pair that compiles, once, with the
  query that it compiles to, and nothing else.
* `compile_of_error`: a text that does not compile gives the same error each time.
-/
import Mathlib.Data.List.Nodup
import SourceGauge.Query.Cache

namespace SourceGauge.Query

set_option autoImplicit false

abbrev Key := Language × String

def Cache.keys (cache : Cache) : List Key :=
  cache.entries.map fun entry => (entry.language, entry.text)

theorem Cache.find?_isSome_iff {cache : Cache} {language : Language} {text : String} :
    (cache.find? language text).isSome ↔ (language, text) ∈ cache.keys := by
  simp [find?, keys, List.find?_isSome]

variable [Grammars]

/-- The text compiles for the language. -/
def Key.Compiles (key : Key) : Prop := ∃ query, Query.compile key.1 key.2 = .ok query

namespace Cache

def ask (cache : Cache) (key : Key) : Cache := (cache.compile key.1 key.2).2

/-- The cache after it was asked for some pairs, one after the other. -/
def askAll (cache : Cache) (keys : List Key) : Cache := keys.foldl ask cache

/-- The cache has each of the asked pairs that compiles, once, and nothing else. -/
structure Holds (cache : Cache) (asked : List Key) : Prop where
  sound : cache.Sound
  nodup : cache.keys.Nodup
  mem_keys : ∀ key, key ∈ cache.keys ↔ key ∈ asked ∧ key.Compiles

variable {cache : Cache} {asked : List Key}

@[simp] theorem askAll_nil (cache : Cache) : cache.askAll [] = cache := rfl

@[simp] theorem askAll_cons (cache : Cache) (key : Key) (rest : List Key) :
    cache.askAll (key :: rest) = (cache.ask key).askAll rest := rfl

theorem askAll_append (cache : Cache) (keys others : List Key) :
    cache.askAll (keys ++ others) = (cache.askAll keys).askAll others :=
  List.foldl_append

theorem sound_askAll (sound : cache.Sound) (keys : List Key) : (cache.askAll keys).Sound :=
  List.foldlRecOn keys ask (motive := Sound) sound fun _ sofar key _ =>
    sound_compile sofar key.1 key.2

theorem holds_empty : Holds {} [] :=
  ⟨sound_empty, List.nodup_nil, fun key => by simp [keys]⟩

/-- Asking again changes nothing. -/
theorem compile_of_mem {language : Language} {text : String}
    (there : (language, text) ∈ cache.keys) : (cache.compile language text).2 = cache := by
  obtain ⟨query, found⟩ := Option.isSome_iff_exists.mp (find?_isSome_iff.mpr there)
  simp only [compile, found]

/-- A text that does not compile gives the same error each time, and leaves no entry. -/
theorem compile_of_error (sound : cache.Sound) {language : Language} {text : String} {fault : Fault}
    (failed : Query.compile language text = .error fault) :
    cache.compile language text = (.error ⟨language, text, fault⟩, cache) := by
  have answer : (cache.compile language text).1 = .error ⟨language, text, fault⟩ := by
    rw [compile_fst sound, compileAlone, failed]
  cases found : cache.find? language text with
  | none => simp only [compile, found, failed]
  | some query =>
      simp only [compile, found] at answer
      cases answer

/-- A text that compiles and was not there is added. -/
theorem keys_compile_of_ok {language : Language} {text : String} {query : Query}
    (compiled : Query.compile language text = .ok query)
    (new : (language, text) ∉ cache.keys) :
    (cache.compile language text).2.keys = cache.keys ++ [(language, text)] := by
  cases found : cache.find? language text with
  | some query => exact absurd (find?_isSome_iff.mp (by rw [found]; rfl)) new
  | none => simp [compile, found, compiled, keys]

/-- A pair that the cache has, or that does not compile, makes no difference. -/
theorem Holds.idle (holds : cache.Holds asked) {key : Key}
    (known : key.Compiles → key ∈ cache.keys) : cache.Holds (asked ++ [key]) where
  sound := holds.sound
  nodup := holds.nodup
  mem_keys := by
    intro other
    rw [List.mem_append, List.mem_singleton]
    constructor
    · intro mem
      obtain ⟨old, compiles⟩ := (holds.mem_keys other).mp mem
      exact ⟨Or.inl old, compiles⟩
    · rintro ⟨old | rfl, compiles⟩
      · exact (holds.mem_keys other).mpr ⟨old, compiles⟩
      · exact known compiles

/-- Asking for one more text. -/
theorem Holds.ask (holds : cache.Holds asked) (key : Key) :
    (cache.ask key).Holds (asked ++ [key]) := by
  obtain ⟨language, text⟩ := key
  rw [Cache.ask]
  by_cases there : (language, text) ∈ cache.keys
  · rw [compile_of_mem there]
    exact holds.idle fun _ => there
  cases compiled : Query.compile language text with
  | error fault =>
      rw [compile_of_error holds.sound compiled]
      refine holds.idle ?_
      rintro ⟨query, compiles⟩
      cases compiled.symm.trans compiles
  | ok query =>
      have keys := keys_compile_of_ok compiled there
      refine ⟨sound_compile holds.sound language text, ?_, fun key => ?_⟩
      · rw [keys, ← List.concat_eq_append]
        exact holds.nodup.concat there
      · rw [keys, List.mem_append, List.mem_append, List.mem_singleton, holds.mem_keys]
        constructor
        · rintro (⟨old, compiles⟩ | rfl)
          · exact ⟨Or.inl old, compiles⟩
          · exact ⟨Or.inr rfl, query, compiled⟩
        · rintro ⟨old | rfl, compiles⟩
          · exact Or.inl ⟨old, compiles⟩
          · exact Or.inr rfl

theorem Holds.askAll (holds : cache.Holds asked) (keys : List Key) :
    (cache.askAll keys).Holds (asked ++ keys) := by
  induction keys generalizing cache asked with
  | nil => rwa [List.append_nil]
  | cons key rest ih =>
      rw [List.append_cons]
      exact ih (holds.ask key)

/-! ## Statements -/

/-- The pair that the query of some statements is asked for; none when no statement applies. -/
def statementKeys (language : Language) (statements : List Statement) : List Key :=
  let text := Statement.assemble language statements
  if text = "" then [] else [(language, text)]

def buildAlone (language : Language) (statements : List Statement) :
    Except CompileError (Option Query) :=
  let text := Statement.assemble language statements
  if text = "" then .ok none else (compileAlone language text).map some

theorem build_fst (sound : cache.Sound) (language : Language) (statements : List Statement) :
    (cache.build language statements).1 = buildAlone language statements := by
  unfold build buildAlone
  extract_lets text
  split
  · rfl
  · rw [← compile_fst sound]
    rcases cache.compile language text with ⟨_ | _, _⟩ <;> rfl

theorem build_snd (cache : Cache) (language : Language) (statements : List Statement) :
    (cache.build language statements).2 = cache.askAll (statementKeys language statements) := by
  unfold build statementKeys
  extract_lets text
  split
  · rfl
  · rw [askAll_cons, askAll_nil, ask]
    rcases cache.compile language text with ⟨_ | _, _⟩ <;> rfl

end Cache

end SourceGauge.Query
