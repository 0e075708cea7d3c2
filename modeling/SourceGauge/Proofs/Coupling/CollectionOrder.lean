/-
# SourceGauge.Proofs.Coupling.CollectionOrder -- the order of collection does not matter

`Analyzer.collectAll` collects files one after the other, each with the cache that
the one before has left.  It cannot fail, and leads to `Analyzer.addAll`, which
knows no cache (`collectAll_eq`).

Where no two files share a path, an entry is there exactly when its file was
collected at some point (`mem_addAll`).  Entries stand in the order of their
paths, so this determines the analyzer: not the order of the files, nor how often
each was collected, nor what was collected of languages without a profile.

* `aggregate_order_irrelevant`: the relationships and measures are the same.
-/
import Mathlib.Data.List.Induction
import Mathlib.Data.List.Pairwise
import SourceGauge.Proofs.Coupling.Reachable

namespace SourceGauge.Coupling

set_option autoImplicit false

theorem FileCoupling.of?_eq_none {file : ParsedFile} (unknown : profile? file.language = none) :
    FileCoupling.of? file = none := by
  unfold of?
  rw [unknown]

namespace TwoFiles

/-- A file of a language without a profile. -/
def notes : ParsedFile where
  path := ⟨"notes.json"⟩
  language := .json
  source := "{}"
  root := node "document" 0 2 none [node "object" 0 2 none []]

end TwoFiles

namespace Analyzer

/-! ## Collecting files one after the other -/

/-- Collect files one after the other, until one fails. -/
def collectAll [Grammars] (analyzer : Analyzer) (cache : Query.Cache) :
    List ParsedFile → Except Query.CompileError Analyzer × Query.Cache
  | [] => (.ok analyzer, cache)
  | file :: rest =>
      match analyzer.collect file cache with
      | (.error error, cache) => (.error error, cache)
      | (.ok next, cache) => collectAll next cache rest

def addAll (analyzer : Analyzer) (files : List ParsedFile) : Analyzer := files.foldl add analyzer

theorem addAll_concat (analyzer : Analyzer) (files : List ParsedFile) (file : ParsedFile) :
    analyzer.addAll (files ++ [file]) = (analyzer.addAll files).add file := by
  simp [addAll]

/-- Collecting files cannot fail, and depends on no cache. -/
theorem collectAll_eq [OwnGrammars] (analyzer : Analyzer) {cache : Query.Cache}
    (sound : cache.Sound) (files : List ParsedFile) :
    ∃ later : Query.Cache, analyzer.collectAll cache files = (.ok (analyzer.addAll files), later) ∧
      later.Sound := by
  induction files generalizing analyzer cache with
  | nil => exact ⟨cache, rfl, sound⟩
  | cons file rest ih =>
      obtain ⟨next, collected, soundNext⟩ := analyzer.collect_eq file sound
      obtain ⟨later, whole, soundLater⟩ := ih (analyzer.add file) soundNext
      refine ⟨later, ?_, soundLater⟩
      simp only [collectAll, collected, whole]
      rfl

theorem Good.addAll {analyzer : Analyzer} (good : analyzer.Good) (files : List ParsedFile) :
    (analyzer.addAll files).Good :=
  List.foldlRecOn files Analyzer.add (motive := Good) good fun _ sofar file _ => sofar.add file

/-! ## What was collected -/

/-- No two files that can be collected are at one path. -/
def OneFilePerPath (files : List ParsedFile) : Prop :=
  ∀ f ∈ files, ∀ g ∈ files, (FileCoupling.of? f).isSome → (FileCoupling.of? g).isSome →
    f.path.same g.path = true → f = g

theorem mem_add (analyzer : Analyzer) (file : ParsedFile) (item : Path × FileCoupling) :
    item ∈ (analyzer.add file).files ↔ item ∈ analyzer.files ∨
      analyzer.files.find? file.path = none ∧ FileCoupling.of? file = some item.2 ∧
        file.path = item.1 := by
  unfold add
  cases collected : FileCoupling.of? file with
  | none => simp
  | some coupling =>
      cases there : analyzer.files.find? file.path with
      | some _ => simp
      | none =>
          simp only [Option.isSome_none, Bool.false_eq_true, if_false,
            PathMap.mem_insert_of_find?_none there, Option.some.injEq, true_and, Prod.ext_iff]
          tauto

/-- An entry is there when its file was collected. -/
theorem mem_addAll {calls : List ParsedFile} (one : OneFilePerPath calls)
    (item : Path × FileCoupling) :
    item ∈ (addAll {} calls).files ↔
      ∃ file ∈ calls, FileCoupling.of? file = some item.2 ∧ file.path = item.1 := by
  induction calls using List.reverseRecOn generalizing item with
  | nil => simp [addAll]
  | append_singleton calls file ih =>
      have before := ih fun f memF g memG =>
        one f (List.mem_append_left _ memF) g (List.mem_append_left _ memG)
      rw [addAll_concat, mem_add, before]
      constructor
      · rintro (⟨f, mem, of, path⟩ | ⟨_, of, path⟩)
        · exact ⟨f, List.mem_append_left _ mem, of, path⟩
        · exact ⟨file, by simp, of, path⟩
      · rintro ⟨f, mem, of, path⟩
        rcases List.mem_append.mp mem with old | last
        · exact Or.inl ⟨f, old, of, path⟩
        · rw [List.mem_singleton.mp last] at of path
          cases there : (addAll {} calls).files.find? file.path with
          | none => exact Or.inr ⟨rfl, of, path⟩
          | some _ =>
              -- the path was collected before, so it was this file
              obtain ⟨entry, found, same⟩ := PathMap.exists_of_find?_some there
              obtain ⟨g, memG, ofG, pathG⟩ := (before entry).mp found
              have equal : file = g := one file (by simp) g (List.mem_append_left _ memG)
                (by simp [of]) (by simp [ofG]) (pathG ▸ same)
              exact Or.inl ⟨g, memG, equal ▸ of, equal ▸ path⟩

/-- In the order of their paths, which entries there are determines an analyzer. -/
theorem ext_of_sorted {analyzer other : Analyzer} (sorted : analyzer.files.Sorted)
    (sortedOther : other.files.Sorted)
    (same : ∀ item, item ∈ analyzer.files ↔ item ∈ other.files) : analyzer = other := by
  cases analyzer
  cases other
  exact congrArg mk (sorted.ext sortedOther same)

/-! ## Any order -/

/-- The files are collected one after the other in some order, with files of languages without
a profile and repeated files put in anywhere. -/
structure Collects (calls files : List ParsedFile) : Prop where
  inOrder : ∃ order : List ParsedFile, order.Perm files ∧ order.Sublist calls
  extra : ∀ call ∈ calls, call ∈ files ∨ profile? call.language = none

theorem Collects.mem_iff {calls files : List ParsedFile} (collects : Collects calls files)
    {file : ParsedFile} {coupling : FileCoupling} (of : FileCoupling.of? file = some coupling) :
    file ∈ calls ↔ file ∈ files := by
  constructor
  · intro mem
    rcases collects.extra file mem with there | unknown
    · exact there
    · rw [FileCoupling.of?_eq_none unknown] at of
      cases of
  · intro mem
    obtain ⟨order, perm, within⟩ := collects.inOrder
    exact within.subset (perm.mem_iff.mpr mem)

theorem Collects.oneFilePerPath {calls files : List ParsedFile} (collects : Collects calls files)
    (distinct : files.Pairwise fun f g => f.path.same g.path = false) : OneFilePerPath calls := by
  intro f memF g memG ofF ofG same
  obtain ⟨_, ofF⟩ := Option.isSome_iff_exists.mp ofF
  obtain ⟨_, ofG⟩ := Option.isSome_iff_exists.mp ofG
  have symmetric : Std.Symm fun f g : ParsedFile => f.path.same g.path = true → f = g :=
    ⟨fun _ _ one same => (one (Path.same_symm same)).symm⟩
  have one : files.Pairwise fun f g => f.path.same g.path = true → f = g :=
    distinct.imp fun apart same => by
      rw [same] at apart
      cases apart
  exact one.forall_of_forall (fun _ _ _ => rfl) ((collects.mem_iff ofF).mp memF)
    ((collects.mem_iff ofG).mp memG) same

/-- **The order of collection does not matter.**  Let no two files share a path.  However they
are collected, each at least once, in whatever order, with files of languages without a
profile in between, and with any cache of compiled queries: collecting them succeeds, and the
same relationships come out in the same order, with the same measures. -/
theorem aggregate_order_irrelevant [OwnGrammars] {files : List ParsedFile}
    (distinct : files.Pairwise fun f g => f.path.same g.path = false)
    {calls others : List ParsedFile} (collects : Collects calls files)
    (collectsOthers : Collects others files) {cache otherCache : Query.Cache}
    (sound : cache.Sound) (otherSound : otherCache.Sound) :
    ∃ one two : Analyzer, (collectAll {} cache calls).1 = .ok one ∧
      (collectAll {} otherCache others).1 = .ok two ∧ one.aggregate = two.aggregate := by
  obtain ⟨_, first, _⟩ := collectAll_eq {} sound calls
  obtain ⟨_, second, _⟩ := collectAll_eq {} otherSound others
  refine ⟨addAll {} calls, addAll {} others, by rw [first], by rw [second], ?_⟩
  have same : addAll {} calls = addAll {} others := by
    refine ext_of_sorted (Good.empty.addAll calls).sorted (Good.empty.addAll others).sorted
      fun item => ?_
    rw [mem_addAll (collects.oneFilePerPath distinct),
      mem_addAll (collectsOthers.oneFilePerPath distinct)]
    constructor
    · rintro ⟨file, mem, of, path⟩
      exact ⟨file, (collectsOthers.mem_iff of).mpr ((collects.mem_iff of).mp mem), of, path⟩
    · rintro ⟨file, mem, of, path⟩
      exact ⟨file, (collects.mem_iff of).mpr ((collectsOthers.mem_iff of).mp mem), of, path⟩
  rw [same]

attribute [local instance] sampleGrammars

theorem aggregate_order_irrelevant_two_files :
    ∃ one two : Analyzer,
      (collectAll {} {} [TwoFiles.calleeFile, TwoFiles.notes, TwoFiles.callerFile,
        TwoFiles.calleeFile]).1 = .ok one ∧
      (collectAll {} {} [TwoFiles.callerFile, TwoFiles.calleeFile]).1 = .ok two ∧
      one.aggregate = two.aggregate := by
  have distinct : [TwoFiles.callerFile, TwoFiles.calleeFile].Pairwise
      fun f g => f.path.same g.path = false := by decide +kernel
  have mixed : Collects [TwoFiles.calleeFile, TwoFiles.notes, TwoFiles.callerFile,
      TwoFiles.calleeFile] [TwoFiles.callerFile, TwoFiles.calleeFile] := by
    refine ⟨⟨[TwoFiles.calleeFile, TwoFiles.callerFile], .swap _ _ _, ?_⟩, ?_⟩
    · exact .cons_cons _ (.cons _ (.cons_cons _ (.cons _ .slnil)))
    · simp [TwoFiles.notes, profile?]
  have plain : Collects [TwoFiles.callerFile, TwoFiles.calleeFile]
      [TwoFiles.callerFile, TwoFiles.calleeFile] :=
    ⟨⟨_, .refl _, .refl _⟩, fun _ mem => Or.inl mem⟩
  exact aggregate_order_irrelevant distinct mixed plain Query.Cache.sound_empty
    Query.Cache.sound_empty

end Analyzer

end SourceGauge.Coupling
