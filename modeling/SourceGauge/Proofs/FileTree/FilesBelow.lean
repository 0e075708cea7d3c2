/-
# SourceGauge.Proofs.FileTree.FilesBelow -- exactly the files below a folder

A file is below a folder when names lead from the folder to it (`FileTree.LeadsTo`).  It is left out
of a walk when one of the folders on the way is excluded: all these names count but the last one,
which is the file's own, and the name of the folder where the walk starts is not among them.  So
pruning folders during the walk is the same as choosing files by the whole way to them
(`WellNamed.mem_walk_iff`).

* `discover_files`: what is discovered are these files, in increasing order, each once.
-/
import SourceGauge.Proofs.FileTree.Discovery
import SourceGauge.Proofs.Keyed

namespace SourceGauge

set_option autoImplicit false

open SourceGauge.Path (IsName)

namespace FileTree

/-- Names lead from an item to a file. -/
def LeadsTo (tree : FileTree) (names : List String) : Prop :=
  ∃ content, tree.get? names = some (.file content)

/-- None of the folders on the way of names is excluded. -/
def PassesBy (excluded names : List String) : Prop := ∀ name ∈ names.dropLast, name ∉ excluded

variable {tree item : FileTree} {here : Path} {excluded names : List String} {name : String}

/-! ## Ways to files -/

/-- From a file only no names lead to a file. -/
theorem leadsTo_of_not_isFolder (notFolder : tree.isFolder = false) :
    tree.LeadsTo names ↔ names = [] := by
  cases tree with
  | folder items => cases notFolder
  | file content =>
      cases names with
      | nil => exact iff_of_true ⟨content, rfl⟩ rfl
      | cons name rest =>
          refine iff_of_false ?_ (List.cons_ne_nil name rest)
          rintro ⟨_, found⟩
          cases found

theorem not_leadsTo_nil (isFolder : tree.isFolder = true) : ¬ tree.LeadsTo [] := by
  rintro ⟨content, found⟩
  rw [Option.some.inj found] at isFolder
  cases isFolder

theorem leadsTo_cons_iff :
    tree.LeadsTo (name :: names) ↔ ∃ item, tree.item? name = some item ∧ item.LeadsTo names := by
  simp only [LeadsTo, get?, Option.bind_eq_some_iff]
  constructor
  · rintro ⟨content, item, found, later⟩
    exact ⟨item, found, content, later⟩
  · rintro ⟨item, found, content, later⟩
    exact ⟨content, item, found, later⟩

/-- With different names, each item of a folder is the one that its name leads to. -/
theorem item?_eq_some_iff {items : List (String × FileTree)}
    (distinct : items.Pairwise fun a b => a.1 ≠ b.1) :
    (folder items).item? name = some item ↔ (name, item) ∈ items := by
  have keys : (items.map Prod.fst).Nodup := List.pairwise_map.mpr distinct
  show (items.find? fun other => other.1 = name).map Prod.snd = some item ↔ _
  rw [Option.map_eq_some_iff]
  constructor
  · rintro ⟨⟨other, _⟩, found, rfl⟩
    obtain ⟨mem, rfl⟩ := (find?_key_eq_some_iff keys).mp found
    exact mem
  · intro mem
    exact ⟨(name, item), (find?_key_eq_some_iff keys).mpr ⟨mem, rfl⟩, rfl⟩

/-- Where names lead on from an item, its own name is that of a folder on the way. -/
theorem passesBy_cons_iff (leads : item.LeadsTo names) :
    PassesBy excluded (name :: names) ↔
      ¬ (item.isFolder = true ∧ name ∈ excluded) ∧ PassesBy excluded names := by
  cases isFolder : item.isFolder with
  | false =>
      rw [(leadsTo_of_not_isFolder isFolder).mp leads]
      simp [PassesBy]
  | true =>
      have proper : names ≠ [] := by
        rintro rfl
        exact not_leadsTo_nil isFolder leads
      simp only [PassesBy, List.dropLast_cons_of_ne_nil proper, List.forall_mem_cons, true_and]

/-! ## Walking -/

/-- A pruned walk comes to the files whose ways pass by the excluded folders. -/
theorem WellNamed.mem_walk_iff (wellNamed : tree.WellNamed) {p : Path} :
    p ∈ walk excluded here tree ↔
      ∃ names, tree.LeadsTo names ∧ PassesBy excluded names ∧ p = here.descend names := by
  induction wellNamed generalizing here with
  | file content =>
      rw [walk, List.mem_singleton]
      constructor
      · intro same
        exact ⟨[], ⟨content, rfl⟩, fun _ mem => (List.not_mem_nil mem).elim, same⟩
      · rintro ⟨names, leads, _, rfl⟩
        rw [(leadsTo_of_not_isFolder rfl).mp leads]
        rfl
  | @folder items _ distinct _ ih =>
      rw [walk, walkItems_eq, List.mem_flatMap]
      constructor
      · rintro ⟨⟨name, item⟩, memItem, mem⟩
        split at mem
        · cases mem
        · next kept =>
          obtain ⟨rest, leads, passes, rfl⟩ := (ih _ memItem).mp mem
          refine ⟨name :: rest, ?_, ?_, rfl⟩
          · exact leadsTo_cons_iff.mpr ⟨item, (item?_eq_some_iff distinct).mpr memItem, leads⟩
          · exact (passesBy_cons_iff leads).mpr ⟨by simpa using kept, passes⟩
      · rintro ⟨names, leads, passes, rfl⟩
        cases names with
        | nil => exact absurd leads (not_leadsTo_nil rfl)
        | cons name rest =>
            obtain ⟨item, found, leadsRest⟩ := leadsTo_cons_iff.mp leads
            have memItem := (item?_eq_some_iff distinct).mp found
            obtain ⟨kept, passesRest⟩ := (passesBy_cons_iff leadsRest).mp passes
            refine ⟨(name, item), memItem, ?_⟩
            rw [if_neg (by simpa using kept)]
            exact (ih _ memItem).mpr ⟨rest, leadsRest, passesRest, rfl⟩

theorem WellNamed.isName_of_leadsTo (wellNamed : tree.WellNamed) (leads : tree.LeadsTo names) :
    ∀ name ∈ names, IsName name := by
  induction names generalizing tree with
  | nil => exact fun _ mem => (List.not_mem_nil mem).elim
  | cons name rest ih =>
      obtain ⟨item, found, later⟩ := leadsTo_cons_iff.mp leads
      refine List.forall_mem_cons.mpr ⟨?_, ih (wellNamed.item? found) later⟩
      cases wellNamed with
      | file content => cases found
      | folder areNames distinct _ =>
          exact areNames _ ((item?_eq_some_iff distinct).mp found)

end FileTree

namespace Disk

open FileTree (LeadsTo PassesBy)

/-! ## Discovering -/

/-- **Exactly the files below the sources are discovered**, in strictly increasing order and so
without repeats: those to which names lead that pass by the excluded folders, whatever the file
itself or the sources are called.  Different names lead to different paths, so each file is
discovered once.  Sources that are a file yield that file alone. -/
theorem discover_files {disk : Disk} (wellNamed : disk.root.WellNamed) {sources : Path}
    {item : FileTree} (found : disk.find sources = .ok item) (excluded : List String) :
    (disk.discover sources excluded).Pairwise (fun p q => p.lt q = true) ∧
      (disk.discover sources excluded).Nodup ∧
      (∀ p, p ∈ disk.discover sources excluded ↔
        ∃ names, item.LeadsTo names ∧ PassesBy excluded names ∧ p = sources.descend names) ∧
      (∀ ns ms, item.LeadsTo ns → item.LeadsTo ms →
        (sources.descend ns).same (sources.descend ms) = true → ns = ms) ∧
      (item.isFolder = false → disk.discover sources excluded = [sources]) := by
  have wellItem := wellNamed.find found
  have sorted := discover_sorted wellNamed sources excluded
  refine ⟨sorted, ?_, ?_, ?_, ?_⟩
  · refine sorted.imp ?_
    rintro p _ less rfl
    rw [Path.not_lt_of_same (Path.same_refl p)] at less
    cases less
  · intro p
    rw [discover, found, List.mem_mergeSort]
    exact wellItem.mem_walk_iff
  · intro ns ms leadsNs leadsMs same
    exact Path.descend_inj (text_ne_empty_of_find found) (wellItem.isName_of_leadsTo leadsNs)
      (wellItem.isName_of_leadsTo leadsMs) same
  · intro notFolder
    cases item with
    | folder items => cases notFolder
    | file content => simp only [discover, found, FileTree.walk, List.mergeSort_singleton]

/-! ## Folders and files with excluded names -/

namespace BuildFolder

def note : FileTree := .file { text := some "" }

/-- A folder and a file have the name `dist`, and a file stands beside a folder of its stem. -/
def build : FileTree :=
  .folder [("dist", note), ("lib.cs", note),
    ("lib", .folder [("a.cs", note), ("dist", .folder [("b.cs", note)])])]

def disk : Disk where
  root := .folder [("home", .folder [("build", build)])]
  current := ["home"]

theorem wellNamed : disk.root.WellNamed := by
  have wellDist : (FileTree.folder [("b.cs", note)]).WellNamed :=
    .folder (by simp only [List.forall_mem_singleton]; decide) (by simp)
      (List.forall_mem_singleton.mpr (.file _))
  have wellLib : (FileTree.folder [("a.cs", note), ("dist", .folder [("b.cs", note)])]).WellNamed :=
    .folder (by simp only [List.forall_mem_cons]; decide) (by simp)
      (List.forall_mem_cons.mpr ⟨.file _, List.forall_mem_singleton.mpr wellDist⟩)
  have wellBuild : build.WellNamed :=
    .folder (by simp only [List.forall_mem_cons]; decide) (by simp)
      (List.forall_mem_cons.mpr ⟨.file _, List.forall_mem_cons.mpr
        ⟨.file _, List.forall_mem_singleton.mpr wellLib⟩⟩)
  have wellHome : (FileTree.folder [("build", build)]).WellNamed :=
    .folder (by simp only [List.forall_mem_singleton]; decide) (by simp)
      (List.forall_mem_singleton.mpr wellBuild)
  exact .folder (by simp only [List.forall_mem_singleton]; decide) (by simp)
    (List.forall_mem_singleton.mpr wellHome)

end BuildFolder

open BuildFolder in
/-- With `build` and `dist` excluded, the file `dist` in the sources `build` is discovered, and the
files of the folder `dist` are not; from the root as from the current folder. -/
theorem discover_files_excluded_names :
    disk.root.WellNamed ∧ disk.find ⟨"build/./"⟩ = .ok build ∧
      (⟨"build/./dist"⟩ : Path) ∈ disk.discover ⟨"build/./"⟩ ["build", "dist"] ∧
      (⟨"build/./lib/a.cs"⟩ : Path) ∈ disk.discover ⟨"build/./"⟩ ["build", "dist"] ∧
      (⟨"build/./lib/dist/b.cs"⟩ : Path) ∉
        disk.discover ⟨"build/./"⟩ ["build", "dist"] ∧
      disk.find ⟨"/../home/build"⟩ = .ok build ∧
      (⟨"/../home/build/dist"⟩ : Path) ∈
        disk.discover ⟨"/../home/build"⟩ ["build", "dist"] := by
  have found : disk.find ⟨"build/./"⟩ = .ok build := rfl
  have fromRoot : disk.find ⟨"/../home/build"⟩ = .ok build := rfl
  obtain ⟨_, _, exactly, once, _⟩ := discover_files wellNamed found ["build", "dist"]
  obtain ⟨_, _, exactlyFromRoot, _⟩ := discover_files wellNamed fromRoot ["build", "dist"]
  refine ⟨wellNamed, found, ?_, ?_, ?_, fromRoot, ?_⟩
  · exact (exactly _).mpr ⟨["dist"], ⟨_, rfl⟩, by simp [PassesBy], by decide +kernel⟩
  · exact (exactly _).mpr ⟨["lib", "a.cs"], ⟨_, rfl⟩, by simp [PassesBy], by decide +kernel⟩
  · intro mem
    obtain ⟨names, leads, passes, same⟩ := (exactly _).mp mem
    have way : names = ["lib", "dist", "b.cs"] := by
      refine once names _ leads ⟨_, rfl⟩ ?_
      rw [← same]
      decide +kernel
    subst way
    exact passes "dist" (by decide) (by decide)
  · exact (exactlyFromRoot _).mpr ⟨["dist"], ⟨_, rfl⟩, by simp [PassesBy], by decide +kernel⟩

end Disk

end SourceGauge
