/-
# SourceGauge.Proofs.FileTree.Discovery -- the files that are discovered

A tree is `WellNamed` when its folders could stand on a disk: their items have names, and
no two items of a folder the same one.  What a workspace document describes is always so
(`wellNamed_ofJson`).

In such a tree the files below a path are discovered once each, in increasing order
(`discover_sorted`).  They are the path itself, when it leads to a file, or paths that names
lead to from it (`discover_cases`).  So printing them relative to that path keeps their
order, and tells them apart (`printed_lt`).
-/
import SourceGauge.Proofs.Path.Below
import SourceGauge.Workspace

namespace SourceGauge

set_option autoImplicit false

open SourceGauge.Path (IsName)

namespace FileTree

/-- A tree of folders whose items have names, and different ones. -/
inductive WellNamed : FileTree → Prop where
  | file (content : StoredFile) : WellNamed (file content)
  | folder {items : List (String × FileTree)} (names : ∀ item ∈ items, IsName item.1)
      (distinct : items.Pairwise fun a b => a.1 ≠ b.1)
      (inside : ∀ item ∈ items, WellNamed item.2) : WellNamed (folder items)

namespace WellNamed

theorem empty : WellNamed (.folder []) :=
  folder (fun _ mem => (List.not_mem_nil mem).elim) List.Pairwise.nil
    (fun _ mem => (List.not_mem_nil mem).elim)

theorem item? {tree item : FileTree} (wellNamed : tree.WellNamed) {name : String}
    (found : tree.item? name = some item) : item.WellNamed := by
  obtain ⟨⟨_, _⟩, there, rfl⟩ := Option.map_eq_some_iff.mp found
  have mem := List.mem_of_find?_eq_some there
  cases wellNamed with
  | file content => cases mem
  | folder names distinct inside => exact inside _ mem

theorem get? {tree item : FileTree} (wellNamed : tree.WellNamed) {names : List String}
    (found : tree.get? names = some item) : item.WellNamed := by
  induction names generalizing tree with
  | nil => exact Option.some.inj found ▸ wellNamed
  | cons name rest ih =>
      obtain ⟨next, here, later⟩ := Option.bind_eq_some_iff.mp found
      exact ih (wellNamed.item? here) later

theorem find {disk : Disk} (wellNamed : disk.root.WellNamed) {path : Path} {item : FileTree}
    (found : disk.find path = .ok item) : item.WellNamed := by
  unfold Disk.find at found
  split at found
  · cases found
  · split at found
    · next there =>
      cases found
      exact wellNamed.get? there
    · cases found

/-! ## Trees that are built -/

theorem of_items {tree : FileTree} (wellNamed : tree.WellNamed) :
    (FileTree.folder tree.items).WellNamed := by
  cases wellNamed with
  | file content => exact empty
  | folder names distinct inside => exact folder names distinct inside

/-- An item takes the place of the one that has its name. -/
theorem replace {items : List (String × FileTree)} (wellNamed : (FileTree.folder items).WellNamed)
    (name : String) {item : FileTree} (wellItem : item.WellNamed) :
    (FileTree.folder (items.map fun old =>
      if old.1 = name then (name, item) else old)).WellNamed := by
  cases wellNamed with | folder names distinct inside
  have sameName : ∀ old : String × FileTree,
      (if old.1 = name then (name, item) else old).1 = old.1 := fun old => by
    split
    · next here => exact here.symm
    · rfl
  refine folder ?_ ?_ ?_
  · rintro _ mem
    obtain ⟨old, there, rfl⟩ := List.mem_map.mp mem
    rw [sameName]
    exact names old there
  · exact List.pairwise_map.mpr (distinct.imp fun apart => by rwa [sameName, sameName])
  · rintro _ mem
    obtain ⟨old, there, rfl⟩ := List.mem_map.mp mem
    split
    · exact wellItem
    · exact inside old there

/-- An item with a new name joins the others. -/
theorem concat {items : List (String × FileTree)} (wellNamed : (FileTree.folder items).WellNamed)
    {name : String} (isName : IsName name) (new : ∀ old ∈ items, old.1 ≠ name) {item : FileTree}
    (wellItem : item.WellNamed) : (FileTree.folder (items ++ [(name, item)])).WellNamed := by
  cases wellNamed with | folder names distinct inside
  refine folder ?_ ?_ ?_
  · exact List.forall_mem_append.mpr ⟨names, List.forall_mem_singleton.mpr isName⟩
  · refine List.pairwise_append.mpr ⟨distinct, List.pairwise_singleton _ _, ?_⟩
    exact fun old there => List.forall_mem_singleton.mpr (new old there)
  · exact List.forall_mem_append.mpr ⟨inside, List.forall_mem_singleton.mpr wellItem⟩

/-- Putting an item where names lead to keeps a tree well named. -/
theorem put {tree leaf : FileTree} (wellNamed : tree.WellNamed) (wellLeaf : leaf.WellNamed)
    {names : List String} (areNames : ∀ n ∈ names, IsName n) :
    (FileTree.put leaf names tree).WellNamed := by
  induction names generalizing tree with
  | nil => exact wellLeaf
  | cons name rest ih =>
      obtain ⟨isName, areRest⟩ := List.forall_mem_cons.mp areNames
      have before : ((tree.item? name).getD (.folder [])).WellNamed := by
        cases there : tree.item? name with
        | none => exact empty
        | some item => exact wellNamed.item? there
      have inner := ih before areRest
      simp only [FileTree.put]
      split
      · exact wellNamed.of_items.replace name inner
      · next absent =>
        have new : ∀ old ∈ tree.items, old.1 ≠ name := by
          rw [Option.not_isSome_iff_eq_none, FileTree.item?, Option.map_eq_none_iff] at absent
          simpa using List.find?_eq_none.mp absent
        exact wellNamed.of_items.concat isName new inner

end WellNamed

end FileTree

namespace Workspace

open FileTree (WellNamed)

/-- The names along a path are names. -/
theorem isName_of_mem_names {path name : String} (mem : name ∈ names path) : IsName name := by
  obtain ⟨component, memComponent, is⟩ := List.mem_filterMap.mp mem
  cases component with
  | name text => exact Option.some.inj is ▸ Path.isName_of_mem_components memComponent
  | _ => cases is

theorem wellNamed_addFolder {top : FileTree} (wellNamed : top.WellNamed) (path : String) :
    (addFolder top path).WellNamed := by
  unfold addFolder
  split
  · exact wellNamed
  · exact wellNamed.put .empty fun _ => isName_of_mem_names

theorem wellNamed_addFile {top : FileTree} (wellNamed : top.WellNamed) (value : Json) :
    (addFile top value).WellNamed := by
  unfold addFile
  split
  · exact wellNamed
  · exact wellNamed.put (.file _) fun _ => isName_of_mem_names

theorem wellNamed_treeOfJson (value : Json) : (treeOfJson value).WellNamed := by
  have folders := List.foldlRecOn (motive := WellNamed)
    ((((value.field? "dirs").bind Json.items?).getD []).filterMap Json.text?) addFolder
    WellNamed.empty fun _ wellNamed path _ => wellNamed_addFolder wellNamed path
  exact List.foldlRecOn (motive := WellNamed) _ addFile folders
    fun _ wellNamed file _ => wellNamed_addFile wellNamed file

/-- A workspace document describes a disk that is well named. -/
theorem wellNamed_ofJson (value : Json) : (ofJson value).root.WellNamed :=
  .folder (List.forall_mem_singleton.mpr (by decide : IsName "workspace"))
    (List.pairwise_singleton _ _)
    (List.forall_mem_singleton.mpr (wellNamed_treeOfJson value))

end Workspace

namespace FileTree

variable {tree : FileTree} {excluded : List String}

/-! ## Walking -/

theorem walkItems_eq (excluded : List String) (here : Path) (items : List (String × FileTree)) :
    walkItems excluded here items = items.flatMap fun item =>
      if item.2.isFolder && excluded.contains item.1 then []
      else walk excluded (here.child item.1) item.2 := by
  induction items with
  | nil => rw [walkItems, List.flatMap_nil]
  | cons item rest ih =>
      obtain ⟨name, item⟩ := item
      rw [walkItems, ih, List.flatMap_cons]

/-- A walk comes to paths that names lead to, and to the path where it starts only when there is
a file. -/
theorem WellNamed.exists_descend_of_mem_walk (wellNamed : tree.WellNamed) {here p : Path}
    (mem : p ∈ walk excluded here tree) :
    ∃ names, (∀ n ∈ names, IsName n) ∧ p = here.descend names ∧
      (tree.isFolder = true → names ≠ []) := by
  induction wellNamed generalizing here with
  | file content =>
      rw [walk, List.mem_singleton] at mem
      exact ⟨[], by simp, mem, fun isFolder => by cases isFolder⟩
  | @folder items names _ _ ih =>
      rw [walk, walkItems_eq] at mem
      obtain ⟨item, memItem, mem⟩ := List.mem_flatMap.mp mem
      split at mem
      · cases mem
      · obtain ⟨rest, areNames, rfl, _⟩ := ih item memItem mem
        refine ⟨item.1 :: rest, ?_, rfl, fun _ => List.cons_ne_nil _ _⟩
        exact List.forall_mem_cons.mpr ⟨names item memItem, areNames⟩

/-- A walk comes to no file twice. -/
theorem WellNamed.pairwise_walk (wellNamed : tree.WellNamed) {here : Path}
    (nonempty : here.text ≠ "") :
    (walk excluded here tree).Pairwise fun p q => p.same q = false := by
  induction wellNamed generalizing here with
  | file content =>
      rw [walk]
      exact List.pairwise_singleton _ _
  | @folder items names distinct inside ih =>
      rw [walk, walkItems_eq, List.pairwise_flatMap]
      constructor
      · intro item mem
        split
        · exact List.Pairwise.nil
        · exact ih item mem (Path.text_child_ne_empty (names item mem))
      · refine distinct.imp_of_mem ?_
        intro a b memA memB apart p memP q memQ
        split at memP
        · cases memP
        split at memQ
        · cases memQ
        -- the first names on the way already differ
        obtain ⟨ns, areNs, rfl, _⟩ := (inside a memA).exists_descend_of_mem_walk memP
        obtain ⟨ms, areMs, rfl, _⟩ := (inside b memB).exists_descend_of_mem_walk memQ
        by_contra same
        rw [Bool.not_eq_false] at same
        have equal : a.1 :: ns = b.1 :: ms := Path.descend_inj nonempty
          (List.forall_mem_cons.mpr ⟨names a memA, areNs⟩)
          (List.forall_mem_cons.mpr ⟨names b memB, areMs⟩) same
        exact apart (List.cons.inj equal).1

end FileTree

namespace Disk

open FileTree (walk)

variable {disk : Disk} {sources : Path} {excluded : List String}

/-! ## Discovering -/

theorem text_ne_empty_of_find {item : FileTree} {path : Path}
    (found : disk.find path = .ok item) : path.text ≠ "" := by
  intro empty
  have path_eq : path = ⟨""⟩ := congrArg Path.mk empty
  subst path_eq
  have nothing : disk.find ⟨""⟩ = .error .notFound := rfl
  rw [nothing] at found
  cases found

theorem pairwise_sort (files : List Path) :
    (files.mergeSort fun p q => !q.lt p).Pairwise fun p q => (!q.lt p) = true := by
  refine List.pairwise_mergeSort ?_ ?_ files
  · intro p q r notAfter notAfterNext
    simp only [Bool.not_eq_true'] at notAfter notAfterNext ⊢
    exact Path.not_lt_trans notAfter notAfterNext
  · intro p q
    cases less : p.lt q with
    | true => simp [Path.not_lt_of_lt less]
    | false => simp

/-- What is discovered stands in increasing order, each file once. -/
theorem discover_sorted (wellNamed : disk.root.WellNamed) (sources : Path)
    (excluded : List String) :
    (disk.discover sources excluded).Pairwise fun p q => p.lt q = true := by
  unfold discover
  split
  · exact List.Pairwise.nil
  · next item found =>
    have distinct : (walk excluded sources item).Pairwise fun p q => p.same q = false :=
      (wellNamed.find found).pairwise_walk (text_ne_empty_of_find found)
    have perm := List.mergeSort_perm (walk excluded sources item) fun p q => !q.lt p
    have apart := (perm.pairwise_iff fun {p q} other => by rwa [Path.same_comm]).mpr distinct
    -- what is in order and nowhere twice is in strict order
    refine (pairwise_sort (walk excluded sources item)).imp₂ ?_ apart
    intro p q notGreater other
    exact (Path.lt_or_lt other).resolve_right (by simpa using notGreater)

/-- What is discovered is the path itself, or lies below it. -/
theorem discover_cases (wellNamed : disk.root.WellNamed) (sources : Path) (excluded : List String) :
    disk.discover sources excluded = [sources] ∨
      ∀ p ∈ disk.discover sources excluded, Path.Below sources p := by
  unfold discover
  split
  · exact Or.inr fun p mem => (List.not_mem_nil mem).elim
  · next item found =>
    cases isFolder : item.isFolder with
    | false =>
        cases item with
        | file content =>
            rw [walk, List.mergeSort_singleton]
            exact Or.inl rfl
        | folder items => cases isFolder
    | true =>
        refine Or.inr fun p mem => ?_
        obtain ⟨names, areNames, rfl, proper⟩ :=
          (wellNamed.find found).exists_descend_of_mem_walk (List.mem_mergeSort.mp mem)
        exact .descend (text_ne_empty_of_find found) (proper isFolder) areNames

/-- What is printed of discovered files is in their order. -/
theorem printed_lt (wellNamed : disk.root.WellNamed) {p q : Path}
    (memP : p ∈ disk.discover sources excluded) (memQ : q ∈ disk.discover sources excluded) :
    (p.printed sources true).lt (q.printed sources true) = p.lt q := by
  rcases discover_cases wellNamed sources excluded with one | below
  · rw [one, List.mem_singleton] at memP memQ
    rw [memP, memQ, Path.not_lt_of_same (Path.same_refl _), Path.not_lt_of_same (Path.same_refl _)]
  · exact (below p memP).printed_lt (below q memQ)

theorem eq_of_same_of_discovered (wellNamed : disk.root.WellNamed) {p q : Path}
    (memP : p ∈ disk.discover sources excluded) (memQ : q ∈ disk.discover sources excluded)
    (same : p.same q = true) : p = q := by
  have sorted : PathMap.Sorted ((disk.discover sources excluded).map fun p => (p, ())) :=
    List.pairwise_map.mpr (discover_sorted wellNamed sources excluded)
  exact congrArg Prod.fst (sorted.eq_of_same (List.mem_map_of_mem memP)
    (List.mem_map_of_mem memQ) same)

/-- A discovered file that is not the sources is joined to them again. -/
theorem join_printed (wellNamed : disk.root.WellNamed) {p : Path}
    (mem : p ∈ disk.discover sources excluded) (other : p.same sources = false) :
    sources.join (p.printed sources true) = p := by
  rcases discover_cases wellNamed sources excluded with one | below
  · rw [one, List.mem_singleton] at mem
    rw [mem, Path.same_refl] at other
    cases other
  · exact (below p mem).join_printed

end Disk

end SourceGauge
