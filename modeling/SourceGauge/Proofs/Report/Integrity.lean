/-
# SourceGauge.Proofs.Report.Integrity -- a report tells of each file once

Findings are `Coherent` when every path in them is printed with a text of its own, and the
ends of relationships are files that were measured, the same that have coupling.  Of such
findings a report can be put together by the texts alone (`tellsOf_ofFindings`).

The findings of a run are coherent (`coherent_surveyed`): discovered files are printed apart,
and only a file that has a syntax tree declares the types that relationships join.

* `run_report`: the report of a run has an entry for each file that could be read and no
  other, a notice in place of it for each that could not, and links between entries only; an
  entry tells what was measured of its file, and all of its coupling or nothing of it.
-/
import SourceGauge.Proofs.Metric.Isolation
import SourceGauge.Proofs.Report.Entries
import SourceGauge.Proofs.Run.RelativePaths

namespace SourceGauge

set_option autoImplicit false

open Coupling (CouplingMeasures CouplingResult)

/-! ## What a report tells -/

namespace Report

/-- Whether the file of a name is at an end of a link. -/
def IsEnd (report : Report) (name : String) : Prop :=
  ∃ link ∈ report.links, link.source = name ∨ link.target = name

/-- An entry tells what was measured of its file, and the coupling of a file that is at an end of
a link. -/
structure TellsFile (report : Report) (measures : FileMeasures) (entry : Entry) : Prop where
  kind : entry.kind = measures.kind
  once : (entry.quantities.map Prod.fst).Nodup
  own : ∀ metric value,
    (metric.name, Quantity.count value) ∈ entry.quantities ↔ (metric, value) ∈ measures.values
  coupled : ∀ name ∈ couplingNames,
    name ∈ entry.quantities.map Prod.fst ↔ report.IsEnd entry.name
  nothingElse : ∀ item ∈ entry.quantities, item.1 ∈ couplingNames ∨ item ∈ ownQuantities measures

/-- A report tells of files, each under its name. -/
structure TellsOf [Grammars] (report : Report) (registry : Registry) (fileAt : Path → SourceFile)
    (name : Path → String) (files : List Path) : Prop where
  /-- No two files have one name. -/
  apart : (files.map name).Nodup
  /-- There is an entry for each file that could be read, and no other. -/
  entries : report.entries.map Entry.name =
    (files.filter fun p => (fileAt p).kind ≠ .unreadable).map name
  /-- No two entries have one name. -/
  once : (report.entries.map Entry.name).Nodup
  /-- A file that could not be read has no entry, and one notice. -/
  unreadable : ∀ p ∈ files, (fileAt p).kind = .unreadable →
    name p ∉ report.entries.map Entry.name ∧
      (report.notices.filter fun notice => notice.name = name p) =
        [⟨name p, .unreadable, noTree⟩]
  /-- A link joins entries. -/
  links : ∀ link ∈ report.links,
    link.source ∈ report.entries.map Entry.name ∧ link.target ∈ report.entries.map Entry.name
  /-- The entry of a file tells what is measured of it alone. -/
  files : ∀ p ∈ files, (fileAt p).kind ≠ .unreadable → ∃ entry ∈ report.entries,
    entry.name = name p ∧ report.TellsFile ((fileAt p).measure registry {}).1 entry

end Report

/-! ## Coherent findings -/

namespace Findings

def measured (found : Findings) : List Path := found.measures.map Prod.fst

def relationships (found : Findings) : List Coupling.Relationship :=
  (found.coupling.map CouplingResult.relationships).getD []

def coupled (found : Findings) : PathMap CouplingMeasures :=
  (found.coupling.map CouplingResult.measures).getD []

/-- Findings that can be told by the texts of their paths. -/
structure Coherent (found : Findings) : Prop where
  apart : ((found.measured ++ found.unreadable).map Path.text).Nodup
  unsupported : ∀ p ∈ found.unsupported, p ∈ found.measured
  metrics : ∀ item ∈ found.measures, (item.2.values.map Prod.fst).Nodup
  ends : ∀ r ∈ found.relationships, r.fromFile ∈ found.measured ∧ r.toFile ∈ found.measured
  coupled : ∀ p, p ∈ found.coupled.map Prod.fst ↔
    ∃ r ∈ found.relationships, p = r.fromFile ∨ p = r.toFile
  once : (found.coupled.map fun item => item.1.text).Nodup

variable {found : Findings}

theorem Coherent.measured_of_coupled (coherent : found.Coherent) {p : Path}
    (mem : p ∈ found.coupled.map Prod.fst) : p ∈ found.measured := by
  obtain ⟨r, memR, rfl | rfl⟩ := (coherent.coupled p).mp mem
  · exact (coherent.ends r memR).1
  · exact (coherent.ends r memR).2

theorem Coherent.nodup_measured (coherent : found.Coherent) :
    (found.measured.map Path.text).Nodup :=
  (List.nodup_append.mp (List.map_append ▸ coherent.apart)).1

theorem Coherent.nodup_unreadable (coherent : found.Coherent) :
    (found.unreadable.map Path.text).Nodup :=
  (List.nodup_append.mp (List.map_append ▸ coherent.apart)).2.1

theorem Coherent.text_ne (coherent : found.Coherent) {p q : Path} (memP : p ∈ found.measured)
    (memQ : q ∈ found.unreadable) : p.text ≠ q.text :=
  (List.nodup_append.mp (List.map_append ▸ coherent.apart)).2.2 _ (List.mem_map_of_mem memP) _
    (List.mem_map_of_mem memQ)

theorem measured_subset_paths (found : Findings) :
    found.measured ++ found.unreadable ⊆ found.paths := by
  intro p mem
  simp only [paths, List.mem_append]
  rcases List.mem_append.mp mem with measured | unreadable
  · exact Or.inl (Or.inl (Or.inl measured))
  · exact Or.inl (Or.inr unreadable)

/-! ## Coherent findings under other names -/

section Rename

variable {change : Path → Path}

theorem measured_rename : (found.rename change).measured = found.measured.map change := by
  simp [measured, rename]

theorem relationships_rename : (found.rename change).relationships = found.relationships.map
    fun r => { r with fromFile := change r.fromFile, toFile := change r.toFile } := by
  simp only [relationships, rename]
  cases found.coupling <;> rfl

theorem map_coupled_rename {α : Type} (f : Path → α) :
    ((found.rename change).coupled.map fun item => f item.1) =
      (found.coupled.map Prod.fst).map fun p => f (change p) := by
  simp only [coupled, rename]
  cases found.coupling with
  | none => rfl
  | some result => simp [CouplingResult.rename]

/-- A change that tells the paths apart keeps findings coherent. -/
theorem Coherent.rename (coherent : found.Coherent)
    (apart : ∀ p ∈ found.paths, ∀ q ∈ found.paths, (change p).text = (change q).text → p = q) :
    (found.rename change).Coherent where
  apart := by
    have within := found.measured_subset_paths
    have once := List.Nodup.of_map Path.text coherent.apart
    have unreadable : (found.rename change).unreadable = found.unreadable.map change := rfl
    rw [measured_rename, unreadable, ← List.map_append, List.map_map]
    exact once.map_on fun p memP q memQ => apart p (within memP) q (within memQ)
  unsupported := by
    rintro _ mem
    obtain ⟨p, memP, rfl⟩ := List.mem_map.mp mem
    rw [measured_rename]
    exact List.mem_map_of_mem (coherent.unsupported p memP)
  metrics := by
    rintro _ mem
    obtain ⟨item, memItem, rfl⟩ := List.mem_map.mp mem
    exact coherent.metrics item memItem
  ends := by
    rw [relationships_rename, measured_rename]
    rintro _ mem
    obtain ⟨r, memR, rfl⟩ := List.mem_map.mp mem
    exact (coherent.ends r memR).imp List.mem_map_of_mem List.mem_map_of_mem
  coupled := by
    intro p
    have keys : (found.rename change).coupled.map Prod.fst =
        (found.coupled.map Prod.fst).map change := map_coupled_rename id
    rw [keys, relationships_rename]
    constructor
    · intro mem
      obtain ⟨q, memQ, rfl⟩ := List.mem_map.mp mem
      obtain ⟨r, memR, isEnd⟩ := (coherent.coupled q).mp memQ
      exact ⟨_, List.mem_map_of_mem memR, isEnd.imp (congrArg change) (congrArg change)⟩
    · rintro ⟨_, mem, isEnd⟩
      obtain ⟨r, memR, rfl⟩ := List.mem_map.mp mem
      rcases isEnd with rfl | rfl
      · exact List.mem_map_of_mem ((coherent.coupled r.fromFile).mpr ⟨r, memR, Or.inl rfl⟩)
      · exact List.mem_map_of_mem ((coherent.coupled r.toFile).mpr ⟨r, memR, Or.inr rfl⟩)
  once := by
    have within : found.coupled.map Prod.fst ⊆ found.paths := fun p mem =>
      found.measured_subset_paths (List.mem_append_left _ (coherent.measured_of_coupled mem))
    have once : (found.coupled.map Prod.fst).Nodup := List.Nodup.of_map Path.text
      (by rw [List.map_map]; exact coherent.once)
    rw [map_coupled_rename]
    exact once.map_on fun p memP q memQ => apart p (within memP) q (within memQ)

end Rename

end Findings

namespace Report

variable {found : Findings}

theorem links_ofFindings (found : Findings) :
    (ofFindings found).links = found.relationships.map fun r =>
      ⟨r.fromFile.text, r.toFile.text⟩ := by
  simp only [ofFindings, linksOf, Findings.relationships]
  cases found.coupling <;> rfl

/-- Coupling joins the entries of measured files. -/
theorem entries_ofFindings (coherent : found.Coherent) :
    (ofFindings found).entries = found.measures.map fun item =>
      (entryOf item.1 item.2).coupledBy found.coupled := by
  have names : (found.measures.map fun item => entryOf item.1 item.2).map Entry.name =
      found.measured.map Path.text := by
    simp [Findings.measured, entryOf]
  have folded : (ofFindings found).entries =
      found.coupled.foldl (fun entries item => addCoupling item.1.text item.2 entries)
        (found.measures.map fun item => entryOf item.1 item.2) := by
    simp only [ofFindings, entriesOf, Findings.coupled]
    cases found.coupling <;> rfl
  rw [folded, foldl_addCoupling (names ▸ coherent.nodup_measured) coherent.once, List.map_map]
  · rfl
  · intro item mem
    rw [names]
    exact List.mem_map_of_mem (coherent.measured_of_coupled (List.mem_map_of_mem mem))

theorem names_ofFindings (coherent : found.Coherent) :
    (ofFindings found).entries.map Entry.name = found.measured.map Path.text := by
  rw [entries_ofFindings coherent, List.map_map, Findings.measured, List.map_map]
  exact List.map_congr_left fun item _ => Entry.name_coupledBy _ _

theorem filter_eq_singleton {α β : Type} [DecidableEq β] {f : α → β} {items : List α}
    (once : (items.map f).Nodup) {a : α} (mem : a ∈ items) :
    (items.filter fun b => f b = f a) = [a] := by
  induction items with
  | nil => cases mem
  | cons head rest ih =>
      obtain ⟨new, onceRest⟩ := List.nodup_cons.mp once
      rcases List.mem_cons.mp mem with rfl | mem
      · have others : (rest.filter fun b => f b = f a) = [] := by
          refine List.filter_eq_nil_iff.mpr fun b memB same => ?_
          exact new (List.mem_map.mpr ⟨b, memB, by simpa using same⟩)
        simp [others]
      · have other : f head ≠ f a := fun same => new (same ▸ List.mem_map_of_mem mem)
        simp [other, ih onceRest mem]

/-- A file that could not be read has one notice. -/
theorem notices_ofFindings (coherent : found.Coherent) {p : Path} (mem : p ∈ found.unreadable) :
    ((ofFindings found).notices.filter fun notice => notice.name = p.text) =
      [⟨p.text, .unreadable, noTree⟩] := by
  have measured : ∀ q ∈ found.measured, q.text ≠ p.text := fun q memQ =>
    coherent.text_ne memQ mem
  have ofUnsupported : ((found.unsupported.map fun q =>
      (⟨q.text, .unsupported, unknownLanguage⟩ : Notice)).filter
        fun notice => notice.name = p.text) = [] := by
    refine List.filter_eq_nil_iff.mpr fun notice memNotice => ?_
    obtain ⟨q, memQ, rfl⟩ := List.mem_map.mp memNotice
    simpa using measured q (coherent.unsupported q memQ)
  have ofUnreadable : ((found.unreadable.map fun q =>
      (⟨q.text, .unreadable, noTree⟩ : Notice)).filter
        fun notice => notice.name = p.text) = [⟨p.text, .unreadable, noTree⟩] := by
    have only : (found.unreadable.filter fun q => q.text = p.text) = [p] :=
      filter_eq_singleton coherent.nodup_unreadable mem
    rw [List.filter_map, Function.comp_def, only, List.map_singleton]
  have ofFailures : ((found.measures.filterMap fun item => failureNotice? item.1 item.2).filter
      fun notice => notice.name = p.text) = [] := by
    refine List.filter_eq_nil_iff.mpr fun notice memNotice => ?_
    obtain ⟨item, memItem, told⟩ := List.mem_filterMap.mp memNotice
    unfold failureNotice? at told
    split at told
    · cases told
    · cases told
      simpa using measured item.1 (List.mem_map_of_mem memItem)
  simp only [ofFindings, noticesOf, List.filter_append, ofUnsupported, ofUnreadable, ofFailures,
    List.nil_append, List.append_nil]

theorem not_mem_names_of_unreadable (coherent : found.Coherent) {p : Path}
    (mem : p ∈ found.unreadable) : p.text ∉ (ofFindings found).entries.map Entry.name := by
  rw [names_ofFindings coherent]
  intro named
  obtain ⟨q, memQ, same⟩ := List.mem_map.mp named
  exact coherent.text_ne memQ mem same

/-- A link joins entries. -/
theorem mem_names_of_link (coherent : found.Coherent) {link : Link}
    (mem : link ∈ (ofFindings found).links) :
    link.source ∈ (ofFindings found).entries.map Entry.name ∧
      link.target ∈ (ofFindings found).entries.map Entry.name := by
  rw [links_ofFindings] at mem
  obtain ⟨r, memR, rfl⟩ := List.mem_map.mp mem
  rw [names_ofFindings coherent]
  exact (coherent.ends r memR).imp List.mem_map_of_mem List.mem_map_of_mem

/-- The files at ends of links are those that have coupling. -/
theorem isEnd_ofFindings (coherent : found.Coherent) {name : String} :
    (ofFindings found).IsEnd name ↔ ∃ item ∈ found.coupled, item.1.text = name := by
  have byPath : (∃ item ∈ found.coupled, item.1.text = name) ↔
      ∃ p ∈ found.coupled.map Prod.fst, p.text = name := by simp
  rw [byPath, IsEnd, links_ofFindings]
  simp only [coherent.coupled, List.mem_map]
  constructor
  · rintro ⟨_, ⟨r, mem, rfl⟩, here | here⟩
    · exact ⟨r.fromFile, ⟨r, mem, Or.inl rfl⟩, here⟩
    · exact ⟨r.toFile, ⟨r, mem, Or.inr rfl⟩, here⟩
  · rintro ⟨p, ⟨r, mem, rfl | rfl⟩, here⟩
    · exact ⟨_, ⟨r, mem, rfl⟩, Or.inl here⟩
    · exact ⟨_, ⟨r, mem, rfl⟩, Or.inr here⟩

theorem tellsFile_ofFindings (coherent : found.Coherent) {item : Path × FileMeasures}
    (mem : item ∈ found.measures) :
    (ofFindings found).TellsFile item.2 ((entryOf item.1 item.2).coupledBy found.coupled) := by
  have told := fun {quantity} => @mem_coupledBy item.1 item.2 found.coupled
    (coherent.metrics item mem) coherent.once quantity
  exact {
    kind := Entry.kind_coupledBy _ _
    once := inOrder_coupledBy.nodup
    own := fun metric value => by
      have notCoupling : ¬∃ other ∈ found.coupled, other.1.text = item.1.text ∧
          (metric.name, Quantity.count value) ∈ couplingQuantities other.2 := by
        rintro ⟨other, _, _, coupling⟩
        exact name_not_mem_couplingNames metric (mem_couplingNames_of_coupling coupling)
      rw [told, or_iff_left notCoupling, mem_ownQuantities]
    coupled := fun name isCoupling => by
      rw [Entry.name_coupledBy, isEnd_ofFindings coherent]
      constructor
      · intro has
        obtain ⟨quantity, memQuantity, rfl⟩ := List.mem_map.mp has
        rcases told.mp memQuantity with own | ⟨other, memOther, here, _⟩
        · exact absurd isCoupling (not_mem_couplingNames_of_own own)
        · exact ⟨other, memOther, here⟩
      · rintro ⟨other, memOther, here⟩
        rw [← map_fst_couplingQuantities other.2] at isCoupling
        obtain ⟨quantity, memQuantity, rfl⟩ := List.mem_map.mp isCoupling
        exact List.mem_map_of_mem (told.mpr (Or.inr ⟨other, memOther, here, memQuantity⟩))
    nothingElse := fun quantity mem => (told.mp mem).symm.imp_left
      fun ⟨_, _, _, coupling⟩ => mem_couplingNames_of_coupling coupling }

/-- The entry of a file that has coupling tells this coupling. -/
theorem exists_entry_of_coupled (coherent : found.Coherent)
    {item : Path × CouplingMeasures} (mem : item ∈ found.coupled) :
    ∃ entry ∈ (ofFindings found).entries, entry.name = item.1.text ∧
      couplingQuantities item.2 ⊆ entry.quantities := by
  obtain ⟨measured, memMeasured, here⟩ :=
    List.mem_map.mp (coherent.measured_of_coupled (List.mem_map_of_mem mem))
  rw [entries_ofFindings coherent]
  refine ⟨_, List.mem_map_of_mem memMeasured, ?_, fun quantity memQuantity => ?_⟩
  · rw [Entry.name_coupledBy, entryOf, here]
  · rw [mem_coupledBy (coherent.metrics measured memMeasured) coherent.once]
    exact Or.inr ⟨item, mem, by rw [here], memQuantity⟩

end Report

/-! ## The findings of a run -/

/-- A file has one value of a metric at most. -/
theorem SourceFile.nodup_values [Grammars] (registry : Registry) (file : SourceFile) :
    ((file.measure registry {}).1.values.map Prod.fst).Nodup := by
  cases file with
  | parsed file =>
      have metrics := FileKind.metrics_nodup file.language.fileKind
      rw [values_parsed Query.Cache.sound_empty]
      refine List.pairwise_map.mpr (List.pairwise_filterMap.mpr (metrics.imp ?_))
      intro metric other different value memValue otherValue memOther
      unfold Metric.valued? at memValue memOther
      split at memValue <;> cases memValue
      split at memOther <;> cases memOther
      exact different
  | unsupported path content => cases content <;> simp [measure]
  | unreadable path error => simp [measure]

namespace Settings

variable {registry : Registry} {disk : Disk} {settings : Settings}

/-- What is printed of discovered files tells them apart by its text. -/
theorem eq_of_print_text (wellNamed : disk.root.WellNamed) {p q : Path}
    (memP : p ∈ settings.discovered disk) (memQ : q ∈ settings.discovered disk)
    (same : (settings.print p).text = (settings.print q).text) : p = q := by
  have equal : settings.print p = settings.print q := congrArg Path.mk same
  exact print_inj wellNamed memP memQ (equal ▸ Path.same_refl _)

theorem nodup_discovered (wellNamed : disk.root.WellNamed) : (settings.discovered disk).Nodup := by
  refine (Disk.discover_sorted wellNamed _ _).imp ?_
  rintro p _ less rfl
  rw [Path.not_lt_of_same (Path.same_refl p)] at less
  cases less

/-- The files that have coupling are spelled as the ends of relationships are. -/
theorem mem_coupled_iff (wellNamed : disk.root.WellNamed) {p : Path} :
    p ∈ (settings.collected disk).aggregate.measures.map Prod.fst ↔
      ∃ r ∈ (settings.collected disk).aggregate.relationships, p = r.fromFile ∨ p = r.toFile := by
  constructor
  · intro mem
    obtain ⟨item, memItem, rfl⟩ := List.mem_map.mp mem
    exact Coupling.exists_end_of_mem_couplingMeasures memItem
  · rintro ⟨r, memR, isEnd⟩
    have touches : Coupling.Touches (settings.collected disk).aggregate.relationships p := by
      refine ⟨r, memR, ?_⟩
      rcases isEnd with rfl | rfl
      · exact Or.inl (Path.same_refl _)
      · exact Or.inr (Path.same_refl _)
    obtain ⟨item, memItem, same⟩ :=
      PathMap.exists_of_find?_some (Coupling.find?_couplingMeasures.mpr ⟨touches, rfl⟩)
    have equal : p = item.1 := Disk.eq_of_same_of_discovered wellNamed
      (discovered_of_end memR isEnd).1 (discovered_of_coupled memItem).1 same
    exact List.mem_map.mpr ⟨item, memItem, equal.symm⟩

theorem measured_surveyed [Grammars] : (settings.surveyed registry disk).measured =
    (settings.discovered disk).filter fun p => (settings.fileAt disk p).kind ≠ .unreadable := by
  simp only [Findings.measured, surveyed, Findings.ofFiles, List.map_map, kind_measuresAt]
  exact List.map_id' _

theorem relationships_surveyed [Grammars] : (settings.surveyed registry disk).relationships =
    if settings.withCoupling then (settings.collected disk).aggregate.relationships else [] := by
  simp only [Findings.relationships, surveyed]
  cases settings.withCoupling <;> rfl

theorem coupled_surveyed [Grammars] : (settings.surveyed registry disk).coupled =
    if settings.withCoupling then (settings.collected disk).aggregate.measures else [] := by
  simp only [Findings.coupled, surveyed]
  cases settings.withCoupling <;> rfl

/-- What a run finds can be told by the texts of paths. -/
theorem coherent_surveyed [Grammars] (registry : Registry) (wellNamed : disk.root.WellNamed)
    (settings : Settings) : (settings.surveyed registry disk).Coherent where
  apart := by
    have once : (settings.discovered disk).Nodup := nodup_discovered wellNamed
    have unreadable : (settings.surveyed registry disk).unreadable =
        (settings.discovered disk).filter fun p => (settings.fileAt disk p).kind = .unreadable := by
      simp only [surveyed, Findings.ofFiles, kind_measuresAt]
    refine List.Nodup.map (fun p q same => congrArg Path.mk same) ?_
    rw [measured_surveyed, unreadable]
    refine List.nodup_append.mpr ⟨once.filter _, once.filter _, ?_⟩
    rintro p memP _ memQ rfl
    have readable := (List.mem_filter.mp memP).2
    have notReadable := (List.mem_filter.mp memQ).2
    simp_all
  unsupported := by
    intro p mem
    obtain ⟨discovered, unsupported⟩ := List.mem_filter.mp mem
    rw [kind_measuresAt, decide_eq_true_eq] at unsupported
    rw [measured_surveyed]
    exact List.mem_filter.mpr ⟨discovered, by simp [unsupported]⟩
  metrics := by
    intro item mem
    obtain ⟨p, _, rfl⟩ := List.mem_map.mp mem
    exact SourceFile.nodup_values registry (settings.fileAt disk p)
  ends := by
    rw [relationships_surveyed, measured_surveyed]
    intro r mem
    split at mem
    · obtain ⟨fromFound, fromReadable⟩ := discovered_of_end mem (Or.inl rfl)
      obtain ⟨toFound, toReadable⟩ := discovered_of_end mem (Or.inr rfl)
      exact ⟨List.mem_filter.mpr ⟨fromFound, by simpa using fromReadable⟩,
        List.mem_filter.mpr ⟨toFound, by simpa using toReadable⟩⟩
    · cases mem
  coupled := by
    intro p
    rw [relationships_surveyed, coupled_surveyed]
    split
    · exact mem_coupled_iff wellNamed
    · simp
  once := by
    have sorted : (settings.surveyed registry disk).coupled.Sorted := by
      rw [coupled_surveyed]
      split
      · exact Coupling.sorted_couplingMeasures _
      · exact PathMap.sorted_nil
    refine List.pairwise_map.mpr (sorted.imp fun {a b} less same => ?_)
    have equal : a.1 = b.1 := congrArg Path.mk same
    rw [equal, Path.not_lt_of_same (Path.same_refl b.1)] at less
    cases less

theorem coherent_printed [Grammars] (registry : Registry) (wellNamed : disk.root.WellNamed)
    (settings : Settings) :
    ((settings.surveyed registry disk).rename settings.print).Coherent :=
  (coherent_surveyed registry wellNamed settings).rename fun _ memP _ memQ =>
    eq_of_print_text wellNamed (mem_discovered_of_mem_paths memP)
      (mem_discovered_of_mem_paths memQ)

end Settings

/-- **A report tells of each file once.**  A run whose settings pass the check leaves a report
that tells of all discovered files.  No two of them have one name.  Each that could be read has
one entry, no other file has one, and a file that could not be read has one notice in place of
it.  Links join entries.  The entry of a file tells what is measured of the file alone, and of
coupling everything when the file is at an end of a link, and nothing when it is not. -/
theorem run_report [OwnGrammars] (registry : Registry) {disk : Disk}
    (wellNamed : disk.root.WellNamed) {settings : Settings}
    (valid : settings.check (disk.hasItem settings.sources) = .ok ()) :
    ∃ found, run registry disk settings = .ok found ∧
      (Report.ofFindings found).TellsOf registry (settings.fileAt disk)
        (fun p => (settings.print p).text) (settings.discovered disk) ∧
      ∀ item ∈ found.coupled, ∃ entry ∈ (Report.ofFindings found).entries,
        entry.name = item.1.text ∧ Report.couplingQuantities item.2 ⊆ entry.quantities := by
  have coherent := Settings.coherent_printed registry wellNamed settings
  have named := Report.names_ofFindings coherent
  have readable : ((settings.surveyed registry disk).rename settings.print).measured =
      ((settings.discovered disk).filter fun p =>
        (settings.fileAt disk p).kind ≠ .unreadable).map settings.print := by
    rw [Findings.measured_rename, Settings.measured_surveyed]
  refine ⟨_, run_eq registry wellNamed valid, ?_,
    fun item mem => Report.exists_entry_of_coupled coherent mem⟩
  exact {
    apart := (Settings.nodup_discovered wellNamed).map_on fun _ memP _ memQ =>
      Settings.eq_of_print_text wellNamed memP memQ
    entries := by rw [named, readable, List.map_map]; rfl
    once := by
      rw [named]
      exact coherent.nodup_measured
    unreadable := fun p mem kind => by
      have memUnreadable : settings.print p ∈
          ((settings.surveyed registry disk).rename settings.print).unreadable := by
        refine List.mem_map_of_mem (List.mem_filter.mpr ⟨mem, ?_⟩)
        rw [Settings.kind_measuresAt, kind, decide_eq_true_eq]
      exact ⟨Report.not_mem_names_of_unreadable coherent memUnreadable,
        Report.notices_ofFindings coherent memUnreadable⟩
    links := fun link mem => Report.mem_names_of_link coherent mem
    files := fun p mem kind => by
      have memMeasures : (settings.print p, settings.measuresAt registry disk p) ∈
          ((settings.surveyed registry disk).rename settings.print).measures := by
        have there : p ∈ (settings.discovered disk).filter fun p =>
            (settings.measuresAt registry disk p).kind ≠ .unreadable := by
          rw [List.mem_filter, Settings.kind_measuresAt, decide_eq_true_eq]
          exact ⟨mem, kind⟩
        exact List.mem_map.mpr ⟨_, List.mem_map_of_mem there, rfl⟩
      rw [Report.entries_ofFindings coherent]
      exact ⟨_, List.mem_map_of_mem memMeasures, Report.Entry.name_coupledBy _ _,
        Report.tellsFile_ofFindings coherent memMeasures⟩ }

attribute [local instance] sampleGrammars

open SameNames in
theorem run_report_same_names :
    settings.check (disk.hasItem settings.sources) = .ok () ∧
      ∃ found, run .builtin disk { settings with relativePaths := true } = .ok found ∧
        (Report.ofFindings found).entries.map Report.Entry.name =
          ["A.cs", "lib/A.cs", "lib/notes.txt"] ∧
        ((Report.ofFindings found).notices.filter fun notice => notice.name = "old.cs") =
          [⟨"old.cs", .unreadable, Report.noTree⟩] := by
  obtain ⟨found, done, tells, _⟩ :=
    @run_report _ .builtin disk wellNamed { settings with relativePaths := true } valid
  have files : ({ settings with relativePaths := true } : Settings).discovered disk =
      [⟨"./src//A.cs"⟩, ⟨"./src//lib/A.cs"⟩, ⟨"./src//lib/notes.txt"⟩, ⟨"./src//old.cs"⟩] :=
    discovered_eq
  rw [files] at tells
  refine ⟨valid, found, done, ?_, ?_⟩
  · rw [tells.entries]
    decide +kernel
  · exact (tells.unreadable ⟨"./src//old.cs"⟩ (by decide) (by decide +kernel)).2

end SourceGauge
