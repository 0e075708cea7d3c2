/-
# SourceGauge.Proofs.Coupling.UseOrder -- uses in another order

A text that was noted is passed over, and a text may note others than itself: the
call chain `D.E` notes `D` too, and an imported name notes what follows the import.
So the order of uses matters for those that clash, where one notes the text of the
other and does not give all that the other gives (`Clash`).  It matters for no others:
two uses next to each other that do not clash may be exchanged (`step_comm`), and a
reordering that leaves clashing uses in their order is reached by such exchanges
(`Reorders.foldl`).

* `collected_reorder`: so a file gives the same pairs of full names and the same call
  chains in every order of its uses in which those that clash keep theirs.

The call chain `D.E` and the type `D.E` clash, and the order in which they stand
decides which of them is lost (`collected_depends_on_order`).
-/
import SourceGauge.Proofs.Coupling.Compiled
import SourceGauge.Proofs.Coupling.LookUp

namespace SourceGauge.Coupling

set_option autoImplicit false

/-! ## Reordering -/

/-- The items in another order, in which any two that clash stay in theirs. -/
def Reorders {α : Type} (clash : α → α → Prop) (items others : List α) : Prop :=
  ∃ order : List (Fin items.length), order.Perm (List.finRange items.length) ∧
    order.Pairwise (fun i j => clash (items.get i) (items.get j) → i < j) ∧
    others = order.map items.get

/-- Steps that do not clash may be exchanged, up to a relation that steps respect, wherever
something holds that steps keep. -/
structure Exchanges {σ α : Type} (step : σ → α → σ) (same : σ → σ → Prop) (keeps : σ → Prop)
    (clash : α → α → Prop) : Prop where
  equivalence : Equivalence same
  congr : ∀ {s t : σ}, same s t → ∀ a, same (step s a) (step t a)
  kept : ∀ {s : σ}, keeps s → ∀ a, keeps (step s a)
  comm : ∀ {s : σ}, keeps s → ∀ {a b : α}, ¬clash a b → same (step (step s a) b) (step (step s b) a)

namespace Exchanges

variable {σ α : Type} {step : σ → α → σ} {same : σ → σ → Prop} {keeps : σ → Prop}
  {clash : α → α → Prop}

theorem foldl_congr (exchanges : Exchanges step same keeps clash) {s t : σ} (alike : same s t)
    (items : List α) : same (items.foldl step s) (items.foldl step t) := by
  induction items generalizing s t with
  | nil => exact alike
  | cons a rest ih => exact ih (exchanges.congr alike a)

/-- An item may be taken first when none before it clashes with it. -/
theorem foldl_front (exchanges : Exchanges step same keeps clash) {s : σ} (holds : keeps s)
    {before after : List α} {a : α} (free : ∀ b ∈ before, ¬clash b a) :
    same ((before ++ a :: after).foldl step s) ((before ++ after).foldl step (step s a)) := by
  induction before generalizing s with
  | nil => exact exchanges.equivalence.refl _
  | cons b before ih =>
      have later := ih (exchanges.kept holds b) fun c mem => free c (List.mem_cons_of_mem _ mem)
      have swapped := exchanges.comm holds (free b List.mem_cons_self)
      exact exchanges.equivalence.trans later (exchanges.foldl_congr swapped (before ++ after))

/-- By induction on the increasing positions: the least one may be taken first. -/
theorem foldl_map {n : Nat} (exchanges : Exchanges step same keeps clash) (item : Fin n → α)
    {sorted order : List (Fin n)} (increasing : sorted.Pairwise (· < ·))
    (perm : order.Perm sorted)
    (kept : order.Pairwise fun i j => clash (item i) (item j) → i < j) {s : σ} (holds : keeps s) :
    same ((order.map item).foldl step s) ((sorted.map item).foldl step s) := by
  induction sorted generalizing order s with
  | nil =>
      rw [perm.eq_nil]
      exact exchanges.equivalence.refl _
  | cons i rest ih =>
      obtain ⟨least, increasing⟩ := List.pairwise_cons.mp increasing
      obtain ⟨before, after, rfl⟩ := List.append_of_mem (perm.mem_iff.mpr List.mem_cons_self)
      have others : (before ++ after).Perm rest :=
        (List.perm_cons i).mp (List.perm_middle.symm.trans perm)
      have keptOthers : (before ++ after).Pairwise fun i j => clash (item i) (item j) → i < j :=
        kept.sublist ((List.Sublist.refl before).append (List.sublist_cons_self i after))
      have free : ∀ b ∈ before.map item, ¬clash b (item i) := by
        intro b mem clashes
        obtain ⟨j, memJ, rfl⟩ := List.mem_map.mp mem
        have after_i : i < j := least j (others.mem_iff.mp (List.mem_append_left _ memJ))
        have before_i : j < i :=
          (List.pairwise_append.mp kept).2.2 j memJ i List.mem_cons_self clashes
        exact absurd before_i (Fin.lt_asymm after_i)
      have later := ih increasing others keptOthers (exchanges.kept holds (item i))
      rw [List.map_append, List.map_cons, List.map_cons, List.foldl_cons]
      rw [List.map_append] at later
      exact exchanges.equivalence.trans (exchanges.foldl_front holds free) later

end Exchanges

theorem Reorders.foldl {σ α : Type} {step : σ → α → σ} {same : σ → σ → Prop} {keeps : σ → Prop}
    {clash : α → α → Prop} {items others : List α} (reorders : Reorders clash items others)
    (exchanges : Exchanges step same keeps clash) {s : σ} (holds : keeps s) :
    same (others.foldl step s) (items.foldl step s) := by
  obtain ⟨order, perm, kept, rfl⟩ := reorders
  have folded := exchanges.foldl_map items.get (List.pairwise_lt_finRange items.length) perm kept
    holds
  rwa [List.map_get_finRange] at folded

/-! ## Traces -/

/-- What looking up texts leaves behind: a text that is noted, a pair of full names of which
the one may refer to the other, the text of a call chain. -/
inductive Trace where
  | text (text : String)
  | pair (origin used : String)
  | call (text : String)
  deriving DecidableEq, Repr

namespace Collected

def traces (collected : Collected) : List Trace :=
  collected.seen.map .text ++
    (collected.candidates.map fun candidate => .pair candidate.origin candidate.used) ++
      collected.calls.map fun call => .call call.text

@[simp] theorem text_mem_traces {collected : Collected} {text : String} :
    .text text ∈ collected.traces ↔ text ∈ collected.seen := by
  simp [traces]

theorem Adds.mem_traces {before found later : Collected} (adds : Adds before found later)
    (trace : Trace) : trace ∈ later.traces ↔ trace ∈ before.traces ∨ trace ∈ found.traces := by
  cases trace with
  | text text => simpa using adds.seen text
  | pair origin used => simp [traces, adds.candidates]
  | call text => simp [traces, adds.calls]

theorem pair_mem_traces {collected : Collected} {origin used : String} :
    .pair origin used ∈ collected.traces ↔
      ∃ candidate ∈ collected.candidates, candidate.origin = origin ∧ candidate.used = used := by
  simp [traces]

theorem call_mem_traces {collected : Collected} {text : String} :
    .call text ∈ collected.traces ↔ ∃ call ∈ collected.calls, call.text = text := by
  simp [traces]

/-- The same traces are left behind. -/
def SameTraces (collected other : Collected) : Prop :=
  ∀ trace, trace ∈ collected.traces ↔ trace ∈ other.traces

variable {profile : Profile} {imports : List Import} {file : Path} {types : FileTypes}
  {first : DeclaredType}

theorem mem_traces_step (collected : Collected) (entry : UsageText) (trace : Trace) :
    trace ∈ (step profile imports file types first collected entry).traces ↔
      trace ∈ collected.traces ∨ bareText profile.delimiter entry.text ∉ collected.seen ∧
        trace ∈ (alone profile imports file types first entry).traces := by
  by_cases noted : bareText profile.delimiter entry.text ∈ collected.seen
  · simp [step_of_noted noted, noted]
  · simp [(step_adds noted).mem_traces, noted]

theorem mem_seen_step (collected : Collected) (entry : UsageText) (text : String) :
    text ∈ (step profile imports file types first collected entry).seen ↔
      text ∈ collected.seen ∨ bareText profile.delimiter entry.text ∉ collected.seen ∧
        text ∈ (alone profile imports file types first entry).seen := by
  simpa using mem_traces_step collected entry (.text text)

theorem SameTraces.step {collected other : Collected} (same : SameTraces collected other)
    (entry : UsageText) :
    SameTraces (collected.step profile imports file types first entry)
      (other.step profile imports file types first entry) := by
  have seen : bareText profile.delimiter entry.text ∈ collected.seen ↔
      bareText profile.delimiter entry.text ∈ other.seen := by
    simpa using same (.text (bareText profile.delimiter entry.text))
  intro trace
  rw [mem_traces_step, mem_traces_step, same trace, seen]

end Collected

/-! ## Clashes -/

/-- A text that is looked up by itself notes another one, and leaves something out that the other
one gives by itself. -/
def Hides (profile : Profile) (imports : List Import) (file : Path) (types : FileTypes)
    (entry other : UsageText) : Prop :=
  bareText profile.delimiter other.text ∈
      (collectUsages profile imports file types [entry]).seen ∧
    ¬(collectUsages profile imports file types [other]).traces ⊆
      (collectUsages profile imports file types [entry]).traces

/-- One of two uses hides the other, and neither is passed over because of a base name. -/
def Clash (profile : Profile) (imports : List Import) (file : Path) (types : FileTypes)
    (entry other : UsageText) : Prop :=
  bareText profile.delimiter entry.text ∉
      (collectUsages profile imports file types (baseTexts types)).seen ∧
    bareText profile.delimiter other.text ∉
      (collectUsages profile imports file types (baseTexts types)).seen ∧
    (Hides profile imports file types entry other ∨ Hides profile imports file types other entry)

instance (profile : Profile) (imports : List Import) (file : Path) (types : FileTypes)
    (entry other : UsageText) : Decidable (Hides profile imports file types entry other) :=
  inferInstanceAs (Decidable (_ ∧ _))

instance (profile : Profile) (imports : List Import) (file : Path) (types : FileTypes)
    (entry other : UsageText) : Decidable (Clash profile imports file types entry other) :=
  inferInstanceAs (Decidable (_ ∧ _ ∧ _))

section Steps

variable {profile : Profile} {imports : List Import} {file : Path} {first : DeclaredType}
  {rest : List DeclaredType}

theorem collectUsages_singleton (entry : UsageText) :
    collectUsages profile imports file (first :: rest) [entry] =
      Collected.alone profile imports file (first :: rest) first entry := rfl

/-- What a text gives alone is given by one that notes it and does not hide it. -/
theorem mem_traces_of_not_hides {entry other : UsageText}
    (shown : ¬Hides profile imports file (first :: rest) entry other)
    (noted : bareText profile.delimiter other.text ∈
      (Collected.alone profile imports file (first :: rest) first entry).seen)
    {trace : Trace}
    (mem : trace ∈ (Collected.alone profile imports file (first :: rest) first other).traces) :
    trace ∈ (Collected.alone profile imports file (first :: rest) first entry).traces := by
  rw [Hides, collectUsages_singleton, collectUsages_singleton] at shown
  by_contra missing
  exact shown ⟨noted, fun within => missing (within mem)⟩

/-- What two uses leave behind is left behind in the other order too, if the second does not hide
the first. -/
theorem mem_traces_step_step {collected : Collected} {entry other : UsageText}
    (shown : bareText profile.delimiter entry.text ∉ collected.seen →
      bareText profile.delimiter other.text ∉ collected.seen →
      ¬Hides profile imports file (first :: rest) other entry) {trace : Trace}
    (mem : trace ∈ ((collected.step profile imports file (first :: rest) first entry).step profile
      imports file (first :: rest) first other).traces) :
    trace ∈ ((collected.step profile imports file (first :: rest) first other).step profile imports
      file (first :: rest) first entry).traces := by
  rw [Collected.mem_traces_step, Collected.mem_traces_step] at mem ⊢
  rcases mem with (before | ⟨new, fromEntry⟩) | ⟨new, fromOther⟩
  · exact Or.inl (Or.inl before)
  · by_cases noted : bareText profile.delimiter entry.text ∈
        (collected.step profile imports file (first :: rest) first other).seen
    · -- `other` notes the text of `entry`, so it gives all that `entry` gives
      rcases (Collected.mem_seen_step _ _ _).mp noted with old | ⟨newOther, there⟩
      · exact absurd old new
      · exact Or.inl (Or.inr ⟨newOther,
          mem_traces_of_not_hides (shown new newOther) there fromEntry⟩)
    · exact Or.inr ⟨noted, fromEntry⟩
  · have newOther : bareText profile.delimiter other.text ∉ collected.seen := fun old =>
      new ((Collected.mem_seen_step _ _ _).mpr (Or.inl old))
    exact Or.inl (Or.inr ⟨newOther, fromOther⟩)

/-- Two uses that do not clash may be exchanged. -/
theorem step_comm {collected : Collected}
    (bases : (collectUsages profile imports file (first :: rest)
      (baseTexts (first :: rest))).seen ⊆ collected.seen)
    {entry other : UsageText}
    (free : ¬Clash profile imports file (first :: rest) entry other) :
    Collected.SameTraces
      ((collected.step profile imports file (first :: rest) first entry).step profile imports file
        (first :: rest) first other)
      ((collected.step profile imports file (first :: rest) first other).step profile imports file
        (first :: rest) first entry) := by
  refine fun trace => ⟨mem_traces_step_step fun new newOther hides => ?_,
    mem_traces_step_step fun newOther new hides => ?_⟩
  · exact free ⟨fun mem => new (bases mem), fun mem => newOther (bases mem), Or.inr hides⟩
  · exact free ⟨fun mem => new (bases mem), fun mem => newOther (bases mem), Or.inl hides⟩

theorem exchanges (profile : Profile) (imports : List Import) (file : Path) (first : DeclaredType)
    (rest : List DeclaredType) :
    Exchanges (Collected.step profile imports file (first :: rest) first) Collected.SameTraces
      (fun collected => (collectUsages profile imports file (first :: rest)
        (baseTexts (first :: rest))).seen ⊆ collected.seen)
      (Clash profile imports file (first :: rest)) where
  equivalence := ⟨fun _ _ => .rfl, fun same trace => (same trace).symm,
    fun one two trace => (one trace).trans (two trace)⟩
  congr same entry := same.step entry
  kept bases entry text mem := (Collected.mem_seen_step _ entry text).mpr (Or.inl (bases mem))
  comm bases _ _ free := step_comm bases free

end Steps

/-! ## The uses of a file -/

def usesIn (queries : Queries) (file : ParsedFile) : List UsageText :=
  capturedTexts file.source (queries.usages.captures file.source file.root)

theorem collectUsages_reorder {profile : Profile} {imports : List Import} {path other : Path}
    {types : FileTypes} (good : types.Good path) (goodOther : types.Good other)
    {uses others : List UsageText}
    (reorders : Reorders (Clash profile imports path types) uses others) :
    Collected.SameTraces (collectUsages profile imports other types (baseTexts types ++ others))
      (collectUsages profile imports path types (baseTexts types ++ uses)) := by
  cases types with
  | nil => exact fun _ => .rfl
  | cons first rest =>
      have here : other = path := (goodOther.file_eq first List.mem_cons_self).symm.trans
        (good.file_eq first List.mem_cons_self)
      have started : (collectUsages profile imports path (first :: rest)
          (baseTexts (first :: rest))).seen ⊆
          (collectUsages profile imports path (first :: rest) (baseTexts (first :: rest))).seen :=
        fun _ mem => mem
      have folded := reorders.foldl (exchanges profile imports path first rest) started
      rw [here]
      simpa only [collectUsages, List.foldl_append] using folded

/-- **Uses in another order.**  Two files declare the same types and the same imports, and the
uses of the one are those of the other in another order, in which uses that clash stay in
theirs.  Then both may refer to the same full names from the same types, and both have the
same call chains. -/
theorem collected_reorder {profile : Profile} {queries : Queries} {file other : ParsedFile}
    (types : declaredTypes profile queries file = declaredTypes profile queries other)
    (imports : importsOf profile queries file = importsOf profile queries other)
    (reorders : Reorders (Clash profile (importsOf profile queries file) file.path
      (declaredTypes profile queries file)) (usesIn queries file) (usesIn queries other)) :
    (∀ origin used,
      (∃ candidate ∈ (FileCoupling.ofFile profile queries other).candidates,
        candidate.origin = origin ∧ candidate.used = used) ↔
      ∃ candidate ∈ (FileCoupling.ofFile profile queries file).candidates,
        candidate.origin = origin ∧ candidate.used = used) ∧
      ∀ text, (∃ call ∈ (FileCoupling.ofFile profile queries other).calls, call.text = text) ↔
        ∃ call ∈ (FileCoupling.ofFile profile queries file).calls, call.text = text := by
  have same : Collected.SameTraces
      (usagesOf profile queries other (declaredTypes profile queries other))
      (usagesOf profile queries file (declaredTypes profile queries file)) := by
    rw [usagesOf, usagesOf, ← usesIn, ← usesIn, ← types, ← imports]
    exact collectUsages_reorder (declaredTypes_good profile queries file)
      (types ▸ declaredTypes_good profile queries other) reorders
  simp only [FileCoupling.ofFile, ← Collected.pair_mem_traces, ← Collected.call_mem_traces]
  exact ⟨fun origin used => same (.pair origin used), fun text => same (.call text)⟩

/-! ## One class in three orders -/

namespace Members

open TwoFiles (node letter classOf declared)

/-- The name or member access of two letters with a dot between them. -/
def dotted (kind left : String) (field : Option String) (start : Nat) : Node :=
  node kind start (start + 3) field [letter left start, letter "name" (start + 2)]

/-- A member of a class, of a type and with a value. -/
def field (start stop : Nat) (type : Node) (name : Nat) (value : List Node) : Node :=
  node "field_declaration" start stop none
    [node "variable_declaration" start (stop - 1) none
      [type, node "variable_declarator" name (stop - 1) none (letter "name" name :: value)]]

def ofMembers (source : String) (members : List Node) : ParsedFile where
  path := ⟨"a.cs"⟩
  language := .csharp
  source := source
  root := node "compilation_unit" 0 29 none [classOf 0 29 members]

/-- The type `D.E` after the call chain `D.E`. -/
def callFirst : ParsedFile := ofMembers "class A { B x = D.E; D.E y; }"
  [field 10 20 (letter "type" 10) 12 [dotted "member_access_expression" "expression" none 16],
    field 21 27 (dotted "qualified_name" "qualifier" (some "type") 21) 25 []]

def typeFirst : ParsedFile := ofMembers "class A { D.E y; B x = D.E; }"
  [field 10 16 (dotted "qualified_name" "qualifier" (some "type") 10) 14 [],
    field 17 27 (letter "type" 17) 19 [dotted "member_access_expression" "expression" none 23]]

/-- The call chain after the type, and `B` after both. -/
def typeBeforeBoth : ParsedFile := ofMembers "class A { D.E y = D.E; B x; }"
  [field 10 22 (dotted "qualified_name" "qualifier" (some "type") 10) 14
      [dotted "member_access_expression" "expression" none 18],
    field 23 27 (letter "type" 23) 25 []]

def typeA : DeclaredType := declared "A" ⟨"a.cs"⟩ 0 29

def useB : UsageText := ⟨false, "B", none, .use⟩

def useType : UsageText := ⟨false, "D.E", none, .use⟩

def useCall : UsageText := ⟨true, "D.E", none, .use⟩

theorem callFirst_eq : declaredTypes csharp csharpQueries callFirst = [typeA] ∧
    importsOf csharp csharpQueries callFirst = [] ∧
    usesIn csharpQueries callFirst = [useB, useCall, useType] := by
  simp only [declaredTypes, importsOf, usesIn, Query.captures, Query.allMatches_eq_insertionSort]
  decide +kernel

theorem typeFirst_eq : declaredTypes csharp csharpQueries typeFirst = [typeA] ∧
    importsOf csharp csharpQueries typeFirst = [] ∧
    usesIn csharpQueries typeFirst = [useType, useB, useCall] := by
  simp only [declaredTypes, importsOf, usesIn, Query.captures, Query.allMatches_eq_insertionSort]
  decide +kernel

theorem typeBeforeBoth_eq : declaredTypes csharp csharpQueries typeBeforeBoth = [typeA] ∧
    importsOf csharp csharpQueries typeBeforeBoth = [] ∧
    usesIn csharpQueries typeBeforeBoth = [useType, useCall, useB] := by
  simp only [declaredTypes, importsOf, usesIn, Query.captures, Query.allMatches_eq_insertionSort]
  decide +kernel

end Members

open Members

theorem collected_reorder_type_before_call :
    Reorders (Clash csharp [] ⟨"a.cs"⟩ [typeA]) [useType, useB, useCall] [useType, useCall, useB] ∧
      Clash csharp [] ⟨"a.cs"⟩ [typeA] useType useCall ∧
      ∀ origin used,
        (∃ candidate ∈ (FileCoupling.ofFile csharp csharpQueries typeBeforeBoth).candidates,
          candidate.origin = origin ∧ candidate.used = used) ↔
        ∃ candidate ∈ (FileCoupling.ofFile csharp csharpQueries typeFirst).candidates,
          candidate.origin = origin ∧ candidate.used = used := by
  have reorders : Reorders (Clash csharp [] ⟨"a.cs"⟩ [typeA]) [useType, useB, useCall]
      [useType, useCall, useB] := ⟨[0, 2, 1], by decide, by decide +kernel, rfl⟩
  obtain ⟨types, imports, uses⟩ := typeFirst_eq
  obtain ⟨typesOther, importsOther, usesOther⟩ := typeBeforeBoth_eq
  refine ⟨reorders, by decide +kernel, ?_⟩
  refine (collected_reorder (types.trans typesOther.symm) (imports.trans importsOther.symm) ?_).1
  rw [types, imports, uses, usesOther]
  exact reorders

/-- Two files with the same types, imports and uses: what the one may refer to is a call chain of
the other. -/
theorem collected_depends_on_order :
    declaredTypes csharp csharpQueries callFirst = declaredTypes csharp csharpQueries typeFirst ∧
      importsOf csharp csharpQueries callFirst = importsOf csharp csharpQueries typeFirst ∧
      (usesIn csharpQueries callFirst).Perm (usesIn csharpQueries typeFirst) ∧
      ((∃ candidate ∈ (FileCoupling.ofFile csharp csharpQueries typeFirst).candidates,
          candidate.origin = "A" ∧ candidate.used = "D.E") ∧
        ¬∃ candidate ∈ (FileCoupling.ofFile csharp csharpQueries callFirst).candidates,
          candidate.origin = "A" ∧ candidate.used = "D.E") ∧
      (∃ call ∈ (FileCoupling.ofFile csharp csharpQueries callFirst).calls, call.text = "D.E") ∧
      ¬∃ call ∈ (FileCoupling.ofFile csharp csharpQueries typeFirst).calls, call.text = "D.E" := by
  obtain ⟨types, imports, uses⟩ := callFirst_eq
  obtain ⟨typesOther, importsOther, usesOther⟩ := typeFirst_eq
  have usages : usagesOf csharp csharpQueries callFirst [typeA] =
      collectUsages csharp [] ⟨"a.cs"⟩ [typeA] [useB, useCall, useType] := by
    rw [usagesOf, imports, ← usesIn, uses]
    rfl
  have usagesOther : usagesOf csharp csharpQueries typeFirst [typeA] =
      collectUsages csharp [] ⟨"a.cs"⟩ [typeA] [useType, useB, useCall] := by
    rw [usagesOf, importsOther, ← usesIn, usesOther]
    rfl
  refine ⟨types.trans typesOther.symm, imports.trans importsOther.symm, ?_, ?_⟩
  · rw [uses, usesOther]
    decide
  · simp only [FileCoupling.ofFile, types, typesOther, usages, usagesOther]
    decide +kernel

end SourceGauge.Coupling
