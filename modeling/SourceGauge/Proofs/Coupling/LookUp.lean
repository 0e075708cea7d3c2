/-
# SourceGauge.Proofs.Coupling.LookUp -- what looking up one text gives

A text that was not noted before is looked up, and what that gives does not depend
on what was found before it: it is what the text gives when it comes first
(`alone`).  So a step either changes nothing or adds what its text gives alone
(`step_of_noted`, `step_adds`).

The text of a base name or use is taken without one delimiter at its start
(`bareText`) and with its segments cleaned (`cleanSegments`).  Its first segment decides how it
is looked up: as a whole when no import binds that segment, and otherwise as what follows
it (`lookedUpSegments`).  The name looked up is noted besides the text (`mem_seen_alone`), and the
candidates are the full names that it may stand for (`alone_candidates`).
-/
import SourceGauge.Proofs.Coupling.CollectedFile
import SourceGauge.Proofs.Text.Split

namespace SourceGauge.Coupling

set_option autoImplicit false

/-! ## Names -/

def bareText (delimiter text : String) : String := (Text.stripStart? delimiter text).getD text

/-- The segments of a text, cleaned. -/
def cleanSegments (delimiter text : String) : List String :=
  (Text.split delimiter (bareText delimiter text)).map cleanSegment

def cleanName (delimiter text : String) : String :=
  Text.join delimiter (cleanSegments delimiter text)

/-- The first segment of a text, cleaned. -/
def firstSegment (delimiter text : String) : String := (cleanSegments delimiter text).headD ""

theorem firstSegment_eq {delimiter text head : String} {rest : List String}
    (segments : cleanSegments delimiter text = head :: rest) :
    firstSegment delimiter text = head := by
  rw [firstSegment, segments, List.headD_cons]

theorem cleanSegments_eq_cons (delimiter text : String) :
    cleanSegments delimiter text =
      firstSegment delimiter text :: (cleanSegments delimiter text).tail := by
  have some : cleanSegments delimiter text ≠ [] := by
    simp [cleanSegments, Text.split_ne_nil]
  cases segments : cleanSegments delimiter text with
  | nil => exact absurd segments some
  | cons head rest => simp [firstSegment, segments]

/-- Cleaning only takes characters away. -/
theorem mem_of_mem_cleanSegment {c : Char} {segment : String}
    (mem : c ∈ (cleanSegment segment).toList) : c ∈ segment.toList := by
  have stripped {ending rest : String} (found : Text.stripEnd? ending segment = some rest)
      (mem : c ∈ rest.toList) : c ∈ segment.toList := by
    unfold Text.stripEnd? at found
    split at found
    · cases found
      rw [String.toList_ofList] at mem
      exact List.mem_of_mem_take mem
    · cases found
  unfold cleanSegment at mem
  split at mem
  · next found => exact stripped found mem
  · split at mem
    · next found => exact stripped found mem
    · cases found : Text.stripEnd? "?" segment with
      | none => rwa [found, Option.getD_none] at mem
      | some rest =>
          rw [found, Option.getD_some] at mem
          exact stripped found mem

/-- The segments of a cleaned name are the cleaned segments. -/
theorem split_cleanName {delimiter : String} {c : Char} (one : delimiter.toList = [c])
    (text : String) : Text.split delimiter (cleanName delimiter text) =
      cleanSegments delimiter text := by
  have some : cleanSegments delimiter text ≠ [] := by
    simp [cleanSegments, Text.split_ne_nil]
  refine Text.split_join one some fun segment mem inside => ?_
  obtain ⟨piece, memPiece, rfl⟩ := List.mem_map.mp mem
  exact Text.not_mem_of_mem_split one memPiece (mem_of_mem_cleanSegment inside)

/-- The segments of a name that may name a type: a chain of members goes on past it. -/
def namingSegments (profile : Profile) (isCall : Bool) (segments : List String) : List String :=
  if isCall && profile.chainsMembers then dropLastOfMany segments else segments

/-- The segments by which a text is looked up: those after the first one when an import binds
that. -/
def lookedUpSegments (profile : Profile) (imports : List Import) (entry : UsageText) :
    List String :=
  namingSegments profile entry.isCall
    (match boundBy? imports (firstSegment profile.delimiter entry.text) with
    | none => Text.split profile.delimiter (cleanName profile.delimiter entry.text)
    | some _ => (cleanSegments profile.delimiter entry.text).tail)

/-- The full names that a text may stand for in a namespace. -/
def namesOf (profile : Profile) (imports : List Import) (space : String) (entry : UsageText) :
    List String :=
  let segments := lookedUpSegments profile imports entry
  let name := Text.join profile.delimiter segments
  if isUnusable name then []
  else
    match boundBy? imports (firstSegment profile.delimiter entry.text) with
    | none => unboundCandidates profile imports space segments
    | some declared => boundCandidates profile space declared name

/-! ## Adding what was found -/

namespace Collected

/-- The later holds what was collected before, and then what was found. -/
structure Adds (before found later : Collected) : Prop where
  seen : ∀ text, text ∈ later.seen ↔ text ∈ before.seen ∨ text ∈ found.seen
  candidates : later.candidates = before.candidates ++ found.candidates
  calls : later.calls = before.calls ++ found.calls

variable {before found later : Collected}

theorem Adds.nothing (before : Collected) : Adds before {} before :=
  ⟨fun text => by simp, by simp, by simp⟩

theorem mem_seen_mark (collected : Collected) (noted text : String) :
    text ∈ (collected.mark noted).seen ↔ text = noted ∨ text ∈ collected.seen := by
  unfold mark
  split
  · next old =>
    have there : noted ∈ collected.seen := by simpa using old
    constructor
    · exact Or.inr
    · rintro (rfl | mem)
      · exact there
      · exact mem
  · exact List.mem_cons

@[simp] theorem mark_candidates (collected : Collected) (noted : String) :
    (collected.mark noted).candidates = collected.candidates := by
  unfold mark
  split <;> rfl

@[simp] theorem mark_calls (collected : Collected) (noted : String) :
    (collected.mark noted).calls = collected.calls := by
  unfold mark
  split <;> rfl

theorem Adds.mark (adds : Adds before found later) (noted : String) :
    Adds before (found.mark noted) (later.mark noted) where
  seen := by
    intro text
    rw [mem_seen_mark, mem_seen_mark, adds.seen]
    tauto
  candidates := by simpa using adds.candidates
  calls := by simpa using adds.calls

theorem Adds.addCall (adds : Adds before found later) (profile : Profile) (text : String) :
    Adds before (found.addCall profile text) (later.addCall profile text) :=
  ⟨adds.seen, adds.candidates, by simp [Collected.addCall, adds.calls]⟩

theorem Adds.addCallIf (adds : Adds before found later) (isCall : Bool) (profile : Profile)
    (text : String) :
    Adds before (if isCall then found.addCall profile text else found)
      (if isCall then later.addCall profile text else later) := by
  split
  · exact adds.addCall profile text
  · exact adds

theorem Adds.addCandidates (adds : Adds before found later) (names : List String)
    (origin : String) (file : Path) (kind : UsageKind) :
    Adds before (found.addCandidates names origin file kind)
      (later.addCandidates names origin file kind) :=
  ⟨adds.seen, by simp [Collected.addCandidates, adds.candidates], adds.calls⟩

variable {profile : Profile} {imports : List Import} {file : Path}

theorem Adds.lookUpUnbound (adds : Adds before found later) (type : DeclaredType)
    (entry : UsageText) (name : String) :
    Adds before (found.lookUpUnbound profile imports file type entry name)
      (later.lookUpUnbound profile imports file type entry name) := by
  unfold Collected.lookUpUnbound
  extract_lets d whole parts clean marked markedLater
  split
  · exact adds.mark clean
  · exact ((adds.mark clean).addCallIf entry.isCall profile name).addCandidates _ _ _ _

theorem Adds.lookUpBound (adds : Adds before found later) (type : DeclaredType)
    (declared : Import) (entry : UsageText) (name : String) (rest : List String) :
    Adds before (found.lookUpBound profile file type declared entry name rest)
      (later.lookUpBound profile file type declared entry name rest) := by
  unfold Collected.lookUpBound
  extract_lets chained kept calledFound joined markedFound calledLater markedLater
  have called : Adds before calledFound calledLater := adds.addCallIf chained profile name
  split
  · exact called.mark joined
  · exact (called.mark joined).addCandidates _ _ _ _

/-! ## One step -/

variable {types : FileTypes} {first : DeclaredType}

def alone (profile : Profile) (imports : List Import) (file : Path) (types : FileTypes)
    (first : DeclaredType) (entry : UsageText) : Collected :=
  step profile imports file types first {} entry

theorem step_of_noted {collected : Collected} {entry : UsageText}
    (noted : bareText profile.delimiter entry.text ∈ collected.seen) :
    step profile imports file types first collected entry = collected := by
  have there : collected.seen.contains (bareText profile.delimiter entry.text) = true := by
    simpa using noted
  simp only [step]
  exact if_pos there

/-- A text that was not noted before adds what it gives alone. -/
theorem step_adds {collected : Collected} {entry : UsageText}
    (new : bareText profile.delimiter entry.text ∉ collected.seen) :
    Adds collected (alone profile imports file types first entry)
      (step profile imports file types first collected entry) := by
  have absent : collected.seen.contains (bareText profile.delimiter entry.text) = false := by
    simpa using new
  have marked := (Adds.nothing collected).mark (bareText profile.delimiter entry.text)
  simp only [bareText] at absent marked
  simp only [alone, step, absent, List.contains_nil, Bool.false_eq_true, if_false]
  split
  · split
    · exact marked.lookUpUnbound _ entry _
    · exact marked.lookUpBound _ _ entry _ _
  · exact marked

/-! ## What a text gives -/

def referrer? (types : FileTypes) (first : DeclaredType) (entry : UsageText) :
    Option DeclaredType :=
  match entry.owner with
  | some owner => types.get? owner
  | none => some first

theorem alone_of_no_referrer {entry : UsageText} (missing : referrer? types first entry = none) :
    alone profile imports file types first entry =
      ({} : Collected).mark (bareText profile.delimiter entry.text) := by
  simp only [alone, step, List.contains_nil, Bool.false_eq_true, if_false]
  split
  · next found _ => cases found.symm.trans missing
  · rfl

/-- A text that counts for a type is looked up as its first segment says. -/
theorem alone_of_referrer {entry : UsageText} {type : DeclaredType}
    (counts : referrer? types first entry = some type) :
    alone profile imports file types first entry =
      match boundBy? imports (firstSegment profile.delimiter entry.text) with
      | none =>
          (({} : Collected).mark (bareText profile.delimiter entry.text)).lookUpUnbound profile
            imports file type entry (cleanName profile.delimiter entry.text)
      | some declared =>
          (({} : Collected).mark (bareText profile.delimiter entry.text)).lookUpBound profile file
            type declared entry (cleanName profile.delimiter entry.text)
              (cleanSegments profile.delimiter entry.text).tail := by
  have segments := cleanSegments_eq_cons profile.delimiter entry.text
  simp only [alone, step, List.contains_nil, Bool.false_eq_true, if_false]
  split
  · next found head rest counted split =>
    cases Option.some.inj (counted.symm.trans counts)
    have whole : cleanSegments profile.delimiter entry.text = head :: rest := split
    simp only [cleanName, firstSegment, whole, List.headD_cons, List.tail_cons]
    rfl
  · next other => exact absurd segments (other type _ _ counts)

theorem lookUpUnbound_candidates (collected : Collected) (type : DeclaredType) (entry : UsageText)
    (name : String) :
    (collected.lookUpUnbound profile imports file type entry name).candidates =
      collected.candidates ++
        (let parts := namingSegments profile entry.isCall (Text.split profile.delimiter name)
        if isUnusable (Text.join profile.delimiter parts) then []
        else unboundCandidates profile imports type.space parts).map
          fun used => ⟨used, type.fullName, file, entry.kind⟩ := by
  unfold lookUpUnbound
  extract_lets d whole parts clean marked called
  change _ = _ ++ (if isUnusable clean then [] else unboundCandidates _ _ _ parts).map _
  have kept : called.candidates = collected.candidates := by
    unfold called
    split <;> exact mark_candidates collected clean
  split
  · simp [marked]
  · simp [addCandidates, kept]

theorem lookUpBound_candidates (collected : Collected) (type : DeclaredType) (declared : Import)
    (entry : UsageText) (name : String) (rest : List String) :
    (collected.lookUpBound profile file type declared entry name rest).candidates =
      collected.candidates ++
        (let name := Text.join profile.delimiter (namingSegments profile entry.isCall rest)
        if isUnusable name then [] else boundCandidates profile type.space declared name).map
          fun used => ⟨used, type.fullName, file, entry.kind⟩ := by
  unfold lookUpBound
  extract_lets chained kept called joined marked
  change _ = _ ++ (if isUnusable joined then [] else boundCandidates _ _ _ joined).map _
  have same : marked.candidates = collected.candidates := by
    unfold marked called
    split <;> exact mark_candidates _ _
  split
  · simp [same]
  · simp [addCandidates, same]

theorem lookUpUnbound_calls (collected : Collected) (type : DeclaredType) (entry : UsageText)
    (name : String) :
    (collected.lookUpUnbound profile imports file type entry name).calls =
      collected.calls ++
        if entry.isCall && !isUnusable (Text.join profile.delimiter
            (namingSegments profile entry.isCall (Text.split profile.delimiter name))) then
          [.ofText profile name]
        else [] := by
  unfold lookUpUnbound
  extract_lets d whole parts clean marked called
  change _ = _ ++ if entry.isCall && !isUnusable clean then _ else _
  have kept : marked.calls = collected.calls := mark_calls collected clean
  cases unusable : isUnusable clean with
  | true => simp [kept]
  | false =>
      cases isCall : entry.isCall <;>
        simp [called, isCall, addCandidates, addCall, kept, CallChain.ofText]

theorem lookUpBound_calls (collected : Collected) (type : DeclaredType) (declared : Import)
    (entry : UsageText) (name : String) (rest : List String) :
    (collected.lookUpBound profile file type declared entry name rest).calls =
      collected.calls ++
        if entry.isCall && profile.chainsMembers then [.ofText profile name] else [] := by
  unfold lookUpBound
  extract_lets chained kept called joined marked
  have same : marked.calls = called.calls := mark_calls called joined
  have calls : called.calls =
      collected.calls ++ if chained then [.ofText profile name] else [] := by
    cases isChained : chained <;> simp [called, isChained, addCall, CallChain.ofText]
  split
  · rw [same, calls]
  · exact same.trans calls

theorem mem_seen_lookUpUnbound (collected : Collected) (type : DeclaredType) (entry : UsageText)
    (name text : String) :
    text ∈ (collected.lookUpUnbound profile imports file type entry name).seen ↔
      text = Text.join profile.delimiter
          (namingSegments profile entry.isCall (Text.split profile.delimiter name)) ∨
        text ∈ collected.seen := by
  unfold lookUpUnbound
  extract_lets d whole parts clean marked called
  have same : called.seen = marked.seen := by
    unfold called
    split <;> rfl
  have noted : text ∈ called.seen ↔ text = clean ∨ text ∈ collected.seen := by
    rw [same]
    exact mem_seen_mark collected clean text
  split
  · rwa [same] at noted
  · exact noted

theorem mem_seen_lookUpBound (collected : Collected) (type : DeclaredType) (declared : Import)
    (entry : UsageText) (name : String) (rest : List String) (text : String) :
    text ∈ (collected.lookUpBound profile file type declared entry name rest).seen ↔
      text = Text.join profile.delimiter (namingSegments profile entry.isCall rest) ∨
        text ∈ collected.seen := by
  unfold lookUpBound
  extract_lets chained kept called joined marked
  have same : called.seen = collected.seen := by
    unfold called
    split <;> rfl
  have noted : text ∈ marked.seen ↔ text = joined ∨ text ∈ collected.seen := by
    rw [← same]
    exact mem_seen_mark called joined text
  split
  · exact noted
  · exact noted

/-- The candidates of a text are the full names that it may stand for, in the namespace of the
type that it counts for. -/
theorem alone_candidates {entry : UsageText} {type : DeclaredType}
    (counts : referrer? types first entry = some type) :
    (alone profile imports file types first entry).candidates =
      (namesOf profile imports type.space entry).map fun used =>
        ⟨used, type.fullName, file, entry.kind⟩ := by
  have nothing (text : String) : (({} : Collected).mark text).candidates = [] :=
    mark_candidates {} text
  rw [alone_of_referrer counts, namesOf, lookedUpSegments]
  cases boundBy? imports (firstSegment profile.delimiter entry.text) with
  | none => rw [lookUpUnbound_candidates, nothing, List.nil_append]
  | some declared => rw [lookUpBound_candidates, nothing, List.nil_append]

/-- A chain of members is kept with its segments cleaned, if what it is looked up by is usable. -/
theorem alone_calls {entry : UsageText} {type : DeclaredType}
    (counts : referrer? types first entry = some type) (isCall : entry.isCall = true)
    (chains : profile.chainsMembers = true)
    (usable : isUnusable (Text.join profile.delimiter (lookedUpSegments profile imports entry)) =
      false) :
    (alone profile imports file types first entry).calls =
      [.ofText profile (cleanName profile.delimiter entry.text)] := by
  rw [alone_of_referrer counts]
  rw [lookedUpSegments, isCall] at usable
  cases bound : boundBy? imports (firstSegment profile.delimiter entry.text) with
  | none =>
      simp only [bound] at usable
      simp [lookUpUnbound_calls, isCall, usable]
  | some declared => simp [lookUpBound_calls, isCall, chains]

/-- Besides a text, the name that it is looked up by is noted. -/
theorem mem_seen_alone {entry : UsageText} {type : DeclaredType}
    (counts : referrer? types first entry = some type) (text : String) :
    text ∈ (alone profile imports file types first entry).seen ↔
      text = Text.join profile.delimiter (lookedUpSegments profile imports entry) ∨
        text = bareText profile.delimiter entry.text := by
  have noted (noted : String) : text ∈ (({} : Collected).mark noted).seen ↔ text = noted := by
    simp [mem_seen_mark]
  rw [alone_of_referrer counts, lookedUpSegments]
  cases boundBy? imports (firstSegment profile.delimiter entry.text) with
  | none => rw [mem_seen_lookUpUnbound, noted]
  | some declared => rw [mem_seen_lookUpBound, noted]

/-- A text notes itself. -/
theorem bareText_mem_seen_alone (entry : UsageText) :
    bareText profile.delimiter entry.text ∈
      (alone profile imports file types first entry).seen := by
  cases counts : referrer? types first entry with
  | none =>
      rw [alone_of_no_referrer counts, mem_seen_mark]
      exact Or.inl rfl
  | some type => exact (mem_seen_alone counts _).mpr (Or.inr rfl)

/-! ## Names that no import binds -/

/-- A name that is no call, is usable and has a first segment that no import binds gives
its candidates in the way of unbound names. -/
theorem alone_candidates_of_unbound (delimiter : profile.delimiter ≠ "") {entry : UsageText}
    (named : entry.isCall = false) {type : DeclaredType}
    (counts : referrer? types first entry = some type) {head : String} {rest : List String}
    (segments : cleanSegments profile.delimiter entry.text = head :: rest)
    (unbound : boundBy? imports head = none)
    (usable : isUnusable (cleanName profile.delimiter entry.text) = false) :
    (alone profile imports file types first entry).candidates =
      (unboundCandidates profile imports type.space
        (Text.split profile.delimiter (cleanName profile.delimiter entry.text))).map
          fun used => ⟨used, type.fullName, file, entry.kind⟩ := by
  have begins := firstSegment_eq segments
  rw [alone_candidates counts]
  simp [namesOf, lookedUpSegments, namingSegments, begins, unbound, named,
    Text.join_split delimiter, usable]

end Collected

end SourceGauge.Coupling
