/-
# SourceGauge.Proofs.Coupling.AliasedChains -- chains of members behind an alias

The last member of a chain is left out before the rest is looked up as a type.  A chain that is
written in full leaves it out always.  One that begins with a name that an import binds leaves it
out only if a member is left, although what the import names stands before the members: `X.m`,
where `X` stands for `Q`, is looked up as `Q.m` and not as `Q` (`alias_hides_receiver`).

* `receiver_recorded_iff`: a chain behind a name that an import binds is recorded with the type
  that it is called on exactly if it has two members or more, and the chain written in full with
  any number.
-/
import SourceGauge.Proofs.Coupling.RecordedNames

namespace SourceGauge.Coupling

set_option autoImplicit false

/-! ## Chains -/

/-- A use is a chain of members; its cleaned segments are these. -/
structure IsChain (text : UsageText) (segments : List String) : Prop where
  isCall : text.isCall = true
  isUse : text.owner = none
  segments : cleanSegments csharp.delimiter text.text = segments

theorem csharp_one : csharp.delimiter.toList = ['.'] := by decide

/-- A chain is looked up without its last segment, if one is left of those that count. -/
theorem IsChain.lookedUpSegments_eq {text : UsageText} {segments : List String}
    (chain : IsChain text segments) (imports : List Import) :
    lookedUpSegments csharp imports text =
      dropLastOfMany
        (match boundBy? imports (firstSegment csharp.delimiter text.text) with
        | none => segments
        | some _ => segments.tail) := by
  rw [lookedUpSegments, namingSegments, chain.isCall, split_cleanName csharp_one, chain.segments]
  rfl

theorem dropLastOfMany_eq_dropLast {parts : List String} (many : 1 < parts.length) :
    dropLastOfMany parts = parts.dropLast := if_pos many

/-! ## The type that a chain is called on -/

/-- What a name bound by an import stands for is longer than what the import names, if something
follows the name. -/
theorem not_mem_boundCandidates {space rest : String} {declared : Import} (follows : rest ≠ "") :
    declared.fullName ∉ boundCandidates csharp space declared rest := by
  have dot : csharp.delimiter.length = 1 := by decide
  intro mem
  simp only [boundCandidates, follows, if_false, List.mem_cons] at mem
  rcases mem with whole | outer
  · have length := congrArg String.length whole
    simp only [String.length_append] at length
    omega
  · split at outer
    · obtain ⟨part, _, whole⟩ := List.mem_map.mp outer
      have length := congrArg String.length whole
      simp only [String.length_append] at length
      omega
    · cases outer

section

variable {text : UsageText} {members : List String} {imports : List Import}

/-- Behind a bound name the type is looked up if a member is left. -/
theorem receiver_mem_namesOf_bound_iff {head : String} (chain : IsChain text (head :: members))
    (called : members ≠ []) (named : ∀ m ∈ members, m ≠ "") {declared : Import}
    (bound : boundBy? imports head = some declared) (space : String) :
    Text.join csharp.delimiter (declared.fullName :: members.dropLast) ∈
        namesOf csharp imports space text ↔
      isUnusable (Text.join csharp.delimiter members.dropLast) = false ∧ 1 < members.length := by
  have begins := firstSegment_eq chain.segments
  have looked : lookedUpSegments csharp imports text = dropLastOfMany members := by
    rw [chain.lookedUpSegments_eq, begins, bound]
    rfl
  rw [namesOf, looked, begins, bound]
  cases members with
  | nil => exact absurd rfl called
  | cons m others =>
      cases others with
      | nil =>
          have absent : declared.fullName ∉ boundCandidates csharp space declared m :=
            not_mem_boundCandidates (named m List.mem_cons_self)
          change
            declared.fullName ∈ (if isUnusable m then [] else boundCandidates _ _ declared m) ↔ _
          split <;> simp [absent]
      | cons m' others =>
          have many : 1 < (m :: m' :: others).length := by simp
          have follows : Text.join csharp.delimiter (m :: (m' :: others).dropLast) ≠ "" :=
            Text.join_ne_empty (named m List.mem_cons_self)
          rw [dropLastOfMany_eq_dropLast many, List.dropLast_cons_cons,
            Text.join_cons (List.cons_ne_nil m _)]
          cases isUnusable (Text.join csharp.delimiter (m :: (m' :: others).dropLast)) <;>
            simp [boundCandidates, follows]

/-- Written in full the type is looked up always. -/
theorem receiver_mem_namesOf_unbound_iff {target : String}
    (chain : IsChain text (Text.split csharp.delimiter target ++ members)) (called : members ≠ [])
    (unbound : boundBy? imports (firstSegment csharp.delimiter text.text) = none)
    (space : String) :
    Text.join csharp.delimiter (target :: members.dropLast) ∈ namesOf csharp imports space text ↔
      isUnusable (Text.join csharp.delimiter (target :: members.dropLast)) = false := by
  have some := Text.split_ne_nil csharp.delimiter target
  have kept : (Text.split csharp.delimiter target ++ members).dropLast =
      Text.split csharp.delimiter target ++ members.dropLast :=
    List.dropLast_append_of_ne_nil called
  have many : 1 < (Text.split csharp.delimiter target ++ members).length := by
    have := List.length_pos_iff.mpr some
    have := List.length_pos_iff.mpr called
    rw [List.length_append]
    omega
  have joined := Text.join_split_append (by decide : csharp.delimiter ≠ "") target members.dropLast
  have looked : lookedUpSegments csharp imports text =
      Text.split csharp.delimiter target ++ members.dropLast := by
    rw [chain.lookedUpSegments_eq, unbound, ← kept]
    exact dropLastOfMany_eq_dropLast many
  rw [namesOf, looked, unbound, joined]
  cases isUnusable (Text.join csharp.delimiter (target :: members.dropLast)) <;>
    simp [unboundCandidates, joined]

end

/-- **Chains behind an alias.**  Take a chain that begins with a name bound by an import, such as
an alias, and the same members written after what the import names.  With two members or more the
chain is recorded with the type that it is called on, unless it is passed over or the members
name no single type.  With one member it is not, though the chain written in full is, unless it
is passed over or names no single type. -/
theorem receiver_recorded_iff {queries : Queries} {file : ParsedFile} {first : DeclaredType}
    {rest : List DeclaredType} (types : declaredTypes csharp queries file = first :: rest)
    {head : String} {declared : Import}
    (bound : boundBy? (importsOf csharp queries file) head = some declared)
    {members : List String} (called : members ≠ []) (named : ∀ m ∈ members, m ≠ "")
    {chain full : UsageText} (behind : IsChain chain (head :: members))
    (written : IsChain full (Text.split csharp.delimiter declared.fullName ++ members))
    (unbound : boundBy? (importsOf csharp queries file)
      (firstSegment csharp.delimiter full.text) = none)
    (before : List UsageText) :
    (Text.join csharp.delimiter (declared.fullName :: members.dropLast) ∈
        recordedNames csharp queries file before chain ↔
      bareText csharp.delimiter chain.text ∉ (afterTexts csharp queries file before).seen ∧
        isUnusable (Text.join csharp.delimiter members.dropLast) = false ∧
          1 < members.length) ∧
      (Text.join csharp.delimiter (declared.fullName :: members.dropLast) ∈
          recordedNames csharp queries file before full ↔
        bareText csharp.delimiter full.text ∉ (afterTexts csharp queries file before).seen ∧
          isUnusable (Text.join csharp.delimiter (declared.fullName :: members.dropLast)) =
            false) := by
  rw [mem_recordedNames_of_use types behind.isUse, mem_recordedNames_of_use types written.isUse,
    receiver_mem_namesOf_bound_iff behind called named bound,
    receiver_mem_namesOf_unbound_iff written called unbound]
  exact ⟨Iff.rfl, Iff.rfl⟩

/-! ## Two chains and an alias

`X` stands for `L.Q`.  The chain `X.a.b` is recorded with `L.Q.a`, as `L.Q.a.b` is.  Its beginning,
the chain `X.a`, is recorded with `L.Q.a` too, where `L.Q.a` is recorded with `L.Q`. -/

namespace AliasedChain

open TwoFiles (node letter member classOf)
open Members (dotted)

def file : ParsedFile where
  path := ⟨"a.cs"⟩
  language := .csharp
  source := "using X = L.Q; class F { T y = X.a.b; }"
  root := node "compilation_unit" 0 39 none
    [node "using_directive" 0 14 none
        [letter "name" 6, dotted "qualified_name" "qualifier" none 10],
      classOf 15 39 [member 25 37 [node "member_access_expression" 31 36 none
        [dotted "member_access_expression" "expression" (some "expression") 31,
          letter "name" 35]]]]

def useT : UsageText := ⟨false, "T", none, .use⟩

def chain (text : String) : UsageText := ⟨true, text, none, .use⟩

def target : Import := ⟨"L.Q", "Q", some "X"⟩

theorem file_read : ReadAs csharp csharpQueries file
    [TwoFiles.declared "F" ⟨"a.cs"⟩ 15 39] [target] [useT, chain "X.a.b", chain "X.a"] where
  types := by decide +kernel
  imports := by
    simp only [importsOf, Query.captures, Query.allMatches_eq_insertionSort]
    decide +kernel
  texts := by
    simp only [textsOf, usesIn, Query.captures, Query.allMatches_eq_insertionSort]
    decide +kernel

theorem bound_unbound : boundBy? (importsOf csharp csharpQueries file) "X" = some target ∧
    boundBy? (importsOf csharp csharpQueries file) "L" = none := by
  rw [file_read.imports]
  decide

theorem isChain {text : String} {segments : List String}
    (cleaned : cleanSegments csharp.delimiter text = segments) : IsChain (chain text) segments :=
  ⟨rfl, rfl, cleaned⟩

end AliasedChain

open AliasedChain in
theorem receiver_recorded_iff_two_members :
    textsOf csharp csharpQueries file = [useT] ++ chain "X.a.b" :: [chain "X.a"] ∧
      "L.Q.a" ∈ recordedNames csharp csharpQueries file [useT] (chain "X.a.b") ∧
      "L.Q.a" ∈ recordedNames csharp csharpQueries file [useT] (chain "L.Q.a.b") := by
  have members : ∀ m ∈ ["a", "b"], m ≠ "" := by decide
  have behind : IsChain (chain "X.a.b") ("X" :: ["a", "b"]) := isChain (by decide +kernel)
  have written : IsChain (chain "L.Q.a.b")
      (Text.split csharp.delimiter target.fullName ++ ["a", "b"]) := isChain (by decide +kernel)
  have first : firstSegment csharp.delimiter (chain "L.Q.a.b").text = "L" := by decide +kernel
  have recorded := receiver_recorded_iff file_read.types bound_unbound.1 (List.cons_ne_nil _ _)
    members behind written (first ▸ bound_unbound.2) [useT]
  have noted (text : String) (other : text ≠ "T") :
      text ∉ (afterTexts csharp csharpQueries file [useT]).seen := by
    have seen : (afterTexts csharp csharpQueries file [useT]).seen = ["T"] := by
      rw [afterTexts, file_read.imports, file_read.types]
      decide +kernel
    simpa [seen] using other
  refine ⟨file_read.texts, recorded.1.mpr ⟨noted _ (by decide +kernel), ?_, ?_⟩,
    recorded.2.mpr ⟨noted _ (by decide +kernel), ?_⟩⟩
  · decide +kernel
  · decide
  · decide +kernel

open AliasedChain in
/-- With one member the type that a chain behind an alias is called on is not looked up. -/
theorem alias_hides_receiver :
    boundBy? (importsOf csharp csharpQueries file) "X" = some target ∧
      boundBy? (importsOf csharp csharpQueries file) "L" = none ∧
      textsOf csharp csharpQueries file = [useT, chain "X.a.b"] ++ chain "X.a" :: [] ∧
      IsChain (chain "X.a") ["X", "a"] ∧ IsChain (chain "L.Q.a") ["L", "Q", "a"] ∧
      recordedNames csharp csharpQueries file [useT, chain "X.a.b"] (chain "X.a") = ["L.Q.a"] ∧
      "L.Q" ∈ recordedNames csharp csharpQueries file [useT, chain "X.a.b"] (chain "L.Q.a") := by
  refine ⟨bound_unbound.1, bound_unbound.2, file_read.texts, isChain (by decide +kernel),
    isChain (by decide +kernel), ?_⟩
  simp only [recordedNames, afterTexts, file_read.imports, file_read.types]
  decide +kernel

end SourceGauge.Coupling
