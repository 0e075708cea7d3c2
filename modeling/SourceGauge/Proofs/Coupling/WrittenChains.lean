/-
# SourceGauge.Proofs.Coupling.WrittenChains -- the names that a written chain looks up

The identifiers of a chain may be followed by suffixes: calls, empty brackets and question marks.
When the chain is kept, each of its segments loses one suffix, and when it is followed, one
question mark more (`Part.left`).  What is left of a segment is the name that is looked up among
the accessors, and accessors are named by identifiers alone: `y.c()?.d` looks up `c()` in vain
(`suffix_left_on_name`).

* `followed_names`: a chain that is kept looks up its members with the suffixes that are left of
  them, which is the bare members exactly if each has one suffix at most, or a question mark
  with one suffix behind it.
-/
import SourceGauge.Proofs.Coupling.AliasedChains

namespace SourceGauge.Coupling

set_option autoImplicit false

/-! ## Parts of a chain -/

/-- What may follow an identifier in a chain. -/
inductive Suffix where
  | call
  | index
  | mark
  deriving DecidableEq

def Suffix.text : Suffix → String
  | call => "()"
  | index => "[]"
  | mark => "?"

def Suffix.last : Suffix → Char
  | call => ')'
  | index => ']'
  | mark => '?'

theorem Suffix.getLast?_text (suffix : Suffix) :
    suffix.text.toList.getLast? = some suffix.last := by
  cases suffix <;> decide

theorem Suffix.last_injective : Function.Injective Suffix.last := by
  intro first second same
  cases first <;> cases second <;> first | rfl | cases same

/-- An identifier with the suffixes that follow it. -/
structure Part where
  name : String
  suffixes : List Suffix := []

namespace Part

def text (part : Part) : String :=
  part.suffixes.foldl (fun sofar suffix => sofar ++ suffix.text) part.name

/-- The name is an identifier: it has no character that ends a segment, belongs to a suffix or
makes a text unusable. -/
def IsNamed (part : Part) : Prop :=
  part.name ≠ "" ∧ ∀ c ∈ part.name.toList, c ∉ ['.', '(', ')', '[', ']', '?', ' ', '<']

-- The characters of the name are gone through, not all characters that there are.
instance (part : Part) : Decidable part.IsNamed :=
  @instDecidableAnd _ _ _ (List.decidableBAll _ _)

def cleaned (part : Part) : Part := { part with suffixes := part.suffixes.dropLast }

/-- A part without a question mark at its end. -/
def unmarked (part : Part) : Part :=
  if part.suffixes.getLast? = some .mark then part.cleaned else part

def left (part : Part) : Part := part.cleaned.unmarked

variable {part : Part}

theorem text_of_no_suffixes (none : part.suffixes = []) : part.text = part.name := by
  rw [text, none, List.foldl_nil]

theorem text_of_last {last : Suffix} (ends : part.suffixes.getLast? = some last) :
    part.text = part.cleaned.text ++ last.text := by
  have split := List.dropLast_append_getLast? last ends
  rw [text, ← split, List.foldl_append, List.foldl_cons, List.foldl_nil]
  rfl

theorem mem_text {c : Char} :
    c ∈ part.text.toList ↔
      c ∈ part.name.toList ∨ ∃ suffix ∈ part.suffixes, c ∈ suffix.text.toList := by
  obtain ⟨name, suffixes⟩ := part
  induction suffixes generalizing name with
  | nil => simp [text]
  | cons suffix rest ih =>
      have step := ih (name ++ suffix.text)
      simp only [text, List.foldl_cons] at step ⊢
      rw [step]
      simp [or_assoc]

/-- An identifier does not end as a suffix does. -/
theorem IsNamed.getLast?_ne (named : part.IsNamed) (suffix : Suffix) :
    part.name.toList.getLast? ≠ some suffix.last := by
  intro last
  have clear := named.2 suffix.last (List.mem_of_getLast? last)
  cases suffix <;> exact clear (by decide)

/-- A part can lose the last of its suffixes only. -/
theorem IsNamed.stripEnd?_eq (named : part.IsNamed) (suffix : Suffix) :
    Text.stripEnd? suffix.text part.text =
      if part.suffixes.getLast? = some suffix then some part.cleaned.text else none := by
  cases ends : part.suffixes.getLast? with
  | none =>
      rw [if_neg nofun, text_of_no_suffixes (List.getLast?_eq_none_iff.mp ends)]
      exact Text.stripEnd?_eq_none suffix.getLast?_text (named.getLast?_ne suffix)
  | some last =>
      rw [text_of_last ends]
      by_cases same : last = suffix
      · rw [same, if_pos rfl, Text.stripEnd?_append]
      · rw [if_neg (by simpa using same)]
        refine Text.stripEnd?_eq_none suffix.getLast?_text ?_
        rw [String.toList_append, List.getLast?_append, last.getLast?_text]
        simpa using Suffix.last_injective.ne same

/-- Cleaning a segment takes away its last suffix. -/
theorem IsNamed.cleanSegment_eq (named : part.IsNamed) :
    cleanSegment part.text = part.cleaned.text := by
  have index := named.stripEnd?_eq .index
  have call := named.stripEnd?_eq .call
  have mark := named.stripEnd?_eq .mark
  simp only [Suffix.text] at index call mark
  rw [cleanSegment, index, call, mark]
  cases ends : part.suffixes.getLast? with
  | none =>
      have empty := List.getLast?_eq_none_iff.mp ends
      have same : part.cleaned.suffixes = [] := by rw [Part.cleaned, empty, List.dropLast_nil]
      simp only [reduceCtorEq, if_false, Option.getD_none, text_of_no_suffixes empty,
        text_of_no_suffixes same]
      rfl
  | some last => cases last <;> simp

/-- Looking up a segment takes away a question mark at its end. -/
theorem IsNamed.bareName_eq (named : part.IsNamed) : bareName part.text = part.unmarked.text := by
  have mark := named.stripEnd?_eq .mark
  simp only [Suffix.text] at mark
  rw [bareName, mark, unmarked]
  split <;> rfl

/-- What is left of a part is its name if it had one suffix at most, or a question mark and one
suffix behind it. -/
theorem left_suffixes_eq_nil_iff :
    part.left.suffixes = [] ↔
      part.suffixes.length ≤ 1 ∨ ∃ last, part.suffixes = [.mark, last] := by
  obtain ⟨name, suffixes⟩ := part
  match suffixes with
  | [] => simp [left, unmarked, Part.cleaned]
  | [first] => simp [left, unmarked, Part.cleaned]
  | [first, last] => cases first <;> simp [left, unmarked, Part.cleaned]
  | first :: second :: third :: rest =>
      -- two suffixes are taken away at most
      have kept : (left ⟨name, first :: second :: third :: rest⟩).suffixes ≠ [] := by
        unfold left unmarked
        split <;> simp [Part.cleaned]
      simp [kept]

/-- A part is written as its name only if it has no suffix. -/
theorem IsNamed.text_eq_name_iff (named : part.IsNamed) :
    part.text = part.name ↔ part.suffixes = [] := by
  constructor
  · intro same
    cases ends : part.suffixes.getLast? with
    | none => exact List.getLast?_eq_none_iff.mp ends
    | some last =>
        have final : part.text.toList.getLast? = some last.last := by
          rw [text_of_last ends, String.toList_append, List.getLast?_append, last.getLast?_text]
          rfl
        exact absurd (same ▸ final) (named.getLast?_ne last)
  · exact text_of_no_suffixes

/-- No part has a character that delimits segments or makes a text unusable. -/
theorem IsNamed.not_mem_text (named : part.IsNamed) {c : Char} (outside : c ∈ ['.', ' ', '<']) :
    c ∉ part.text.toList := by
  rw [mem_text]
  rintro (inName | ⟨suffix, _, inSuffix⟩)
  · have within : ['.', ' ', '<'] ⊆ ['.', '(', ')', '[', ']', '?', ' ', '<'] := by decide
    exact named.2 c inName (within outside)
  · have apart : ∀ c ∈ suffix.text.toList, c ∉ ['.', ' ', '<'] := by
      cases suffix <;> simp [Suffix.text]
    exact apart c inSuffix outside

end Part

/-! ## Chains -/

/-- A use is a chain that is written as the parts with points between them. -/
structure IsWritten (use : UsageText) (parts : List Part) : Prop where
  isCall : use.isCall = true
  isUse : use.owner = none
  text : use.text = Text.join csharp.delimiter (parts.map Part.text)

def CallChain.accessorNames (call : CallChain) : List String := call.segments.map bareName

/-- Follow a name: the first accessor of the name that leads to a new relationship adds it. -/
def followName (accessors : List Accessor) (direct known own gained : List Relationship)
    (name : String) : List Relationship :=
  gained ++ ((accessorsNamed accessors name).findSome? fun pair =>
    stepThrough? direct (known ++ gained) (own ++ gained) pair.1 pair.2).toList

/-- To follow a chain is to follow the names that it looks up. -/
theorem followChain_eq (accessors : List Accessor) (direct known own gained : List Relationship)
    (call : CallChain) :
    followChain accessors direct known own gained call =
      call.accessorNames.foldl (followName accessors direct known own) gained := by
  have segment : followSegment accessors direct known own = fun gained segment =>
      followName accessors direct known own gained (bareName segment) := by
    funext gained segment
    exact followSegment_eq accessors direct known own gained segment
  rw [followChain, CallChain.accessorNames, List.foldl_map, segment]

/-! ## What is kept of a chain -/

section

variable {use : UsageText} {receiver : Part} {members : List Part}

theorem split_parts {parts : List Part} (named : ∀ part ∈ parts, part.IsNamed)
    (some : parts ≠ []) :
    Text.split csharp.delimiter (Text.join csharp.delimiter (parts.map Part.text)) =
      parts.map Part.text := by
  refine Text.split_join csharp_one (by simpa using some) fun text mem => ?_
  obtain ⟨part, there, rfl⟩ := List.mem_map.mp mem
  exact (named part there).not_mem_text (by simp)

theorem Part.IsNamed.text_ne_empty {part : Part} (named : part.IsNamed) : part.text ≠ "" := by
  have some : part.name.toList ≠ [] := by simpa using named.1
  intro empty
  have first : part.name.toList.head some ∈ part.text.toList :=
    Part.mem_text.mpr (Or.inl (List.head_mem some))
  simp [empty] at first

/-- A chain does not begin with a point. -/
theorem bareText_parts (named : ∀ part ∈ receiver :: members, part.IsNamed) :
    bareText csharp.delimiter (Text.join csharp.delimiter ((receiver :: members).map Part.text)) =
      Text.join csharp.delimiter ((receiver :: members).map Part.text) := by
  have whole := split_parts named (by simp)
  generalize Text.join csharp.delimiter ((receiver :: members).map Part.text) = chain at whole ⊢
  have plain : ¬csharp.delimiter.toList <+: chain.toList := by
    rintro ⟨rest, begins⟩
    have cut : chain = "" ++ csharp.delimiter ++ String.ofList rest := by
      rw [← String.toList_inj, ← begins]
      simp
    rw [cut, Text.split_append csharp_one] at whole
    -- the first segment would be empty
    have first : receiver.text = "" := (List.cons.inj whole).1.symm
    exact (named receiver List.mem_cons_self).text_ne_empty first
  simp [bareText, Text.stripStart?, plain]

/-- A chain is kept with its segments cleaned. -/
theorem IsWritten.cleanSegments_eq (written : IsWritten use (receiver :: members))
    (named : ∀ part ∈ receiver :: members, part.IsNamed) :
    cleanSegments csharp.delimiter use.text =
      ((receiver :: members).map Part.cleaned).map Part.text := by
  rw [cleanSegments, written.text, bareText_parts named, split_parts named (by simp),
    List.map_map, List.map_map]
  exact List.map_congr_left fun part mem => (named part mem).cleanSegment_eq

theorem named_cleaned {parts : List Part} (named : ∀ part ∈ parts, part.IsNamed) :
    ∀ part ∈ parts.map Part.cleaned, part.IsNamed := by
  intro part mem
  obtain ⟨other, there, rfl⟩ := List.mem_map.mp mem
  exact named other there

/-- Parts of a chain name single types. -/
theorem isUnusable_parts {parts : List Part} (named : ∀ part ∈ parts, part.IsNamed)
    {segments : List String} (among : segments ⊆ parts.map Part.text) :
    isUnusable (Text.join csharp.delimiter segments) = false := by
  have absent {mark : String} {c : Char} (one : mark.toList = [c]) (outside : c ∈ [' ', '<']) :
      Text.contains mark (Text.join csharp.delimiter segments) = false := by
    rw [← Bool.not_eq_true, Text.contains_iff, one]
    intro within
    rcases Text.mem_of_mem_join (within.subset List.mem_cons_self) with
      between | ⟨text, there, inside⟩
    · rw [csharp_one, List.mem_singleton] at between
      simp [between] at outside
    · obtain ⟨part, memPart, rfl⟩ := List.mem_map.mp (among there)
      exact (named part memPart).not_mem_text (List.mem_cons_of_mem _ outside) inside
  rw [isUnusable, absent (c := ' ') (by decide) (by simp), absent (c := '<') (by decide) (by simp),
    Bool.or_self]

theorem IsWritten.usable (written : IsWritten use (receiver :: members))
    (named : ∀ part ∈ receiver :: members, part.IsNamed) (imports : List Import) :
    isUnusable (Text.join csharp.delimiter (lookedUpSegments csharp imports use)) = false := by
  have chain : IsChain use (((receiver :: members).map Part.cleaned).map Part.text) :=
    ⟨written.isCall, written.isUse, written.cleanSegments_eq named⟩
  have fewer (segments : List String) : dropLastOfMany segments ⊆ segments := by
    unfold dropLastOfMany
    split
    · exact List.dropLast_subset segments
    · exact List.Subset.refl segments
  refine isUnusable_parts (named_cleaned named) ?_
  rw [chain.lookedUpSegments_eq]
  refine List.Subset.trans (fewer _) ?_
  split
  · exact List.Subset.refl _
  · exact (List.tail_sublist _).subset

/-- A chain looks up its members, each without a question mark at its end. -/
theorem accessorNames_parts (called : members ≠ [])
    (named : ∀ part ∈ receiver :: members, part.IsNamed) :
    (CallChain.ofText csharp
      (Text.join csharp.delimiter ((receiver :: members).map Part.text))).accessorNames =
        members.map fun member => member.unmarked.text := by
  have several : Text.contains csharp.delimiter
      (Text.join csharp.delimiter ((receiver :: members).map Part.text)) = true := by
    rw [List.map_cons, Text.join_cons (by simpa using called), Text.contains_iff,
      String.toList_append, String.toList_append]
    exact ⟨_, _, rfl⟩
  have chains : csharp.chainsMembers = true := by decide
  have segments : (CallChain.ofText csharp (Text.join csharp.delimiter
      ((receiver :: members).map Part.text))).segments = members.map Part.text := by
    simp only [CallChain.segments, CallChain.ofText, several, chains, Bool.and_self, if_true,
      split_parts named (List.cons_ne_nil _ _)]
    rfl
  rw [CallChain.accessorNames, segments, List.map_map]
  exact List.map_congr_left fun part mem => (named part (List.mem_cons_of_mem _ mem)).bareName_eq

/-- The members are looked up as they are named only if nothing is left of their suffixes. -/
theorem map_left_eq_names_iff (named : ∀ part ∈ members, part.IsNamed) :
    (members.map fun member => member.left.text) = members.map Part.name ↔
      ∀ member ∈ members,
        member.suffixes.length ≤ 1 ∨ ∃ last, member.suffixes = [.mark, last] := by
  rw [List.map_inj_left]
  refine forall₂_congr fun member mem => ?_
  have same : member.left.name = member.name := by
    unfold Part.left Part.unmarked
    split <;> rfl
  have leftNamed : member.left.IsNamed := by
    rw [Part.IsNamed, same]
    exact named member mem
  rw [← same, leftNamed.text_eq_name_iff, Part.left_suffixes_eq_nil_iff]

end

/-- **Names of a chain.**  Take a chain of two identifiers or more, each with any suffixes, that is
not passed over.  One call chain is kept for it, and to follow that is to follow its members by the
names that are left of them: each without its last suffix, and then without a question mark at the
end.  These are the bare members exactly if each of them has at most one suffix, or a question mark
with one suffix behind it. -/
theorem followed_names {queries : Queries} {file : ParsedFile} {first : DeclaredType}
    {rest : List DeclaredType} (types : declaredTypes csharp queries file = first :: rest)
    {use : UsageText} {receiver : Part} {members : List Part}
    (written : IsWritten use (receiver :: members)) (called : members ≠ [])
    (named : ∀ part ∈ receiver :: members, part.IsNamed) (before : List UsageText)
    (new : bareText csharp.delimiter use.text ∉ (afterTexts csharp queries file before).seen) :
    ∃ call,
      (afterTexts csharp queries file (before ++ [use])).calls =
        (afterTexts csharp queries file before).calls ++ [call] ∧
      (∀ accessors direct known own gained,
        followChain accessors direct known own gained call =
          call.accessorNames.foldl (followName accessors direct known own) gained) ∧
      (call.accessorNames = members.map fun member => member.left.text) ∧
      (call.accessorNames = members.map Part.name ↔
        ∀ member ∈ members,
          member.suffixes.length ≤ 1 ∨ ∃ last, member.suffixes = [.mark, last]) := by
  have counts : Collected.referrer? (first :: rest) first use = some first := by
    simp only [Collected.referrer?, written.isUse]
  have usable := written.usable named (importsOf csharp queries file)
  have kept : (Collected.alone csharp (importsOf csharp queries file) file.path (first :: rest)
      first use).calls = [.ofText csharp (cleanName csharp.delimiter use.text)] :=
    Collected.alone_calls counts written.isCall (by decide) usable
  have names : (CallChain.ofText csharp (cleanName csharp.delimiter use.text)).accessorNames =
      members.map fun member => member.left.text := by
    have cleaned := named_cleaned named
    rw [cleanName, written.cleanSegments_eq named]
    rw [List.map_cons] at cleaned ⊢
    rw [accessorNames_parts (by simpa using called) cleaned, List.map_map]
    rfl
  refine ⟨_, ?_, fun accessors direct known own gained => followChain_eq .., names, ?_⟩
  · rw [afterTexts_step types, (Collected.step_adds new).calls, kept]
  · rw [names]
    exact map_left_eq_names_iff fun part mem => named part (List.mem_cons_of_mem _ mem)

/-! ## A call and a question mark

The member `c` of `y.c()?.d` has two suffixes, and the call is what is left of them. -/

namespace WrittenChain

open TwoFiles (node letter member classOf)
open AliasedChain (chain)

def file : ParsedFile where
  path := ⟨"A.cs"⟩
  language := .csharp
  source := "class A { B x = y.c()?.d; }"
  root := node "compilation_unit" 0 27 none
    [classOf 0 27 [member 10 25 [node "conditional_access_expression" 16 24 none
      [node "invocation_expression" 16 21 (some "condition")
          [node "member_access_expression" 16 19 (some "function")
              [letter "expression" 16, letter "name" 18],
            node "argument_list" 19 21 (some "arguments") []],
        node "member_binding_expression" 22 24 none [letter "name" 23]]]]]

def useB : UsageText := ⟨false, "B", none, .use⟩

theorem file_read : ReadAs csharp csharpQueries file
    [TwoFiles.declared "A" ⟨"A.cs"⟩ 0 27] [] [useB, chain "y.c()?.d", chain "y.c"] where
  types := by decide +kernel
  imports := by
    simp only [importsOf, Query.captures, Query.allMatches_eq_insertionSort]
    decide +kernel
  texts := by
    simp only [textsOf, usesIn, Query.captures, Query.allMatches_eq_insertionSort]
    decide +kernel

theorem isWritten {text : String} {parts : List Part}
    (joined : text = Text.join csharp.delimiter (parts.map Part.text)) :
    IsWritten (chain text) parts :=
  ⟨rfl, rfl, joined⟩

end WrittenChain

open WrittenChain in
open AliasedChain (chain) in
theorem followed_names_question_marks :
    declaredTypes csharp csharpQueries file = [TwoFiles.declared "A" ⟨"A.cs"⟩ 0 27] ∧
      IsWritten (chain "y?().c?().d[]")
        [⟨"y", [.mark, .call]⟩, ⟨"c", [.mark, .call]⟩, ⟨"d", [.index]⟩] ∧
      ∃ call, (afterTexts csharp csharpQueries file [useB, chain "y?().c?().d[]"]).calls = [call] ∧
        call.accessorNames = ["c", "d"] := by
  have written : IsWritten (chain "y?().c?().d[]")
      (⟨"y", [.mark, .call]⟩ :: [⟨"c", [.mark, .call]⟩, ⟨"d", [.index]⟩]) :=
    isWritten (by decide +kernel)
  have before : (afterTexts csharp csharpQueries file [useB]).seen = ["B"] ∧
      (afterTexts csharp csharpQueries file [useB]).calls = [] := by
    rw [afterTexts, file_read.imports, file_read.types]
    decide +kernel
  obtain ⟨call, kept, _, _, bare⟩ := followed_names file_read.types written (by decide)
    (by decide +kernel) [useB] (by rw [before.1]; decide +kernel)
  refine ⟨file_read.types, written, call, ?_, ?_⟩
  · rw [before.2, List.nil_append] at kept
    exact kept
  · exact bare.mpr (by simp)

open WrittenChain in
open AliasedChain (chain) in
/-- A question mark behind a call leaves the call on the name that is looked up. -/
theorem suffix_left_on_name :
    textsOf csharp csharpQueries file = [useB] ++ chain "y.c()?.d" :: [chain "y.c"] ∧
      IsWritten (chain "y.c()?.d") [⟨"y", []⟩, ⟨"c", [.call, .mark]⟩, ⟨"d", []⟩] ∧
      ∃ call, (afterTexts csharp csharpQueries file ([useB] ++ [chain "y.c()?.d"])).calls =
          (afterTexts csharp csharpQueries file [useB]).calls ++ [call] ∧
        call.accessorNames = ["c()", "d"] := by
  refine ⟨file_read.texts, isWritten (by decide +kernel), ⟨"y.c().d", ".", true⟩, ?_, ?_⟩
  · simp only [afterTexts, file_read.imports, file_read.types]
    decide +kernel
  · decide +kernel

end SourceGauge.Coupling
