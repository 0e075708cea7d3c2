/-
# SourceGauge.Proofs.Text.Split -- what stands before a delimiter

Occurrences of a delimiter of one character cannot overlap, so two texts with the
delimiter between them are cut into the pieces of the one and then those of the other
(`split_append`).  Without the condition this fails: `aa` as a delimiter is found in
`a` ++ `aa` ++ `b` one character too early.

Joining the first pieces of a text, but not all of them, therefore gives exactly the
texts that stand before one of its delimiters (`exists_take_split_iff`).  Texts without
the delimiter are the pieces of what they are joined to (`split_join`), and every piece is
such a text (`not_mem_of_mem_split`).

The last segment of a text has no delimiter and is the whole of it, or follows one
(`lastSegment_cases`).
-/
import SourceGauge.Text.Split

namespace SourceGauge.Text

set_option autoImplicit false

theorem consFirst_append {ps : List (List Char)} (some : ps ≠ []) (c : Char)
    (qs : List (List Char)) : consFirst c (ps ++ qs) = consFirst c ps ++ qs := by
  cases ps with
  | nil => exact absurd rfl some
  | cons p ps => rfl

/-- Cutting at a character cuts what is before it and what is after it. -/
theorem pieces_append (c : Char) (before after : List Char) :
    pieces [c] 0 (before ++ c :: after) = pieces [c] 0 before ++ pieces [c] 0 after := by
  induction before with
  | nil => simp [pieces]
  | cons x before ih =>
      by_cases here : c = x
      · subst here
        simp [pieces, ih]
      · have later := consFirst_append (pieces_ne_nil [c] 0 before) x (pieces [c] 0 after)
        simp [pieces, here, ih, later]

theorem split_ne_nil (delimiter s : String) : split delimiter s ≠ [] := by
  unfold split
  split
  · simp
  · simpa using pieces_ne_nil _ 0 s.toList

theorem split_append {delimiter : String} {c : Char} (one : delimiter.toList = [c])
    (before after : String) :
    split delimiter (before ++ delimiter ++ after) =
      split delimiter before ++ split delimiter after := by
  have nonempty : delimiter ≠ "" := by
    rintro rfl
    cases one
  simp only [split, nonempty, if_false, String.toList_append, one, List.append_assoc,
    List.singleton_append, pieces_append, List.map_append]

theorem join_append {delimiter : String} {first last : List String} (some : first ≠ [])
    (others : last ≠ []) :
    join delimiter (first ++ last) = join delimiter first ++ delimiter ++ join delimiter last := by
  induction first with
  | nil => exact absurd rfl some
  | cons s rest ih =>
      cases rest with
      | nil => exact join_cons others
      | cons t rest =>
          have tail : t :: rest ++ last ≠ [] := by simp
          rw [List.cons_append, join_cons tail, ih (by simp), join_cons (List.cons_ne_nil t rest)]
          simp only [String.append_assoc]

/-- A text in its pieces may stand in front of others as it is. -/
theorem join_split_append {delimiter : String} (nonempty : delimiter ≠ "") (s : String)
    (others : List String) :
    join delimiter (split delimiter s ++ others) = join delimiter (s :: others) := by
  by_cases last : others = []
  · rw [last, List.append_nil, join_split nonempty]
    rfl
  · rw [join_append (split_ne_nil delimiter s) last, join_split nonempty, join_cons last]

theorem join_ne_empty {delimiter s : String} {rest : List String} (some : s ≠ "") :
    join delimiter (s :: rest) ≠ "" := by
  intro empty
  have chars := congrArg String.length empty
  have length : s.length ≠ 0 := by simpa using some
  cases rest with
  | nil => exact some empty
  | cons t rest =>
      rw [join_cons (List.cons_ne_nil t rest)] at chars
      simp only [String.length_append, String.length_empty] at chars
      omega

/-- The texts that some first pieces of a text make up, though not all, are those that stand
before one of its delimiters. -/
theorem exists_take_split_iff {delimiter : String} {c : Char} (one : delimiter.toList = [c])
    {s before : String} :
    (∃ n, n + 1 < (split delimiter s).length ∧
        join delimiter ((split delimiter s).take (n + 1)) = before) ↔
      ∃ after, s = before ++ delimiter ++ after := by
  have nonempty : delimiter ≠ "" := by
    rintro rfl
    cases one
  constructor
  · rintro ⟨n, proper, rfl⟩
    have first : (split delimiter s).take (n + 1) ≠ [] := by
      simp [split_ne_nil]
    have last : (split delimiter s).drop (n + 1) ≠ [] := by
      simpa using proper
    refine ⟨join delimiter ((split delimiter s).drop (n + 1)), ?_⟩
    rw [← join_append first last, List.take_append_drop, join_split nonempty]
  · rintro ⟨after, rfl⟩
    have pieces := split_append one before after
    have some : 0 < (split delimiter before).length := List.length_pos_iff.mpr (split_ne_nil _ _)
    have others : 0 < (split delimiter after).length := List.length_pos_iff.mpr (split_ne_nil _ _)
    refine ⟨(split delimiter before).length - 1, ?_, ?_⟩
    · rw [pieces, List.length_append]
      omega
    · rw [pieces, Nat.sub_add_cancel some, List.take_left, join_split nonempty]

/-! ## Texts without the delimiter -/

theorem pieces_of_not_mem {c : Char} {cs : List Char} (absent : c ∉ cs) :
    pieces [c] 0 cs = [cs] := by
  induction cs with
  | nil => rfl
  | cons x cs ih =>
      obtain ⟨other, later⟩ := not_or.mp (mt List.mem_cons.mpr absent)
      simp [pieces, other, ih later, consFirst]

theorem not_mem_of_mem_pieces {c : Char} {cs piece : List Char}
    (mem : piece ∈ pieces [c] 0 cs) : c ∉ piece := by
  induction cs generalizing piece with
  | nil =>
      rw [pieces, List.mem_singleton] at mem
      simp [mem]
  | cons x cs ih =>
      by_cases here : c = x
      · simp only [pieces, here, List.isPrefixOf_cons_cons, BEq.rfl, List.isPrefixOf_nil_left,
          Bool.and_self, if_true, List.length_singleton, Nat.sub_self, List.mem_cons] at mem
        rcases mem with rfl | mem
        · exact List.not_mem_nil
        · exact ih (by rwa [here])
      · have later : pieces [c] 0 (x :: cs) = consFirst x (pieces [c] 0 cs) := by
          simp [pieces, here]
        rw [later] at mem
        -- the character goes to the first of the later pieces
        cases cut : pieces [c] 0 cs with
        | nil => exact absurd cut (pieces_ne_nil _ _ _)
        | cons first others =>
            rw [cut, consFirst, List.mem_cons] at mem
            rcases mem with rfl | mem
            · have clear := ih (cut ▸ List.mem_cons_self)
              simp [here, clear]
            · exact ih (cut ▸ List.mem_cons_of_mem _ mem)

section

variable {delimiter : String} {c : Char}

theorem split_of_not_mem (one : delimiter.toList = [c]) {s : String} (absent : c ∉ s.toList) :
    split delimiter s = [s] := by
  have nonempty : delimiter ≠ "" := by
    rintro rfl
    cases one
  simp [split, nonempty, one, pieces_of_not_mem absent]

theorem not_mem_of_mem_split (one : delimiter.toList = [c]) {s piece : String}
    (mem : piece ∈ split delimiter s) : c ∉ piece.toList := by
  have nonempty : delimiter ≠ "" := by
    rintro rfl
    cases one
  simp only [split, nonempty, if_false, one, List.mem_map] at mem
  obtain ⟨cs, mem, rfl⟩ := mem
  simpa using not_mem_of_mem_pieces mem

theorem split_join (one : delimiter.toList = [c]) {items : List String} (some : items ≠ [])
    (absent : ∀ s ∈ items, c ∉ s.toList) : split delimiter (join delimiter items) = items := by
  induction items with
  | nil => exact absurd rfl some
  | cons s rest ih =>
      have first := split_of_not_mem one (absent s List.mem_cons_self)
      cases rest with
      | nil => exact first
      | cons t rest =>
          have later := ih (by simp) fun u mem => absent u (List.mem_cons_of_mem _ mem)
          rw [join_cons (by simp), split_append one, first, later, List.singleton_append]

end

/-- The characters of a joined text come from the delimiter or from one of the texts. -/
theorem mem_of_mem_join {delimiter : String} {items : List String} {c : Char}
    (mem : c ∈ (join delimiter items).toList) :
    c ∈ delimiter.toList ∨ ∃ s ∈ items, c ∈ s.toList := by
  induction items with
  | nil => simp [join] at mem
  | cons s rest ih =>
      cases rest with
      | nil => exact Or.inr ⟨s, List.mem_cons_self, mem⟩
      | cons t rest =>
          rw [join_cons (List.cons_ne_nil t rest), String.toList_append, String.toList_append,
            List.mem_append, List.mem_append] at mem
          rcases mem with (first | between) | later
          · exact Or.inr ⟨s, List.mem_cons_self, first⟩
          · exact Or.inl between
          · rcases ih later with between | ⟨u, there, inside⟩
            · exact Or.inl between
            · exact Or.inr ⟨u, List.mem_cons_of_mem _ there, inside⟩

/-! ## Endings -/

theorem stripEnd?_append (ending s : String) : stripEnd? ending (s ++ ending) = some s := by
  simp [stripEnd?]

/-- A text whose last character is another one does not end so. -/
theorem stripEnd?_eq_none {ending s : String} {c : Char} (last : ending.toList.getLast? = some c)
    (other : s.toList.getLast? ≠ some c) : stripEnd? ending s = none := by
  have apart : ¬ending.toList <:+ s.toList := by
    rintro ⟨start, whole⟩
    rw [← whole, List.getLast?_append, last] at other
    exact other rfl
  simp [stripEnd?, apart]

/-! ## After the last delimiter -/

theorem afterLast?_of_not_mem {c : Char} {cs : List Char} (absent : c ∉ cs) :
    afterLast? [c] cs = none := by
  induction cs with
  | nil => rfl
  | cons x cs ih =>
      obtain ⟨other, later⟩ := not_or.mp (mt List.mem_cons.mpr absent)
      simp [afterLast?, ih later, other]

theorem afterLast?_append {c : Char} (before : List Char) {after : List Char} (clear : c ∉ after) :
    afterLast? [c] (before ++ c :: after) = some after := by
  induction before with
  | nil => simp [afterLast?, afterLast?_of_not_mem clear]
  | cons x before ih => simp [afterLast?, ih]

theorem exists_last_of_mem {c : Char} {cs : List Char} (mem : c ∈ cs) :
    ∃ before after, cs = before ++ c :: after ∧ c ∉ after := by
  obtain ⟨later, earlier, whole, clear⟩ := List.eq_append_cons_of_mem (List.mem_reverse.mpr mem)
  refine ⟨earlier.reverse, later.reverse, ?_, by simpa using clear⟩
  simpa using congrArg List.reverse whole

section

variable {delimiter : String} {c : Char}

theorem lastSegment_of_not_mem (one : delimiter.toList = [c]) {s : String} (absent : c ∉ s.toList) :
    lastSegment delimiter s = s := by
  simp [lastSegment, one, afterLast?_of_not_mem absent]

theorem lastSegment_append (one : delimiter.toList = [c]) (before : String) {last : String}
    (clear : c ∉ last.toList) : lastSegment delimiter (before ++ delimiter ++ last) = last := by
  simp [lastSegment, one, afterLast?_append before.toList clear]

/-- The last segment of a text is the whole of it, or follows a delimiter. -/
theorem lastSegment_cases (one : delimiter.toList = [c]) (s : String) :
    c ∉ (lastSegment delimiter s).toList ∧
      (s = lastSegment delimiter s ∨
        ∃ before, s = before ++ delimiter ++ lastSegment delimiter s) := by
  by_cases mem : c ∈ s.toList
  · obtain ⟨before, after, whole, clear⟩ := exists_last_of_mem mem
    have parts : s = String.ofList before ++ delimiter ++ String.ofList after := by
      apply String.toList_inj.mp
      simp [whole, one]
    have absent : c ∉ (String.ofList after).toList := by simpa using clear
    rw [parts, lastSegment_append one _ absent]
    exact ⟨absent, Or.inr ⟨_, rfl⟩⟩
  · rw [lastSegment_of_not_mem one mem]
    exact ⟨mem, Or.inl rfl⟩

end

end SourceGauge.Text
