/-
# SourceGauge.Proofs.Text.Within -- what occurs in a text that was put together

A text that is put together from fixed words and other texts may hold a phrase without
any of its parts holding it.  Fixed words that are `clearOf` the phrase cannot begin it,
so that it occurs after them or not at all (`mentions_append_of_clear`); and an
occurrence never goes past a character that the phrase does not have
(`infix_append_cons`).  Here the texts are compared in lower case (`mentions`).
-/
import SourceGauge.Text.Letters
import SourceGauge.Text.Split

namespace SourceGauge.Text

set_option autoImplicit false

/-! ## Characters -/

/-- No occurrence of `part` begins in the text, whatever follows it. -/
def clearOf (part : List Char) : List Char → Bool
  | [] => true
  | c :: cs => !part.isPrefixOf (c :: cs) && !(c :: cs).isPrefixOf part && clearOf part cs

theorem infix_append_iff_of_clearOf {part first : List Char} (clear : clearOf part first = true)
    (rest : List Char) : part <:+: first ++ rest ↔ part <:+: rest := by
  induction first with
  | nil => rfl
  | cons c first ih =>
      simp only [clearOf, Bool.and_eq_true, Bool.not_eq_true', ← Bool.not_eq_true,
        List.isPrefixOf_iff_prefix] at clear
      obtain ⟨⟨notWithin, notBeyond⟩, later⟩ := clear
      rw [List.cons_append, List.infix_cons_iff, ih later, or_iff_right_iff_imp]
      intro begins
      have both := List.prefix_or_prefix_of_prefix begins (List.prefix_append (c :: first) rest)
      exact absurd both (not_or.mpr ⟨notWithin, notBeyond⟩)

theorem prefix_append_cons {part : List Char} (first : List Char) {c : Char} (absent : c ∉ part)
    (rest : List Char) : part <+: first ++ c :: rest ↔ part <+: first := by
  constructor
  · intro begins
    rcases List.prefix_or_prefix_of_prefix begins (List.prefix_append first _) with within | beyond
    · exact within
    · obtain ⟨more, rfl⟩ := beyond
      cases more with
      | nil => simp
      | cons x more =>
          have same : x = c := by
            have := (List.prefix_append_right_inj first).mp begins
            exact (List.cons_prefix_cons.mp this).1
          simp [same] at absent
  · exact fun begins => begins.trans (List.prefix_append _ _)

/-- An occurrence does not go past a character that it does not have. -/
theorem infix_append_cons {part : List Char} {c : Char} (absent : c ∉ part)
    (first rest : List Char) :
    part <:+: first ++ c :: rest ↔ part <:+: first ∨ part <:+: rest := by
  induction first with
  | nil =>
      have begins := prefix_append_cons [] absent rest
      rw [List.nil_append] at begins ⊢
      rw [List.infix_cons_iff, begins, List.prefix_nil, List.infix_nil]
  | cons x first ih =>
      have begins := prefix_append_cons (x :: first) absent rest
      rw [List.cons_append] at begins ⊢
      rw [List.infix_cons_iff, List.infix_cons_iff, begins, ih, or_assoc]

/-! ## Texts in lower case -/

theorem lower_append (s t : String) : lower (s ++ t) = lower s ++ lower t := by
  simp [lower]

/-- Whether a text holds a phrase, in upper or lower case. -/
def mentions (text phrase : String) : Bool := contains phrase (lower text)

theorem mentions_iff {text phrase : String} :
    mentions text phrase = true ↔ phrase.toList <:+: (lower text).toList := contains_iff

/-- The text, in lower case, is clear of the phrase. -/
def IsClearOf (text phrase : String) : Prop := clearOf phrase.toList (lower text).toList = true

instance (text phrase : String) : Decidable (IsClearOf text phrase) :=
  inferInstanceAs (Decidable (_ = _))

theorem mentions_append_of_clear {phrase first : String} (clear : IsClearOf first phrase)
    (rest : String) :
    mentions (first ++ rest) phrase = mentions rest phrase := by
  rw [Bool.eq_iff_iff, mentions_iff, mentions_iff, lower_append, String.toList_append]
  exact infix_append_iff_of_clearOf clear _

theorem mentions_append_left {phrase first : String} (there : mentions first phrase = true)
    (rest : String) : mentions (first ++ rest) phrase = true := by
  rw [mentions_iff] at there ⊢
  rw [lower_append, String.toList_append]
  exact there.trans (List.prefix_append _ _).isInfix

/-- The phrase has no colon and does not begin with a blank. -/
def IsPlain (phrase : String) : Prop :=
  ':' ∉ phrase.toList ∧ clearOf phrase.toList [' '] = true

instance (phrase : String) : Decidable (IsPlain phrase) := inferInstanceAs (Decidable (_ ∧ _))

/-- A plain phrase is in the one or in the other of two texts with a colon and a blank between
them. -/
theorem mentions_cause {phrase : String} (plain : IsPlain phrase) (first rest : String) :
    mentions (first ++ ": " ++ rest) phrase = (mentions first phrase || mentions rest phrase) := by
  have colon : (lower ": ").toList = [':', ' '] := by decide
  rw [Bool.eq_iff_iff, Bool.or_eq_true, mentions_iff, mentions_iff, mentions_iff, lower_append,
    lower_append, String.toList_append, String.toList_append, colon, List.append_assoc,
    List.cons_append, infix_append_cons plain.1, infix_append_iff_of_clearOf plain.2]

end SourceGauge.Text
