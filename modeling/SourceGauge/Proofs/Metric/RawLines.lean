/-
# SourceGauge.Proofs.Metric.RawLines -- lines of raw text and rows of a tree

Raw text is read with one character in hand: `\r\n` ends one line, and so do `\r` and `\n` alone.
So each of the two characters ends a line, and every pair counts one too many
(`countLines_add_pairCount`).  Rows are ended by `\n` only (`row_ofByte_end`).

* `lineCount_agrees`: what the lines of a text come to.  Pairs may be written as a `\n`, one by one
  and in any number, if no `\r` stands before them, which would become part of a pair.  Where
  every `\r` begins a pair, the rows of a tree that reaches to the end are the lines of its text.
-/
import Mathlib.Data.String.Basic
import Mathlib.Logic.Relation
import SourceGauge.Metric.Measure
import SourceGauge.Proofs.Language.OwnGrammars
import SourceGauge.Proofs.Syntax.Layout

namespace SourceGauge

set_option autoImplicit false

namespace Text

/-! ## Pairs -/

/-- The number of places at which one character stands right before another. -/
def pairCount (first second : Char) (cs : List Char) : Nat :=
  (cs.zip cs.tail).count (first, second)

theorem pairCount_cons (first second c : Char) (cs : List Char) :
    pairCount first second (c :: cs) =
      pairCount first second cs + if c = first ∧ cs.head? = some second then 1 else 0 := by
  cases cs with
  | nil => simp [pairCount]
  | cons d ds => simp [pairCount, List.count_cons]

/-- Between two texts there is a pair more if the one ends and the other begins so. -/
theorem pairCount_append (first second : Char) (before after : List Char) :
    pairCount first second (before ++ after) =
      pairCount first second before + pairCount first second after +
        if before.getLast? = some first ∧ after.head? = some second then 1 else 0 := by
  induction before with
  | nil => simp [pairCount]
  | cons c before ih =>
      rw [List.cons_append, pairCount_cons, pairCount_cons, ih]
      cases before with
      | nil => simp [pairCount]
      | cons d ds =>
          rw [List.getLast?_cons_cons, List.cons_append, List.head?_cons, List.head?_cons]
          omega

/-! ## Lines -/

/-- Each `\n` and each `\r` ends a line, but a pair of them only one. -/
theorem countLines_add_pairCount (cs : List Char) :
    countLines cs + pairCount '\r' '\n' cs = 1 + cs.count '\n' + cs.count '\r' := by
  fun_induction countLines cs with
  | case1 => rfl
  | case2 cs ih =>
      have ends : pairCount '\r' '\n' ('\r' :: '\n' :: cs) = pairCount '\r' '\n' cs + 1 := by
        simp [pairCount_cons]
      rw [ends, List.count_cons_self, List.count_cons_of_ne (by decide), List.count_cons_self,
        List.count_cons_of_ne (by decide)]
      omega
  | case3 c cs alone ih =>
      have single : ¬ (c = '\r' ∧ cs.head? = some '\n') := by
        rintro ⟨rfl, next⟩
        obtain ⟨rest, rfl⟩ := List.head?_eq_some_iff.mp next
        exact alone rest rfl rfl
      rw [pairCount_cons, if_neg single]
      by_cases feed : c = '\n'
      · rw [feed, if_pos (.inl rfl), List.count_cons_self, List.count_cons_of_ne (by decide)]
        omega
      · by_cases ret : c = '\r'
        · rw [ret, if_pos (.inr rfl), List.count_cons_of_ne (by decide), List.count_cons_self]
          omega
        · rw [if_neg (not_or.mpr ⟨feed, ret⟩), List.count_cons_of_ne feed,
            List.count_cons_of_ne ret]
          omega

/-- Where every `\r` begins a pair, there are as many pairs. -/
theorem pairCount_eq_count {first second : Char} {cs : List Char}
    (each : ∀ i, cs[i]? = some first → cs[i + 1]? = some second) :
    pairCount first second cs = cs.count first := by
  induction cs with
  | nil => rfl
  | cons c cs ih =>
      have next : c = first → cs.head? = some second := fun here =>
        List.head?_eq_getElem? ▸ each 0 (congrArg some here)
      rw [pairCount_cons, ih fun i => each (i + 1), List.count_cons]
      simp only [beq_iff_eq]
      by_cases here : c = first
      · rw [if_pos ⟨here, next here⟩, if_pos here]
      · rw [if_neg fun both => here both.1, if_neg here]

/-- A text with one pair written as a `\n`; no `\r` stands before the pair. -/
def Shortens (text shorter : String) : Prop :=
  ∃ before after : List Char, before.getLast? ≠ some '\r' ∧
    text.toList = before ++ '\r' :: '\n' :: after ∧ shorter.toList = before ++ '\n' :: after

theorem Shortens.lineCount_eq {text shorter : String} (shortens : Shortens text shorter) :
    lineCount shorter = lineCount text := by
  obtain ⟨before, after, apart, long, short⟩ := shortens
  have lines := countLines_add_pairCount (before ++ '\r' :: '\n' :: after)
  have fewer := countLines_add_pairCount (before ++ '\n' :: after)
  have pair : pairCount '\r' '\n' ('\r' :: '\n' :: after) =
      pairCount '\r' '\n' ('\n' :: after) + 1 := by
    rw [pairCount_cons, if_pos ⟨rfl, rfl⟩]
  -- the character before the pair makes no pair with what comes after it, written either way
  have noneBefore : ∀ next : Option Char,
      ¬ (before.getLast? = some '\r' ∧ next = some '\n') := fun _ both => apart both.1
  simp only [pairCount_append, if_neg (noneBefore _), pair, List.count_append, List.count_cons,
    beq_iff_eq, Char.reduceEq, reduceIte] at lines fewer
  rw [lineCount, lineCount, long, short]
  omega

/-! ## Rows -/

namespace Place

theorem row_after (place : Place) (c : Char) :
    (place.after c).row = place.row + if c = '\n' then 1 else 0 := by
  unfold after
  split <;> rfl

theorem byte_after (place : Place) (c : Char) :
    (place.after c).byte = place.byte + c.utf8Size := by
  unfold after
  split
  · next feed =>
    subst feed
    rfl
  · rfl

/-- The place behind the last byte has passed every `\n`. -/
theorem row_seek_end (place : Place) (cs : List Char) :
    (seek (place.byte + String.utf8Len cs) place cs).row = place.row + cs.count '\n' := by
  induction cs generalizing place with
  | nil => rfl
  | cons c cs ih =>
      have size := c.utf8Size_pos
      have behind : place.byte + String.utf8Len (c :: cs) =
          (place.after c).byte + String.utf8Len cs := by
        rw [String.utf8Len_cons, byte_after]
        omega
      rw [seek, if_neg (by rw [String.utf8Len_cons]; omega), behind, ih, row_after,
        List.count_cons]
      simp only [beq_iff_eq]
      omega

theorem row_ofByte_end (text : String) :
    (ofByte text text.utf8ByteSize).row = text.toList.count '\n' := by
  have row := row_seek_end start text.toList
  rw [String.utf8Len_toList] at row
  simpa [ofByte, start] using row

end Place

end Text

namespace Metric

open Text (Place lineCount pairCount Shortens)

/-- The lines are one more than the characters `\n` and `\r`, pairs taken once; writing pairs as
`\n` leaves their number.  Where every `\r` is followed by `\n` and the root of a tree ends at the
last byte, the rows of the tree are the lines of its text. -/
theorem lineCount_agrees [Grammars] :
    (∀ text : String, lineCount text + pairCount '\r' '\n' text.toList =
      1 + text.toList.count '\n' + text.toList.count '\r') ∧
    (∀ text shorter : String, Relation.ReflTransGen Shortens text shorter →
      lineCount shorter = lineCount text) ∧
    ∀ (registry : Registry) (file : ParsedFile) (cache : Query.Cache),
      file.root.stop = Place.ofByte file.source file.source.utf8ByteSize →
      (∀ i : Nat, file.source.toList[i]? = some '\r' →
        file.source.toList[i + 1]? = some '\n') →
      (linesOfCode.measure registry file cache).1 = .ok (lineCount file.source) := by
  refine ⟨fun text => Text.countLines_add_pairCount text.toList, fun text shorter steps => ?_,
    fun registry file cache stop each => ?_⟩
  · induction steps with
    | refl => rfl
    | tail _ step ih => exact step.lineCount_eq.trans ih
  · have lines := Text.countLines_add_pairCount file.source.toList
    rw [Text.pairCount_eq_count each] at lines
    have counted : rows file = lineCount file.source := by
      rw [rows, stop, Place.row_ofByte_end, lineCount]
      omega
    exact congrArg Except.ok counted

/-! ## A text with pairs -/

namespace TwoPairs

def source : String := "é\r\n\r\n# b"

def file : ParsedFile where
  path := ⟨"a.py"⟩
  language := .python
  source := source
  root := .inText source "module" true 0 9 [.inText source "comment" true 6 9 []]

theorem shortens : Relation.ReflTransGen Shortens source "é\n\n# b" :=
  .tail (.single
    (show Shortens source "é\n\r\n# b" from ⟨['é'], ['\r', '\n', '#', ' ', 'b'], by decide⟩))
    ⟨['é', '\n'], ['#', ' ', 'b'], by decide⟩

end TwoPairs

attribute [local instance] sampleGrammars

open TwoPairs in
theorem lineCount_agrees_two_pairs :
    lineCount source + pairCount '\r' '\n' source.toList = 1 + 2 + 2 ∧
      lineCount "é\n\n# b" = lineCount source ∧
      (linesOfCode.measure ⟨[]⟩ file {}).1 = .ok (lineCount source) := by
  obtain ⟨characters, replaced, rows⟩ := lineCount_agrees
  have paired : ∀ i < source.toList.length,
      source.toList[i]? = some '\r' → source.toList[i + 1]? = some '\n' := by decide
  refine ⟨characters source, replaced _ _ shortens, rows ⟨[]⟩ file {} (by decide) fun i found => ?_⟩
  exact paired i (List.getElem?_eq_some_iff.mp found).1 found

end Metric

end SourceGauge
