/-
# SourceGauge.Proofs.Metric.Keywords -- keywords are words

Keywords are sought from the left: where no word character stands before, a text may begin with
one, and the search goes on behind it (`countKeywords`).  The same number comes of cutting the text
into words, the longest runs of word characters, and comparing each with the keywords, letters in
upper and lower case alike (`countKeywords_eq`): a keyword begins where a word begins and ends where
it ends, and nothing of a word is left to be sought behind one.

* `keywords_are_words`: the metric is the number of these words in the comment nodes, and it can be
  had exactly when the comment nodes can.
-/
import Mathlib.Algebra.BigOperators.Group.List.Basic
import Mathlib.Algebra.GroupWithZero.Nat
import Mathlib.Data.List.TakeWhile
import SourceGauge.Metric.Measure

namespace SourceGauge

set_option autoImplicit false

namespace Text

/-! ## Words -/

/-- The words of a text: its longest runs of word characters. -/
def words (cs : List Char) : List (List Char) :=
  (cs.splitOnP fun c => !isWordChar c).filter fun run => run ≠ []

/-- No word goes on across a character that is none of a word. -/
theorem words_append_break {c : Char} (other : isWordChar c = false) (before after : List Char) :
    words (before ++ c :: after) = words before ++ words after := by
  rw [words, List.splitOnP_append_cons before after (by simp [other]), List.filter_append]
  rfl

theorem words_run {run : List Char} (word : ∀ c ∈ run, isWordChar c = true) :
    words run = if run = [] then [] else [run] := by
  rw [words, List.splitOnP_eq_singleton fun c mem => by simp [word c mem]]
  split <;> simp [*]

/-- A text is a run of word characters up to its end, or up to a character that is none and more
text. -/
theorem runs_induction {motive : List Char → Prop}
    (last : ∀ run, (∀ c ∈ run, isWordChar c = true) → motive run)
    (behind : ∀ run c rest, (∀ d ∈ run, isWordChar d = true) → isWordChar c = false →
      motive rest → motive (run ++ c :: rest)) (cs : List Char) : motive cs := by
  have whole : cs.takeWhile isWordChar ++ cs.dropWhile isWordChar = cs :=
    List.takeWhile_append_dropWhile
  have run : ∀ c ∈ cs.takeWhile isWordChar, isWordChar c = true :=
    fun c mem => List.mem_takeWhile_imp mem
  cases dropped : cs.dropWhile isWordChar with
  | nil =>
      rw [dropped, List.append_nil] at whole
      exact last cs (whole ▸ run)
  | cons c rest =>
      have other : isWordChar c = false := by
        have head := List.head?_dropWhile_not isWordChar cs
        rw [dropped] at head
        simpa using head
      have shorter : rest.length < cs.length := by
        rw [← whole, dropped, List.length_append, List.length_cons]
        omega
      rw [← whole, dropped]
      exact behind _ c rest run other (runs_induction last behind rest)
termination_by cs.length

/-! ## Case folding -/

/-- The simple case folding of a character that folds to an ASCII letter; any other character
itself.  Characters that do not, differ from ASCII letters in either form. -/
def foldCase (c : Char) : Char :=
  if c = '\u212a' then 'k'
  else if c = '\u017f' then 's'
  else if 'A' ≤ c ∧ c ≤ 'Z' then Char.ofNat (c.toNat + 32)
  else c

end Text

namespace Metric

open Text (words foldCase isWordChar)

/-! ## The letters of keywords -/

/-- Letters are compared by their case folding; the long s, which folds to an ASCII letter too, is
like no letter of a keyword. -/
theorem sameLetter_iff {letter c : Char} (mem : letter ∈ keywords.flatten) :
    sameLetter letter c = true ↔ foldCase c = letter := by
  have lower : ∀ letter ∈ keywords.flatten, letter ≠ 's' ∧ letter ≠ '\u212a' ∧
      letter ≠ '\u017f' ∧ ¬ ('A' ≤ letter ∧ letter ≤ 'Z') := by simp [keywords]
  obtain ⟨noS, noKelvin, noLongS, noUpper⟩ := lower letter mem
  simp only [sameLetter, Bool.or_eq_true, Bool.and_eq_true, decide_eq_true_eq]
  unfold foldCase
  split_ifs with kelvin longS upper
  · subst kelvin
    simp [noKelvin.symm, eq_comm]
  · subst longS
    simp [noLongS.symm, noS.symm]
  · have notSelf : c ≠ letter := fun same => noUpper (same ▸ upper)
    simp [notSelf, upper, kelvin]
  · refine ⟨?_, fun same => .inl (.inl same)⟩
    rintro ((same | ⟨isUpper, _⟩) | ⟨_, isKelvin⟩)
    · exact same
    · exact absurd isUpper upper
    · exact absurd isKelvin kelvin

/-- What is compared equal to a letter of a keyword belongs to words. -/
theorem isWordChar_of_sameLetter {letter c : Char} (mem : letter ∈ keywords.flatten)
    (same : sameLetter letter c = true) : isWordChar c = true := by
  have letters : ∀ letter ∈ keywords.flatten, isWordChar letter = true :=
    List.all_eq_true.mp (by decide)
  simp only [sameLetter, Bool.or_eq_true, Bool.and_eq_true, decide_eq_true_eq] at same
  rcases same with (rfl | ⟨⟨fromA, toZ⟩, _⟩) | ⟨_, rfl⟩
  · exact letters c mem
  · have least : 65 ≤ c.toNat := UInt32.le_iff_toNat_le.mp fromA
    have greatest : c.toNat ≤ 90 := UInt32.le_iff_toNat_le.mp toZ
    have ascii : c.toNat < 0x80 := by omega
    simp only [isWordChar, if_pos ascii, Text.inRanges, Text.asciiWordRanges, List.any_cons,
      Bool.or_eq_true, Bool.and_eq_true, decide_eq_true_eq]
    omega
  · decide

/-- A keyword stands at the beginning of a text if the first word is this keyword. -/
theorem beginsWord_iff {word : List Char} (letters : ∀ letter ∈ word, letter ∈ keywords.flatten)
    (cs : List Char) :
    beginsWord word cs = true ↔ (cs.takeWhile isWordChar).map foldCase = word := by
  induction word generalizing cs with
  | nil =>
      cases cs with
      | nil => simp [beginsWord]
      | cons c cs => cases belongs : isWordChar c <;> simp [beginsWord, belongs]
  | cons letter word ih =>
      obtain ⟨first, others⟩ := List.forall_mem_cons.mp letters
      cases cs with
      | nil => simp [beginsWord]
      | cons c cs =>
          cases belongs : isWordChar c with
          | true =>
              simp [beginsWord, belongs, sameLetter_iff first, ih others]
          | false =>
              have differs : sameLetter letter c = false := by
                rw [Bool.eq_false_iff]
                intro same
                rw [isWordChar_of_sameLetter first same] at belongs
                cases belongs
              simp [beginsWord, belongs, differs]

/-- Whether a word is a keyword, whatever the case of its letters. -/
def isKeyword (word : List Char) : Bool := keywords.contains (word.map foldCase)

/-- What a text begins with is its first word, if this is a keyword. -/
theorem keywordAt?_eq (cs : List Char) :
    keywordAt? cs = if isKeyword (cs.takeWhile isWordChar) then
      some ((cs.takeWhile isWordChar).map foldCase) else none := by
  have begins : ∀ word ∈ keywords, beginsWord word cs = true ↔
      (cs.takeWhile isWordChar).map foldCase = word := fun word mem =>
    beginsWord_iff (fun letter within => List.mem_flatten.mpr ⟨word, mem, within⟩) cs
  cases found : keywordAt? cs with
  | none =>
      have nothing := List.find?_eq_none.mp found
      rw [if_neg]
      intro isKey
      have mem := List.contains_iff_mem.mp isKey
      exact nothing _ mem ((begins _ mem).mpr rfl)
  | some word =>
      have mem := List.mem_of_find?_eq_some found
      have stands := List.find?_some
        (show keywords.find? (fun word => beginsWord word cs) = some word from found)
      have same := (begins word mem).mp stands
      have isKey : isKeyword (cs.takeWhile isWordChar) = true :=
        List.contains_iff_mem.mpr (same ▸ mem)
      rw [if_pos isKey, same]

/-! ## The search -/

/-- Within a word nothing is found. -/
theorem countKeywords_run {run : List Char} (word : ∀ c ∈ run, isWordChar c = true) {skip : Nat}
    (within : skip ≤ run.length) (rest : List Char) :
    countKeywords true skip (run ++ rest) = countKeywords true 0 rest := by
  induction run generalizing skip with
  | nil => rw [Nat.le_zero.mp within, List.nil_append]
  | cons c run ih =>
      obtain ⟨first, others⟩ := List.forall_mem_cons.mp word
      cases skip with
      | zero =>
          rw [List.cons_append, countKeywords, if_pos rfl, first]
          exact ih others (Nat.zero_le _)
      | succ skip =>
          rw [List.cons_append, countKeywords, first]
          exact ih others (Nat.le_of_succ_le_succ within)

/-- A character that is none of a word is passed over. -/
theorem countKeywords_break {c : Char} (other : isWordChar c = false) (inWord : Bool)
    (rest : List Char) : countKeywords inWord 0 (c :: rest) = countKeywords false 0 rest := by
  have nothing : keywordAt? (c :: rest) = none := by
    rw [keywordAt?_eq, List.takeWhile_cons_of_neg (by simp [other])]
    rfl
  cases inWord <;> simp [countKeywords, nothing, other]

/-- What comes next belongs to no word. -/
theorem countKeywords_behind {rest : List Char} (ends : rest.takeWhile isWordChar = [])
    (inWord : Bool) : countKeywords inWord 0 rest = countKeywords false 0 rest := by
  cases rest with
  | nil => rfl
  | cons c rest =>
      have other : isWordChar c = false := by
        rw [Bool.eq_false_iff]
        intro belongs
        rw [List.takeWhile_cons_of_pos belongs] at ends
        cases ends
      rw [countKeywords_break other, countKeywords_break other]

/-- The first word of a text counts if it is a keyword, and then the search goes on behind it. -/
theorem countKeywords_first {run rest : List Char} (word : ∀ c ∈ run, isWordChar c = true)
    (ends : rest.takeWhile isWordChar = []) :
    countKeywords false 0 (run ++ rest) =
      (words run).countP isKeyword + countKeywords false 0 rest := by
  cases run with
  | nil => simp [Text.words_run]
  | cons c run =>
      obtain ⟨first, others⟩ := List.forall_mem_cons.mp word
      have whole : (c :: (run ++ rest)).takeWhile isWordChar = c :: run := by
        rw [← List.cons_append, List.takeWhile_append_of_pos word, ends, List.append_nil]
      have after : ∀ skip ≤ run.length,
          countKeywords true skip (run ++ rest) = countKeywords false 0 rest := fun skip within =>
        (countKeywords_run others within rest).trans (countKeywords_behind ends true)
      rw [List.cons_append, countKeywords, keywordAt?_eq, whole, Text.words_run word,
        if_neg (List.cons_ne_nil _ _), List.countP_singleton]
      cases isKey : isKeyword (c :: run) with
      | true =>
          simp only [first, List.map_cons, List.length_cons, List.length_map, if_true,
            Bool.false_eq_true, if_false, Nat.add_sub_cancel, after run.length (Nat.le_refl _)]
          omega
      | false =>
          simp only [first, Bool.false_eq_true, if_false, after 0 (Nat.zero_le _), Nat.zero_add]

/-- Seeking keywords from the left finds the words that are keywords. -/
theorem countKeywords_eq (cs : List Char) :
    countKeywords false 0 cs = (words cs).countP isKeyword := by
  induction cs using Text.runs_induction with
  | last run word =>
      have found : countKeywords false 0 (run ++ []) = (words run).countP isKeyword :=
        countKeywords_first word rfl
      rwa [List.append_nil] at found
  | behind run c rest word other ih =>
      rw [countKeywords_first word (List.takeWhile_cons_of_neg (by simp [other])),
        countKeywords_break other, ih, Text.words_append_break other, List.countP_append]

/-- The metric can be had exactly when the comment nodes of the file can,
and is then the number of words in these nodes that are keywords. -/
theorem keywords_are_words [Grammars] (registry : Registry) (file : ParsedFile)
    (cache : Query.Cache) (value : Nat) :
    (keywordsInComments.measure registry file cache).1 = .ok value ↔
      ∃ nodes, (commentNodes registry file cache).1 = .ok nodes ∧
        value = (nodes.map fun node =>
          (words (node.text file.source).toList).countP isKeyword).sum := by
  have total : ∀ nodes, keywordTotal file nodes =
      (nodes.map fun node => (words (node.text file.source).toList).countP isKeyword).sum := by
    intro nodes
    induction nodes with
    | nil => rfl
    | cons node rest ih =>
        rw [List.map_cons, List.sum_cons, ← ih, ← countKeywords_eq]
        rfl
  rcases captured : commentNodes registry file cache with ⟨_ | nodes, later⟩
  · simp [measure, captured]
  · simp [measure, captured, total, eq_comm]

end Metric

end SourceGauge
