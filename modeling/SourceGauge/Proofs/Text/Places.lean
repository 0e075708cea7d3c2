/-
# SourceGauge.Proofs.Text.Places -- rows and bytes of a text

The place of a byte is sought from the beginning of a text; a later place is sought from there on
(`exists_seek_eq`).  So places of one text are on rows in the order of their bytes
(`row_le_of_byte_le`), and a place that begins a row is on a later row than every place before it
(`row_lt_of_byte_lt`).
-/
import SourceGauge.Text.Lines

namespace SourceGauge.Text.Place

set_option autoImplicit false

theorem row_le_after (place : Place) (c : Char) : place.row ≤ (place.after c).row := by
  unfold after
  split
  · exact Nat.le_succ _
  · exact Nat.le_refl _

theorem row_le_seek (byte : Nat) (place : Place) (cs : List Char) :
    place.row ≤ (seek byte place cs).row := by
  induction cs generalizing place with
  | nil => exact Nat.le_refl _
  | cons c cs ih =>
      rw [seek]
      split
      · exact Nat.le_refl _
      · exact Nat.le_trans (row_le_after place c) (ih (place.after c))

/-- What is sought from the beginning can be sought from a place on the way. -/
theorem exists_seek_eq {byte later : Nat} (le : byte ≤ later) (place : Place) (cs : List Char) :
    ∃ rest, seek later place cs = seek later (seek byte place cs) rest := by
  induction cs generalizing place with
  | nil => exact ⟨[], rfl⟩
  | cons c cs ih =>
      rw [seek.eq_2 byte]
      split
      · exact ⟨c :: cs, rfl⟩
      · next beyond =>
        rw [seek.eq_2 later, if_neg (by omega)]
        exact ih (place.after c)

/-- A place that begins a row and was sought from an earlier one is on a later row. -/
theorem row_lt_seek {byte : Nat} {place : Place} {cs : List Char} (before : place.byte < byte)
    (there : (seek byte place cs).byte = byte) (first : (seek byte place cs).column = 0) :
    place.row < (seek byte place cs).row := by
  induction cs generalizing place with
  | nil => exact absurd there (Nat.ne_of_lt before)
  | cons c cs ih =>
      rw [seek, if_neg (Nat.not_le.mpr before)] at there first ⊢
      by_cases reached : byte ≤ (place.after c).byte
      · -- the character before the place is the line break
        have stays : seek byte (place.after c) cs = place.after c := by
          cases cs with
          | nil => rfl
          | cons d ds => rw [seek, if_pos reached]
        rw [stays] at first ⊢
        unfold after at first ⊢
        split
        · exact Nat.lt_succ_self _
        · next other =>
          have size := c.utf8Size_pos
          rw [if_neg other] at first
          exact absurd first (by simp; omega)
      · exact Nat.lt_of_le_of_lt (row_le_after place c)
          (ih (Nat.lt_of_not_le reached) there first)

section OfByte

variable {source : String} {place later : Place}

theorem exists_seek_of_byte_le (here : place = ofByte source place.byte)
    (there : later = ofByte source later.byte) (le : place.byte ≤ later.byte) :
    ∃ rest, later = seek later.byte place rest := by
  obtain ⟨rest, same⟩ := exists_seek_eq le start source.toList
  rw [← ofByte, ← ofByte, ← here, ← there] at same
  exact ⟨rest, same⟩

/-- A later byte is on no earlier row. -/
theorem row_le_of_byte_le (here : place = ofByte source place.byte)
    (there : later = ofByte source later.byte) (le : place.byte ≤ later.byte) :
    place.row ≤ later.row := by
  obtain ⟨rest, same⟩ := exists_seek_of_byte_le here there le
  rw [same]
  exact row_le_seek _ place rest

/-- A place that begins a row is on a later row than the places before it. -/
theorem row_lt_of_byte_lt (here : place = ofByte source place.byte)
    (there : later = ofByte source later.byte) (before : place.byte < later.byte)
    (first : later.column = 0) : place.row < later.row := by
  obtain ⟨rest, same⟩ := exists_seek_of_byte_le here there (Nat.le_of_lt before)
  rw [same] at first ⊢
  exact row_lt_seek before (congrArg byte same.symm) first

end OfByte

end SourceGauge.Text.Place
