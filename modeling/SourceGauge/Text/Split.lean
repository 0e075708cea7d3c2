/-
# SourceGauge.Text.Split -- cutting text at a delimiter

Names of types are segments joined by a delimiter, which may be more than one
character long.  Occurrences of a delimiter are found from the left and do not
overlap (`pieces`); `afterLast` is the text after the rightmost occurrence.
Everything is a recursion on the characters; the functions on `String` wrap
those.

* `join_split`: joining the pieces of a text by the delimiter gives the text.
* `contains_iff`: one text contains another when it holds it as a run of
  characters.
-/

namespace SourceGauge.Text

set_option autoImplicit false

/-! ## Characters -/

def consFirst (c : Char) : List (List Char) → List (List Char)
  | [] => [[c]]
  | p :: ps => (c :: p) :: ps

/-- The pieces between the leftmost occurrences of `d` that do not overlap.
`skip` characters still belong to the occurrence found last. -/
def pieces (d : List Char) : Nat → List Char → List (List Char)
  | _, [] => [[]]
  | skip + 1, _ :: cs => pieces d skip cs
  | 0, c :: cs =>
      if d.isPrefixOf (c :: cs) then [] :: pieces d (d.length - 1) cs
      else consFirst c (pieces d 0 cs)

/-- The text without the occurrences of `d` at its start.  `skip` characters
still belong to an occurrence that is being left out. -/
def dropLeading (d : List Char) : Nat → List Char → List Char
  | _, [] => []
  | skip + 1, _ :: cs => dropLeading d skip cs
  | 0, c :: cs =>
      if d ≠ [] ∧ d.isPrefixOf (c :: cs) then dropLeading d (d.length - 1) cs else c :: cs

/-- The text after the rightmost occurrence of `d`, if there is one. -/
def afterLast? (d : List Char) : List Char → Option (List Char)
  | [] => if d.isEmpty then some [] else none
  | c :: cs =>
      match afterLast? d cs with
      | some rest => some rest
      | none => if d.isPrefixOf (c :: cs) then some ((c :: cs).drop d.length) else none

/-- Whether `d` occurs in the text. -/
def occurs (d : List Char) : List Char → Bool
  | [] => d.isEmpty
  | c :: cs => d.isPrefixOf (c :: cs) || occurs d cs

theorem pieces_ne_nil (d : List Char) : ∀ (skip : Nat) (cs : List Char), pieces d skip cs ≠ []
  | _, [] => by simp [pieces]
  | skip + 1, _ :: cs => by simpa only [pieces] using pieces_ne_nil d skip cs
  | 0, c :: cs => by
      simp only [pieces]
      split
      · simp
      · cases h : pieces d 0 cs <;> simp [consFirst]

/-! ## Strings -/

def join (delimiter : String) : List String → String
  | [] => ""
  | [s] => s
  | s :: t :: rest => s ++ delimiter ++ join delimiter (t :: rest)

/-- The pieces of a text at `delimiter`; an empty delimiter stands at both ends
and between each two characters. -/
def split (delimiter : String) (s : String) : List String :=
  if delimiter = "" then
    "" :: (s.toList.map fun c => String.ofList [c]) ++ [""]
  else (pieces delimiter.toList 0 s.toList).map String.ofList

/-- The text without every `delimiter` at its start. -/
def trimLeading (delimiter s : String) : String :=
  String.ofList (dropLeading delimiter.toList 0 s.toList)

/-- The text after the last `delimiter`, or the whole text. -/
def lastSegment (delimiter s : String) : String :=
  match afterLast? delimiter.toList s.toList with
  | some rest => String.ofList rest
  | none => s

/-- The text after one `start` at its beginning. -/
def stripStart? (start s : String) : Option String :=
  if start.toList.isPrefixOf s.toList then some (String.ofList (s.toList.drop start.toList.length))
  else none

/-- The text before one `ending` at its end. -/
def stripEnd? (ending s : String) : Option String :=
  if ending.toList.isSuffixOf s.toList then
    some (String.ofList (s.toList.take (s.toList.length - ending.toList.length)))
  else none

def contains (part s : String) : Bool := occurs part.toList s.toList

def startsWith (start s : String) : Bool := start.toList.isPrefixOf s.toList

/-! ## Joining what was split -/

theorem join_cons {delimiter s : String} {rest : List String} (h : rest ≠ []) :
    join delimiter (s :: rest) = s ++ delimiter ++ join delimiter rest := by
  cases rest with
  | nil => exact absurd rfl h
  | cons t rest => rfl

theorem toList_join_consFirst (delimiter : String) (c : Char) (ps : List (List Char)) :
    (join delimiter ((consFirst c ps).map String.ofList)).toList =
      c :: (join delimiter (ps.map String.ofList)).toList := by
  cases ps with
  | nil => simp [consFirst, join]
  | cons p ps =>
      cases ps with
      | nil => simp [consFirst, join]
      | cons q qs => simp [consFirst, join]

/-- The pieces joined by the delimiter are the text less the skipped characters. -/
theorem toList_join_pieces {delimiter : String} (nonempty : delimiter.toList ≠ []) :
    ∀ (cs : List Char) (skip : Nat),
      (join delimiter ((pieces delimiter.toList skip cs).map String.ofList)).toList =
        cs.drop skip
  | [], skip => by simp [pieces, join]
  | c :: cs, skip + 1 => by
      simpa only [pieces, List.drop_succ_cons] using toList_join_pieces nonempty cs skip
  | c :: cs, 0 => by
      simp only [pieces]
      split
      · next found =>
        have tail :
            (pieces delimiter.toList (delimiter.toList.length - 1) cs).map String.ofList ≠ [] := by
          simpa using pieces_ne_nil _ _ cs
        rw [List.map_cons, join_cons tail]
        simp only [String.toList_append, String.toList_ofList, List.nil_append,
          toList_join_pieces nonempty cs]
        obtain ⟨rest, split⟩ := List.isPrefixOf_iff_prefix.mp found
        cases h : delimiter.toList with
        | nil => exact absurd h nonempty
        | cons x xs =>
            rw [h] at split
            simp only [List.cons_append, List.cons.injEq] at split
            obtain ⟨rfl, rfl⟩ := split
            simp
      · rw [toList_join_consFirst, toList_join_pieces nonempty cs]
        simp

/-- Joining the pieces of a text by the delimiter gives the text. -/
theorem join_split {delimiter : String} (nonempty : delimiter ≠ "") (s : String) :
    join delimiter (split delimiter s) = s := by
  have chars : delimiter.toList ≠ [] := by simpa using nonempty
  apply String.toList_inj.mp
  simp [split, nonempty, toList_join_pieces chars]

/-! ## Texts within texts -/

theorem occurs_iff {d cs : List Char} : occurs d cs = true ↔ d <:+: cs := by
  induction cs with
  | nil => simp [occurs]
  | cons c cs ih => simp [occurs, List.infix_cons_iff, ih]

theorem contains_iff {part s : String} : contains part s = true ↔ part.toList <:+: s.toList :=
  occurs_iff

end SourceGauge.Text
