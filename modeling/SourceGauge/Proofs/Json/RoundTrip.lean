/-
# SourceGauge.Proofs.Json.RoundTrip -- what is printed is read back

The compact text of a value made of texts, lists and named fields (`Json.Textual`) is read as that
value.  A text is `ReadAs` tokens when they come out of it whatever follows; such texts may be put
together (`ReadAs.append`).  The token of a quoted text holds the text itself, control characters
and all (`readAs_quote`), and the tokens of a value lead from the place where a value may stand to
the value given to the innermost open container (`Json.Writes`).

* `parse?_render`: reading the printed text gives the value back.
-/
import Mathlib.Data.List.Basic
import SourceGauge.Json.Printer
import SourceGauge.Json.Reader

namespace SourceGauge.Json

set_option autoImplicit false

/-! ## Texts that can be put together -/

/-- A text is read as tokens, whatever follows it. -/
def ReadAs (text : String) (tokens : List Token) : Prop :=
  ∀ rest, tokensFrom? .between (text.toList ++ rest) =
    (tokensFrom? .between rest).map (tokens ++ ·)

theorem readAs_empty : ReadAs "" [] := by
  intro rest
  show tokensFrom? .between rest = _
  cases tokensFrom? .between rest <;> rfl

theorem ReadAs.append {s t : String} {first second : List Token} (readS : ReadAs s first)
    (readT : ReadAs t second) : ReadAs (s ++ t) (first ++ second) := by
  intro rest
  rw [String.toList_append, List.append_assoc, readS, readT, Option.map_map]
  congr 1
  funext tokens
  exact (List.append_assoc first second tokens).symm

/-- A punctuation character is a token of its own. -/
theorem readAs_punctuation {text : String} {c : Char} {token : Token} (chars : text.toList = [c])
    (isToken : punctuation? c = some token) : ReadAs text [token] := by
  have alone : start c = (.between, [token]) := by
    unfold punctuation? at isToken
    split at isToken <;> cases isToken <;> rfl
  intro rest
  rw [chars, List.singleton_append, tokensFrom?, Mode.step, alone]

theorem readAs_comma : ReadAs "," [.comma] := readAs_punctuation rfl rfl

theorem readAs_colon : ReadAs ":" [.colon] := readAs_punctuation rfl rfl

/-- Brackets around a text are tokens around its own. -/
theorem ReadAs.bracket {text : String} {tokens : List Token} (read : ReadAs text tokens) :
    ReadAs ("[" ++ text ++ "]") ([.openArray] ++ tokens ++ [.closeArray]) :=
  have opens : ReadAs "[" [.openArray] := readAs_punctuation rfl rfl
  have closes : ReadAs "]" [.closeArray] := readAs_punctuation rfl rfl
  (opens.append read).append closes

/-- Braces around a text are tokens around its own. -/
theorem ReadAs.brace {text : String} {tokens : List Token} (read : ReadAs text tokens) :
    ReadAs ("\x7b" ++ text ++ "\x7d") ([.openObject] ++ tokens ++ [.closeObject]) :=
  have opens : ReadAs "\x7b" [.openObject] := readAs_punctuation rfl rfl
  have closes : ReadAs "\x7d" [.closeObject] := readAs_punctuation rfl rfl
  (opens.append read).append closes

theorem tokens?_of_readAs {text : String} {tokens : List Token} (read : ReadAs text tokens) :
    tokens? text = some tokens := by
  have whole := read []
  rw [List.append_nil] at whole
  rw [tokens?, whole]
  show some (tokens ++ []) = some tokens
  rw [List.append_nil]

/-! ## Quoted texts -/

theorem hexDigit?_hexDigit {n : Nat} (digit : n < 16) : hexDigit? (hexDigit n) = some n := by
  have each : ∀ n < 16, hexDigit? (hexDigit n) = some n := by decide
  exact each n digit

/-- The letter of an escape stands for the character. -/
theorem shortEscape?_of_escapeLetter? {c letter : Char} (escaped : escapeLetter? c = some letter) :
    letter ≠ 'u' ∧ shortEscape? letter = some c := by
  unfold escapeLetter? at escaped
  split at escaped <;> cases escaped <;> exact ⟨by decide, rfl⟩

/-- A character that ends no token only changes the state. -/
theorem tokensFrom?_cons {mode next : Mode} {c : Char} (step : mode.step c = some (next, []))
    (cs : List Char) : tokensFrom? mode (c :: cs) = tokensFrom? next cs := by
  rw [tokensFrom?, step]
  show (tokensFrom? next cs).map ([] ++ ·) = tokensFrom? next cs
  cases tokensFrom? next cs <;> rfl

/-- A control character is written by its number. -/
theorem tokensFrom?_control (draft : Draft) {c : Char} (control : c.toNat < 0x20)
    (cs : List Char) :
    tokensFrom? (.string draft)
        ('\\' :: 'u' :: '0' :: '0' :: hexDigit (c.toNat / 16) :: hexDigit (c.toNat % 16) :: cs) =
      tokensFrom? (.string (draft.push c)) cs := by
  have high : Mode.step (.hex draft 2 0) (hexDigit (c.toNat / 16)) =
      some (.hex draft 3 (c.toNat / 16), []) := by
    rw [Mode.step, hexDigit?_hexDigit (by omega)]
    simp
  have low : Mode.step (.hex draft 3 (c.toNat / 16)) (hexDigit (c.toNat % 16)) =
      some (.string (draft.push c), []) := by
    have number : c.toNat / 16 * 16 + c.toNat % 16 = c.toNat := by omega
    have unit : draft.pushUnit c.toNat = draft.push c := by
      rw [Draft.pushUnit, if_neg (by omega), if_neg (by omega), Char.ofNat_toNat]
    rw [Mode.step, hexDigit?_hexDigit (by omega)]
    simp only [if_true, number, unit]
  have escape : Mode.step (.string draft) '\\' = some (.escape draft, []) := rfl
  have unit : Mode.step (.escape draft) 'u' = some (.hex draft 0 0, []) := rfl
  have first : Mode.step (.hex draft 0 0) '0' = some (.hex draft 1 0, []) := rfl
  have second : Mode.step (.hex draft 1 0) '0' = some (.hex draft 2 0, []) := rfl
  rw [tokensFrom?_cons escape, tokensFrom?_cons unit, tokensFrom?_cons first,
    tokensFrom?_cons second, tokensFrom?_cons high, tokensFrom?_cons low]

/-- A character of a text is read as itself, however it is written. -/
theorem tokensFrom?_escapeChar (draft : Draft) (c : Char) (cs : List Char) :
    tokensFrom? (.string draft) (escapeChar c ++ cs) =
      tokensFrom? (.string (draft.push c)) cs := by
  unfold escapeChar
  split
  · next letter escaped =>
    obtain ⟨short, meant⟩ := shortEscape?_of_escapeLetter? escaped
    have escape : Mode.step (.string draft) '\\' = some (.escape draft, []) := rfl
    have close : Mode.step (.escape draft) letter = some (.string (draft.push c), []) := by
      rw [Mode.step, if_neg short, meant, Option.map_some]
    show tokensFrom? _ ('\\' :: letter :: cs) = _
    rw [tokensFrom?_cons escape, tokensFrom?_cons close]
  · next plain =>
    split
    · next control => exact tokensFrom?_control draft control cs
    · next visible =>
      have notQuote : c ≠ '"' := by
        rintro rfl
        cases plain
      have notBackslash : c ≠ '\\' := by
        rintro rfl
        cases plain
      have self : Mode.step (.string draft) c = some (.string (draft.push c), []) := by
        rw [Mode.step, if_neg notQuote, if_neg notBackslash, if_neg visible]
      exact tokensFrom?_cons self cs

theorem tokensFrom?_escaped (draft : Draft) (text cs : List Char) :
    tokensFrom? (.string draft) (text.flatMap escapeChar ++ cs) =
      tokensFrom? (.string (text.foldl Draft.push draft)) cs := by
  induction text generalizing draft with
  | nil => rfl
  | cons c text ih =>
      rw [List.flatMap_cons, List.append_assoc, tokensFrom?_escapeChar, ih, List.foldl_cons]

theorem foldl_push (text reversed : List Char) :
    text.foldl Draft.push { reversed } = { reversed := text.reverse ++ reversed } := by
  induction text generalizing reversed with
  | nil => rfl
  | cons c text ih =>
      have pushed : Draft.push { reversed } c = { reversed := c :: reversed } := rfl
      rw [List.foldl_cons, pushed, ih, List.reverse_cons, List.append_assoc,
        List.singleton_append]

/-- A quoted text is read as one token that holds it. -/
theorem readAs_quote (text : String) : ReadAs (quote text) [.string (some text)] := by
  intro rest
  have chars : (quote text).toList ++ rest =
      '"' :: (text.toList.flatMap escapeChar ++ ('"' :: rest)) := by
    simp [quote]
  have opens : Mode.step .between '"' = some (.string {}, []) := rfl
  have closes : Mode.step (.string { reversed := text.toList.reverse }) '"' =
      some (.between, [.string (some text)]) := by
    show some (Mode.between, [Token.string (some (String.ofList text.toList.reverse.reverse))]) = _
    rw [List.reverse_reverse, String.ofList_toList]
  rw [chars, tokensFrom?_cons opens, tokensFrom?_escaped, foldl_push, List.append_nil,
    tokensFrom?, closes]

/-! ## Values -/

/-- A value made of texts, lists and named fields. -/
inductive Textual : Json → Prop where
  | string (text : String) : Textual (.string text)
  | array {items : List Json} (inside : ∀ item ∈ items, Textual item) : Textual (.array items)
  | record {fields : List (String × Json)} (inside : ∀ field ∈ fields, Textual field.2) :
      Textual (Json.record fields)

/-- The text of a value is read as tokens, and the tokens give the value. -/
structure Writes (value : Json) (tokens : List Token) : Prop where
  reads : ReadAs (render value) tokens
  gives : ∀ stack mayClose, (Reading.value stack mayClose).run tokens = some (.give value stack)

theorem Writes.string (text : String) : Writes (.string text) [.string (some text)] where
  reads := by
    rw [render]
    exact readAs_quote text
  gives := fun _ _ => rfl

/-- Items with commas between them fill the innermost open array. -/
theorem exists_writes_items {items : List Json} (proper : items ≠ [])
    (each : ∀ item ∈ items, ∃ tokens, Writes item tokens) :
    ∃ tokens, ReadAs (renderItems items) tokens ∧ ∀ reversed stack mayClose,
      (Reading.value (.array reversed :: stack) mayClose).run tokens =
        some (.more (.array (items.reverse ++ reversed)) stack) := by
  induction items with
  | nil => exact absurd rfl proper
  | cons item rest ih =>
      obtain ⟨⟨first, writes⟩, eachRest⟩ := List.forall_mem_cons.mp each
      cases rest with
      | nil =>
          refine ⟨first, ?_, fun reversed stack mayClose => writes.gives _ _⟩
          rw [renderItems]
          exact writes.reads
      | cons next rest =>
          obtain ⟨later, reads, fills⟩ := ih (List.cons_ne_nil next rest) eachRest
          refine ⟨(first ++ [.comma]) ++ later, ?_, fun reversed stack mayClose => ?_⟩
          · rw [renderItems]
            exact (writes.reads.append readAs_comma).append reads
          · rw [Reading.run_append, Reading.run_append, writes.gives]
            show (Reading.value (.array (item :: reversed) :: stack) false).run later = _
            have order : (item :: next :: rest).reverse ++ reversed =
                (next :: rest).reverse ++ item :: reversed := by
              rw [List.reverse_cons, List.append_assoc, List.singleton_append]
            rw [fills, order]

/-- Fields with commas between them fill the innermost open object. -/
theorem exists_writes_fields {fields : List (String × Json)} (proper : fields ≠ [])
    (each : ∀ field ∈ fields, ∃ tokens, Writes field.2 tokens) :
    ∃ tokens, ReadAs (renderFields (fields.map fun field => (some field.1, field.2))) tokens ∧
      ∀ reversed stack mayClose, (Reading.key reversed stack mayClose).run tokens =
        some (.more (.object
          ((fields.map fun field => (some field.1, field.2)).reverse ++ reversed) none)
          stack) := by
  induction fields with
  | nil => exact absurd rfl proper
  | cons field rest ih =>
      obtain ⟨name, value⟩ := field
      obtain ⟨⟨first, writes⟩, eachRest⟩ := List.forall_mem_cons.mp each
      have readsField : ReadAs (quoteName (some name) ++ ":" ++ render value)
          ([.string (some name)] ++ [.colon] ++ first) :=
        ((readAs_quote name).append readAs_colon).append writes.reads
      have fillsField : ∀ reversed stack mayClose, (Reading.key reversed stack mayClose).run
          ([.string (some name)] ++ [.colon] ++ first) =
            some (.more (.object ((some name, value) :: reversed) none) stack) := by
        intro reversed stack mayClose
        rw [Reading.run_append]
        show (Reading.value (.object reversed (some name) :: stack) false).run first = _
        exact writes.gives _ _
      cases rest with
      | nil =>
          refine ⟨_, ?_, fillsField⟩
          rw [List.map_singleton, renderFields]
          exact readsField
      | cons next rest =>
          obtain ⟨later, reads, fills⟩ := ih (List.cons_ne_nil next rest) eachRest
          refine ⟨([.string (some name)] ++ [.colon] ++ first ++ [.comma]) ++ later, ?_,
            fun reversed stack mayClose => ?_⟩
          · rw [List.map_cons, List.map_cons, renderFields]
            exact (readsField.append readAs_comma).append reads
          · rw [Reading.run_append, Reading.run_append, fillsField]
            show (Reading.key ((some name, value) :: reversed) stack false).run later = _
            have order (behind : List (Option String × Json)) :
                behind.reverse ++ (some name, value) :: reversed =
                  ((some name, value) :: behind).reverse ++ reversed := by
              rw [List.reverse_cons, List.append_assoc, List.singleton_append]
            rw [fills, order]
            rfl

/-- Every textual value is written by tokens that give it. -/
theorem Textual.exists_writes {value : Json} (textual : value.Textual) :
    ∃ tokens, Writes value tokens := by
  induction textual with
  | string text => exact ⟨_, Writes.string text⟩
  | @array items _ ih =>
      by_cases proper : items = []
      · subst proper
        exact ⟨_, readAs_empty.bracket, fun _ _ => rfl⟩
      · obtain ⟨tokens, reads, fills⟩ := exists_writes_items proper ih
        refine ⟨[.openArray] ++ tokens ++ [.closeArray], ?_, fun stack mayClose => ?_⟩
        · rw [render]
          exact reads.bracket
        · rw [List.append_assoc, Reading.run_append]
          show (Reading.value (.array [] :: stack) true).run (tokens ++ [.closeArray]) = _
          rw [Reading.run_append, fills, List.append_nil]
          show some (Reading.give (.array items.reverse.reverse) stack) = _
          rw [List.reverse_reverse]
  | @record fields _ ih =>
      by_cases proper : fields = []
      · subst proper
        exact ⟨_, readAs_empty.brace, fun _ _ => rfl⟩
      · obtain ⟨tokens, reads, fills⟩ := exists_writes_fields proper ih
        refine ⟨[.openObject] ++ tokens ++ [.closeObject], ?_, fun stack mayClose => ?_⟩
        · rw [Json.record, render]
          exact reads.brace
        · rw [List.append_assoc, Reading.run_append]
          show (Reading.key [] stack true).run (tokens ++ [.closeObject]) = _
          rw [Reading.run_append, fills, List.append_nil]
          show some (Reading.give (.object (List.reverse (List.reverse _))) stack) = _
          rw [List.reverse_reverse]
          rfl

/-- Reading the printed text of a textual value gives the value back. -/
theorem parse?_render {value : Json} (textual : value.Textual) :
    parse? (render value) = some value := by
  obtain ⟨tokens, writes⟩ := textual.exists_writes
  rw [parse?, tokens?_of_readAs writes.reads, Option.bind_some, ofTokens?, writes.gives]
  rfl

end SourceGauge.Json
