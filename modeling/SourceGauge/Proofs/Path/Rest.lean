/-
# SourceGauge.Proofs.Path.Rest -- what is left of a path below a base

Stripping a base from a path works on the text: steps are left out up to the component where the
base ends, and what remains is printed again, without idle steps at either end.  Read as a path of
its own, the text that is left has the remaining components and no other
(`components_dropComponents`), whatever doubled slashes and dots stood in the path.

* `components_relativeTo?`: what is left below a base has the components of the path after those
  of the base; a path that is not below it keeps them all (`Path.stepsBelow`).
-/
import Mathlib.Data.List.DropRight
import SourceGauge.Proofs.Path.Below

namespace SourceGauge.Path

set_option autoImplicit false

/-- The components of a path below a base; all of them when the path lies elsewhere. -/
def stepsBelow (path base : Path) : List Component :=
  if base.components <+: path.components then path.components.drop base.components.length
  else path.components

/-! ## Steps that are left out -/

theorem inner_cons_of_idle {step : String} (idle : isIdle step = true) (rest : List String) :
    inner (step :: rest) = inner rest := by
  simp [inner, idle]

theorem inner_cons_of_goes {step : String} (goes : isIdle step = false) (rest : List String) :
    inner (step :: rest) = component step :: inner rest := by
  simp [inner, goes]

theorem inner_of_idle {steps : List String} (idle : ∀ step ∈ steps, isIdle step = true) :
    inner steps = [] := by
  induction steps with
  | nil => rfl
  | cons step rest ih =>
      rw [inner_cons_of_idle (idle step List.mem_cons_self)]
      exact ih fun other mem => idle other (List.mem_cons_of_mem _ mem)

theorem inner_dropWhile (steps : List String) : inner (steps.dropWhile isIdle) = inner steps := by
  have parts := List.takeWhile_append_dropWhile (p := isIdle) (l := steps)
  have idle : inner (steps.takeWhile isIdle) = [] :=
    inner_of_idle fun step mem => List.mem_takeWhile_imp mem
  conv_rhs => rw [← parts, inner_append, idle, List.nil_append]

theorem inner_trimEnd (steps : List String) : inner (trimEnd steps) = inner steps := by
  have parts := List.rdropWhile_append_rtakeWhile (p := isIdle) (l := steps)
  have idle : inner (steps.rtakeWhile isIdle) = [] :=
    inner_of_idle fun step mem => List.mem_rtakeWhile_imp mem
  conv_rhs => rw [← parts, inner_append, idle, List.append_nil]
  rfl

theorem isPrefix_trimEnd (steps : List String) : trimEnd steps <+: steps :=
  List.rdropWhile_prefix isIdle steps

/-- Leaving out steps up to a component leaves out that many components. -/
theorem inner_dropSteps (n : Nat) (steps : List String) :
    inner (dropSteps n steps) = (inner steps).drop n := by
  induction steps generalizing n with
  | nil => cases n <;> rfl
  | cons step rest ih =>
      cases n with
      | zero => rfl
      | succ n =>
          cases idle : isIdle step with
          | true => rw [dropSteps, if_pos idle, ih, inner_cons_of_idle idle]
          | false => rw [dropSteps, idle, if_neg (by simp), ih, inner_cons_of_goes idle,
              List.drop_succ_cons]

theorem dropSteps_suffix (n : Nat) (steps : List String) : dropSteps n steps <:+ steps := by
  induction steps generalizing n with
  | nil => cases n <;> exact List.suffix_refl _
  | cons step rest ih =>
      cases n with
      | zero => exact List.suffix_refl _
      | succ n =>
          rw [dropSteps]
          split
          · exact (ih (n + 1)).trans (List.suffix_cons step rest)
          · exact (ih n).trans (List.suffix_cons step rest)

/-! ## Steps that are printed again -/

/-- The steps between slashes hold no slash. -/
theorem clear_steps (path : Path) : ∀ step ∈ path.steps, '/' ∉ step.toList :=
  fun _ mem => Text.not_mem_of_mem_split slash mem

theorem inner_split_join {steps : List String} (clear : ∀ step ∈ steps, '/' ∉ step.toList) :
    inner (Text.split "/" (Text.join "/" steps)) = inner steps := by
  cases steps with
  | nil => rfl
  | cons step rest => rw [Text.split_join slash (List.cons_ne_nil step rest) clear]

/-- Steps whose first one goes somewhere have their own components as a path. -/
theorem components_join {steps : List String} (clear : ∀ step ∈ steps, '/' ∉ step.toList)
    (goes : ∀ step ∈ steps.head?, isIdle step = false) :
    components ⟨Text.join "/" steps⟩ = inner steps := by
  cases steps with
  | nil => rfl
  | cons step rest =>
      have split : Path.steps ⟨Text.join "/" (step :: rest)⟩ = step :: rest :=
        Text.split_join slash (List.cons_ne_nil step rest) clear
      exact components_of_goes split (goes step rfl)

theorem head?_trimEnd {steps : List String} {step : String}
    (first : (trimEnd steps).head? = some step) : steps.head? = some step := by
  obtain ⟨tail, whole⟩ := isPrefix_trimEnd steps
  rw [← whole, List.head?_append, first, Option.some_or]

/-- Steps without the idle ones at either end have their own components as a path. -/
theorem components_join_trimmed {steps : List String}
    (clear : ∀ step ∈ steps, '/' ∉ step.toList) :
    components ⟨Text.join "/" (trimEnd (steps.dropWhile isIdle))⟩ = inner steps := by
  have within : ∀ step ∈ trimEnd (steps.dropWhile isIdle), step ∈ steps := by
    intro step mem
    exact (List.dropWhile_sublist isIdle).subset ((isPrefix_trimEnd _).subset mem)
  rw [components_join (fun step mem => clear step (within step mem)), inner_trimEnd,
    inner_dropWhile]
  intro step first
  have head := head?_trimEnd first
  have notIdle := List.head?_dropWhile_not isIdle steps
  rw [head] at notIdle
  simpa using notIdle

/-! ## Paths -/

section

variable {path : Path}

theorem components_of_rooted (rooted : path.isRooted = true) :
    path.components = .root :: inner path.steps.tail := by
  rw [components, if_pos rooted]

theorem components_of_dot (notRooted : path.isRooted = false)
    (dot : path.steps.head? = some ".") :
    path.components = .current :: inner path.steps.tail := by
  rw [components, notRooted, if_neg (by simp), if_pos dot]

theorem components_of_plain (plain : path.hasHead = false) :
    path.components = inner path.steps := by
  simp only [hasHead, Bool.or_eq_false_iff, decide_eq_false_iff_not] at plain
  rw [components, plain.1, if_neg (by simp), if_neg plain.2]

/-- The first component of a path with a head is that head. -/
theorem exists_components_eq (head : path.hasHead = true) :
    ∃ first, path.components = first :: inner path.steps.tail := by
  cases rooted : path.isRooted with
  | true => exact ⟨.root, components_of_rooted rooted⟩
  | false =>
      have dot : path.steps.head? = some "." := by simpa [hasHead, rooted] using head
      exact ⟨.current, components_of_dot rooted dot⟩

/-- A path without a head begins with a step that goes somewhere, unless it is empty. -/
theorem goes_of_head?_trimEnd (plain : path.hasHead = false) {step : String}
    (first : (trimEnd path.steps).head? = some step) : isIdle step = false := by
  simp only [hasHead, Bool.or_eq_false_iff, decide_eq_false_iff_not] at plain
  obtain ⟨rest, steps⟩ := List.head?_eq_some_iff.mp (head?_trimEnd first)
  have notDot : step ≠ "." := by
    rintro rfl
    exact plain.2 (head?_trimEnd first)
  have notEmpty : step ≠ "" := by
    rintro rfl
    -- an empty step before others would be the slash of the root
    have alone : rest = [] := by
      by_contra more
      have rooted := isRooted_iff.mpr ⟨rest, more, steps⟩
      rw [plain.1] at rooted
      cases rooted
    rw [steps, alone] at first
    exact absurd first (by decide)
  simp [isIdle, notDot, notEmpty]

end

/-- Leaving out idle steps at the end changes no component. -/
theorem components_trimmed (path : Path) : path.trimmed.components = path.components := by
  have clear : ∀ step ∈ trimEnd path.steps, '/' ∉ step.toList := by
    intro step mem
    exact path.clear_steps step ((isPrefix_trimEnd _).subset mem)
  have clearTail : ∀ step ∈ trimEnd path.steps.tail, '/' ∉ step.toList := by
    intro step mem
    exact path.clear_steps step (List.mem_of_mem_tail ((isPrefix_trimEnd _).subset mem))
  cases rooted : path.isRooted with
  | true =>
      have slashed : path.trimmed = ⟨"" ++ "/" ++ Text.join "/" (trimEnd path.steps.tail)⟩ := by
        rw [trimmed, if_pos rooted, String.empty_append]
      rw [slashed, components_append, inner_split_join clearTail, inner_trimEnd,
        components_of_rooted rooted]
      rfl
  | false =>
      cases plain : path.hasHead with
      | true =>
          have dot : path.steps.head? = some "." := by simpa [hasHead, rooted] using plain
          have headed : path.trimmed = ⟨Text.join "/" ("." :: trimEnd path.steps.tail)⟩ := by
            rw [trimmed, rooted, if_neg (by simp), if_pos plain]
          rw [headed, components_of_dot rooted dot, ← inner_trimEnd path.steps.tail]
          cases rest : trimEnd path.steps.tail with
          | nil => rfl
          | cons step steps =>
              rw [Text.join_cons (List.cons_ne_nil step steps), components_append, ← rest,
                inner_split_join clearTail]
              rfl
      | false =>
          have bare : path.trimmed = ⟨Text.join "/" (trimEnd path.steps)⟩ := by
            rw [trimmed, rooted, plain, if_neg (by simp), if_neg (by simp)]
          rw [bare, components_join clear, inner_trimEnd, components_of_plain plain]
          intro step first
          exact goes_of_head?_trimEnd plain first

/-- What is left of a path after its first components has the remaining ones. -/
theorem components_dropComponents (n : Nat) (path : Path) :
    (path.dropComponents n).components = path.components.drop n := by
  cases n with
  | zero => exact path.components_trimmed
  | succ n =>
      cases head : path.hasHead with
      | true =>
          have rest : path.dropComponents (n + 1) =
              ⟨Text.join "/" (trimEnd ((dropSteps n path.steps.tail).dropWhile isIdle))⟩ := by
            simp only [dropComponents, head, if_true]
          obtain ⟨first, whole⟩ := exists_components_eq head
          rw [rest, whole, List.drop_succ_cons, components_join_trimmed, inner_dropSteps]
          intro step mem
          exact path.clear_steps step
            (List.mem_of_mem_tail ((dropSteps_suffix n _).subset mem))
      | false =>
          have rest : path.dropComponents (n + 1) =
              ⟨Text.join "/" (trimEnd ((dropSteps (n + 1) path.steps).dropWhile isIdle))⟩ := by
            simp only [dropComponents, head, Bool.false_eq_true, if_false]
          rw [rest, components_of_plain head, components_join_trimmed, inner_dropSteps]
          intro step mem
          exact path.clear_steps step ((dropSteps_suffix _ _).subset mem)

/-- What is left below a base has the components below it; a path that is not below it stays. -/
theorem components_relativeTo? (path base : Path) :
    ((path.relativeTo? base).getD path).components = path.stepsBelow base := by
  unfold relativeTo? stepsBelow
  by_cases below : base.components <+: path.components
  · rw [if_pos (List.isPrefixOf_iff_prefix.mpr below), if_pos below]
    exact path.components_dropComponents _
  · rw [if_neg (mt List.isPrefixOf_iff_prefix.mp below), if_neg below]
    rfl

theorem stepsBelow_of_same {path base : Path} (same : path.same base = true) :
    path.stepsBelow base = [] := by
  rw [stepsBelow, same_iff.mp same, if_pos (List.prefix_refl _), List.drop_length]

/-- A path that is not the base itself has its last component below the base. -/
theorem getLast?_mem_stepsBelow {path base : Path} (other : path.same base = false)
    {step : Component} (last : path.components.getLast? = some step) :
    step ∈ path.stepsBelow base := by
  unfold stepsBelow
  split
  · next below =>
    obtain ⟨rest, whole⟩ := below
    have proper : rest ≠ [] := by
      rintro rfl
      rw [List.append_nil] at whole
      rw [same_iff.mpr whole.symm] at other
      cases other
    rw [← whole, List.drop_left]
    rw [← whole, List.getLast?_append_of_ne_nil _ proper] at last
    exact List.mem_of_getLast? last
  · exact List.mem_of_getLast? last

end SourceGauge.Path
