/-
# SourceGauge.Proofs.Path.LastStep -- what a text behind a path changes

A path is cut behind its last slash into a front (`Path.front`) and a last step (`Path.lastStep`).
The last step need not be a component: a slash at the end leaves it empty, and `.` behind a slash
goes nowhere (`Path.EndsIdle`).  A text behind a path goes on with the last step and leaves the
front as it is, so that the name it ends in lies in the front (`components_append_ending`).  The
path itself lies there too, unless it ends idle: then it is the front, and the name lies inside of
it (`folder?_append_ending_iff`).
-/
import SourceGauge.Proofs.Path.Below

namespace SourceGauge.Path

set_option autoImplicit false

/-! ## Front and last step -/

def lastStep (path : Path) : String := Text.lastSegment "/" path.text

def front (path : Path) : Path := ⟨(Text.stripEnd? path.lastStep path.text).getD ""⟩

/-- The last step is no component: the path is empty, or ends in a slash, or in `.` behind one. -/
def EndsIdle (path : Path) : Prop := isIdle path.lastStep = true ∧ path.text ≠ "."

/-- The components of the folder that a path lies in; the root and the empty path lie in none. -/
def folder? (path : Path) : Option (List Component) :=
  match path.components.getLast? with
  | none => none
  | some .root => none
  | some _ => some path.components.dropLast

theorem not_mem_lastStep (path : Path) : '/' ∉ path.lastStep.toList :=
  (Text.lastSegment_cases slash path.text).1

/-- The front is empty or ends in a slash. -/
theorem front_cases (path : Path) :
    (path.front.text = "" ∧ path.text = path.lastStep) ∨
      ∃ before, path.front.text = before ++ "/" ∧ path.text = before ++ "/" ++ path.lastStep := by
  obtain ⟨_, whole | ⟨before, whole⟩⟩ := Text.lastSegment_cases slash path.text
  · refine Or.inl ⟨?_, whole⟩
    have stripped := Text.stripEnd?_append path.lastStep ""
    rw [String.empty_append] at stripped
    rw [front, whole, ← lastStep, stripped, Option.getD_some]
  · refine Or.inr ⟨before, ?_, whole⟩
    rw [front, whole, ← lastStep, Text.stripEnd?_append, Option.getD_some]

theorem lastStep_append (path : Path) {ending : String} (clear : '/' ∉ ending.toList) :
    lastStep ⟨path.text ++ ending⟩ = path.lastStep ++ ending := by
  have absent : '/' ∉ (path.lastStep ++ ending).toList := by
    simp [path.not_mem_lastStep, clear]
  obtain ⟨_, whole⟩ | ⟨before, _, whole⟩ := path.front_cases
  · rw [lastStep, whole]
    exact Text.lastSegment_of_not_mem slash absent
  · rw [lastStep, whole, String.append_assoc]
    exact Text.lastSegment_append slash before absent

theorem front_append_lastStep (path : Path) : path.front.text ++ path.lastStep = path.text := by
  obtain ⟨empty, whole⟩ | ⟨before, slashed, whole⟩ := path.front_cases
  · rw [empty, String.empty_append, whole]
  · rw [slashed, whole]

/-! ## Components -/

theorem isRooted_of_no_slash {t : String} (clear : '/' ∉ t.toList) : isRooted ⟨t⟩ = false := by
  rw [Bool.eq_false_iff, Ne, isRooted_iff, steps, Text.split_of_not_mem slash clear]
  rintro ⟨rest, more, equal⟩
  exact more (List.cons.inj equal).2.symm

/-- A text without slashes is one step. -/
theorem components_of_no_slash {t : String} (clear : '/' ∉ t.toList) :
    components ⟨t⟩ = if t = "." then [.current] else inner [t] := by
  have one : steps ⟨t⟩ = [t] := Text.split_of_not_mem slash clear
  rw [components, if_neg (by simp [isRooted_of_no_slash clear]), one]
  simp only [List.head?_cons, Option.some.injEq, List.tail_cons]
  rfl

theorem append_slash_ne_dot (before t : String) : before ++ "/" ++ t ≠ "." := by
  intro dot
  have mem : '/' ∈ (before ++ "/" ++ t).toList := by simp
  rw [dot] at mem
  exact absurd mem (by decide)

/-- One step in the front of a path adds its own component, if it has one; a dot has one only where
nothing stands before it. -/
theorem components_front_append (path : Path) {t : String} (clear : '/' ∉ t.toList) :
    components ⟨path.front.text ++ t⟩ =
      path.front.components ++ if path.front.text ++ t = "." then [.current] else inner [t] := by
  obtain ⟨empty, _⟩ | ⟨before, slashed, _⟩ := path.front_cases
  · have none : path.front.components = [] := by
      rw [components, isRooted, steps, empty]
      rfl
    rw [none, empty, String.empty_append, components_of_no_slash clear, List.nil_append]
  · have front : path.front = ⟨before ++ "/"⟩ := congrArg Path.mk slashed
    rw [front, components_append, Text.split_of_not_mem slash clear,
      if_neg (append_slash_ne_dot before t)]

theorem components_eq_front_append (path : Path) :
    path.components =
      path.front.components ++ if path.text = "." then [.current] else inner [path.lastStep] := by
  have whole := path.components_front_append path.not_mem_lastStep
  rwa [front_append_lastStep] at whole

/-- A path that ends idle is its front. -/
theorem EndsIdle.components_eq {path : Path} (idle : path.EndsIdle) :
    path.components = path.front.components := by
  rw [components_eq_front_append, if_neg idle.2]
  simp [inner, idle.1]

/-- Any other path has one component more than its front. -/
theorem exists_components_eq_concat {path : Path} (goes : ¬path.EndsIdle) :
    ∃ last, last ≠ .root ∧ path.components = path.front.components ++ [last] := by
  rw [components_eq_front_append]
  by_cases dot : path.text = "."
  -- a dot that is the whole path goes nowhere and is a component all the same
  · exact ⟨.current, by simp, by rw [if_pos dot]⟩
  · have notIdle : isIdle path.lastStep = false := by simpa [EndsIdle, dot] using goes
    refine ⟨component path.lastStep, ?_, ?_⟩
    · unfold component
      split <;> simp
    · rw [if_neg dot]
      simp [inner, notIdle]

/-- The names in the front of a path follow the same steps. -/
theorem exists_steps_front_append (path : Path) :
    ∃ rooted before, ∀ name, IsName name →
      isRooted ⟨path.front.text ++ name⟩ = rooted ∧
        steps ⟨path.front.text ++ name⟩ = before ++ [name] := by
  obtain ⟨empty, _⟩ | ⟨before, slashed, _⟩ := path.front_cases
  · refine ⟨false, [], fun name isName => ?_⟩
    rw [empty, String.empty_append]
    exact ⟨isRooted_of_no_slash isName.one, Text.split_of_not_mem slash isName.one⟩
  · refine ⟨isRooted ⟨before ++ "/"⟩, Text.split "/" before, fun name isName => ?_⟩
    rw [slashed, isRooted_append, steps_append, Text.split_of_not_mem slash isName.one]
    exact ⟨rfl, rfl⟩

/-! ## Files and their folders -/

theorem fileName?_of_components {path : Path} {front : List Component} {name : String}
    (whole : path.components = front ++ [.name name]) : path.fileName? = some name := by
  rw [fileName?, whole, List.getLast?_concat]

theorem folder?_of_components {path : Path} {front : List Component} {last : Component}
    (whole : path.components = front ++ [last]) (inside : last ≠ .root) :
    path.folder? = some front := by
  rw [folder?, whole, List.getLast?_concat, List.dropLast_concat]
  cases last with
  | root => exact absurd rfl inside
  | current => rfl
  | parent => rfl
  | name text => rfl

/-- No path lies in itself. -/
theorem folder?_ne_components (path : Path) : path.folder? ≠ some path.components := by
  intro own
  obtain none | ⟨front, last, whole⟩ := List.eq_nil_or_concat path.components
  · rw [folder?, none] at own
    cases own
  · rw [List.concat_eq_append] at whole
    by_cases inside : last = .root
    · rw [folder?, whole, List.getLast?_concat, inside] at own
      cases own
    · rw [folder?_of_components whole inside, whole] at own
      simpa using Option.some.inj own

/-- The extension is what follows the last dot of a file name, unless that dot comes first. -/
theorem extension?_of_dot {path : Path} {stem ending : String} (clear : '.' ∉ ending.toList)
    (called : path.fileName? = some (stem ++ "." ++ ending)) :
    path.extension? = if stem = "" then none else some ending := by
  have chars : (stem ++ "." ++ ending).toList = stem.toList ++ '.' :: ending.toList := by simp
  rw [extension?, called]
  simp only [chars, Text.afterLast?_append stem.toList clear, String.ofList_toList]
  by_cases first : stem = ""
  · rw [if_pos first, first]
    simp
  · have before : stem.toList.length ≠ 0 := by simpa using first
    rw [if_neg first, if_neg]
    simp only [List.length_append, List.length_cons]
    omega

/-! ## Names behind the last slash -/

section

variable {path : Path} {ending : String}

/-- A text behind a path leaves its front as it is. -/
theorem components_append_ending (isName : IsName (path.lastStep ++ ending)) :
    components ⟨path.text ++ ending⟩ =
      path.front.components ++ [.name (path.lastStep ++ ending)] := by
  have notDot : path.text ++ ending ≠ "." := by
    obtain ⟨_, whole⟩ | ⟨before, _, whole⟩ := path.front_cases
    · rw [whole]
      exact isName.ne_dot
    · rw [whole, String.append_assoc]
      exact append_slash_ne_dot before _
  have step := path.components_front_append isName.one
  rw [← String.append_assoc, front_append_lastStep, if_neg notDot,
    inner_names (by simpa using isName)] at step
  exact step

theorem fileName?_append_ending (isName : IsName (path.lastStep ++ ending)) :
    fileName? ⟨path.text ++ ending⟩ = some (path.lastStep ++ ending) :=
  fileName?_of_components (components_append_ending isName)

theorem folder?_append_ending (isName : IsName (path.lastStep ++ ending)) :
    folder? ⟨path.text ++ ending⟩ = some path.front.components :=
  folder?_of_components (components_append_ending isName) (by simp)

/-- A text behind a path leads out of its folder just where the path ends idle. -/
theorem folder?_append_ending_iff (isName : IsName (path.lastStep ++ ending)) :
    folder? ⟨path.text ++ ending⟩ = path.folder? ↔ ¬path.EndsIdle := by
  rw [folder?_append_ending isName]
  constructor
  · intro same idle
    rw [← idle.components_eq] at same
    exact path.folder?_ne_components same.symm
  · intro goes
    obtain ⟨last, inside, whole⟩ := exists_components_eq_concat goes
    rw [folder?_of_components whole inside]

end

end SourceGauge.Path
