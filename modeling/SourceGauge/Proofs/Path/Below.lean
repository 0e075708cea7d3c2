/-
# SourceGauge.Proofs.Path.Below -- the paths below a folder

The entries of a folder have names (`Path.IsName`): steps that go somewhere, and down.
Names lead from a folder to a path below it (`Path.descend`), whose components are those
of the folder and then the names (`components_descend`), whether the folder ends in a
slash, in `.` or in a name.

Seen from the folder such a path is its names with a slash between each two
(`printed_descend`).  What is printed of the paths below a folder is therefore in their
order (`Below.printed_lt`), and joining it to the folder gives the path back
(`Below.join_printed`).
-/
import SourceGauge.Proofs.Path.Order
import SourceGauge.Proofs.Text.Split

namespace SourceGauge.Path

set_option autoImplicit false

/-! ## Names -/

/-- What an entry of a folder can be called. -/
structure IsName (step : String) : Prop where
  goes : isIdle step = false
  down : step ≠ ".."
  one : '/' ∉ step.toList

instance (step : String) : Decidable (IsName step) :=
  decidable_of_iff (isIdle step = false ∧ step ≠ ".." ∧ '/' ∉ step.toList)
    ⟨fun ⟨goes, down, one⟩ => ⟨goes, down, one⟩, fun ⟨goes, down, one⟩ => ⟨goes, down, one⟩⟩

def descend (folder : Path) (names : List String) : Path := names.foldl child folder

def ofNames (names : List String) : Path := ⟨Text.join "/" names⟩

/-- A path as seen from a folder; one that starts at the root stays as it is. -/
def join (folder path : Path) : Path := if path.isRooted then path else folder.child path.text

theorem slash : "/".toList = ['/'] := rfl

theorem IsName.ne_empty {name : String} (isName : IsName name) : name ≠ "" := by
  rintro rfl
  exact absurd isName.goes (by decide)

theorem IsName.ne_dot {name : String} (isName : IsName name) : name ≠ "." := by
  rintro rfl
  exact absurd isName.goes (by decide)

theorem steps_ofNames {names : List String} (proper : names ≠ [])
    (areNames : ∀ n ∈ names, IsName n) : (ofNames names).steps = names :=
  Text.split_join slash proper fun n mem => (areNames n mem).one

/-! ## Steps and components -/

theorem inner_append (xs ys : List String) : inner (xs ++ ys) = inner xs ++ inner ys := by
  simp [inner]

/-- A text that ends in a slash has an empty step at the end. -/
theorem inner_concat_empty (xs : List String) : inner (xs ++ [""]) = inner xs := by
  simp [inner, isIdle]

theorem inner_names {names : List String} (areNames : ∀ n ∈ names, IsName n) :
    inner names = names.map Component.name := by
  have kept : (names.filter fun step => !isIdle step) = names :=
    List.filter_eq_self.mpr fun n mem => by simp [(areNames n mem).goes]
  rw [inner, kept]
  exact List.map_congr_left fun n mem => if_neg (areNames n mem).down

theorem isName_of_mem_inner {steps : List String} (clear : ∀ step ∈ steps, '/' ∉ step.toList)
    {name : String} (mem : Component.name name ∈ inner steps) : IsName name := by
  obtain ⟨step, memStep, is⟩ := List.mem_map.mp mem
  obtain ⟨memStep, goes⟩ := List.mem_filter.mp memStep
  by_cases up : step = ".."
  · rw [component, if_pos up] at is
    cases is
  · rw [component, if_neg up] at is
    obtain rfl := Component.name.inj is
    exact ⟨by simpa using goes, up, clear step memStep⟩

/-- Every component that is a name is what an entry of a folder can be called. -/
theorem isName_of_mem_components {path : Path} {name : String}
    (mem : Component.name name ∈ path.components) : IsName name := by
  have clear : ∀ step ∈ path.steps, '/' ∉ step.toList :=
    fun step mem => Text.not_mem_of_mem_split slash mem
  have clearTail : ∀ step ∈ path.steps.tail, '/' ∉ step.toList :=
    fun step mem => clear step (List.mem_of_mem_tail mem)
  unfold components at mem
  split at mem
  · exact isName_of_mem_inner clearTail ((List.mem_cons.mp mem).resolve_left (by simp))
  · split at mem
    · exact isName_of_mem_inner clearTail ((List.mem_cons.mp mem).resolve_left (by simp))
    · exact isName_of_mem_inner clear mem

theorem isRooted_append (t u : String) : isRooted ⟨t ++ "/" ++ u⟩ = isRooted ⟨t ++ "/"⟩ := by
  simp only [isRooted, Text.startsWith, String.toList_append, slash]
  cases t.toList <;> rfl

theorem steps_append (t u : String) :
    steps ⟨t ++ "/" ++ u⟩ = Text.split "/" t ++ Text.split "/" u :=
  Text.split_append slash t u

theorem steps_slash (t : String) : steps ⟨t ++ "/"⟩ = Text.split "/" t ++ [""] := by
  have two := steps_append t ""
  rwa [String.append_empty] at two

/-- A path starts at the root when it has a slash before any other step. -/
theorem isRooted_iff {path : Path} :
    path.isRooted = true ↔ ∃ rest, rest ≠ [] ∧ path.steps = "" :: rest := by
  constructor
  · intro rooted
    obtain ⟨cs, text⟩ := List.isPrefixOf_iff_prefix.mp rooted
    have whole : path.text = "" ++ "/" ++ String.ofList cs := by
      apply String.toList_inj.mp
      simp [← text]
    refine ⟨Text.split "/" (String.ofList cs), Text.split_ne_nil _ _, ?_⟩
    rw [steps, whole, Text.split_append slash]
    rfl
  · rintro ⟨rest, some, steps⟩
    have whole : path.text = "/" ++ Text.join "/" rest := by
      rw [← Text.join_split (by decide : "/" ≠ "") path.text, ← Path.steps, steps,
        Text.join_cons some, String.empty_append]
    simp [isRooted, Text.startsWith, whole]

/-- A path whose first step goes somewhere does not start at the root. -/
theorem isRooted_of_goes {path : Path} {first : String} {rest : List String}
    (steps : path.steps = first :: rest) (goes : isIdle first = false) : path.isRooted = false := by
  rw [Bool.eq_false_iff, Ne, isRooted_iff, steps]
  rintro ⟨_, _, equal⟩
  rw [(List.cons.inj equal).1] at goes
  exact absurd goes (by decide)

/-- A path whose first step goes somewhere has the components of its steps. -/
theorem components_of_goes {path : Path} {first : String} {rest : List String}
    (steps : path.steps = first :: rest) (goes : isIdle first = false) :
    path.components = inner (first :: rest) := by
  have notDot : (first :: rest).head? ≠ some "." := by
    intro dot
    rw [Option.some.inj dot] at goes
    exact absurd goes (by decide)
  rw [components, isRooted_of_goes steps goes, if_neg (by simp), steps, if_neg notDot]

/-- The first step of a path that does not start at the root goes somewhere, or stays, but is
not empty. -/
theorem ne_empty_of_not_isRooted {t s : String} {rest : List String}
    (steps : Text.split "/" t = s :: rest) (notRooted : isRooted ⟨t ++ "/"⟩ = false) : s ≠ "" := by
  rintro rfl
  have rooted : isRooted ⟨t ++ "/"⟩ = true := by
    refine isRooted_iff.mpr ⟨rest ++ [""], by simp, ?_⟩
    rw [steps_slash, steps, List.cons_append]
  rw [notRooted] at rooted
  cases rooted

/-- What follows a slash adds its own steps, whatever comes before. -/
theorem components_append (t u : String) :
    components ⟨t ++ "/" ++ u⟩ = components ⟨t ++ "/"⟩ ++ inner (Text.split "/" u) := by
  obtain ⟨s, rest, first⟩ := List.exists_cons_of_ne_nil (Text.split_ne_nil "/" t)
  simp only [components, isRooted_append, steps_append, steps_slash, first, List.cons_append,
    List.tail_cons, List.head?_cons, inner_concat_empty]
  split
  · rw [inner_append, List.cons_append]
  · split
    · rw [inner_append, List.cons_append]
    · rw [← List.cons_append, ← List.cons_append, inner_append, inner_concat_empty]

/-- A slash at the end is no component. -/
theorem components_slash {t : String} (nonempty : t ≠ "") :
    components ⟨t ++ "/"⟩ = components ⟨t⟩ := by
  have rooted : isRooted ⟨t ++ "/"⟩ = isRooted ⟨t⟩ := by
    simp only [isRooted, Text.startsWith, String.toList_append, slash]
    cases chars : t.toList with
    | nil => exact absurd (String.toList_eq_nil_iff.mp chars) nonempty
    | cons c cs => rfl
  obtain ⟨s, rest, first⟩ := List.exists_cons_of_ne_nil (Text.split_ne_nil "/" t)
  simp only [components, rooted, steps_slash]
  simp only [steps, first, List.cons_append, List.tail_cons, List.head?_cons, inner_concat_empty]
  rw [← List.cons_append, inner_concat_empty]

/-! ## Entries of a folder -/

/-- The entries of a folder follow one text. -/
theorem exists_child_eq (folder : Path) : ∃ front, ∀ s, folder.child s = ⟨front ++ s⟩ := by
  unfold child
  split
  · exact ⟨folder.text, fun s => rfl⟩
  · exact ⟨folder.text ++ "/", fun s => rfl⟩

/-- The entries of a folder follow a slash, which is no component of its own. -/
theorem exists_child_eq_slash {folder : Path} (nonempty : folder.text ≠ "") :
    ∃ t, folder.components = components ⟨t ++ "/"⟩ ∧ ∀ s, folder.child s = ⟨t ++ "/" ++ s⟩ := by
  unfold child
  split
  · next ending =>
    have last := ending.resolve_left nonempty
    obtain ⟨cs, chars⟩ := List.getLast?_eq_some_iff.mp last
    have whole : folder.text = String.ofList cs ++ "/" := by
      apply String.toList_inj.mp
      simp [chars]
    refine ⟨String.ofList cs, ?_, fun s => ?_⟩
    · rw [← whole]
    · rw [← whole]
  · exact ⟨folder.text, (components_slash nonempty).symm, fun s => rfl⟩

theorem components_child {folder : Path} (nonempty : folder.text ≠ "") (s : String) :
    (folder.child s).components = folder.components ++ inner (Text.split "/" s) := by
  obtain ⟨t, same, child⟩ := exists_child_eq_slash nonempty
  rw [child, same, components_append]

/-- After a name there is a slash. -/
theorem child_child {folder : Path} {name : String} (isName : IsName name) (s : String) :
    (folder.child name).child s = folder.child (name ++ "/" ++ s) := by
  obtain ⟨front, child⟩ := exists_child_eq folder
  obtain ⟨cs, c, chars⟩ : ∃ cs c, name.toList = cs ++ [c] := by
    rcases List.eq_nil_or_concat name.toList with none | ⟨cs, c, some⟩
    · exact absurd (String.toList_eq_nil_iff.mp none) isName.ne_empty
    · exact ⟨cs, c, by simpa using some⟩
  have noSlash : c ≠ '/' := by
    rintro rfl
    exact isName.one (by simp [chars])
  have goesOn : ¬((front ++ name) = "" ∨ (front ++ name).toList.getLast? = some '/') := by
    rintro (empty | ending)
    · exact isName.ne_empty (String.append_eq_empty_iff.mp empty).2
    · rw [String.toList_append, chars, ← List.append_assoc, List.getLast?_concat] at ending
      exact noSlash (Option.some.inj ending)
  rw [child, child, Path.child, if_neg goesOn]
  simp only [String.append_assoc]

/-! ## What names lead to -/

theorem descend_eq_child {folder : Path} {names : List String} (proper : names ≠ [])
    (areNames : ∀ n ∈ names, IsName n) :
    folder.descend names = folder.child (ofNames names).text := by
  induction names generalizing folder with
  | nil => exact absurd rfl proper
  | cons name rest ih =>
      cases rest with
      | nil => rfl
      | cons next rest =>
          have later := @ih (folder.child name) (by simp)
            fun n mem => areNames n (List.mem_cons_of_mem _ mem)
          have joined : (ofNames (name :: next :: rest)).text =
              name ++ "/" ++ (ofNames (next :: rest)).text := rfl
          rw [joined, ← child_child (areNames name List.mem_cons_self), ← later]
          rfl

theorem components_descend {folder : Path} (nonempty : folder.text ≠ "") {names : List String}
    (areNames : ∀ n ∈ names, IsName n) :
    (folder.descend names).components = folder.components ++ names.map Component.name := by
  by_cases none : names = []
  · simp [none, descend]
  · rw [descend_eq_child none areNames, components_child nonempty, ← steps,
      steps_ofNames none areNames, inner_names areNames]

theorem components_ofNames {names : List String} (proper : names ≠ [])
    (areNames : ∀ n ∈ names, IsName n) :
    (ofNames names).components = names.map Component.name := by
  obtain ⟨name, rest, rfl⟩ := List.exists_cons_of_ne_nil proper
  have goes := (areNames name List.mem_cons_self).goes
  rw [components_of_goes (steps_ofNames proper areNames) goes, inner_names areNames]

/-! ## Seen from the folder -/

/-- Leaving out the components of some steps leads to what follows them. -/
theorem dropWhile_dropSteps (xs ys : List String) :
    (dropSteps (inner xs).length (xs ++ ys)).dropWhile isIdle = ys.dropWhile isIdle := by
  induction xs with
  | nil => simp [inner, dropSteps]
  | cons x xs ih =>
      cases idle : isIdle x with
      | false =>
          have more : inner (x :: xs) = component x :: inner xs := by simp [inner, idle]
          simpa [more, dropSteps, idle] using ih
      | true =>
          have same : inner (x :: xs) = inner xs := by simp [inner, idle]
          rw [same]
          cases count : (inner xs).length with
          | zero =>
              rw [count] at ih
              simpa [dropSteps, idle] using ih
          | succ n =>
              rw [count] at ih
              simpa [dropSteps, idle] using ih

theorem dropWhile_names {names : List String} (areNames : ∀ n ∈ names, IsName n) :
    names.dropWhile isIdle = names := by
  cases names with
  | nil => rfl
  | cons name rest => simp [(areNames name List.mem_cons_self).goes]

theorem trimEnd_names {names : List String} (areNames : ∀ n ∈ names, IsName n) :
    trimEnd names = names := by
  rw [trimEnd, dropWhile_names fun n mem => areNames n (List.mem_reverse.mp mem),
    List.reverse_reverse]

/-- The first component is the first step, or the root. -/
theorem exists_dropComponents (t : String) :
    ∃ first before, components ⟨t ++ "/"⟩ = first :: inner before ∧
      ∀ n u, dropComponents (n + 1) ⟨t ++ "/" ++ u⟩ =
        ⟨Text.join "/"
          (trimEnd ((dropSteps n (before ++ Text.split "/" u)).dropWhile isIdle))⟩ := by
  obtain ⟨s, rest, first⟩ := List.exists_cons_of_ne_nil (Text.split_ne_nil "/" t)
  have steps : ∀ u, steps ⟨t ++ "/" ++ u⟩ = s :: (rest ++ Text.split "/" u) := fun u => by
    rw [steps_append, first, List.cons_append]
  have slashed : Path.steps ⟨t ++ "/"⟩ = s :: (rest ++ [""]) := by
    rw [steps_slash, first, List.cons_append]
  cases rooted : isRooted ⟨t ++ "/"⟩ with
  | true =>
      refine ⟨.root, rest, ?_, fun n u => ?_⟩
      · rw [components, if_pos rooted, slashed, List.tail_cons, inner_concat_empty]
      · have head : hasHead ⟨t ++ "/" ++ u⟩ = true := by
          simp [hasHead, isRooted_append, rooted]
        simp only [dropComponents, head, if_true, steps, List.tail_cons]
  | false =>
      by_cases dot : s = "."
      · refine ⟨.current, rest, ?_, fun n u => ?_⟩
        · simp [components, rooted, slashed, dot, inner_concat_empty]
        · have head : hasHead ⟨t ++ "/" ++ u⟩ = true := by simp [hasHead, steps, dot]
          simp only [dropComponents, head, if_true, steps, List.tail_cons]
      · have goes : isIdle s = false := by
          simp [isIdle, ne_empty_of_not_isRooted first rooted, dot]
        refine ⟨component s, rest, ?_, fun n u => ?_⟩
        · have inside : inner (s :: (rest ++ [""])) = component s :: inner rest := by
            rw [← List.cons_append, inner_concat_empty]
            simp [inner, goes]
          simp [components, rooted, slashed, dot, inside]
        · have head : hasHead ⟨t ++ "/" ++ u⟩ = false := by
            simp [hasHead, isRooted_append, rooted, steps, dot]
          simp [dropComponents, head, steps, dropSteps, goes]

/-- What is left below a folder is the names. -/
theorem relativeTo?_descend {folder : Path} (nonempty : folder.text ≠ "") {names : List String}
    (proper : names ≠ []) (areNames : ∀ n ∈ names, IsName n) :
    (folder.descend names).relativeTo? folder = some (ofNames names) := by
  have above : folder.components.isPrefixOf (folder.descend names).components = true := by
    rw [List.isPrefixOf_iff_prefix, components_descend nonempty areNames]
    exact List.prefix_append _ _
  obtain ⟨t, same, child⟩ := exists_child_eq_slash nonempty
  obtain ⟨first, before, components, drop⟩ := exists_dropComponents t
  have steps : Text.split "/" (ofNames names).text = names := steps_ofNames proper areNames
  rw [relativeTo?, if_pos above, descend_eq_child proper areNames, child, same, components,
    List.length_cons, drop, dropWhile_dropSteps, steps, dropWhile_names areNames,
    trimEnd_names areNames]
  rfl

theorem not_same_descend {folder : Path} (nonempty : folder.text ≠ "") {names : List String}
    (proper : names ≠ []) (areNames : ∀ n ∈ names, IsName n) :
    (folder.descend names).same folder = false := by
  by_contra same
  rw [Bool.not_eq_false, same_iff, components_descend nonempty areNames] at same
  exact proper (List.map_eq_nil_iff.mp (List.append_right_eq_self.mp same))

/-- A path below a folder is printed as the names that lead to it. -/
theorem printed_descend {folder : Path} (nonempty : folder.text ≠ "") {names : List String}
    (proper : names ≠ []) (areNames : ∀ n ∈ names, IsName n) :
    (folder.descend names).printed folder true = ofNames names := by
  simp [printed, not_same_descend nonempty proper areNames,
    relativeTo?_descend nonempty proper areNames]

/-- Joining the names to the folder gives the path back, as it was written. -/
theorem join_ofNames {folder : Path} {names : List String} (proper : names ≠ [])
    (areNames : ∀ n ∈ names, IsName n) :
    folder.join (ofNames names) = folder.descend names := by
  obtain ⟨name, rest, rfl⟩ := List.exists_cons_of_ne_nil proper
  have goes := (areNames name List.mem_cons_self).goes
  rw [join, isRooted_of_goes (steps_ofNames proper areNames) goes, if_neg (by simp),
    descend_eq_child proper areNames]

theorem text_child_ne_empty {folder : Path} {name : String} (isName : IsName name) :
    (folder.child name).text ≠ "" := by
  obtain ⟨front, child⟩ := exists_child_eq folder
  rw [child]
  exact fun empty => isName.ne_empty (String.append_eq_empty_iff.mp empty).2

/-! ## The order below a folder -/

theorem componentsLt_append (front as bs : List Component) :
    componentsLt (front ++ as) (front ++ bs) = componentsLt as bs := by
  induction front with
  | nil => rfl
  | cons first front ih => simpa [componentsLt] using ih

/-- Different names lead to different paths. -/
theorem descend_inj {folder : Path} (nonempty : folder.text ≠ "") {ns ms : List String}
    (areNs : ∀ n ∈ ns, IsName n) (areMs : ∀ m ∈ ms, IsName m)
    (same : (folder.descend ns).same (folder.descend ms) = true) : ns = ms := by
  rw [same_iff, components_descend nonempty areNs, components_descend nonempty areMs] at same
  exact (List.map_inj_right fun _ _ => Component.name.inj).mp (List.append_cancel_left same)

/-- A path that names lead to from a folder. -/
inductive Below (folder : Path) : Path → Prop where
  | descend (nonempty : folder.text ≠ "") {names : List String} (proper : names ≠ [])
      (areNames : ∀ n ∈ names, IsName n) : Below folder (folder.descend names)

namespace Below

variable {folder p q : Path}

/-- The order of paths below a folder shows in what is printed of them. -/
theorem printed_lt (belowP : Below folder p) (belowQ : Below folder q) :
    (p.printed folder true).lt (q.printed folder true) = p.lt q := by
  obtain ⟨nonempty, properP, areP⟩ := belowP
  obtain ⟨_, properQ, areQ⟩ := belowQ
  rw [printed_descend nonempty properP areP, printed_descend nonempty properQ areQ, lt, lt,
    components_ofNames properP areP, components_ofNames properQ areQ,
    components_descend nonempty areP, components_descend nonempty areQ, componentsLt_append]

/-- Joined to the folder, what is printed of a path below it gives the path back. -/
theorem join_printed (below : Below folder p) : folder.join (p.printed folder true) = p := by
  obtain ⟨nonempty, proper, areNames⟩ := below
  rw [printed_descend nonempty proper areNames, join_ofNames proper areNames]

end Below

end SourceGauge.Path
