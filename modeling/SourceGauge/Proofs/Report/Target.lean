/-
# SourceGauge.Proofs.Report.Target -- where a compressed report goes

A compressed report goes to an output with the extension `gz` as it is, and to any other one with
`.gz` written behind it.  The extension is read off the file name, which is a component, but the
text is written behind the last step, which need not be one.

Behind a name the two agree: the target has the extension, and on every disk it stands where the
output would (`resolve_target`).  Behind a slash the text is a file name of its own, inside of
what the output names.  Its dot comes first, so it is no extension, and the target of that target is
another one; but no more than one (`target_settles`).  Behind `/.` there is an extension, and still
the target lies inside.

* `compressed_target`: for every output, when its target has the extension, when the two lie in the
  same folder, and when the target is its own target.
* `slash_hides_extension`: an output that ends in a slash.
-/
import SourceGauge.Proofs.Path.LastStep
import SourceGauge.Report.Output

namespace SourceGauge

set_option autoImplicit false

/-! ## Places on a disk -/

namespace FileTree

variable (top : FileTree)

/-- A name leads to a place in the folder that it is looked up in, whether or not it is there. -/
theorem resolveFrom_name {name : String} (isName : Path.IsName name) (here : List String) :
    resolveFrom top true here [name] =
      match top.get? here with
      | none => .error .notFound
      | some (file _) => .error .notFolder
      | some (folder _) => .ok (here ++ [name]) := by
  rw [resolveFrom]
  cases top.get? here with
  | none => rfl
  | some item =>
      cases item with
      | file content => rfl
      | folder items => simp [isName.goes, isName.down, resolveFrom]

/-- Two names behind the same steps lead to places in one folder, or both lead nowhere. -/
theorem resolveFrom_concat {name other : String} (isName : Path.IsName name)
    (isOther : Path.IsName other) (here steps : List String) :
    resolveFrom top true here (steps ++ [other]) =
      (resolveFrom top true here (steps ++ [name])).map fun names => names.dropLast ++ [other] := by
  induction steps generalizing here with
  | nil =>
      rw [List.nil_append, List.nil_append, resolveFrom_name top isName,
        resolveFrom_name top isOther]
      split
      · rfl
      · rfl
      · simp [Except.map]
  | cons step steps ih =>
      -- the step is not the last one, so it has to be there on either way
      have more : ∀ last : String, (steps ++ [last]).isEmpty = false := by simp
      simp only [List.cons_append, resolveFrom, more, Bool.and_false, Bool.false_eq_true, if_false,
        ih]
      split
      · rfl
      · rfl
      · split
        · rfl
        · split
          · rfl
          · split
            · rfl
            · rfl

end FileTree

namespace Disk

/-- A longer name stands where the name would. -/
theorem resolve_append_ending (disk : Disk) {path : Path} {ending : String}
    (isName : Path.IsName path.lastStep) (isLonger : Path.IsName (path.lastStep ++ ending)) :
    disk.resolve ⟨path.text ++ ending⟩ true =
      (disk.resolve path true).map fun names => names.dropLast ++ [path.lastStep ++ ending] := by
  obtain ⟨rooted, before, shape⟩ := path.exists_steps_front_append
  have whole : (⟨path.front.text ++ path.lastStep⟩ : Path) = path :=
    congrArg Path.mk path.front_append_lastStep
  have longer : path.front.text ++ (path.lastStep ++ ending) = path.text ++ ending := by
    rw [← String.append_assoc, path.front_append_lastStep]
  have ofPath := shape path.lastStep isName
  have ofLonger := shape (path.lastStep ++ ending) isLonger
  rw [whole] at ofPath
  rw [longer] at ofLonger
  have nonempty : path.text ≠ "" := by
    intro empty
    rw [← path.front_append_lastStep] at empty
    exact isName.ne_empty (String.append_eq_empty_iff.mp empty).2
  have longerNonempty : path.text ++ ending ≠ "" := by
    intro empty
    exact nonempty (String.append_eq_empty_iff.mp empty).1
  simp only [resolve, start, nonempty, longerNonempty, ofPath, ofLonger, if_false]
  exact disk.root.resolveFrom_concat isName isLonger _ before

end Disk

namespace Report

variable {output : Path}

/-! ## The file name of a target -/

/-- With `.gz` behind it the last step is a name, whatever it was. -/
theorem isName_lastStep_gz (output : Path) : Path.IsName (output.lastStep ++ ".gz") := by
  have last : (output.lastStep ++ ".gz").toList.getLast? = some 'z' := by simp
  have other : ∀ s : String, s.toList.getLast? ≠ some 'z' → output.lastStep ++ ".gz" ≠ s := by
    rintro s differs rfl
    exact differs last
  have notEmpty := other "" (by decide)
  have notDot := other "." (by decide)
  have notUp := other ".." (by decide)
  have clear := output.not_mem_lastStep
  exact ⟨by simp [Path.isIdle, notEmpty, notDot], notUp, by simpa using clear⟩

theorem target_of_gz (has : output.extension? = some "gz") : target output true = output := by
  simp [target, has]

theorem target_of_not_gz (lacks : output.extension? ≠ some "gz") :
    target output true = ⟨output.text ++ ".gz"⟩ := by
  simp [target, lacks]

/-- The text behind an output is the extension, unless it is the whole file name. -/
theorem extension?_append_gz (output : Path) :
    Path.extension? ⟨output.text ++ ".gz"⟩ = if output.lastStep = "" then none else some "gz" := by
  have called := Path.fileName?_append_ending (isName_lastStep_gz output)
  have parts : output.lastStep ++ ".gz" = output.lastStep ++ "." ++ "gz" := by
    rw [String.append_assoc]
    rfl
  rw [parts] at called
  exact Path.extension?_of_dot (by decide) called

/-! ## Targets -/

theorem extension?_target_iff (output : Path) :
    (target output true).extension? = some "gz" ↔
      output.extension? = some "gz" ∨ output.lastStep ≠ "" := by
  by_cases has : output.extension? = some "gz"
  · simp [target_of_gz has, has]
  · rw [target_of_not_gz has, extension?_append_gz]
    by_cases slashed : output.lastStep = ""
    · simp [slashed, has]
    · simp [slashed]

theorem folder?_target_iff (output : Path) :
    (target output true).folder? = output.folder? ↔
      output.extension? = some "gz" ∨ ¬output.EndsIdle := by
  by_cases has : output.extension? = some "gz"
  · simp [target_of_gz has, has]
  · rw [target_of_not_gz has, Path.folder?_append_ending_iff (isName_lastStep_gz output)]
    simp [has]

/-- An output is its own target just if it has the extension. -/
theorem target_eq_self_iff : target output true = output ↔ output.extension? = some "gz" := by
  constructor
  · intro same
    by_contra lacks
    have longer := congrArg (fun path : Path => path.text.length) same
    simp [target_of_not_gz lacks] at longer
  · exact target_of_gz

/-- The target of a target is its own target: computed once more, it stays. -/
theorem target_settles (output : Path) :
    target (target (target output true) true) true = target (target output true) true := by
  rw [target_eq_self_iff, extension?_target_iff]
  by_cases has : output.extension? = some "gz"
  · rw [target_of_gz has]
    exact Or.inl has
  · rw [target_of_not_gz has, output.lastStep_append (by decide)]
    exact Or.inr (isName_lastStep_gz output).ne_empty

/-- The target of an output that ends in a name stands where the output would: on every disk it is
found, or refused, along the same way. -/
theorem resolve_target (disk : Disk) (isName : Path.IsName output.lastStep)
    (lacks : output.extension? ≠ some "gz") :
    disk.resolve (target output true) true =
      (disk.resolve output true).map fun names => names.dropLast ++ [output.lastStep ++ ".gz"] := by
  rw [target_of_not_gz lacks]
  exact disk.resolve_append_ending isName (isName_lastStep_gz output)

/-- **Where a compressed report goes.**  An output with the extension `gz`, and no other, is kept as
it is.  The target of any other output has the extension unless the output is empty or ends in a
slash, and lies in the output's folder unless the output ends in a step that goes nowhere.  A target
is its own target just where it has the extension. -/
theorem compressed_target (output : Path) :
    ((target output true).extension? = some "gz" ↔
        output.extension? = some "gz" ∨ output.lastStep ≠ "") ∧
      ((target output true).folder? = output.folder? ↔
        output.extension? = some "gz" ∨ ¬output.EndsIdle) ∧
      (target (target output true) true = target output true ↔
        output.extension? = some "gz" ∨ output.lastStep ≠ "") ∧
      (target output true = output ↔ output.extension? = some "gz") := by
  refine ⟨extension?_target_iff output, folder?_target_iff output, ?_, target_eq_self_iff⟩
  rw [target_eq_self_iff]
  exact extension?_target_iff output

/-- The target of `out/` is a file inside of `out` that is called `.gz`, without an extension; the
target of that is another one. -/
theorem slash_hides_extension :
    (target ⟨"out/"⟩ true).extension? = none ∧
      (target ⟨"out/"⟩ true).folder? = some [.name "out"] ∧
      (⟨"out/"⟩ : Path).folder? = some [] ∧
      target (target ⟨"out/"⟩ true) true ≠ target ⟨"out/"⟩ true := by
  decide +kernel

end Report

end SourceGauge
