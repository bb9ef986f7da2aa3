import KernelConformance.Proofs.Files.AdmittedNames
import KernelConformance.Proofs.Files.Footprints
import KernelConformance.Proofs.Files.TidyKernels

/-! What is left of the files after a process has worked with some names. A process that has
no file open when it begins leaves every other file as it was, so nothing new stays if none
of its names does.
-/

namespace KernelConformance

namespace FileSystem

variable {files middle after : FileSystem} {names except : String → Prop} {name : String}
  {table later : Descriptors}

/-- Whether all files that there are after a change were there before it with the same contents, but
for those with a name that is excepted.
-/
def Leaves (files : FileSystem) (except : String → Prop) (after : FileSystem) : Prop :=
  ∀ name bytes,
    after.contents? name = some bytes → files.contents? name = some bytes ∨ except name

theorem Leaves.refl (files : FileSystem) (except : String → Prop) : files.Leaves except files :=
  fun _ _ => .inl

theorem Leaves.mono {more : String → Prop} (leaves : files.Leaves except after)
    (wider : ∀ name, except name → more name)
    : files.Leaves more after :=
  fun name bytes found => (leaves name bytes found).imp_right (wider name)

theorem Leaves.trans (first : files.Leaves except middle) (second : middle.Leaves except after)
    : files.Leaves except after := by
  intro name bytes found
  rcases second name bytes found with before | excepted
  · exact first name bytes before
  · exact .inr excepted

theorem contents?_eq_none : files.contents? name = none ↔ files.names.get? name = none := by
  rw [contents?, Option.map_eq_none_iff]

/-- A removal leaves nothing under its name. -/
theorem Leaves.without (leaves : files.Leaves except after) (absent : after.names.get? name = none)
    : files.Leaves (fun other => except other ∧ other ≠ name) after := by
  intro other bytes found
  rcases leaves other bytes found with before | excepted
  · exact .inl before
  · refine .inr ⟨excepted, ?_⟩
    rintro rfl
    rw [contents?_eq_none.mpr absent] at found
    cases found

/-- A change that is confined to some names, from a table without files on, leaves all files under
other names as they were, as no other name leads to one of its inodes.
-/
theorem Confined.contents? (confined : files.Confined names table later after)
    (closed : ∀ inode, ¬table.Opens inode) (distinct : files.Distinct) (unused : ¬names name)
    : after.contents? name = files.contents? name := by
  unfold FileSystem.contents?
  rw [confined.spared name unused]
  rcases named : files.names.get? name with _ | inode
  · rfl
  · have outside : ¬files.Footprint names table inode := by
      rintro (opens | ⟨other, uses, otherNamed⟩)
      · exact closed inode opens
      · exact unused (distinct.injective otherNamed named ▸ uses)
    exact congrArg some (confined.data inode (distinct.taken named) outside)

/-- A change that is confined to some names leaves the files of those that stay and are excepted. -/
theorem Confined.leaves (confined : files.Confined names table later after)
    (closed : ∀ inode, ¬table.Opens inode) (distinct : files.Distinct)
    (stay : ∀ name, names name → after.names.get? name ≠ none → except name)
    : files.Leaves except after := by
  intro name bytes found
  by_cases uses : names name
  · refine .inr (stay name uses fun absent => ?_)
    rw [contents?_eq_none.mpr absent] at found
    cases found
  · exact .inl (confined.contents? closed distinct uses ▸ found)

end FileSystem

namespace Kernel

variable {α : Type} {kernel middle after : Kernel} {pid : Pid} {names : String → Prop}

/-- Whether a call is on files, and on none but those with some names. -/
def WorksWith (names : String → Prop) (_ : List Exchange) (c : Syscall) : Prop :=
  c.onFiles = true ∧ ∀ name, c.name? = some name → names name

/-- What a process performs that works with some names is confined to them, by
induction on the run.
-/
theorem Performs.confined {prog : Prog α} {value : α} {result : List Exchange → α → Prop}
    {past : List Exchange} (performs : Performs pid kernel prog value after)
    (upholds : prog.Upholds (WorksWith names) result past)
    : kernel.Confined names pid after := by
  induction performs generalizing past with
  | done => exact .refl _ names pid
  | call replied _ _ ih =>
      obtain ⟨⟨onFiles, uses⟩, onward⟩ := upholds
      exact (call_confined onFiles uses replied).trans (ih (onward _))

/-- A program that works with some names comes to a value. -/
theorem performs_worksWith {result : List Exchange → α → Prop} {past : List Exchange}
    {prog : Prog α} (upholds : prog.Upholds (WorksWith names) result past) (kernel : Kernel)
    (pid : Pid)
    : ∃ value after exchanges,
        Performs pid kernel prog value after
        ∧ kernel.Confined names pid after
        ∧ result (past ++ exchanges) value := by
  have onFiles := upholds.mono (fun _ _ works => works.1) fun _ _ => id
  obtain ⟨value, after, exchanges, performs, -, holds⟩ := performs_onFiles onFiles kernel pid
  exact ⟨value, after, exchanges, performs, performs.confined upholds, holds⟩

-----------------------------------------------------------------------------------------
-- The end of a check
-----------------------------------------------------------------------------------------

/-- No name at all. -/
def noName (_ : String) : Prop := False

theorem upholds_putLine (text : String) (past : List Exchange)
    : (Prog.putLine text).Upholds (WorksWith names) (fun _ _ => True) past :=
  Prog.upholds_attempt.mpr ⟨⟨rfl, nofun⟩, fun _ => trivial⟩

/-- What follows a check and works with no names adds nothing to the files. The whole is stopped by
what stops the one or the other.
-/
theorem performs_tail {β : Type} {check : Check α} {f : α → Check β}
    {outcome : Except Check.Stop α} {result : List Exchange → β → Prop}
    {stopped : List Exchange → Check.Stop → Prop}
    (performs : Performs pid kernel check.run outcome middle)
    (silent : ∀ value, (f value).Upholds (WorksWith noName) result stopped [])
    : ∃ last after,
        Performs pid kernel (check >>= f).run last after
        ∧ middle.Confined noName pid after
        ∧ ∀ stop, last = .error stop → outcome = .error stop ∨ ∃ past, stopped past stop := by
  cases outcome with
  | error stop =>
      refine ⟨.error stop, middle, performs.check_stop f, .refl .., fun other same => ?_⟩
      cases same
      exact .inl rfl
  | ok first =>
      obtain ⟨last, after, past, tail, confined, holds⟩ :=
        performs_worksWith (silent first) middle pid
      refine ⟨last, after, performs.check_ok tail, confined, fun stop same => .inr ⟨past, ?_⟩⟩
      subst same
      exact holds

/-- To end by a check, a process at most prints a message after it. -/
theorem upholds_ending {check : Check Int32} {result : List Exchange → Int32 → Prop}
    {stopped : List Exchange → Check.Stop → Prop} {past : List Exchange}
    (upholds : check.Upholds (WorksWith names) result stopped past) (name : String)
    : (check.ending name).Upholds (WorksWith names) (fun _ _ => True) past := by
  refine Prog.upholds_bind.mpr (Prog.Upholds.mono upholds (fun _ _ => id) fun past outcome _ => ?_)
  rcases outcome with (violation | _) | status
  · exact Prog.upholds_bind.mpr ((upholds_putLine _ past).mono (fun _ _ => id) fun _ _ => id)
  · trivial
  · trivial

/-- A check that has come to something ends its process, with its status if it has one. -/
theorem performs_ending {check : Check Int32} {outcome : Except Check.Stop Int32}
    (performs : Performs pid kernel check.run outcome middle) (name : String)
    : ∃ ending after,
        Performs pid kernel (check.ending name) ending after
        ∧ middle.Confined noName pid after
        ∧ ∀ status, outcome = .ok status → ending = .exit status := by
  rcases outcome with (violation | _) | status
  · obtain ⟨_, after, _, prints, confined, -⟩ :=
      performs_worksWith (upholds_putLine (name ++ ": " ++ violation.message) []) middle pid
    exact ⟨_, after, performs.bind (prints.bind .done), confined, nofun⟩
  · exact ⟨_, middle, performs.bind .done, .refl .., nofun⟩
  · refine ⟨_, middle, performs.bind .done, .refl .., fun other same => ?_⟩
    cases same
    rfl

/-- A process that has just been started and ends by a check leaves the files of the names that the
check works with, if they are excepted when they stay.
-/
theorem leaves_of_performs {config : Config} {deeds : List Deed} {check : Check Int32}
    {result : List Exchange → Int32 → Prop} {stopped : List Exchange → Check.Stop → Prop}
    {outcome : Except Check.Stop Int32} {except : String → Prop} (run : Run config deeds kernel)
    (closed : ∀ inode, ¬(kernel.fds pid).Opens inode)
    (upholds : check.Upholds (WorksWith names) result stopped [])
    (performs : Performs pid kernel check.run outcome middle)
    (stay : ∀ name, names name → middle.files.names.get? name ≠ none → except name)
    (name : String)
    : ∃ ending after,
        Performs pid kernel (check.ending name) ending after
        ∧ kernel.Elsewhere pid after
        ∧ kernel.files.Leaves except after.files
        ∧ ∀ status, outcome = .ok status → ending = .exit status := by
  obtain ⟨ending, after, ends, silent, status⟩ := performs_ending performs name
  have confined := ends.confined (upholds_ending upholds name)
  refine ⟨ending, after, ends, confined.elsewhere, ?_, status⟩
  refine confined.files.leaves closed run.tidy.names fun other uses stays => stay other uses ?_
  rwa [silent.files.spared other nofun] at stays

end Kernel

end KernelConformance
