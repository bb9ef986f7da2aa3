import KernelConformance.Proofs.Files.AdmittedNames
import KernelConformance.Proofs.Programs.Followers
import Mathlib.Data.List.Induction

/-! Files that were made and not removed. A name that is new after some deeds was last given
by a call of a process, and if that process removes all that it makes, then it still has to
remove this one.
-/

namespace KernelConformance

variable {past : List Exchange} {name : String}

/-- The names under which files were made that were not removed since. -/
def unremoved : List Exchange → List String :=
  List.foldl (fun names exchange =>
    match exchange.call with
    | .creat name => name :: names
    | .unlink name => names.filter (· ≠ name)
    | _ => names) []

theorem unremoved_snoc (past : List Exchange) (last : Exchange)
    : unremoved (past ++ [last])
      = match last.call with
        | .creat name => name :: unremoved past
        | .unlink name => (unremoved past).filter (· ≠ name)
        | _ => unremoved past := by
  rw [unremoved, List.foldl_append]
  rfl

/-- A name is left if it was made last, or was left before and was not removed last. -/
theorem mem_unremoved_snoc {last : Exchange}
    : name ∈ unremoved (past ++ [last])
      ↔ last.call = .creat name ∨ name ∈ unremoved past ∧ last.call ≠ .unlink name := by
  obtain ⟨c, reply⟩ := last
  rw [unremoved_snoc]
  cases c with
  | creat other => simp [@eq_comm _ name]
  | unlink other => simp [@eq_comm _ name]
  | _ => simp

/-- What is made is left unless it is removed later, by induction on what comes later. -/
theorem mem_unremoved_of_creat {later : List Exchange} {reply : Except Errno Fd}
    (kept : ∀ reply, ⟨.unlink name, reply⟩ ∉ later)
    : name ∈ unremoved (past ++ ⟨.creat name, reply⟩ :: later) := by
  induction later using List.reverseRecOn with
  | nil => exact mem_unremoved_snoc.mpr (.inl rfl)
  | append_singleton later last ih =>
      have earlier := ih fun reply member => kept reply (List.mem_append_left _ member)
      rw [← List.cons_append, ← List.append_assoc]
      refine mem_unremoved_snoc.mpr (.inr ⟨earlier, fun same => ?_⟩)
      obtain ⟨c, reply⟩ := last
      obtain rfl : c = .unlink name := same
      exact kept reply (List.mem_append_right _ (List.mem_singleton.mpr rfl))

/-- What is left was left before, or there was a call that has made it. -/
theorem Prog.Upholds.unremoved {α : Type} {prog : Prog α} {allowed : List Exchange → Syscall → Prop}
    {result : List Exchange → α → Prop} {names : String → Prop}
    (upholds : prog.Upholds allowed result past)
    (makes : ∀ past name, allowed past (.creat name) → names name)
    (before : ∀ name ∈ unremoved past, names name)
    : prog.Upholds allowed
        (fun past value => result past value ∧ ∀ name ∈ KernelConformance.unremoved past,
          names name)
        past := by
  induction prog generalizing past with
  | done => exact ⟨upholds, before⟩
  | call c next ih =>
      refine ⟨upholds.1, fun reply => ih reply (upholds.2 reply) fun name left => ?_⟩
      rcases mem_unremoved_snoc.mp left with made | ⟨earlier, -⟩
      · obtain rfl : c = .creat name := made
        exact makes past name upholds.1
      · exact before name earlier

/-- Whether a call makes no file. -/
def Syscall.MakesNoFile (c : Syscall) : Prop := ∀ name, c ≠ .creat name

/-- A program that makes no file leaves at most what was left before. -/
theorem Prog.Makes.unremoved {α : Type} {prog : Prog α} {names : String → Prop}
    (makes : prog.Makes Syscall.MakesNoFile)
    (before : ∀ name ∈ KernelConformance.unremoved past, names name)
    : prog.Upholds (fun _ _ => True)
        (fun past _ => ∀ name ∈ KernelConformance.unremoved past, names name) past := by
  induction prog generalizing past with
  | done => exact before
  | call c next ih =>
      refine ⟨trivial, fun reply => ih reply (makes.2 reply) fun name left => ?_⟩
      rcases mem_unremoved_snoc.mp left with made | ⟨earlier, -⟩
      · exact absurd made (makes.1 name)
      · exact before name earlier

namespace Kernel

variable {config : Config} {deeds during : List Deed} {begin kernel after : Kernel}

/-- A name is new after a step only if it was there before or the step has made it, and not if the
step has removed it.
-/
theorem Run.named_step {deed : Deed} (run : Run config deeds kernel) (step : kernel.Step deed after)
    (outside : ∀ bytes reply, deed ≠ .install name bytes reply)
    (present : after.files.names.get? name ≠ none)
    : (kernel.files.names.get? name ≠ none
      ∨ ∃ pid reply, deed = .call pid (.creat name) (some reply))
      ∧ ∀ pid reply, deed ≠ .call pid (.unlink name) (some reply) := by
  constructor
  · obtain ⟨inode, named⟩ := Option.ne_none_iff_exists'.mp present
    rcases step.files.name_cases named with ⟨before, -⟩ | ⟨-, created | ⟨bytes, installed⟩, -⟩
    · exact .inl (by rw [before]; exact Option.some_ne_none _)
    · refine .inr ?_
      unfold Deed.fileEvent? at created
      split at created <;> cases created
      exact ⟨_, _, rfl⟩
    · unfold Deed.fileEvent? at installed
      split at installed <;> cases installed
      exact absurd rfl (outside _ _)
  · rintro pid reply rfl
    cases step with
    | call _ replied => exact present (call_unlink_absent replied (run.admits name)).1

/-- A name that is new was last given by a call, and it was not removed since, by induction
on the deeds.
-/
theorem Run.made_of_new (run : Run config deeds begin) (steps : Steps begin during kernel)
    (outside : ∀ bytes reply, .install name bytes reply ∉ during)
    (absent : begin.files.names.get? name = none) (present : kernel.files.names.get? name ≠ none)
    : ∃ before pid reply later,
        during = before ++ .call pid (.creat name) (some reply) :: later
        ∧ ∀ other reply, .call other (.unlink name) (some reply) ∉ later := by
  induction during using List.reverseRecOn generalizing kernel with
  | nil =>
      cases steps
      exact absurd absent present
  | append_singleton during deed ih =>
      obtain ⟨middle, earlier, last⟩ := steps.of_snoc
      obtain ⟨whence, kept⟩ := (run.extend earlier).named_step last
        (fun bytes reply same => outside bytes reply (List.mem_append_right _ (same ▸ .head _)))
          present
      rcases whence with there | ⟨pid, reply, rfl⟩
      · obtain ⟨before, pid, reply, later, rfl, left⟩ :=
          ih earlier
            (fun bytes reply member => outside bytes reply (List.mem_append_left _ member)) there
        refine ⟨before, pid, reply, later ++ [deed], by simp, fun other reply member => ?_⟩
        rcases List.mem_append.mp member with old | new
        · exact left other reply old
        · exact kept other reply (List.mem_singleton.mp new).symm
      · exact ⟨during, pid, reply, [], rfl, nofun⟩

end Kernel

end KernelConformance
