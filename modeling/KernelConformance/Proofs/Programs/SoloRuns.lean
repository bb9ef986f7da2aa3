import KernelConformance.Kernel.Machine
import KernelConformance.Proofs.Files.DescriptorSteps
import KernelConformance.Proofs.Programs.Dialogues

/-! Programs that one process performs while nobody else acts. Such a run is what a machine does
with the program, and calls on files always get that far.
-/

namespace KernelConformance

/-- Whether a call is about files and their descriptors. -/
def Syscall.onFiles : Syscall → Bool
  | exec .. | join .. => false
  | _ => true

namespace Kernel

variable {α β : Type} {pid : Pid} {kernel middle after : Kernel}

-----------------------------------------------------------------------------------------
-- Runs of one process by itself
-----------------------------------------------------------------------------------------

/-- A process performs a program from one kernel to another and comes to a value, if all its calls
have replies and none of them starts a process.
-/
inductive Performs (pid : Pid) {α : Type} : Kernel → Prog α → α → Kernel → Prop where
  | done {kernel value} : Performs pid kernel (.done value) value kernel
  | call {kernel c next reply middle value after}
    (replied : kernel.call pid c = some (reply, middle))
    (alone : c.started? reply = none) (onward : Performs pid middle (next reply) value after)
    : Performs pid kernel (.call c next) value after

theorem Performs.bind {prog : Prog α} {f : α → Prog β} {value : α} {last : β}
    (first : Performs pid kernel prog value middle)
    (second : Performs pid middle (f value) last after)
    : Performs pid kernel (prog >>= f) last after := by
  induction first with
  | done => exact second
  | call replied alone _ ih => exact .call replied alone (ih second)

theorem Performs.perform {c : Syscall} {reply : c.Reply}
    (replied : kernel.call pid c = some (reply, after)) (alone : c.started? reply = none)
    : Performs pid kernel (Prog.perform c) reply after :=
  .call replied alone .done

theorem Performs.attempt {c : Syscall} {reply : c.Reply}
    (replied : kernel.call pid c = some (reply, after)) (alone : c.started? reply = none)
    : Performs pid kernel (Prog.attempt c) () after :=
  .call replied alone .done

/-- A machine makes of a program what the process performs, by induction on the run. -/
theorem Performs.runCalls {ρ : Type} {prog : Prog α} {value : α}
    (performs : Performs pid kernel prog value after)
    (launch : Pid → String → Machine ρ → Machine ρ) (reports : List (Pid × ρ))
    : Machine.runCalls launch pid prog ⟨kernel, reports⟩ = (some value, ⟨after, reports⟩) := by
  induction performs with
  | done => rfl
  | call replied alone _ ih =>
      rw [Machine.runCalls]
      dsimp only
      simp only [replied, alone]
      exact ih

theorem Performs.runFor {ρ : Type} {prog : Prog α} {value : α}
    (performs : Performs pid kernel prog value after) (images : Images ρ)
    (reports : List (Pid × ρ))
    : Machine.runFor images pid prog ⟨kernel, reports⟩ = (some value, ⟨after, reports⟩) :=
  performs.runCalls _ reports

/-- What every call keeps is kept by a whole run, by induction on it. -/
theorem Performs.keeps {prog : Prog α} {value : α}
    (performs : Performs pid kernel prog value after) (invariant : Kernel → Prop)
    (keep
      : ∀ {kernel after} {c : Syscall} {reply : c.Reply},
          kernel.call pid c = some (reply, after) → invariant kernel → invariant after)
    (holds : invariant kernel)
    : invariant after := by
  induction performs with
  | done => exact holds
  | call replied _ _ ih => exact ih (keep replied holds)

/-- A program that is about to call makes this call when it is performed, and then what is left. -/
theorem Performs.of_call {c : Syscall} {next : c.Reply → Prog α} {reply : c.Reply} {value : α}
    {last : Kernel} (performs : Performs pid kernel (.call c next) value last)
    (replied : kernel.call pid c = some (reply, after))
    : Performs pid after (next reply) value last := by
  cases performs with
  | call made alone onward =>
      cases made.symm.trans replied
      exact onward

theorem Performs.of_done {first value : α} {last : Kernel}
    (performs : Performs pid kernel (.done first) value last)
    : first = value := by
  cases performs
  rfl

/-- What a process performs is performed in one way only, by induction on the run. -/
theorem Performs.unique {prog : Prog α} {value given : α} {last other : Kernel}
    (performs : Performs pid kernel prog value last) (again : Performs pid kernel prog given other)
    : given = value ∧ other = last := by
  induction performs with
  | done =>
      cases again
      exact ⟨rfl, rfl⟩
  | call replied _ _ ih => exact ih (again.of_call replied)

-----------------------------------------------------------------------------------------
-- Checks
-----------------------------------------------------------------------------------------

section Checks

variable {check : Check α} {f : α → Check β} {outcome : Except Check.Stop β} {stop : Check.Stop}
  {value : α}

theorem Performs.check_ok (first : Performs pid kernel check.run (.ok value) middle)
    (second : Performs pid middle (f value).run outcome after)
    : Performs pid kernel (check >>= f).run outcome after :=
  first.bind second

theorem Performs.check_stop (first : Performs pid kernel check.run (.error stop) after)
    (f : α → Check β)
    : Performs pid kernel (check >>= f).run (.error stop) after :=
  first.bind .done

theorem Performs.lift {prog : Prog α} (performs : Performs pid kernel prog value after)
    : Performs pid kernel (ExceptT.lift prog : Check α).run (.ok value) after := by
  rw [ExceptT.run_lift, map_eq_pure_bind]
  exact performs.bind .done

theorem Performs.demand_ok {c : Syscall} {value : c.Value} (wording : Errno → String)
    (replied : kernel.call pid c = some (.ok value, after)) (alone : c.started? (.ok value) = none)
    : Performs pid kernel (Check.demand c wording).run (.ok value) after :=
  (Performs.perform replied alone).lift.check_ok .done

theorem Performs.demand_error {c : Syscall} {error : Errno} (wording : Errno → String)
    (replied : kernel.call pid c = some (.error error, after))
    : Performs pid kernel (Check.demand c wording).run
        (.error (.violation (.failure (wording error)))) after := by
  have alone : c.started? (.error error) = none := by cases c <;> rfl
  exact (Performs.perform replied alone).lift.check_ok .done

theorem Performs.require_true {condition : Bool} (holds : condition = true)
    (violation : Violation)
    : Performs pid kernel (Check.require condition violation).run (.ok ()) kernel := by
  subst holds
  exact .done

theorem Performs.require_false {condition : Bool} (fails : condition = false)
    (violation : Violation)
    : Performs pid kernel (Check.require condition violation).run
        (.error (.violation violation)) kernel := by
  subst fails
  exact .done

theorem Performs.andFinally_ok {last : Except Violation α → Prog Unit}
    (first : Performs pid kernel check.run (.ok value) middle)
    (second : Performs pid middle (last (.ok value)) () after)
    : Performs pid kernel (check.andFinally last).run (.ok value) after :=
  first.bind (second.bind .done)

theorem Performs.andFinally_violation {violation : Violation}
    {last : Except Violation α → Prog Unit}
    (first : Performs pid kernel check.run (.error (.violation violation)) middle)
    (second : Performs pid middle (last (.error violation)) () after)
    : Performs pid kernel (check.andFinally last).run (.error (.violation violation)) after :=
  first.bind (second.bind .done)

theorem Performs.ending {check : Check Int32} {status : Int32}
    (performs : Performs pid kernel check.run (.ok status) after) (name : String)
    : Performs pid kernel (check.ending name) (.exit status) after :=
  performs.bind .done

end Checks

-----------------------------------------------------------------------------------------
-- Calls on files
-----------------------------------------------------------------------------------------

/-- A kernel that is like another one but for its files, the descriptors of a process
and the console.
-/
structure Elsewhere (kernel : Kernel) (pid : Pid) (after : Kernel) : Prop where
  config : after.config = kernel.config
  programs : after.programs = kernel.programs
  processes : after.processes = kernel.processes
  contexts : ∀ other, other ≠ pid → after.context other = kernel.context other

theorem Elsewhere.refl (kernel : Kernel) (pid : Pid) : kernel.Elsewhere pid kernel :=
  ⟨rfl, rfl, rfl, fun _ _ => rfl⟩

theorem Elsewhere.trans (first : kernel.Elsewhere pid middle) (second : middle.Elsewhere pid after)
    : kernel.Elsewhere pid after where
  config := second.config.trans first.config
  programs := second.programs.trans first.programs
  processes := second.processes.trans first.processes
  contexts other different :=
    (second.contexts other different).trans (first.contexts other different)

theorem elsewhere_setFds (kernel : Kernel) (pid : Pid) (fds : Descriptors) (files : FileSystem)
    : kernel.Elsewhere pid ({ kernel with files }.setFds pid fds) where
  config := rfl
  programs := rfl
  processes := rfl
  contexts other different := by
    simp only [Kernel.context, setFds, FiniteMap.get?_insert, if_neg different]

theorem call_elsewhere {c : Syscall} {reply : c.Reply} (onFiles : c.onFiles = true)
    (replied : kernel.call pid c = some (reply, after))
    : kernel.Elsewhere pid after := by
  obtain ⟨middle, effect, rfl⟩ := call_effect replied
  have traced (middle : Kernel) (kind : SyscallKind) (arguments outcome : String)
      : middle.Elsewhere pid (middle.trace pid kind arguments outcome) := by
    rw [trace_eq]
    exact ⟨rfl, rfl, rfl, fun _ _ => rfl⟩
  refine .trans ?_ (traced middle _ _ _)
  cases effect with
  | failed => exact .refl _ _
  | exec => cases onFiles
  | join => cases onFiles
  | creat => exact elsewhere_setFds kernel pid _ _
  | openFile => exact elsewhere_setFds kernel pid _ kernel.files
  | readInput => exact .refl _ _
  | read => exact elsewhere_setFds kernel pid _ kernel.files
  | print => exact ⟨rfl, rfl, rfl, fun _ _ => rfl⟩
  | write => exact elsewhere_setFds kernel pid _ _
  | close => exact elsewhere_setFds kernel pid _ kernel.files
  | unlink => exact ⟨rfl, rfl, rfl, fun _ _ => rfl⟩

theorem started?_onFiles {c : Syscall} (onFiles : c.onFiles = true) (reply : c.Reply)
    : c.started? reply = none := by
  cases c with
  | exec => cases onFiles
  | join => cases onFiles
  | _ => rfl

/-- A call on files has a reply in every kernel. -/
theorem call_onFiles {c : Syscall} (onFiles : c.onFiles = true) (kernel : Kernel) (pid : Pid)
    : ∃ reply after, kernel.call pid c = some (reply, after) := by
  cases c with
  | exec => cases onFiles
  | join => cases onFiles
  | _ => exact ⟨_, _, rfl⟩

/-- A line can always be printed, which changes nothing elsewhere. -/
theorem performs_putLine (kernel : Kernel) (pid : Pid) (text : String)
    : ∃ after, Performs pid kernel (Prog.putLine text) () after ∧ kernel.Elsewhere pid after := by
  obtain ⟨reply, after, written⟩ :=
    @call_onFiles (.write .stdout (Utf8.encode (text ++ "\n"))) rfl kernel pid
  exact ⟨after, .attempt written rfl, call_elsewhere rfl written⟩

/-- A program that only calls on files comes to a value, whatever the kernel is, by induction on the
program.
-/
theorem performs_onFiles {result : List Exchange → α → Prop} {past : List Exchange} {prog : Prog α}
    (upholds : prog.Upholds (fun _ c => c.onFiles = true) result past) (kernel : Kernel) (pid : Pid)
    : ∃ value after exchanges,
        Performs pid kernel prog value after
        ∧ kernel.Elsewhere pid after
        ∧ result (past ++ exchanges) value := by
  induction prog generalizing past kernel with
  | done value =>
      refine ⟨value, kernel, [], .done, .refl kernel pid, ?_⟩
      rw [List.append_nil]
      exact upholds
  | call c next ih =>
      obtain ⟨onFiles, onward⟩ := upholds
      obtain ⟨reply, middle, replied⟩ := call_onFiles onFiles kernel pid
      obtain ⟨value, after, exchanges, performs, same, holds⟩ := ih reply (onward reply) middle
      refine ⟨value, after, ⟨c, reply⟩ :: exchanges, ?_, ?_, by simpa using holds⟩
      · exact .call replied (started?_onFiles onFiles reply) performs
      · exact (call_elsewhere onFiles replied).trans same

end Kernel

end KernelConformance
