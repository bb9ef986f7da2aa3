import KernelConformance.Proofs.Files.TidyKernels
import KernelConformance.Proofs.Programs.Followers
import Mathlib.Data.List.Basic
import Mathlib.Data.List.Induction

/-! What processes print. Only the number of the output stands for the console, so that without
traces the console gains exactly what was written to this number.
-/

namespace KernelConformance

open Utf8 (Bytes)

/-- What an exchange prints: what was written to the output, if it could be. -/
def Exchange.printed? : Exchange → Option Bytes
  | ⟨.write fd bytes, .ok _⟩ => if fd = .stdout then some bytes else none
  | _ => none

/-- What a deed prints. -/
def Deed.printed? : Deed → Option Bytes
  | call _ c (some reply) => Exchange.printed? ⟨c, reply⟩
  | _ => none

/-- What some deeds have printed, the oldest first. -/
def printed (deeds : List Deed) : List Bytes := deeds.filterMap Deed.printed?

/-- What one process has printed by its exchanges. -/
def printedBy (past : List Exchange) : List Bytes := past.filterMap Exchange.printed?

@[simp] theorem printed_snoc (deeds : List Deed) (deed : Deed)
    : printed (deeds ++ [deed]) = printed deeds ++ deed.printed?.toList :=
  filterMap_snoc _ _ _

/-- Whether a deed is done by a process. -/
def Deed.isOfProcess : Deed → Bool
  | call .. | finish .. => true
  | _ => false

/-- Whether nothing but the number of the output stands for the console. -/
def Descriptors.HasOneOutput (table : Descriptors) : Prop :=
  ∀ fd handle, table.get? fd = some handle → (handle = .stdout ↔ fd = .stdout)

namespace Descriptors.HasOneOutput

variable {table after : Descriptors} {fd : Fd}

theorem initial (limit : Nat) : (Descriptors.initial limit).HasOneOutput := by
  intro fd handle held
  rcases get?_initial held with ⟨rfl, rfl⟩ | ⟨rfl, rfl⟩ <;> decide

/-- A file is opened under another number than that of the output. -/
theorem inserted {inode : Inode} {offset : Nat} (one : table.HasOneOutput)
    (inserted : table.Inserted (.file inode offset) fd after)
    : after.HasOneOutput := by
  intro other handle held
  rw [inserted.get?] at held
  split at held
  · next same =>
      subst same
      cases held
      have file := inserted.file
      refine iff_of_false nofun ?_
      rintro rfl
      exact absurd file (by decide)
  · exact one other handle held

/-- A descriptor that stands for a file can stand for it at another offset. -/
theorem set {inode : Inode} {offset moved : Nat} (one : table.HasOneOutput)
    (before : table.get? fd = some (.file inode offset))
    : (table.set fd (.file inode moved)).HasOneOutput := by
  intro other handle held
  rw [get?_set before] at held
  split at held
  · next same =>
      subst same
      cases held
      exact iff_of_false nofun fun output => by
        have stream := (one _ _ before).mpr output
        cases stream
  · exact one other handle held

theorem erased (one : table.HasOneOutput) (erased : table.erase fd = .ok after)
    : after.HasOneOutput := by
  intro other handle held
  rw [(erased_of_erase erased).get?] at held
  split at held
  · cases held
  · exact one other handle held

end Descriptors.HasOneOutput

/-- What a process does by itself prints what its exchanges print. -/
theorem printed_of_own {pid : Pid} {deeds : List Deed} (own : ∀ deed ∈ deeds, deed.IsOwn pid)
    : printed deeds = printedBy (exchanges pid deeds) := by
  rw [printed, printedBy, exchanges, List.filterMap_filterMap]
  refine List.filterMap_congr fun deed member => ?_
  obtain ⟨c, reply, rfl, -⟩ := own deed member
  simp [Deed.printed?, Deed.exchange?]

namespace Kernel

variable {config : Config} {deeds during : List Deed} {kernel after begin : Kernel} {pid : Pid}

/-- Files are only opened under other numbers than that of the output, by induction on the run. -/
theorem Run.hasOneOutput (run : Run config deeds kernel) (pid : Pid)
    : (kernel.fds pid).HasOneOutput := by
  induction run generalizing pid with
  | boot => exact nofun
  | @step deeds kernel deed after run step ih =>
      have table := (step.fds run.rooted).table pid
      generalize deed.fdEvent? = event at table
      generalize after.fds pid = own at table ⊢
      cases table with
      | elsewhere | streamed => exact ih pid
      | start => exact .initial _
      | finish => exact nofun
      | opened runs _ _ inserted =>
          exact (ih pid).inserted
            (Descriptors.inserted_of_insert (run.tidy.streams pid runs) inserted)
      | moved _ before => exact (ih pid).set before
      | closed _ erased => exact (ih pid).erased erased

/-- What is not traced leaves no trace. -/
theorem untraced (silent : ∀ kind, config.traces kind = false) (configured : kernel.config = config)
    {kind : SyscallKind} {arguments outcome : String}
    : kernel.trace pid kind arguments outcome = kernel := by
  subst configured
  rw [trace, silent]
  rfl

/-- Before its trace a call adds to the console what it prints, by cases on its effect. -/
theorem Run.perform_console (run : Run config deeds kernel) {c : Syscall} {reply : c.Reply}
    (performed : kernel.perform pid c = some (reply, after))
    : after.console.writes
      = (Exchange.printed? ⟨c, reply⟩).toList ++ kernel.console.writes := by
  cases perform_effect performed with
  | failed => cases c <;> rfl
  | print held =>
      obtain rfl := (run.hasOneOutput pid _ _ held).mp rfl
      rfl
  | write held =>
      have other := mt (run.hasOneOutput pid _ _ held).mpr nofun
      simp only [Exchange.printed?, if_neg other]
      rfl
  | exec started => exact congrArg Console.writes (start_console started)
  | _ => rfl

/-- Without traces a call adds to the console what it prints. -/
theorem Run.call_console (run : Run config deeds kernel)
    (silent : ∀ kind, config.traces kind = false) {c : Syscall} {reply : c.Reply}
    (replied : kernel.call pid c = some (reply, after))
    : after.console.writes
      = (Exchange.printed? ⟨c, reply⟩).toList ++ kernel.console.writes := by
  have configured := (call_config replied).trans run.tidy.configured
  obtain ⟨middle, performed, rfl⟩ := call_cases replied
  rw [trace_eq] at configured
  have same : middle.config = config := configured
  rw [untraced silent same]
  exact run.perform_console performed

/-- Without traces processes add to the console what they print, in any order, by induction
on their deeds.
-/
theorem Run.steps_console (run : Run config deeds begin)
    (silent : ∀ kind, config.traces kind = false) (steps : Steps begin during kernel)
    (processes : ∀ deed ∈ during, deed.isOfProcess = true)
    : kernel.console.writes = (printed during).reverse ++ begin.console.writes := by
  induction during using List.reverseRecOn generalizing kernel with
  | nil =>
      cases steps
      rfl
  | append_singleton during deed ih =>
      obtain ⟨middle, earlier, last⟩ := steps.of_snoc
      have before := ih earlier fun deed member => processes deed (List.mem_append_left _ member)
      have reached := run.extend earlier
      have own := processes deed (List.mem_append_right _ (List.mem_singleton.mpr rfl))
      rw [printed_snoc, List.reverse_append]
      cases last with
      | call runs replied =>
          rw [reached.call_console silent replied, before]
          rcases printed : Exchange.printed? _ <;> simp [Deed.printed?, printed]
      | callBlocked => exact before
      | @finish pid ending runs =>
          cases ending with
          | fault => exact before
          | exit status =>
              rw [finish, untraced silent reached.tidy.configured]
              exact before
      | _ => cases own

/-- Without traces a process that performs a program by itself adds to the console
what it prints.
-/
theorem Run.performs_console {α : Type} {prog : Prog α} {value : α} (run : Run config deeds kernel)
    (silent : ∀ kind, config.traces kind = false)
    (runs : kernel.processes.isRunning pid = true)
    (performs : Performs pid kernel prog value after)
    : ∃ more,
        Run config (deeds ++ more) after
        ∧ prog.Reaches (exchanges pid more) (.done value)
        ∧ after.console.writes
          = (printedBy (exchanges pid more)).reverse ++ kernel.console.writes := by
  obtain ⟨more, steps, reached, own⟩ := run.steps_performs runs performs
  refine ⟨more, run.extend steps, reached, ?_⟩
  rw [← printed_of_own own]
  refine run.steps_console silent steps fun deed member => ?_
  obtain ⟨_, _, rfl, -⟩ := own deed member
  rfl

end Kernel

end KernelConformance
