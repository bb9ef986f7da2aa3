import KernelConformance.Proofs.Suite.FileNames
import KernelConformance.Proofs.Suite.MachineCrews

/-! The jobs of many runs of the recurrence. Each of them works with two files of its own, and
wherever there is room for these, it ends with the signature that it was given and prints nothing
but its line.
-/

namespace KernelConformance

open Kernel (Performs WorksWith)
open Utf8 (Bytes)

/-- A check prints nothing, as it writes only to what it has opened. -/
theorem Recurrence.printedBy_check {config : Config} {deeds more : List Deed} {kernel : Kernel}
    {pid : Pid} {pair : FilePair} {rest : Prog (Except Check.Stop Unit)}
    (run : Kernel.Run config (deeds ++ more) kernel)
    (reached : (check pair).run.Reaches (exchanges pid more) rest)
    : printedBy (exchanges pid more) = [] := by
  have upholds : (check pair).Upholds (Calls pair) _ _ [] := upholds_check
  have calls := Prog.Upholds.throughout upholds reached
  refine List.filterMap_eq_nil_iff.mpr fun exchange member => ?_
  obtain ⟨before, after, whole⟩ := List.append_of_mem member
  have allowed := calls before exchange after whole
  have made {exchange : Exchange} (member : exchange ∈ before)
      : .call pid exchange.call (some exchange.reply) ∈ deeds ++ more :=
    List.mem_append_right _ (mem_exchanges.mp (whole ▸ List.mem_append_left _ member))
  obtain ⟨c, reply⟩ := exchange
  cases c with
  | write fd bytes =>
      cases reply with
      | ok count =>
          obtain ⟨name, created | found⟩ := allowed
          · exact if_neg (run.opened_ne_stdout (made created) rfl)
          · exact if_neg (run.opened_ne_stdout (made found) rfl)
      | error => rfl
  | _ => rfl

namespace Fibonacci

variable {config : Config} {deeds : List Deed} {kernel last : Kernel} {pid : Pid}
  {signature number : Nat}

theorem upholds_passing (signature : Int32) (number : Nat)
    : (passing signature number).Upholds (WorksWith (FilePair.ofIndex (Int32.ofNat number)).Names)
        (fun _ _ => True) (fun _ _ => True) [] := by
  refine Check.upholds_bind.mpr (Recurrence.upholds_check.mono (fun _ _ => worksWith_of_calls) ?_
    fun _ _ _ => trivial)
  intro past _ _
  refine Check.upholds_bind.mpr (Check.upholds_lift.mpr ?_)
  exact (Kernel.upholds_putLine _ past).mono (fun _ _ => id) fun _ _ => id

theorem usable (run : Kernel.Run config deeds kernel) (room : 4 ≤ config.maxOpenFiles)
    (long : 20 ≤ config.maxNameLength) (fits : number ≤ 2147483647)
    (fds : kernel.fds pid = .initial config.maxOpenFiles)
    : Recurrence.Usable kernel (kernel.fds pid).size (.ofIndex (Int32.ofNat number)) := by
  refine ⟨FilePair.ofIndex_different _, fun name uses => ?_, ?_⟩
  · exact FilePair.ofIndex_accepted run long fits uses
  · rw [fds, run.tidy.configured]
    exact room

/-- Wherever there is room for two files, a run that was just started ends by itself
with its signature.
-/
theorem can_end (run : Kernel.Run config deeds kernel) (room : 4 ≤ config.maxOpenFiles)
    (long : 20 ≤ config.maxNameLength) (small : signature ≤ 2147483647)
    (fits : number ≤ 2147483647) (runs : kernel.processes.isRunning pid = true)
    (fds : kernel.fds pid = .initial config.maxOpenFiles) (name : String)
    : kernel.CanEnd (FilePair.ofIndex (Int32.ofNat number)).Names pid
        ((body [program, toString signature, toString number]).ending name)
        (Int32.ofNat signature) where
  works := by
    refine ⟨[], ?_⟩
    rw [body_of_le program small fits]
    exact Kernel.upholds_ending (upholds_passing _ number) name
  ends :=
    performs_ending program name small fits (usable run room long fits fds) (.of_run run runs _)

/-- A run that ends with its signature prints its line and nothing else, if nothing is traced. -/
theorem console (run : Kernel.Run config deeds kernel) (room : 4 ≤ config.maxOpenFiles)
    (long : 20 ≤ config.maxNameLength) (small : signature ≤ 2147483647)
    (fits : number ≤ 2147483647) (runs : kernel.processes.isRunning pid = true)
    (fds : kernel.fds pid = .initial config.maxOpenFiles) {name : String} {ending : Ending}
    (performs
      : Performs pid kernel ((body [program, toString signature, toString number]).ending name)
          ending last)
    (silent : ∀ kind, config.traces kind = false)
    : last.console.writes = passLine number :: kernel.console.writes := by
  obtain ⟨files, middle, checks, between⟩ :=
    Recurrence.performs_check (usable run room long fits fds) (.of_run run runs _)
  obtain ⟨more, reached, dialogue, printed⟩ := run.performs_console silent runs checks
  rw [Recurrence.printedBy_check reached dialogue] at printed
  have held : (middle.fds pid).get? .stdout = some .stdout := by
    rw [between.workspace.get?, fds]
    rfl
  have performed
      : middle.perform pid (.write .stdout (passLine number))
        = some (.ok (passLine number).length, middle.print (passLine number)) :=
    congrArg some (Kernel.write_of_stdout held (passLine number))
  have written := Kernel.call_of_perform performed
  have passes
      : Performs pid kernel (passing (Int32.ofNat signature) number).run
          (.ok (Int32.ofNat signature)) _ :=
    checks.check_ok ((Kernel.Performs.attempt written rfl).lift.check_ok .done)
  rw [body_of_le program small fits] at performs
  obtain ⟨-, rfl⟩ := (passes.ending name).unique performs
  rw [reached.call_console silent written, printed]
  rfl

end Fibonacci

end KernelConformance
