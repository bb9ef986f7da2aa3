import KernelConformance.Proofs.Suite.RecurrenceRuns
import Mathlib.Data.Nat.Fib.Basic

/-! A recurrence whose state is in files comes to what it comes to in memory, which is a Fibonacci
number, for any number of rounds. Whatever it comes to, none of its files stays.
-/

namespace KernelConformance

namespace Recurrence

variable {kernel : Kernel} {pid : Pid} {pair : FilePair}

-----------------------------------------------------------------------------------------
-- No file stays
-----------------------------------------------------------------------------------------

theorem performs_removal (pid : Pid) (pair : FilePair) (admits : kernel.files.Admits)
    : ∃ after,
        Kernel.Performs pid kernel
          (do
            Prog.attempt (.unlink pair.first)
            Prog.attempt (.unlink pair.second))
          () after
        ∧ ∀ name, pair.Names name → after.files.names.get? name = none := by
  obtain ⟨_, middle, first⟩ := Kernel.call_onFiles (c := .unlink pair.first) rfl kernel pid
  obtain ⟨firstAbsent, -⟩ := Kernel.call_unlink_absent first (admits _)
  have admits := Kernel.call_admits first admits
  obtain ⟨_, after, second⟩ := Kernel.call_onFiles (c := .unlink pair.second) rfl middle pid
  obtain ⟨secondAbsent, kept⟩ := Kernel.call_unlink_absent second (admits _)
  refine ⟨after, (Kernel.Performs.attempt first rfl).bind (.attempt second rfl), ?_⟩
  rintro name (rfl | rfl)
  · exact kept pair.first firstAbsent
  · exact secondAbsent

theorem calls_onFiles {past : List Exchange} {c : Syscall} (allowed : Calls pair past c)
    : c.onFiles = true := by
  cases c with
  | exec => exact allowed.elim
  | join => exact allowed.elim
  | _ => rfl

/-- A run comes to a value or a violation in every kernel, and neither of its files stays. -/
theorem performs_run_absent (admits : kernel.files.Admits) (pid : Pid) (pair : FilePair)
    (number : Nat)
    : ∃ outcome after,
        Kernel.Performs pid kernel (run pair number).run outcome after
        ∧ outcome ≠ .error .fault
        ∧ ∀ name, pair.Names name → after.files.names.get? name = none := by
  have upholds
      : (compute pair number).Upholds (fun _ c => c.onFiles = true) (fun _ _ => True)
          Check.Failed [] :=
    (upholds_compute number).mono (fun _ _ => calls_onFiles) (fun _ _ => id) (fun _ _ => id)
  obtain ⟨outcome, middle, _, performs, -, holds⟩ := Kernel.performs_onFiles upholds kernel pid
  have admits := performs.keeps (fun kernel => kernel.files.Admits) Kernel.call_admits admits
  obtain ⟨after, removes, absent⟩ := performs_removal pid pair admits
  rcases outcome with (violation | _) | value
  · exact ⟨_, after, performs.andFinally_violation removes, by simp, absent⟩
  · obtain ⟨message, same⟩ := holds
    cases same
  · exact ⟨_, after, performs.andFinally_ok removes, by simp, absent⟩

-----------------------------------------------------------------------------------------
-- What a run comes to
-----------------------------------------------------------------------------------------

/-- Rounds in memory lead from two Fibonacci numbers to later ones, by induction on the rounds. -/
theorem iterate_fib (number index : Nat)
    : iterate number (.ofNat (Nat.fib index), .ofNat (Nat.fib (index + 1)))
      = (.ofNat (Nat.fib (index + number)), .ofNat (Nat.fib (index + number + 1))) := by
  induction number generalizing index with
  | zero => rfl
  | succ number ih =>
      have next : advance (.ofNat (Nat.fib index), .ofNat (Nat.fib (index + 1)))
          = (.ofNat (Nat.fib (index + 1)), .ofNat (Nat.fib (index + 1 + 1))) := by
        rw [advance, Nat.fib_add_two, Int32.ofNat_add]
      rw [iterate, next, ih, Nat.add_right_comm index 1 number]
      rfl

theorem expected_eq_fib (number : Nat) : expected number = .ofNat (Nat.fib (number + 1)) := by
  have all := iterate_fib number 0
  rw [Nat.zero_add number] at all
  exact congrArg Prod.snd all

/-- What a run leaves as it was: everything but the files of its pair and what is on the console.
The descriptors of the process stand for what they did, at the same offsets.
-/
structure Untouched (kernel : Kernel) (pid : Pid) (pair : FilePair) (after : Kernel) : Prop where
  elsewhere : kernel.Elsewhere pid after
  descriptors : ∀ fd, (after.fds pid).get? fd = (kernel.fds pid).get? fd
  named
    : ∀ name,
        ¬pair.Names name
        → after.files.names.get? name = kernel.files.names.get? name
          ∧ after.files.contents? name = kernel.files.contents? name
  unnamed
    : ∀ inode,
        inode.index < kernel.files.next.index
        → (∀ name, pair.Names name → kernel.files.names.get? name ≠ some inode)
        → after.files.data inode = kernel.files.data inode

theorem Between.untouched {files : FileSystem} {after : Kernel}
    (between : Between kernel pid (kernel.fds pid).get? (kernel.fds pid).size pair files after)
    (distinct : kernel.files.Distinct)
    : Untouched kernel pid pair after where
  elsewhere := between.workspace.elsewhere
  descriptors fd := congrFun between.workspace.get? fd
  named name foreign := by
    rw [between.workspace.files]
    exact ⟨between.spares.names name foreign, between.spares.contents? distinct foreign⟩
  unnamed inode old foreign := by
    rw [between.workspace.files]
    exact between.spares.data inode old foreign

section Runs

variable {start : Kernel} {slots : Fd → Option Handle} {count : Nat} {files : FileSystem}

theorem Between.unlink (between : Between start pid slots count pair files kernel) {name : String}
    (own : pair.Names name)
    : ∃ reply removed after,
        kernel.call pid (.unlink name) = some (reply, after)
        ∧ Between start pid slots count pair removed after := by
  obtain ⟨reply, after, called, workspace⟩ := between.workspace.unlink name
  refine ⟨reply, _, after, called, workspace, ?_⟩
  split
  · next removed done =>
      obtain rfl := FileSystem.remove_cases done
      exact between.spares.unlink own
  · exact between.spares

/-- With room for two files a run comes to what the rounds come to in memory. -/
theorem performs_run (usable : Usable start count pair) (number : Nat)
    (between : Between start pid slots count pair files kernel)
    : ∃ removed after,
        Kernel.Performs pid kernel (run pair number).run (.ok (expected number)) after
        ∧ Between start pid slots count pair removed after := by
  obtain ⟨_, _, _, _, computes, between, -⟩ := performs_compute usable number between
  obtain ⟨_, _, _, first, between⟩ := between.unlink (.inl rfl)
  obtain ⟨_, removed, after, second, between⟩ := between.unlink (.inr rfl)
  refine ⟨removed, after, computes.andFinally_ok ?_, between⟩
  exact (Kernel.Performs.attempt first rfl).bind (.attempt second rfl)

/-- With room for two files a check passes. -/
theorem performs_check (usable : Usable start count pair)
    (between : Between start pid slots count pair files kernel)
    : ∃ removed after,
        Kernel.Performs pid kernel (check pair).run (.ok ()) after
        ∧ Between start pid slots count pair removed after := by
  have full : expected fullRounds = fullResult := by decide
  obtain ⟨removed, after, performs, between⟩ := performs_run usable fullRounds between
  rw [full] at performs
  exact ⟨removed, after, performs.check_ok (.require_true (decide_eq_true rfl) _), between⟩

end Runs

/-- A process that runs is between two steps that it has not made yet. -/
theorem Between.of_run {config : Config} {deeds : List Deed}
    (reached : Kernel.Run config deeds kernel) (runs : kernel.processes.isRunning pid = true)
    (pair : FilePair)
    : Between kernel pid (kernel.fds pid).get? (kernel.fds pid).size pair kernel.files kernel := by
  have tidy := reached.tidy
  have limit : (kernel.fds pid).limit = kernel.config.maxOpenFiles := by
    rw [tidy.limits, tidy.configured]
  exact ⟨.begin kernel pid (tidy.streams pid runs) limit, .refl pair tidy.names⟩

/-- In every kernel that a run leads to, a process with room for two files that is by itself comes
to the Fibonacci number after that of the rounds, as the recurrence in memory does, and leaves all
other files and its own descriptors as they were. Whatever the kernel, the process and the names
are, a run comes to a value or a violation, and neither of its files is there afterwards.
-/
theorem run_refines {ρ : Type} {config : Config} {deeds : List Deed} {kernel : Kernel}
    (reached : Kernel.Run config deeds kernel) (images : Images ρ) (reports : List (Pid × ρ))
    (pid : Pid) (pair : FilePair) (number : Nat)
    : (kernel.processes.isRunning pid = true
        → (kernel.fds pid).size + 2 ≤ config.maxOpenFiles
        → pair.first ≠ pair.second
        → (∀ name, pair.Names name → kernel.files.acceptsName name = true)
        → ∃ after,
            Machine.runFor images pid (run pair number).run ⟨kernel, reports⟩
              = (some (.ok (expected number)), ⟨after, reports⟩)
            ∧ Untouched kernel pid pair after)
      ∧ (expected number).toInt = (Nat.fib (number + 1) : Int).bmod (2 ^ 32)
      ∧ ∃ outcome after,
          Machine.runFor images pid (run pair number).run ⟨kernel, reports⟩
            = (some outcome, ⟨after, reports⟩)
          ∧ outcome ≠ .error .fault
          ∧ ∀ name, pair.Names name → after.files.names.get? name = none := by
  have tidy := reached.tidy
  refine ⟨fun runs room different accepted => ?_, ?_, ?_⟩
  · have usable : Usable kernel (kernel.fds pid).size pair :=
      ⟨different, accepted, tidy.configured ▸ room⟩
    obtain ⟨_, after, performs, between⟩ :=
      performs_run usable number (.of_run reached runs pair)
    exact ⟨after, performs.runFor images reports, between.untouched tidy.names⟩
  · exact (congrArg Int32.toInt (expected_eq_fib number)).trans Int32.toInt_ofNat'
  · obtain ⟨outcome, after, performs, returns, absent⟩ :=
      performs_run_absent reached.admits pid pair number
    exact ⟨outcome, after, performs.runFor images reports, returns, absent⟩

/-- The first process of a kernel makes a full run and comes to the number that it must. -/
theorem run_refines_full
    : ∃ kernel after,
        Kernel.Run .standard [.register "p", .spawn "p" [] (.ok .first)] kernel
        ∧ Machine.runFor (fun _ => none : Images Unit) .first (run ⟨"a", "b"⟩ fullRounds).run
            ⟨kernel, []⟩
          = (some (.ok fullResult), ⟨after, []⟩)
        ∧ ∀ fd, (after.fds .first).get? fd = (kernel.fds .first).get? fd := by
  obtain ⟨kernel, reached, runs, fds, files⟩
      : ∃ kernel,
          Kernel.Run .standard [.register "p", .spawn "p" [] (.ok .first)] kernel
          ∧ kernel.processes.isRunning .first = true
          ∧ kernel.fds .first = .initial 16
          ∧ kernel.files = .empty 256 :=
    ⟨_, .extend .boot (.cons (.register "p") (.cons (.spawn rfl) .nil)), rfl, rfl, rfl⟩
  have accepted
      : ∀ name, (FilePair.mk "a" "b").Names name → kernel.files.acceptsName name = true := by
    rw [files]
    rintro name (rfl | rfl) <;> decide
  obtain ⟨after, same, untouched⟩ :=
    (run_refines reached (fun _ => none : Images Unit) [] .first ⟨"a", "b"⟩ fullRounds).1 runs
      (by rw [fds]; decide) (by decide) accepted
  have full : expected fullRounds = fullResult := by decide
  exact ⟨kernel, after, reached, full ▸ same, untouched.descriptors⟩

end Recurrence

end KernelConformance
