import KernelConformance.Proofs.Suite.SequentialJobs

/-! How many descriptors the programs need that have no children. With too few of them a run of the
recurrence and a probe end with the code of a failure, whatever else is in the kernel, and otherwise
they end with the status that they were given.
-/

namespace KernelConformance

open Kernel (Performs WorksWith)

variable {config : Config} {deeds : List Deed} {kernel middle after : Kernel} {pid : Pid}
  {argv : List String}

/-- The code of a failure. -/
def failureCode : Int32 := 1

/-- A process whose check has failed exits with the code of a failure. -/
theorem Kernel.Performs.ending_failure {check : Check Int32} {message : String}
    (performs : Performs pid kernel check.run (.error (.violation (.failure message))) middle)
    (name : String)
    : ∃ after, Performs pid kernel (check.ending name) (.exit failureCode) after := by
  obtain ⟨after, prints, -⟩ := performs_putLine middle pid (name ++ ": " ++ message)
  exact ⟨after, performs.bind (prints.bind .done)⟩

-----------------------------------------------------------------------------------------
-- Recurrences
-----------------------------------------------------------------------------------------

namespace Recurrence

variable {start : Kernel} {slots : Fd → Option Handle} {count : Nat} {files : FileSystem}
  {pair : FilePair}

/-- Making a file with one record fails, or there was room for one more descriptor. -/
theorem performs_seed_cases (between : Between start pid slots count pair files kernel)
    {name : String} (own : pair.Names name) (value : Int32)
    : (∃ message after,
        Performs pid kernel (seed name value).run (.error (.violation (.failure message))) after)
      ∨ ∃ made after,
          Performs pid kernel (seed name value).run (.ok ()) after
          ∧ Between start pid slots count pair made after := by
  by_cases able : count < start.config.maxOpenFiles ∧ files.acceptsName name = true
  · obtain ⟨room, accepted⟩ := able
    obtain ⟨_, made, after, seeds, between, -⟩ := performs_seed between room own accepted value
    exact .inr ⟨made, after, seeds, between⟩
  · have unable
        : start.config.maxOpenFiles ≤ count ∨ ∃ error, files.create name = .error error := by
      rcases not_and_or.mp able with full | refused
      · exact .inl (Nat.le_of_not_lt full)
      · exact .inr ⟨.badFileName, by simp [FileSystem.create, refused]⟩
    obtain ⟨error, after, failed, -⟩ := between.workspace.creat_error name unable
    exact .inl ⟨_, after, (Performs.demand_error _ failed).check_stop _⟩

variable (short : start.config.maxOpenFiles < count + 2)

include short

/-- Both files are never open at once where there is no room for two. -/
theorem performs_readState_short (between : Between start pid slots count pair files kernel)
    : ∃ message after,
        Performs pid kernel (readState pair).run
          (.error (.violation (.failure message))) after := by
  have failed {name : String} {count : Nat} {slots : Fd → Option Handle} {kernel : Kernel}
      (workspace : start.Workspace pid slots count files kernel)
      (unable : start.config.maxOpenFiles ≤ count ∨ ∃ error, files.find name = .error error)
      : ∃ message after,
          Performs pid kernel (openFile name).run
            (.error (.violation (.failure message))) after := by
    obtain ⟨error, after, refused, -⟩ := workspace.openFile_error name unable
    exact ⟨_, after, Performs.demand_error _ refused⟩
  rcases found : files.find pair.first with error | inode
  · obtain ⟨message, after, stopped⟩ := failed between.workspace (.inr ⟨error, found⟩)
    exact ⟨message, after, stopped.check_stop _⟩
  · by_cases room : count < start.config.maxOpenFiles
    · obtain ⟨fd, middle, opened, -, workspace⟩ := between.workspace.openFile room found
      obtain ⟨message, after, stopped⟩ :=
        @failed pair.second _ _ _ workspace (.inl (Nat.le_of_lt_succ short))
      exact ⟨message, after, (Performs.demand_ok _ opened rfl).check_ok (stopped.check_stop _)⟩
    · obtain ⟨message, after, stopped⟩ :=
        @failed pair.first _ _ _ between.workspace (.inl (Nat.le_of_not_lt room))
      exact ⟨message, after, stopped.check_stop _⟩

/-- Where there is no room for two files, a run fails before its first round is over. -/
theorem performs_run_short (between : Between start pid slots count pair files kernel)
    (admits : kernel.files.Admits) (number : Nat)
    : ∃ message after,
        Performs pid kernel (run pair (number + 1)).run (.error (.violation (.failure message)))
          after := by
  obtain ⟨message, middle, fails⟩
      : ∃ message middle,
          Performs pid kernel (compute pair (number + 1)).run
            (.error (.violation (.failure message))) middle := by
    rcases performs_seed_cases between (.inl rfl) 0 with
      ⟨message, after, stopped⟩ | ⟨_, first, seeds, between⟩
    · exact ⟨message, after, stopped.check_stop _⟩
    · rcases performs_seed_cases between (.inr rfl) 1 with
        ⟨message, after, stopped⟩ | ⟨_, second, seedsToo, between⟩
      · exact ⟨message, after, seeds.check_ok (stopped.check_stop _)⟩
      · obtain ⟨message, after, stopped⟩ := performs_readState_short short between
        exact ⟨message, after, seeds.check_ok (seedsToo.check_ok (stopped.check_stop _))⟩
  have admits := fails.keeps (fun kernel => kernel.files.Admits) Kernel.call_admits admits
  obtain ⟨after, removes, -⟩ := performs_removal pid pair admits
  exact ⟨message, after, fails.andFinally_violation removes⟩

end Recurrence

/-- Where there is no room for two files, a run of the recurrence fails whatever its
arguments are.
-/
theorem Fibonacci.performs_failure (run : Kernel.Run config deeds kernel) {program : String}
    (newborn : kernel.Newborn pid program argv) (short : config.maxOpenFiles < 4) (name : String)
    : ∃ after, Performs pid kernel ((body argv).ending name) (.exit failureCode) after := by
  rcases body_eq argv with ⟨signature, index, same⟩ | ⟨message, same⟩
  · have few : kernel.config.maxOpenFiles < (kernel.fds pid).size + 2 := by
      rw [newborn.fds run, run.tidy.configured]
      exact short
    obtain ⟨message, middle, stopped⟩ :=
      Recurrence.performs_run_short few (.of_run run newborn.runs (.ofIndex index)) run.admits 99
    rw [same]
    exact Performs.ending_failure (stopped.check_stop _) name
  · rw [same]
    exact Performs.ending_failure .done name

-----------------------------------------------------------------------------------------
-- Probes
-----------------------------------------------------------------------------------------

/-- Whether the number of open files that a process can have is one that a probe expects. -/
def Probe.Expects (probe : Probe) (limit : Nat) : Prop :=
  3 ≤ limit
  ∧ if probe.isAlone then probe.capacity = limit
    else 2 ≤ probe.capacity ∧ probe.capacity ≤ limit

namespace FdTest

/-- What a check comes to that makes a probe and says so: a status where the probe finds what it
expects, and else a failure.
-/
theorem performs_probe {start : Kernel} {probe : Probe} (fresh : Probe.Fresh start pid kernel)
    (accepted : start.files.acceptsName probe.file = true)
    (absent : probe.isAlone = true → start.files.names.get? probe.file = none)
    (fits : probe.capacity ≤ Probe.maxSlots) (stream : Randomness.Stream) (line : String)
    (status : Int32)
    : (probe.Expects start.config.maxOpenFiles
        → ∃ after,
            Performs pid kernel (probe.run stream >>= rest line status).run (.ok status) after)
      ∧ (¬probe.Expects start.config.maxOpenFiles
        → ∃ message after,
            Performs pid kernel (probe.run stream >>= rest line status).run
              (.error (.violation (.failure message))) after) := by
  obtain ⟨outcome, middle, performs, verdict, -⟩ :=
    Probe.performs_verdict fresh accepted absent fits stream
  refine ⟨fun expected => ?_, fun unexpected => ?_⟩
  · obtain ⟨held, rfl⟩ := verdict.ok_iff.mpr expected
    obtain ⟨after, prints, -⟩ := Kernel.performs_putLine middle pid line
    exact ⟨after, performs.check_ok (prints.lift.check_ok .done)⟩
  · cases outcome with
    | ok held => exact absurd (verdict.ok_iff.mp ⟨held, rfl⟩) unexpected
    | error stop =>
        obtain ⟨message, rfl⟩ := verdict.failed stop rfl
        exact ⟨message, middle, performs.check_stop _⟩

variable {program text : String}

/-- A probe that is alone exits with zero where there can be as many descriptors as it expects, and
else it fails.
-/
theorem performs_alone (run : Kernel.Run config deeds kernel)
    (newborn : kernel.Newborn pid program [text]) (long : 23 ≤ config.maxNameLength)
    (absent : kernel.files.names.get? Probe.loneFile = none) (name : String)
    : ∃ after,
        Performs pid kernel ((body [text]).ending name)
          (.exit (if config.maxOpenFiles = Probe.loneCapacity then 0 else failureCode)) after := by
  have fresh : Probe.Fresh kernel pid kernel :=
    Probe.fresh_of_started (by rw [newborn.fds run, run.tidy.configured])
  have accepted : kernel.files.acceptsName Probe.loneFile = true :=
    TestFile.accepted run .lone long
  have same : body [text] = Probe.alone.run (.ofSeed loneSeed) >>= rest "--- PASS test_fd" 0 := rfl
  obtain ⟨passes, fails⟩ :=
    @performs_probe kernel pid kernel .alone fresh accepted (fun _ => absent) (by decide)
      (.ofSeed loneSeed) "--- PASS test_fd" 0
  rw [run.tidy.configured] at passes fails
  rw [same]
  split
  · next exact =>
      obtain ⟨after, performs⟩ := passes ⟨by rw [exact]; decide, exact.symm⟩
      exact ⟨after, performs.ending name⟩
  · next other =>
      obtain ⟨message, middle, performs⟩ := fails fun expected => other expected.2.symm
      exact performs.ending_failure name

theorem shared_fits : Probe.sharedCapacity ≤ Probe.maxSlots := by decide

/-- What one of several probes does that is given a small number and a file. -/
theorem body_shared {n : Nat} (small : n ≤ 2147483647) (file : String)
    : body [text, toString n, file]
      = announced s!"multiprogramming: {toString n}"
          ((Probe.shared (Int32.ofNat n) file).run (.ofSeed (Int32.ofNat n).toInt.natAbs)
            >>= rest s!"--- PASS test_fd {Decimal.write (Int32.ofNat n)}" (Int32.ofNat n)) := by
  have first : [text, toString n, file][1]? = some (toString n) := rfl
  rw [body, argumentInt32_of_le "instance" first small]
  rfl

/-- One of several probes exits with its number where there can be as many descriptors as it
expects, and else it fails.
-/
theorem performs_shared (run : Kernel.Run config deeds kernel) {file : String} {n : Nat}
    (newborn : kernel.Newborn pid program [text, toString n, file]) (small : n ≤ 2147483647)
    (accepted : kernel.files.acceptsName file = true) (name : String)
    : ∃ after,
        Performs pid kernel ((body [text, toString n, file]).ending name)
          (.exit (if Probe.sharedCapacity ≤ config.maxOpenFiles then Int32.ofNat n
            else failureCode))
          after := by
  have fresh : Probe.Fresh kernel pid kernel :=
    Probe.fresh_of_started (by rw [newborn.fds run, run.tidy.configured])
  obtain ⟨middle, printed, fresh⟩ := fresh.print .stdout rfl
    (Utf8.encode (s!"multiprogramming: {toString n}" ++ "\n"))
  obtain ⟨passes, fails⟩ :=
    @performs_probe middle pid kernel (.shared (Int32.ofNat n) file) fresh accepted
      nofun shared_fits
      (.ofSeed (Int32.ofNat n).toInt.natAbs) s!"--- PASS test_fd {Decimal.write (Int32.ofNat n)}"
      (Int32.ofNat n)
  have announces := (Performs.attempt printed rfl).lift
  rw [run.tidy.configured] at passes fails
  rw [body_shared small]
  split
  · next enough =>
      obtain ⟨after, performs⟩ := passes
        ⟨Nat.le_trans (by decide) enough, show 2 ≤ Probe.sharedCapacity by decide, enough⟩
      exact ⟨after, (announces.check_ok performs).ending name⟩
  · next few =>
      obtain ⟨message, middle, performs⟩ := fails fun expected => few expected.2.2
      exact (announces.check_ok performs).ending_failure name

/-- One of several probes works with its file alone. -/
theorem upholds_shared {n : Nat} (small : n ≤ 2147483647) (file : String)
    : (body [text, toString n, file]).Upholds (WorksWith (· = file)) (fun _ _ => True)
        (fun _ _ => True) [] := by
  rw [body_shared small]
  refine Check.upholds_bind.mpr (Check.upholds_lift.mpr ?_)
  refine (Kernel.upholds_putLine _ []).mono (fun _ _ => id) fun past _ _ => ?_
  refine Check.upholds_bind.mpr ((Probe.upholds_run shared_fits _).mono (fun _ _ => id) ?_
    fun _ _ _ => trivial)
  intro past result _
  refine Check.upholds_bind.mpr (Check.upholds_lift.mpr ?_)
  exact (Kernel.upholds_putLine _ past).mono (fun _ _ => id) fun _ _ => id

end FdTest

end KernelConformance
