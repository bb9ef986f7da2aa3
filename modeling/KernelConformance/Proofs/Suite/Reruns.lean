import KernelConformance.Proofs.Programs.ShiftedPools
import KernelConformance.Proofs.Suite.FaultFreeRuns
import KernelConformance.Proofs.Suite.IdleKernels
import KernelConformance.Proofs.Suite.ShiftedSuite

/-! Test programs that are run again. An idle kernel is one that has just been booted, but for the
numbers of the processes and the inodes that come next, so that the host gets the same of a test
program in both.
-/

namespace KernelConformance

variable {config : Config} {deeds : List Deed} {kernel after : Kernel} {pid : Pid}
  {program : String} {main : Main}

-----------------------------------------------------------------------------------------
-- Idle kernels and booted ones
-----------------------------------------------------------------------------------------

namespace Kernel

/-- How many processes and inodes a kernel has numbered. -/
def offset (kernel : Kernel) : Offset := ⟨kernel.processes.next.number - 1, kernel.files.next.index⟩

theorem pid_first (kernel : Kernel) : kernel.offset.pid .first = kernel.processes.next := by
  have positive := kernel.processes.next.positive
  rcases next : kernel.processes.next with ⟨number, _⟩
  simp only [Offset.pid, offset, next, Pid.first, Pid.mk.injEq]
  omega

theorem booted_empty (config : Config)
    : (bootWithTests config).processes = .empty config.maxProcesses
      ∧ (bootWithTests config).files = .empty config.maxNameLength := by
  obtain ⟨_, _, rfl, -, -, processes, files⟩ := registered testPrograms (.boot : Run config [] _)
  exact ⟨processes, files⟩

/-- An idle kernel is a booted one with later numbers. -/
theorem Idle.shifted (idle : kernel.Idle config)
    : (bootWithTests config).Shifted kernel.offset SuiteStarts kernel := by
  have booted := Idle.boot config
  obtain ⟨deeds, run⟩ := idle.reachable
  obtain ⟨before, first⟩ := booted.reachable
  obtain ⟨processes, files⟩ := booted_empty config
  have stopped {kernel : Kernel} (idle : kernel.Idle config) (pid : Pid)
      : kernel.processes.isRunning pid = false := by
    rw [ProcessTable.isRunning, idle.slots]
    rfl
  constructor
  · rw [run.tidy.configured, first.tidy.configured]
  · rintro program (rfl | known)
    · exact iff_of_false idle.absent booted.absent
    · obtain ⟨main, known⟩ := Option.ne_none_iff_exists'.mp known
      have member := mem_of_testProgram known
      exact iff_of_true (idle.installed _ member) (booted.installed _ member)
  · constructor
    · rw [processes]
      exact kernel.pid_first.symm
    · rw [run.capacity, first.capacity]
    · intro pid
      rw [idle.slots, booted.slots]
      rfl
    · exact fun pid _ => idle.slots pid
  · intro pid
    rw [run.context_stopped (stopped idle _), first.context_stopped (stopped booted _)]
    rfl
  · constructor
    · rw [run.acceptsName, first.acceptsName]
    · rw [files]
      simp [FileSystem.empty, Offset.inode, offset]
    · intro name
      rw [idle.names, booted.names]
      rfl
    · intro inode taken
      rw [files] at taken
      cases taken

/-- Where there is a slot at all, an idle kernel can come to number the next process
later by one.
-/
theorem Idle.exists_next (idle : kernel.Idle config) (room : 1 ≤ config.maxProcesses)
    : ∃ after : Kernel, after.Idle config ∧ after.processes.next = kernel.processes.next.next := by
  obtain ⟨deeds, run⟩ := idle.reachable
  have space : kernel.processes.size < kernel.processes.capacity := by
    rw [show kernel.processes.size = 0 from congrArg Usage.processes idle.usage, run.capacity]
    exact room
  obtain ⟨root, begin, step⟩ :=
    @exists_start kernel ExitCode.program [] .host rfl
      (idle.installed _ (.tail _ (.head _))) (by decide)
      space
  cases step with
  | spawn started =>
      have opening := idle.opening started
      have family : begin.Family config root anyStatus [] begin :=
        .alone (run.step (.spawn started)) root
      obtain ⟨processes, reaped, reachable, slots⟩ := family.reaped run started (.exit 0)
      have programs : (begin.finish root (.exit 0)).programs = begin.programs := finish_programs ..
      have files : (begin.finish root (.exit 0)).files = begin.files := finish_files ..
      refine ⟨_, ⟨reachable, programs ▸ opening.installed, programs ▸ opening.absent, fun pid => ?_,
        files ▸ opening.names⟩, ?_⟩
      · exact (slots pid).trans (idle.slots pid)
      · rcases reap_cases reaped with ⟨_, failed, -⟩ | ⟨status, table, -, done, same⟩
        · cases failed
        · obtain rfl : processes = table := congrArg Kernel.processes same
          rw [(ProcessTable.freed_of_reap done).next, finish_processes]
          exact opening.newest.trans (congrArg Pid.next (started_of_start started).numbered)

/-- An idle kernel can come to any number for the next process, by induction on how
many it skips.
-/
theorem Idle.exists_later (idle : kernel.Idle config) (room : 1 ≤ config.maxProcesses) (count : Nat)
    : ∃ after : Kernel,
        after.Idle config ∧ after.processes.next.number = kernel.processes.next.number + count := by
  induction count with
  | zero => exact ⟨kernel, idle, rfl⟩
  | succ count ih =>
      obtain ⟨middle, idle, same⟩ := ih
      obtain ⟨after, idle, next⟩ := idle.exists_next room
      exact ⟨after, idle, by rw [next, Pid.number_next, same, Nat.add_assoc]⟩

end Kernel

-----------------------------------------------------------------------------------------
-- Runs for the host
-----------------------------------------------------------------------------------------

/-- What is registered under the names of the test programs. -/
def testMains : FiniteMap String Main :=
  testPrograms.foldr (fun entry mains => mains.insert entry.1 entry.2) .empty

theorem get?_testMains (name : String) : testMains.get? name = testProgram? name := by
  unfold testMains testProgram?
  induction testPrograms with
  | nil => rfl
  | cons entry rest ih =>
      rw [List.foldr_cons, FiniteMap.get?_insert, ih, List.lookup_cons]
      by_cases same : name = entry.1
      · simp [same]
      · simp [same, beq_eq_false_iff_ne.mpr same]

/-- A pool in which no process has anything to do, with the test programs. -/
def Pool.ofTests (kernel : Kernel) : Pool := ⟨kernel, testMains, .empty⟩

namespace Kernel.Idle

theorem pool_sound (idle : kernel.Idle config) : (Pool.ofTests kernel).Sound config :=
  ⟨idle.reachable, nofun⟩

/-- A pool on an idle kernel is one on a booted kernel with later numbers. -/
theorem pool_shifted (idle : kernel.Idle config)
    : (Pool.ofTests (bootWithTests config)).Shifted kernel.offset SuiteStarts
        (.ofTests kernel) := by
  refine ⟨idle.shifted, ?_, fun _ => .none⟩
  rintro program (rfl | known) loaded
  · exact absurd loaded (boot config).absent
  · obtain ⟨main, known⟩ := Option.ne_none_iff_exists'.mp known
    have found : testMains.get? program = some main := (get?_testMains program).trans known
    exact ⟨main, found, found, matches_testProgram kernel.offset known⟩

/-- A test program that is run on an idle kernel, whatever has been run there before, is refused
there as on a kernel that has just been booted, or comes to its end with the same status; and so it
does in whatever order processes go on.
-/
theorem run_as_booted (idle : kernel.Idle config) (known : testProgram? program = some main)
    (argv : List String) (reports reportsToo : List (Pid × Unit))
    : (∃ outcome : Except Errno ExitStatus,
        (Machine.run testImages program argv ⟨kernel, reports⟩).1
          = some (outcome.map (kernel.processes.next, ·))
        ∧ (Machine.run testImages program argv ⟨.bootWithTests config, reportsToo⟩).1
          = some (outcome.map (Pid.first, ·)))
      ∧ ∀ order,
          (Pool.ofTests kernel).hostRun program argv (order.map kernel.offset.pid)
          = (Pool.ofTests (.bootWithTests config)).hostRun program argv order := by
  have named : SuiteStarts program := .inr (by simp [known])
  have booted := boot config
  refine ⟨?_, fun order => idle.pool_shifted.hostRun booted.pool_sound named argv order⟩
  obtain ⟨deeds, run⟩ := booted.reachable
  have familiar (name : String) (starts : SuiteStarts name)
      (loaded : name ∈ (bootWithTests config).programs)
      : testProgram? name ≠ none := by
    refine starts.resolve_left ?_
    rintro rfl
    exact booted.absent loaded
  have alike (depth : Nat) :=
    @launchesAlike_launch config kernel.offset SuiteStarts testProgram?
      (bootWithTests config).programs
      testImages shipped_testImages (familiar_of_tame booted.absent) familiar
      (fun _ _ name argv known => matches_testProgram kernel.offset known name argv) depth
  obtain ⟨later, -⟩ := idle.shifted.run run alike known named argv reportsToo reports
  rcases started : (bootWithTests config).start .host program argv with ⟨error | root, begin⟩
  · refine ⟨.error error, ?_, ?_⟩
    · rw [later, run_of_refused testImages started]
      rfl
    · rw [run_of_refused testImages started]
      rfl
  · obtain ⟨ending, after, last, runs, -⟩ :=
      run.runsToEnd shipped_testImages booted.absent known started reportsToo
    have first : root = .first := by
      rw [(started_of_start started).numbered, (booted_empty config).1]
      rfl
    subst first
    refine ⟨.ok ending.status, ?_, by rw [runs]; rfl⟩
    rw [later, runs, ← kernel.pid_first]
    rfl

/-- The number that is built into one of the programs may be its own number, that of one of its
children or that of a process of an earlier run.
-/
theorem run_as_booted_collisions
    : ∃ self brood past : Kernel,
        self.Idle .standard
        ∧ self.processes.next.number = ExecTest.strangerPid.number
        ∧ brood.Idle .standard
        ∧ brood.processes.next.number + 5 = ExecTest.strangerPid.number
        ∧ past.Idle .standard
        ∧ past.processes.next.number = ExecTest.strangerPid.number + 1
        ∧ ∀ kernel ∈ [self, brood, past],
          (Machine.run testImages ExecTest.program [ExecTest.program] ⟨kernel, []⟩).1
            = some (.ok (kernel.processes.next, .exited 0)) := by
  have passes (kernel : Kernel) (idle : kernel.Idle .standard)
      : (Machine.run testImages ExecTest.program [ExecTest.program] ⟨kernel, []⟩).1
        = some (.ok (kernel.processes.next, .exited 0)) := by
    obtain ⟨⟨outcome, here, there⟩, -⟩ :=
      idle.run_as_booted (show testProgram? ExecTest.program = some _ from rfl)
        [ExecTest.program] [] []
    have standard
        : (Machine.run testImages ExecTest.program [ExecTest.program]
            ⟨bootWithTests .standard, []⟩).1
          = some (.ok (.first, .exited 0)) := by
      decide +kernel
    rw [standard] at there
    rw [here]
    cases outcome with
    | error error => cases there
    | ok status =>
        cases there
        rfl
  have later (count : Nat) := (boot .standard).exists_later (by decide) count
  have first : (bootWithTests .standard).processes.next = .first := by
    rw [(booted_empty .standard).1]
    rfl
  obtain ⟨self, idleSelf, numberSelf⟩ := later 99
  obtain ⟨brood, idleBrood, numberBrood⟩ := later 94
  obtain ⟨past, idlePast, numberPast⟩ := later 100
  rw [first] at numberSelf numberBrood numberPast
  refine ⟨self, brood, past, idleSelf, numberSelf, idleBrood,
    by rw [numberBrood]; rfl, idlePast, numberPast,
    fun kernel member => passes kernel ?_⟩
  simp only [List.mem_cons, List.not_mem_nil, or_false] at member
  rcases member with rfl | rfl | rfl
  · exact idleSelf
  · exact idleBrood
  · exact idlePast

end Kernel.Idle

end KernelConformance
