import KernelConformance.Proofs.Suite.Cleanliness

/-! Kernels that know the test programs and that nobody uses: there is no process and no file. What
is started there has the kernel for itself.
-/

namespace KernelConformance

variable {config : Config} {kernel begin after : Kernel} {root : Pid} {program : String}
  {argv : List String}

/-- A kernel that knows the test programs, without a process or a file. -/
structure Kernel.Idle (config : Config) (kernel : Kernel) : Prop where
  reachable : ∃ deeds, Run config deeds kernel
  installed : ∀ entry ∈ testPrograms, entry.1 ∈ kernel.programs
  absent : ExecTest.absentProgram ∉ kernel.programs
  slots : ∀ pid, kernel.processes.slots.get? pid = none
  names : ∀ name, kernel.files.names.get? name = none

/-- A kernel on which a process has just been started that has it for itself. -/
structure Kernel.Opening (config : Config) (program : String) (argv : List String) (root : Pid)
    (begin : Kernel)
    : Prop where
  reachable : ∃ deeds, Run config deeds begin
  newborn : begin.Newborn root program argv
  newest : begin.processes.next = root.next
  installed : ∀ entry ∈ testPrograms, entry.1 ∈ begin.programs
  absent : ExecTest.absentProgram ∉ begin.programs
  size : begin.processes.size = 1
  hosted : begin.processes.slots.get? root = some ⟨.host, .running⟩
  alone : ∀ pid, pid ≠ root → begin.processes.slots.get? pid = none
  names : ∀ name, begin.files.names.get? name = none

theorem Kernel.mem_register {name : String}
    : name ∈ (kernel.register program).programs ↔ name = program ∨ name ∈ kernel.programs := by
  unfold register
  split
  · next known =>
      refine ⟨.inr, ?_⟩
      rintro (rfl | before)
      · exact known
      · exact before
  · exact List.mem_cons

/-- Programs that are registered can be loaded, and nothing else changes, by induction on them. -/
theorem Kernel.registered (entries : List (String × Main)) {deeds : List Deed}
    (run : Run config deeds kernel)
    : ∃ deeds after,
        entries.foldl (fun kernel entry => kernel.register entry.1) kernel = after
        ∧ Run config deeds after
        ∧ (∀ name,
          name ∈ after.programs ↔ (∃ entry ∈ entries, entry.1 = name) ∨ name ∈ kernel.programs)
        ∧ after.processes = kernel.processes
        ∧ after.files = kernel.files := by
  induction entries generalizing kernel deeds with
  | nil => exact ⟨deeds, kernel, rfl, run, by simp, rfl, rfl⟩
  | cons entry entries ih =>
      have step : kernel.Step (.register entry.1) (kernel.register entry.1) := .register entry.1
      obtain ⟨deeds, after, same, run, known, processes, files⟩ := ih (run.step step)
      have kept
          : (kernel.register entry.1).processes = kernel.processes
            ∧ (kernel.register entry.1).files = kernel.files := by
        unfold register
        split <;> exact ⟨rfl, rfl⟩
      refine ⟨deeds, after, same, run, fun name => ?_, processes.trans kept.1, files.trans kept.2⟩
      rw [known, mem_register, List.exists_mem_cons_iff, or_assoc, or_left_comm, eq_comm]

namespace Kernel.Idle

-----------------------------------------------------------------------------------------
-- Idle kernels
-----------------------------------------------------------------------------------------

/-- A kernel that has just been started with the test programs is idle. -/
theorem boot (config : Config) : (Kernel.bootWithTests config).Idle config := by
  obtain ⟨deeds, after, same, run, known, processes, files⟩ :=
    registered testPrograms (.boot : Run config [] _)
  obtain rfl : Kernel.bootWithTests config = after := same
  refine ⟨⟨deeds, run⟩, fun entry member => ?_, fun found => ?_, fun pid => ?_, fun name => ?_⟩
  · exact (known entry.1).mpr (.inl ⟨entry, member, rfl⟩)
  · rcases (known _).mp found with ⟨entry, member, same⟩ | before
    · have other : ∀ entry ∈ testPrograms, entry.1 ≠ ExecTest.absentProgram := by decide
      exact other entry member same
    · cases before
  · exact processes ▸ rfl
  · exact files ▸ rfl

/-- Nothing is in use on an idle kernel. -/
theorem usage (idle : kernel.Idle config) : kernel.usage = ⟨0, 0⟩ := by
  have processes : kernel.processes.size = 0 :=
    (FiniteMap.size_eq idle.slots : _ = FiniteMap.empty.size)
  have files : kernel.files.size = 0 := (FiniteMap.size_eq idle.names : _ = FiniteMap.empty.size)
  rw [Kernel.usage, processes, files]

theorem clearJournal (idle : kernel.Idle config) : kernel.clearJournal.Idle config := by
  obtain ⟨deeds, run⟩ := idle.reachable
  exact { idle with reachable := ⟨_, run.step .takeJournal⟩ }

theorem clearConsole (idle : kernel.Idle config) : kernel.clearConsole.Idle config := by
  obtain ⟨deeds, run⟩ := idle.reachable
  exact { idle with reachable := ⟨_, run.step .takeConsole⟩ }

/-- What is started on an idle kernel has it for itself. -/
theorem opening (idle : kernel.Idle config)
    (started : kernel.start .host program argv = (.ok root, begin))
    : begin.Opening config program argv root := by
  obtain ⟨deeds, run⟩ := idle.reachable
  have begun := started_of_start started
  obtain ⟨programs, files⟩ := start_frame started
  constructor
  · exact ⟨_, run.step (.spawn started)⟩
  · exact newborn_of_start started
  · exact begun.next
  · exact programs ▸ idle.installed
  · exact programs ▸ idle.absent
  · have before : kernel.processes.size = 0 := congrArg Usage.processes idle.usage
    rw [begun.size run.rooted, before]
  · rw [begun.get?, if_pos rfl]
  · intro pid different
    rw [begun.get?, if_neg different, idle.slots]
  · exact files ▸ idle.names

/-- A test program is refused on an idle kernel only if there are no slots at all. -/
theorem refused (idle : kernel.Idle config) {main : Main} (known : testProgram? program = some main)
    (short : argv.length ≤ maxArguments) {error : Errno}
    (failed : kernel.start .host program argv = (.error error, after))
    : config.maxProcesses = 0 := by
  obtain ⟨deeds, run⟩ := idle.reachable
  by_contra some
  have room : kernel.processes.size < kernel.processes.capacity := by
    rw [show kernel.processes.size = 0 from congrArg Usage.processes idle.usage, run.capacity]
    exact Nat.pos_of_ne_zero some
  obtain ⟨pid, other, step⟩ :=
    Kernel.exists_start (show kernel.processes.canAct .host = true from rfl)
      (idle.installed _ (mem_of_testProgram known)) short room
  cases step with
  | spawn done =>
      rw [failed] at done
      cases done

/-- Where something was started, there is a slot. -/
theorem slot_of_started (idle : kernel.Idle config)
    (started : kernel.start .host program argv = (.ok root, begin))
    : 1 ≤ config.maxProcesses := by
  obtain ⟨deeds, run⟩ := idle.reachable
  have room := (started_of_start started).room
  rw [run.capacity] at room
  exact Nat.one_le_of_lt room

end Kernel.Idle

end KernelConformance
