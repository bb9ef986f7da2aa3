import KernelConformance.Proofs.Files.DescriptorSteps

/-! What holds of descriptors and names throughout a run: tables keep to the limit of the
configuration, and no two names share an inode.
-/

namespace KernelConformance

theorem Deed.eq_finish_of_ended {deed : Deed} {pid : Pid}
    (ends : deed.fdEvent? = some (pid, .ended))
    : ∃ ending, deed = .finish pid ending := by
  unfold fdEvent? at ends
  split at ends <;> cases ends
  exact ⟨_, rfl⟩

namespace Kernel

variable {config : Config} {deeds : List Deed} {kernel after : Kernel} {deed : Deed} {pid : Pid}

/-- The tables have the limit of the configuration and those of processes that run keep to it, and
no two names share an inode.
-/
structure Tidy (config : Config) (kernel : Kernel) : Prop where
  configured : kernel.config = config
  limits : ∀ pid, (kernel.fds pid).limit = config.maxOpenFiles
  tables
    : ∀ pid, kernel.processes.isRunning pid = true → (kernel.fds pid).WithinLimit
  names : kernel.files.Distinct

theorem Tidy.streams (tidy : kernel.Tidy config) : kernel.HasStreams :=
  fun pid runs => (tidy.tables pid runs).streams

theorem call_config {call : Syscall} {reply : call.Reply}
    (done : kernel.call pid call = some (reply, after))
    : after.config = kernel.config :=
  (call_frame done).1

theorem step_config (step : kernel.Step deed after) : after.config = kernel.config := by
  cases step with
  | register program =>
      unfold Kernel.register
      split <;> rfl
  | spawn done => rcases start_cases done with ⟨_, -, rfl⟩ | ⟨_, _, -, -, rfl⟩ <;> rfl
  | wait done => rcases reap_cases done with ⟨_, -, rfl⟩ | ⟨_, _, -, -, rfl⟩ <;> rfl
  | install done => rcases install_cases done with ⟨_, -, rfl⟩ | ⟨_, -, -, rfl⟩ <;> rfl
  | call runs done => exact call_config done
  | @finish pid ending => exact (finish_frame pid ending kernel).1
  | _ => rfl

theorem FdStep.limits {files : FileSystem} {event : Option (Pid × FdEvent)}
    {fds : Pid → Descriptors} (step : kernel.FdStep files event fds) (streams : kernel.HasStreams)
    (limits : ∀ pid, (kernel.fds pid).limit = kernel.config.maxOpenFiles) (pid : Pid)
    : (fds pid).limit = kernel.config.maxOpenFiles := by
  have table := step.table pid
  generalize fds pid = own at table ⊢
  cases table with
  | elsewhere | streamed => exact limits pid
  | start | finish => rfl
  | opened runs _ _ inserted =>
      rw [(Descriptors.inserted_of_insert (streams pid runs) inserted).limit, limits]
  | moved => rw [Descriptors.limit_set, limits]
  | closed _ erased => rw [(Descriptors.erased_of_erase erased).limit, limits]

/-- The table of a process that has started, or that ran and has not ended, keeps to its limit, by
cases on the step.
-/
theorem FdStep.within {files : FileSystem} {event : Option (Pid × FdEvent)}
    {fds : Pid → Descriptors} (step : kernel.FdStep files event fds)
    (tables : ∀ pid, kernel.processes.isRunning pid = true → (kernel.fds pid).WithinLimit)
    (runs : event = some (pid, .started)
      ∨ kernel.processes.isRunning pid = true ∧ event ≠ some (pid, .ended))
    : (fds pid).WithinLimit := by
  have table := step.table pid
  generalize fds pid = own at table ⊢
  cases table with
  | elsewhere other => exact tables pid (runs.resolve_left (other .started)).1
  | start => exact Descriptors.withinLimit_initial _
  | finish => simp at runs
  | opened ran _ _ inserted =>
      have before := tables pid ran
      exact before.inserted (Descriptors.inserted_of_insert before.streams inserted)
  | moved ran held => exact (tables pid ran).set held _
  | streamed ran => exact tables pid ran
  | closed ran erased => exact (tables pid ran).erased (Descriptors.erased_of_erase erased)

/-- A process that runs after a deed was started by it, or ran before and was not ended by it. -/
theorem Run.running_step (run : Run config deeds kernel) (step : kernel.Step deed after)
    (runs : after.processes.isRunning pid = true)
    : deed.fdEvent? = some (pid, .started)
      ∨ kernel.processes.isRunning pid = true ∧ deed.fdEvent? ≠ some (pid, .ended) := by
  obtain ⟨⟨caller, known, program, argv, member⟩, alive⟩ :=
    (run.step step).isRunning_iff.mp runs
  rcases List.mem_append.mp member with earlier | last
  · refine .inr ⟨run.isRunning_iff.mpr ⟨⟨caller, known, program, argv, earlier⟩, ?_⟩, ?_⟩
    · exact fun ended => alive (ended_snoc.mpr (.inl ended))
    · intro ends
      obtain ⟨ending, rfl⟩ := Deed.eq_finish_of_ended ends
      exact alive (ended_snoc.mpr (.inr ⟨ending, rfl⟩))
  · obtain rfl := List.mem_singleton.mp last
    cases caller with
    | detached => exact absurd rfl known
    | _ => exact .inl rfl

theorem Run.running_after (run : Run config deeds kernel) (step : kernel.Step deed after)
    (runs : kernel.processes.isRunning pid = true) (stays : deed.fdEvent? ≠ some (pid, .ended))
    : after.processes.isRunning pid = true := by
  refine run.canAct_step step (show kernel.processes.canAct (.proc pid) = true from runs) ?_
  intro other ending same owner
  cases owner
  exact stays (same ▸ rfl)

theorem Run.tidy (run : Run config deeds kernel) : kernel.Tidy config := by
  induction run with
  | boot =>
      refine ⟨rfl, fun _ => rfl, fun pid runs => ?_, ?_⟩
      · cases runs
      · exact ⟨nofun, nofun⟩
  | step run step ih =>
      have tables := step.fds run.rooted
      have same := (step_config step).trans ih.configured
      refine ⟨same, fun pid => ?_, fun pid runs => ?_, ih.names.step step.files⟩
      · rw [← ih.configured]
        exact tables.limits ih.streams (ih.configured ▸ ih.limits) pid
      · exact tables.within ih.tables (run.running_step step runs)

end Kernel

end KernelConformance
