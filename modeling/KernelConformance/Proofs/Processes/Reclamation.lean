import KernelConformance.Proofs.Processes.JoinOutcomes

/-! No slot is lost. Whatever order processes exit in, the entries that are left once none of them
runs are those that the host started and has not waited for.
-/

namespace KernelConformance

namespace Kernel.Run

variable {config : Config} {deeds : List Deed} {kernel : Kernel}

/-- Once no process runs, the entries are the processes of the host that it has not waited for: any
other parent would have to run.
-/
theorem contains_of_idle (run : Run config deeds kernel)
    (idle : ∀ pid, kernel.processes.isRunning pid = false) (pid : Pid)
    : kernel.processes.slots.contains pid = true
      ↔ StartedBy deeds .host pid ∧ ¬JoinedBy deeds .host pid := by
  rw [FiniteMap.contains]
  constructor
  · intro member
    obtain ⟨⟨owner, state⟩, found⟩ := Option.isSome_iff_exists.mp member
    have zombie : state.isZombie = true := by
      have stopped := idle pid
      rw [ProcessTable.isRunning, found] at stopped
      simpa using stopped
    have attached := run.rooted.zombieOwned found zombie
    have host : owner = .host := by
      cases owner with
      | host => rfl
      | detached => exact absurd rfl attached
      | proc older =>
          have runs := (run.rooted.parentRuns found rfl).1
          rw [idle older] at runs
          cases runs
    subst host
    obtain ⟨started, kept⟩ := run.child_of_slot found attached
    exact ⟨started, fun joined => kept ⟨_, joined⟩⟩
  · intro child
    obtain ⟨started, unwaited⟩ := child
    have kept : ¬Joined deeds pid := fun joined =>
      unwaited (run.joinedBy_of_joined started (by simp) joined)
    rw [run.slot_of_child rfl started kept]
    rfl

/-- A process that has exited and is in the table can be joined by its parent, which runs or is the
host.
-/
theorem joinable_of_zombie (run : Run config deeds kernel) {pid : Pid} {owner : Parent}
    {status : ExitStatus}
    (found : kernel.processes.slots.get? pid = some ⟨owner, .zombie status⟩)
    : kernel.processes.canAct owner = true
      ∧ ∃ after,
          kernel.Step (.join owner pid (some (.ok status))) after
          ∧ after.processes.slots.contains pid = false := by
  have acts : kernel.processes.canAct owner = true := by
    cases owner with
    | host => rfl
    | proc older => exact (run.rooted.parentRuns found rfl).1
    | detached => exact absurd rfl (run.rooted.zombieOwned found rfl)
  obtain ⟨after, done, freed⟩ := Wait.retry_zombie ⟨owner, pid⟩ acts found
  refine ⟨acts, after, Wait.step_of_retry ⟨owner, pid⟩ acts done, ?_⟩
  simp [FiniteMap.contains, freed.get?]

/-- The process table never outgrows its capacity, its entries belong to the host, to nobody or to
an older process that runs, and those that have exited belong to somebody who can join them. So once
no process runs the entries are the processes of the host that it has not waited for.
-/
theorem processes_reclaimed (run : Run config deeds kernel)
    : kernel.usage.processes ≤ config.maxProcesses
      ∧ (∀ pid slot,
          kernel.processes.slots.get? pid = some slot
          → slot.parent = .host
            ∨ slot.parent = .detached
            ∨ ∃ owner,
                slot.parent = .proc owner
                ∧ kernel.processes.isRunning owner = true
                ∧ owner.number < pid.number)
      ∧ (∀ pid owner status,
          kernel.processes.slots.get? pid = some ⟨owner, .zombie status⟩
          → owner ≠ .detached
            ∧ kernel.processes.canAct owner = true
            ∧ ∃ after,
                kernel.Step (.join owner pid (some (.ok status))) after
                ∧ after.processes.slots.contains pid = false)
      ∧ ((∀ pid, kernel.processes.isRunning pid = false)
        → (∀ pid,
            kernel.processes.slots.contains pid = true
            ↔ StartedBy deeds .host pid ∧ ¬JoinedBy deeds .host pid)
          ∧ ((∀ pid, StartedBy deeds .host pid → JoinedBy deeds .host pid)
            → kernel.usage.processes = 0)) := by
  refine ⟨?_, ?_, ?_, ?_⟩
  · exact run.capacity ▸ run.rooted.bounded
  · intro pid slot found
    obtain ⟨owner, state⟩ := slot
    cases owner with
    | host => exact .inl rfl
    | detached => exact .inr (.inl rfl)
    | proc older => exact .inr (.inr ⟨older, rfl, run.rooted.parentRuns found rfl⟩)
  · intro pid owner status found
    exact ⟨run.rooted.zombieOwned found rfl, run.joinable_of_zombie found⟩
  · intro idle
    have left := run.contains_of_idle idle
    refine ⟨left, fun waited => FiniteMap.size_eq_zero fun pid => ?_⟩
    have absent : ¬kernel.processes.slots.contains pid = true := fun member => by
      obtain ⟨started, unwaited⟩ := (left pid).mp member
      exact unwaited (waited pid started)
    simpa [FiniteMap.contains] using absent

/-- The deeds of four processes. The second exits with a child that has exited, and the first with
one child that has exited and one that runs; the host waits for the first alone.
-/
def orphanDeeds : List Deed :=
  [
    .register "p",
    .spawn "p" [] (.ok (.ofNat 1)),
    .call (.ofNat 1) (.exec "p" []) (some (.ok (.ofNat 2))),
    .call (.ofNat 1) (.exec "p" []) (some (.ok (.ofNat 3))),
    .call (.ofNat 2) (.exec "p" []) (some (.ok (.ofNat 4))),
    .finish (.ofNat 4) (.exit 4),
    .finish (.ofNat 2) (.exit 2),
    .finish (.ofNat 1) .fault,
    .finish (.ofNat 3) (.exit 3),
    .wait (.ofNat 1) (some (.ok .faulted))
  ]

/-- The slots of orphans at any depth come free, as the law says at the end of these deeds. -/
theorem processes_reclaimed_orphans
    : ∃ kernel,
        Run .standard orphanDeeds kernel
        ∧ (∀ pid, kernel.processes.isRunning pid = false)
        ∧ (∀ pid, StartedBy orphanDeeds .host pid → JoinedBy orphanDeeds .host pid)
        ∧ kernel.usage.processes = 0 := by
  obtain ⟨kernel, run, idle⟩
      : ∃ kernel,
          Run .standard orphanDeeds kernel
          ∧ ∀ pid, kernel.processes.isRunning pid = false :=
    ⟨_, .extend .boot (.cons (.register "p") <| .cons (.spawn rfl) <| .cons (.call rfl rfl)
      <| .cons (.call rfl rfl) <| .cons (.call rfl rfl) <| .cons (.finish rfl)
      <| .cons (.finish rfl) <| .cons (.finish rfl) <| .cons (.finish rfl)
      <| .cons (.wait rfl) .nil), fun _ => rfl⟩
  have waited : ∀ pid, StartedBy orphanDeeds .host pid → JoinedBy orphanDeeds .host pid := by
    intro pid started
    obtain ⟨program, argv, member⟩ := started
    simp [orphanDeeds, Deed.start] at member
    obtain ⟨-, -, rfl⟩ := member
    exact ⟨.faulted, by simp [orphanDeeds, Deed.join]⟩
  exact ⟨kernel, run, idle, waited, (run.processes_reclaimed.2.2.2 idle).2 waited⟩

end Kernel.Run

end KernelConformance
