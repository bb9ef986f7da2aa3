import KernelConformance.Proofs.Processes.JoinOutcomes

/-! The contract of joins. What a join answers follows from the deeds of the run: who started the
process, how it ended, and whether it was joined before.
-/

namespace KernelConformance

/-- The code and the flag with which a parent learns of an end: the code of an exit as it is, and -1
for a fault.
-/
def Ending.Publishes (status : ExitStatus) : Ending → Prop
  | .exit code => status.code = code ∧ status.isAbnormal = false
  | .fault => status.code = -1 ∧ status.isAbnormal = true

/-- The status of an end publishes it, by cases on the end. -/
theorem Ending.publishes_status (ending : Ending) : ending.Publishes ending.status := by
  cases ending <;> exact ⟨rfl, rfl⟩

namespace Kernel.Run

open Journal

variable {config : Config} {deeds : List Deed} {kernel : Kernel} {caller : Parent} {pid : Pid}

/-- No join succeeds after the end of the process that started the child, which
alone could make it.
-/
theorem join_before_end {before after : List Deed} {deed : Deed} {owner : Pid}
    (run : Run config (before ++ deed :: after) kernel) (joined : deed.joinedPid? = some pid)
    (started : StartedBy before (.proc owner) pid)
    : ¬Ended before owner := by
  obtain ⟨middle, next, earlier, step⟩ := run.split
  obtain ⟨acts, -⟩ := earlier.eq_join_of_joined step joined (by simp) started
  exact (earlier.isRunning_iff.mp acts).2

/-- For the host and for every process that runs, a join fails at once, with all but a trace as it
was, exactly if the caller did not start the process or it was joined before; otherwise it returns
what the process has published at its end, or is blocked as long as there is none. A process is
joined at most once in a run, and not after the end of the one that started it.
-/
theorem join_contract (run : Run config deeds kernel)
    : (∀ caller pid,
        kernel.processes.canAct caller = true
        → ((∃ after, (Wait.mk caller pid).retry kernel = some (.error .noChild, after))
            ↔ ¬StartedBy deeds caller pid ∨ Joined deeds pid)
          ∧ (∀ error after,
              (Wait.mk caller pid).retry kernel = some (.error error, after)
              → error = .noChild
                ∧ after = { kernel with console := after.console }
                ∧ (caller = .host ∨ kernel.config.traces .join = false → after = kernel))
          ∧ (StartedBy deeds caller pid
            → ¬Joined deeds pid
            → (∀ ending,
                .finish pid ending ∈ deeds
                → ∃ status after,
                    (Wait.mk caller pid).retry kernel = some (.ok status, after)
                    ∧ ending.Publishes status)
              ∧ (¬Ended deeds pid → (Wait.mk caller pid).retry kernel = none)))
      ∧ (deeds.filterMap Deed.joinedPid?).Nodup
      ∧ (∀ before after deed pid owner,
          deeds = before ++ deed :: after
          → deed.joinedPid? = some pid
          → StartedBy before (.proc owner) pid
          → ¬Ended before owner) := by
  refine ⟨fun caller pid acts => ⟨⟨?_, ?_⟩, ?_, ?_⟩, ?_, ?_⟩
  · intro fails
    obtain ⟨after, failed⟩ := fails
    exact (run.join_fails_iff acts).mp ⟨_, _, failed⟩
  · intro foreign
    exact ⟨_, run.join_refused acts foreign⟩
  · intro error after failed
    have refused := run.join_refused acts ((run.join_fails_iff acts).mp ⟨_, _, failed⟩)
    cases refused.symm.trans failed
    exact ⟨rfl, Wait.traced_eq _ _ _, fun silent => Wait.traced_silent ⟨caller, pid⟩ silent⟩
  · intro started kept
    refine ⟨fun ending ended => ?_, run.join_blocked acts started kept⟩
    obtain ⟨after, done⟩ := run.join_returns acts started kept ended
    exact ⟨_, after, done, ending.publishes_status⟩
  · rw [← history_joins]
    exact run.accounts.orderly.reaps_nodup
  · intro before after deed pid owner same joined started
    subst same
    exact run.join_before_end joined started

/-- The deeds of a process that starts two children and joins the first, which has faulted. -/
def joinedDeeds : List Deed :=
  [
    .register "p",
    .spawn "p" [] (.ok (.ofNat 1)),
    .call (.ofNat 1) (.exec "p" []) (some (.ok (.ofNat 2))),
    .call (.ofNat 1) (.exec "p" []) (some (.ok (.ofNat 3))),
    .finish (.ofNat 2) .fault,
    .call (.ofNat 1) (.join (.ofNat 2)) (some (.ok .faulted))
  ]

/-- A second join of the first child fails and a join of the other one is blocked, as the contract
says after these deeds.
-/
theorem join_contract_joined
    : ∃ kernel,
        Run .standard joinedDeeds kernel
        ∧ (∃ after,
            (Wait.mk (.proc (.ofNat 1)) (.ofNat 2)).retry kernel
            = some (.error .noChild, after))
        ∧ (Wait.mk (.proc (.ofNat 1)) (.ofNat 3)).retry kernel = none := by
  obtain ⟨kernel, run, acts⟩
      : ∃ kernel,
          Run .standard joinedDeeds kernel
          ∧ kernel.processes.canAct (.proc (.ofNat 1)) = true :=
    ⟨_, .extend .boot (.cons (.register "p") <| .cons (.spawn rfl) <| .cons (.call rfl rfl)
      <| .cons (.call rfl rfl) <| .cons (.finish rfl) <| .cons (.call rfl rfl) .nil), rfl⟩
  have second := run.join_contract.1 (.proc (.ofNat 1)) (.ofNat 2) acts
  have other := run.join_contract.1 (.proc (.ofNat 1)) (.ofNat 3) acts
  have joined : Joined joinedDeeds (.ofNat 2) :=
    ⟨.proc (.ofNat 1), .faulted, by simp [joinedDeeds, Deed.join]⟩
  have started : StartedBy joinedDeeds (.proc (.ofNat 1)) (.ofNat 3) :=
    ⟨"p", [], by simp [joinedDeeds, Deed.start]⟩
  have kept : ¬Joined joinedDeeds (.ofNat 3) := by
    intro joined
    obtain ⟨caller, status, member⟩ := joined
    cases caller <;> simp [joinedDeeds, Deed.join, Pid.ofNat] at member
  have alive : ¬Ended joinedDeeds (.ofNat 3) := by
    intro finished
    obtain ⟨ending, member⟩ := finished
    simp [joinedDeeds, Pid.ofNat] at member
  exact ⟨kernel, run, second.1.mpr (.inr joined), (other.2.2 started kept).2 alive⟩

end Kernel.Run

end KernelConformance
