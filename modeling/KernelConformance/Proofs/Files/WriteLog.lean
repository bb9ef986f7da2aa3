import KernelConformance.Proofs.Files.Accounts
import KernelConformance.Proofs.Files.OpenDescriptors

/-! The log of what a run has done to files. By the log every byte of a file is that of the last
write which covers it, wherever the descriptors stood that wrote; and a descriptor stands where its
own reads and writes have moved it.
-/

namespace KernelConformance

namespace Kernel

/-- Deeds one after the other, with the log of the changes that they make to inodes. -/
inductive LoggedSteps : Kernel → List (Inode × Change) → List Deed → Kernel → Prop where
  | nil {kernel} : LoggedSteps kernel [] [] kernel
  | cons {kernel deed middle log deeds after} (step : kernel.Step deed middle)
    (rest : LoggedSteps middle log deeds after)
    : LoggedSteps kernel ((kernel.change? deed).toList ++ log) (deed :: deeds) after

variable {config : Config} {deeds since : List Deed} {kernel middle after : Kernel}
  {log : List (Inode × Change)} {deed : Deed} {pid : Pid} {fd : Fd} {name : String}

theorem LoggedSteps.steps (logged : LoggedSteps kernel log deeds after)
    : Steps kernel deeds after := by
  induction logged with
  | nil => exact .nil
  | cons step _ ih => exact .cons step ih

theorem LoggedSteps.snoc (logged : LoggedSteps kernel log deeds middle)
    (step : middle.Step deed after)
    : LoggedSteps kernel (log ++ (middle.change? deed).toList) (deeds ++ [deed]) after := by
  induction logged with
  | nil => simpa using LoggedSteps.cons step .nil
  | cons first _ ih =>
      rw [List.append_assoc]
      exact .cons first (ih step)

theorem Run.exists_log (run : Run config deeds kernel)
    : ∃ log, LoggedSteps (.boot config) log deeds kernel := by
  induction run with
  | boot => exact ⟨[], .nil⟩
  | step _ step ih =>
      obtain ⟨log, logged⟩ := ih
      exact ⟨_, logged.snoc step⟩

/-- The bytes of an inode are what its changes make of those it had, by induction on the deeds. -/
theorem LoggedSteps.data (logged : LoggedSteps kernel log deeds after) (inode : Inode)
    : after.files.data inode
      = (changesOf inode log).foldl Change.apply (kernel.files.data inode) := by
  induction logged with
  | nil => rfl
  | cons step _ ih =>
      rw [ih, step.files.data_eq, changesOf_append, List.foldl_append]
      rfl

/-- The bytes of an inode are those of its account, as nothing has any when a kernel is booted. -/
theorem LoggedSteps.contents (logged : LoggedSteps (.boot config) log deeds kernel)
    (inode : Inode)
    : kernel.files.data inode = (accountOf inode log).contents := by
  rw [logged.data, accountOf, Account.contents_records]
  rfl

/-- What the log and the deeds of a run say of its files: every inode has the bytes of its account,
and every descriptor reads and writes where its own calls have moved it.
-/
structure ContentLaw (log : List (Inode × Change)) (deeds : List Deed) (kernel : Kernel)
    : Prop where
  length : ∀ inode, (kernel.files.data inode).length = (accountOf inode log).size
  byte
    : ∀ inode index,
        index < (accountOf inode log).size
        → (kernel.files.data inode)[index]? = some ((accountOf inode log).byte index)
  obtained
    : ∀ pid fd inode offset,
        kernel.processes.isRunning pid = true
        → (kernel.fds pid).get? fd = some (.file inode offset)
        → ∃ name since, Obtained deeds pid fd name since
  moved
    : ∀ pid fd name since,
        Obtained deeds pid fd name since
        → ∃ inode,
            (kernel.fds pid).get? fd = some (.file inode (travelled pid fd since))
            ∧ (∀ room, ∃ after,
                kernel.call pid (.read fd room)
                = some (.ok (.of (slice (travelled pid fd since) room (kernel.files.data inode))),
                    after))
            ∧ ∀ bytes, ∃ after,
                kernel.call pid (.write fd bytes) = some (.ok bytes.length, after)
                ∧ kernel.change? (.call pid (.write fd bytes) (some (.ok bytes.length)))
                  = some (inode, .patched ⟨travelled pid fd since, bytes⟩)

theorem Leads.change? {inode : Inode} (leads : kernel.Leads pid fd name since inode)
    (bytes : Utf8.Bytes) (count : Nat)
    : kernel.change? (.call pid (.write fd bytes) (some (.ok count)))
      = some (inode, .patched ⟨travelled pid fd since, bytes⟩) := by
  simp [Kernel.change?, Deed.fileEvent?, FileSystem.change?, leads.held]

/-- Every file has the length that its base and its writes reach to, and every byte of it is that of
the last write which covers it. A read or a write takes effect at the sum of what the earlier ones
of the same descriptor have returned, whatever was done to the file by other means.
-/
theorem Run.contents_last_written (run : Run config deeds kernel)
    : (∃ log, LoggedSteps (.boot config) log deeds kernel)
      ∧ ∀ log, LoggedSteps (.boot config) log deeds kernel → kernel.ContentLaw log deeds := by
  refine ⟨run.exists_log, fun log logged => ?_⟩
  constructor
  · intro inode
    rw [logged.contents]
    exact (accountOf inode log).contents_eq.1
  · intro inode index inside
    obtain ⟨length, bytes⟩ := (accountOf inode log).contents_eq
    rw [logged.contents, ← bytes, List.getElem?_eq_getElem (length ▸ inside)]
    rw [List.getD_eq_getElem _ _ (length ▸ inside)]
  · intro pid fd inode offset runs held
    exact run.exists_obtained runs held
  · intro pid fd name since obtained
    obtain ⟨inode, leads⟩ := run.leads obtained
    refine ⟨inode, leads.held, call_read leads.held, fun bytes => ?_⟩
    obtain ⟨after, done, -⟩ := call_write leads.held bytes
    exact ⟨after, done, leads.change? bytes _⟩

/-- The deeds of a process that reads a file which the host has installed, creates it anew, and
writes to it through both descriptors.
-/
def rewritingDeeds : List Deed :=
  [
    .install "a" [1, 2, 3] (.ok ()),
    .register "p",
    .spawn "p" [] (.ok (.ofNat 1)),
    .call (.ofNat 1) (.openFile "a") (some (.ok ⟨2⟩)),
    .call (.ofNat 1) (.read ⟨2⟩ 2) (some (.ok (.of [1, 2]))),
    .call (.ofNat 1) (.creat "a") (some (.ok ⟨3⟩)),
    .call (.ofNat 1) (.write ⟨2⟩ [7, 8]) (some (.ok 2)),
    .call (.ofNat 1) (.write ⟨3⟩ [4, 5, 6]) (some (.ok 3))
  ]

/-- The file ends where the first descriptor wrote, the byte that both have written is that of the
second, and the first stands behind what it has read and written, as the law says after these deeds.
-/
theorem contents_last_written_rewritten
    : ∃ kernel log,
        Run .standard rewritingDeeds kernel
        ∧ LoggedSteps (.boot .standard) log rewritingDeeds kernel
        ∧ accountOf ⟨0⟩ log = ⟨[], [⟨2, [7, 8]⟩, ⟨0, [4, 5, 6]⟩]⟩
        ∧ (kernel.files.data ⟨0⟩).length = 4
        ∧ (kernel.files.data ⟨0⟩)[2]? = some 6
        ∧ (kernel.files.data ⟨0⟩)[3]? = some 8
        ∧ ∃ inode, (kernel.fds (.ofNat 1)).get? ⟨2⟩ = some (.file inode 4) := by
  obtain ⟨kernel, log, logged, account⟩
      : ∃ kernel log,
          LoggedSteps (.boot .standard) log rewritingDeeds kernel
          ∧ accountOf ⟨0⟩ log = ⟨[], [⟨2, [7, 8]⟩, ⟨0, [4, 5, 6]⟩]⟩ :=
    ⟨_, _, .cons (.install rfl) <| .cons (.register "p") <| .cons (.spawn rfl)
      <| .cons (.call rfl rfl) <| .cons (.call rfl rfl) <| .cons (.call rfl rfl)
      <| .cons (.call rfl rfl) <| .cons (.call rfl rfl) .nil, rfl⟩
  have run : Run .standard rewritingDeeds kernel := .extend .boot logged.steps
  have obtained : Obtained rewritingDeeds (.ofNat 1) ⟨2⟩ "a" (rewritingDeeds.drop 4) :=
    ⟨rewritingDeeds.take 3, _, rfl, rfl, by simp [rewritingDeeds, Releases, Deed.fdEvent?]⟩
  have law := run.contents_last_written.2 log logged
  have length := law.length ⟨0⟩
  have third := law.byte ⟨0⟩ 2
  have fourth := law.byte ⟨0⟩ 3
  rw [account] at length third fourth
  obtain ⟨inode, held, -, -⟩ := law.moved _ _ _ _ obtained
  exact ⟨kernel, log, run, logged, account, length, third (by decide), fourth (by decide), inode,
    held⟩

end Kernel

end KernelConformance
