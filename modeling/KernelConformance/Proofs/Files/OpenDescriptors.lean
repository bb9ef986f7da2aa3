import KernelConformance.Proofs.Files.TidyKernels

/-! Open descriptors in the course of a run. The deeds since a descriptor was obtained say where it
stands in its file, and whether the file still has the name that it was obtained by.
-/

namespace KernelConformance

open Utf8 (Bytes)

-----------------------------------------------------------------------------------------
-- What the deeds say of a descriptor
-----------------------------------------------------------------------------------------

/-- A process has obtained a descriptor by creating or opening a name, and has kept it since. -/
def Obtained (deeds : List Deed) (pid : Pid) (fd : Fd) (name : String) (since : List Deed)
    : Prop :=
  ∃ before opening,
    deeds = before ++ opening :: since
    ∧ opening.fdEvent? = some (pid, .opened fd name)
    ∧ ∀ deed ∈ since, ¬Kernel.Releases pid fd deed.fdEvent?

/-- The sum of what the reads and writes of a descriptor have returned. -/
def travelled (pid : Pid) (fd : Fd) : List Deed → Nat
  | [] => 0
  | deed :: since => Kernel.distance pid fd deed.fdEvent? + travelled pid fd since

/-- Whether a name was removed, or installed anew. -/
def Severed (name : String) (since : List Deed) : Prop :=
  ∃ deed ∈ since, FileSystem.Severs name deed.fileEvent?

section

variable {deeds since : List Deed} {pid : Pid} {fd : Fd} {name : String}

theorem travelled_snoc (deed : Deed)
    : travelled pid fd (since ++ [deed])
      = travelled pid fd since + Kernel.distance pid fd deed.fdEvent? := by
  induction since with
  | nil => exact Nat.add_comm _ _
  | cons first since ih => rw [List.cons_append, travelled, ih, travelled, Nat.add_assoc]

theorem severed_snoc {deed : Deed}
    : Severed name (since ++ [deed])
      ↔ Severed name since ∨ FileSystem.Severs name deed.fileEvent? := by
  simp [Severed, or_and_right, exists_or]

/-- A descriptor that has been obtained was so by the last deed, or before and is still kept. -/
theorem obtained_snoc {deed : Deed}
    : Obtained (deeds ++ [deed]) pid fd name since
      ↔ since = [] ∧ deed.fdEvent? = some (pid, .opened fd name)
        ∨ ∃ rest,
            since = rest ++ [deed]
            ∧ Obtained deeds pid fd name rest
            ∧ ¬Kernel.Releases pid fd deed.fdEvent? := by
  constructor
  · intro obtained
    obtain ⟨before, opening, whole, opened, kept⟩ := obtained
    rcases List.eq_nil_or_concat since with rfl | ⟨rest, last, rfl⟩
    · obtain ⟨-, same⟩ := List.append_inj' whole rfl
      obtain rfl := List.singleton_inj.mp same
      exact .inl ⟨rfl, opened⟩
    · rw [List.concat_eq_append, ← List.cons_append, ← List.append_assoc] at whole
      obtain ⟨earlier, same⟩ := List.append_inj' whole rfl
      obtain rfl := List.singleton_inj.mp same
      refine .inr ⟨rest, List.concat_eq_append, ⟨before, opening, earlier, opened, ?_⟩, ?_⟩
      · exact fun other member => kept other (by simp [member])
      · exact kept deed (by simp)
  · intro obtained
    rcases obtained with ⟨rfl, opened⟩ | ⟨rest, rfl, ⟨before, opening, rfl, opened, kept⟩, keeps⟩
    · exact ⟨deeds, deed, rfl, opened, by simp⟩
    · refine ⟨before, opening, by simp, opened, ?_⟩
      intro other member
      rcases List.mem_append.mp member with earlier | last
      · exact kept other earlier
      · exact List.mem_singleton.mp last ▸ keeps

end

-----------------------------------------------------------------------------------------
-- Where a descriptor leads
-----------------------------------------------------------------------------------------

namespace Kernel

variable {config : Config} {deeds since : List Deed} {kernel after : Kernel} {deed : Deed}
  {pid : Pid} {fd : Fd} {name : String} {inode : Inode}

theorem call_read {offset : Nat} (held : (kernel.fds pid).get? fd = some (.file inode offset))
    (room : Nat)
    : ∃ after,
        kernel.call pid (.read fd room)
        = some (.ok (.of (slice offset room (kernel.files.data inode))), after) :=
  ⟨_, call_of_perform (congrArg some (read_of_file held room))⟩

/-- A write of a descriptor that stands for a file puts its bytes at the offset of the descriptor,
and returns how many they are.
-/
theorem call_write {offset : Nat} (held : (kernel.fds pid).get? fd = some (.file inode offset))
    (bytes : Bytes)
    : ∃ after,
        kernel.call pid (.write fd bytes) = some (.ok bytes.length, after)
        ∧ after.files
          = kernel.files.setData inode (overlay offset bytes (kernel.files.data inode)) := by
  refine ⟨_, call_of_perform (congrArg some (write_of_file held bytes)), ?_⟩
  rw [trace_files]
  rfl

/-- A descriptor that was obtained by a name leads to an inode, at the offset that the reads and
writes since have added up to. The inode has the name until it is severed, and no name from then on.
-/
structure Leads (kernel : Kernel) (pid : Pid) (fd : Fd) (name : String) (since : List Deed)
    (inode : Inode)
    : Prop where
  runs : kernel.processes.isRunning pid = true
  held : (kernel.fds pid).get? fd = some (.file inode (travelled pid fd since))
  taken : inode.index < kernel.files.next.index
  accepted : kernel.files.acceptsName name = true
  linked : ¬Severed name since → kernel.files.names.get? name = some inode
  adrift : Severed name since → kernel.files.Unnamed inode

theorem leads_of_opened (tidy : kernel.Tidy config) (run : Run config deeds kernel)
    (step : kernel.Step deed after) (opened : deed.fdEvent? = some (pid, .opened fd name))
    : ∃ inode, after.Leads pid fd name [] inode := by
  have tables := opened ▸ step.fds run.rooted
  obtain ⟨runs, accepted, inode, named, inserted⟩ := tables.inserted_of_opened tidy.streams
  refine ⟨inode, ?_⟩
  exact {
    runs := run.running_after step runs (by simp [opened])
    held := inserted.held
    taken := (tidy.names.step step.files).taken named
    accepted := step.files.acceptsName ▸ accepted
    linked := fun _ => named
    adrift := fun severed => by simp [Severed] at severed
  }

/-- A descriptor that is kept leads on to its inode, at an offset that has moved as
the deed says.
-/
theorem Leads.step (leads : kernel.Leads pid fd name since inode) (tidy : kernel.Tidy config)
    (run : Run config deeds kernel) (step : kernel.Step deed after)
    (kept : ¬Releases pid fd deed.fdEvent?)
    : after.Leads pid fd name (since ++ [deed]) inode := by
  have tables := step.fds run.rooted
  have names := step.files
  have old : ∀ other, deed.fdEvent? ≠ some (pid, .opened fd other) := by
    intro other opened
    obtain ⟨-, -, _, -, inserted⟩ := (opened ▸ tables).inserted_of_opened tidy.streams
    cases leads.held.symm.trans inserted.free
  constructor
  · exact run.running_after step leads.runs fun ends => kept (.inr ends)
  · rw [tables.get?_kept tidy.streams leads.runs kept old, leads.held, travelled_snoc]
    rfl
  · exact Nat.lt_of_lt_of_le leads.taken names.next_le
  · rw [names.acceptsName]
    exact leads.accepted
  · rw [severed_snoc, not_or]
    intro unsevered
    exact names.name_kept (leads.linked unsevered.1) unsevered.2
  · intro severed
    by_cases before : Severed name since
    · exact (leads.adrift before).step leads.taken names
    -- the deed takes the name from an inode that has no other one
    · have now := (severed_snoc.mp severed).resolve_left before
      exact tidy.names.unnamed_of_severs names (leads.linked before) now

/-- Every descriptor that was obtained and kept leads to one inode, by induction on the run. -/
theorem Run.leads (run : Run config deeds kernel) {pid : Pid} {fd : Fd} {name : String}
    {since : List Deed} (obtained : Obtained deeds pid fd name since)
    : ∃ inode, kernel.Leads pid fd name since inode := by
  induction run generalizing since with
  | boot =>
      obtain ⟨before, opening, whole, -⟩ := obtained
      simp at whole
  | step run step ih =>
      rcases obtained_snoc.mp obtained with ⟨rfl, opened⟩ | ⟨rest, rfl, earlier, kept⟩
      · exact leads_of_opened run.tidy run step opened
      · obtain ⟨inode, leads⟩ := ih earlier
        exact ⟨inode, leads.step run.tidy run step kept⟩

/-- Every descriptor that stands for a file was obtained, by induction on the run. -/
theorem Run.exists_obtained (run : Run config deeds kernel) {pid : Pid} {fd : Fd} {inode : Inode}
    {offset : Nat} (runs : kernel.processes.isRunning pid = true)
    (held : (kernel.fds pid).get? fd = some (.file inode offset))
    : ∃ name since, Obtained deeds pid fd name since := by
  induction run generalizing offset with
  | boot => cases runs
  | @step _ _ deed _ run step ih =>
      have tables := step.fds run.rooted
      rcases run.running_step step runs with started | ⟨old, stays⟩
      · rw [started] at tables
        rw [tables.table_started.2] at held
        rcases Descriptors.get?_initial held with ⟨-, console⟩ | ⟨-, console⟩ <;> cases console
      · by_cases opened : ∃ name, deed.fdEvent? = some (pid, .opened fd name)
        · obtain ⟨name, opened⟩ := opened
          exact ⟨name, [], obtained_snoc.mpr (.inl ⟨rfl, opened⟩)⟩
        · have kept : ¬Releases pid fd deed.fdEvent? := by
            intro released
            rcases released with closed | ended
            · rw [closed] at tables
              rw [tables.get?_closed] at held
              cases held
            · exact stays ended
          rw [tables.get?_kept run.tidy.streams old kept (not_exists.mp opened)] at held
          obtain ⟨handle, before, moved⟩ := Option.map_eq_some_iff.mp held
          obtain ⟨start, rfl⟩ : ∃ start, handle = .file inode start := by
            cases handle <;> cases moved
            exact ⟨_, rfl⟩
          obtain ⟨name, since, earlier⟩ := ih old before
          exact ⟨name, _, obtained_snoc.mpr (.inr ⟨since, rfl, earlier, kept⟩)⟩

end Kernel

end KernelConformance
