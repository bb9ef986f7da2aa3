import KernelConformance.Proofs.Files.ContentSteps
import KernelConformance.Proofs.Files.OpenDescriptors

/-! Names and the descriptors that were obtained by them. A descriptor stays with its inode, and the
inode stays with its name until the name is removed or installed anew; from then on nothing that is
done to the name touches what the descriptor leads to, nor the other way round.
-/

namespace KernelConformance

open Utf8 (Bytes)

theorem Deed.eq_write {deed : Deed} {pid : Pid} {fd : Fd} {bytes : Bytes}
    (logged : deed.fileEvent? = some (.written pid fd bytes))
    : ∃ count, deed = .call pid (.write fd bytes) (some (.ok count)) := by
  unfold fileEvent? at logged
  split at logged <;> cases logged
  exact ⟨_, rfl⟩

/-- The bytes of a name change with those of its own inode alone. -/
theorem FileSystem.contents?_setData (inode : Inode) (bytes : Bytes) (files : FileSystem)
    (name : String)
    : (files.setData inode bytes).contents? name
      = if files.names.get? name = some inode then some bytes else files.contents? name := by
  simp only [contents?, names_setData]
  cases files.names.get? name with
  | none => rfl
  | some found =>
      simp only [Option.map_some, data_setData, Option.some.injEq]
      split <;> rfl

namespace Kernel

variable {config : Config} {deeds since more : List Deed} {kernel after later : Kernel}
  {deed : Deed} {pid : Pid} {fd : Fd} {name : String} {inode : Inode}

-----------------------------------------------------------------------------------------
-- Steps and calls
-----------------------------------------------------------------------------------------

/-- An inode that lost its name never gets one again, by induction on the deeds. -/
theorem Steps.unnamed (steps : Steps kernel more later) (unnamed : kernel.files.Unnamed inode)
    (taken : inode.index < kernel.files.next.index)
    : later.files.Unnamed inode := by
  induction steps with
  | nil => exact unnamed
  | cons step _ ih =>
      exact ih (unnamed.step taken step.files) (Nat.lt_of_lt_of_le taken step.files.next_le)

theorem Step.installed {bytes : Bytes} {reply : Except Errno Unit}
    (step : kernel.Step (.install name bytes reply) after)
    (accepted : kernel.files.acceptsName name = true)
    : reply = .ok () := by
  cases step with
  | install done =>
      simp only [Kernel.install, FileSystem.put, accepted] at done
      cases done
      rfl

/-- The bytes of an inode that has no name change only when they are written to through a
descriptor, as no creation finds it and no new file gets its number.
-/
theorem Step.written_of_unnamed (step : kernel.Step deed after)
    (unnamed : kernel.files.Unnamed inode) (taken : inode.index < kernel.files.next.index)
    (differs : after.files.data inode ≠ kernel.files.data inode)
    : ∃ caller other bytes count offset,
        deed = .call caller (.write other bytes) (some (.ok count))
        ∧ (kernel.fds caller).get? other = some (.file inode offset) := by
  obtain ⟨change, known⟩ := step.files.changed differs
  rcases FileSystem.change_cases known with
    ⟨name, -, named⟩ | rfl | ⟨caller, other, bytes, offset, written, held, -⟩
  · exact absurd named (unnamed name)
  · exact absurd taken (Nat.lt_irrefl _)
  · obtain ⟨count, rfl⟩ := Deed.eq_write written
    exact ⟨caller, other, bytes, count, offset, rfl, held⟩

-----------------------------------------------------------------------------------------
-- Descriptors and the names that they were obtained by
-----------------------------------------------------------------------------------------

/-- A descriptor that leads to an inode with its name is as good as the name, and one whose name was
severed has nothing to do with it any more.
-/
structure Linkage (deeds : List Deed) (kernel : Kernel) (pid : Pid) (fd : Fd) (name : String)
    (since : List Deed) (inode : Inode)
    : Prop where
  held : ∃ offset, (kernel.fds pid).get? fd = some (.file inode offset)
  named : kernel.files.names.get? name = some inode ↔ ¬Severed name since
  adrift
    : Severed name since
      → ∀ more later, Steps kernel more later → later.files.Unnamed inode
  installed : ∀ bytes reply, .install name bytes reply ∈ since → reply = .ok ()
  written
    : ∀ bytes, ∃ after,
        kernel.call pid (.write fd bytes) = some (.ok bytes.length, after)
        ∧ (∀ other, other ≠ name → after.files.contents? other = kernel.files.contents? other)
        ∧ (Severed name since → after.files.contents? name = kernel.files.contents? name)
  untouched
    : Severed name since
      → ∀ deed after,
          kernel.Step deed after
          → after.files.data inode ≠ kernel.files.data inode
          → ∃ caller other bytes count offset,
              deed = .call caller (.write other bytes) (some (.ok count))
              ∧ (kernel.fds caller).get? other = some (.file inode offset)
  apart
    : Severed name since
      → ∀ caller other recent offset,
          Obtained deeds caller other name recent
          → ¬Severed name recent
          → (kernel.fds caller).get? other ≠ some (.file inode offset)
  truncated
    : ¬Severed name since
      → ∀ caller other after,
          kernel.Step (.call caller (.creat name) (some (.ok other))) after
          → (after.fds caller).get? other = some (.file inode 0)
            ∧ (∃ offset, (after.fds pid).get? fd = some (.file inode offset))
            ∧ after.files.contents? name = some []
            ∧ after.files.data inode = []

theorem Leads.named (leads : kernel.Leads pid fd name since inode)
    : kernel.files.names.get? name = some inode ↔ ¬Severed name since :=
  ⟨fun named severed => leads.adrift severed name named, leads.linked⟩

/-- Every installation of a name that a descriptor was obtained by succeeds: the name is one that a
file can have.
-/
theorem Run.installed (run : Run config deeds kernel)
    (obtained : Obtained deeds pid fd name since) {bytes : Bytes} {reply : Except Errno Unit}
    (member : .install name bytes reply ∈ since)
    : reply = .ok () := by
  obtain ⟨before, opening, rfl, opened, kept⟩ := obtained
  -- the run is cut at the installation, where the descriptor was held already
  obtain ⟨earlier, rest, rfl⟩ := List.append_of_mem member
  rw [← List.cons_append, ← List.append_assoc] at run
  obtain ⟨middle, next, ran, step⟩ := run.split
  have still : ∀ deed ∈ earlier, ¬Releases pid fd deed.fdEvent? := fun deed inside =>
    kept deed (List.mem_append_left _ inside)
  obtain ⟨inode, leads⟩ := ran.leads ⟨before, opening, rfl, opened, still⟩
  exact step.installed leads.accepted

/-- A write through a descriptor is seen under no name but the one that the inode has. -/
theorem Leads.written (leads : kernel.Leads pid fd name since inode) (tidy : kernel.Tidy config)
    (bytes : Bytes)
    : ∃ after,
        kernel.call pid (.write fd bytes) = some (.ok bytes.length, after)
        ∧ (∀ other, other ≠ name → after.files.contents? other = kernel.files.contents? other)
        ∧ (Severed name since → after.files.contents? name = kernel.files.contents? name) := by
  obtain ⟨after, done, same⟩ := call_write leads.held bytes
  have unseen {other : String} (elsewhere : kernel.files.names.get? other ≠ some inode)
      : after.files.contents? other = kernel.files.contents? other := by
    rw [same, FileSystem.contents?_setData, if_neg elsewhere]
  refine ⟨after, done, fun other different => unseen fun named => ?_,
    fun severed => unseen (leads.adrift severed name)⟩
  by_cases severed : Severed name since
  · exact leads.adrift severed other named
  · exact different (tidy.names.injective named (leads.linked severed))

/-- The creation of a name empties the inode that has it, and gives a descriptor for
the same one.
-/
theorem Leads.truncated (leads : kernel.Leads pid fd name since inode)
    (run : Run config deeds kernel) (unsevered : ¬Severed name since) {caller : Pid} {other : Fd}
    (step : kernel.Step (.call caller (.creat name) (some (.ok other))) after)
    : (after.fds caller).get? other = some (.file inode 0)
      ∧ (∃ offset, (after.fds pid).get? fd = some (.file inode offset))
      ∧ after.files.contents? name = some []
      ∧ after.files.data inode = [] := by
  have before := leads.linked unsevered
  have still : after.files.names.get? name = some inode :=
    step.files.name_kept before (by simp [FileSystem.Severs, Deed.fileEvent?])
  obtain ⟨-, -, opened, named, inserted⟩ :=
    (step.fds run.rooted).inserted_of_opened run.tidy.streams
  obtain rfl := Option.some.inj (named.symm.trans still)
  have kept := leads.step run.tidy run step (by simp [Releases, Deed.fdEvent?])
  have emptied : after.files.data opened = [] := by
    rw [step.files.data_eq]
    simp [Deed.fileEvent?, FileSystem.change?, before, changesOf_singleton, Change.apply]
  refine ⟨inserted.held, ⟨_, kept.held⟩, ?_, emptied⟩
  rw [FileSystem.contents?, still, Option.map_some, emptied]

/-- Two names never lead to one inode. A descriptor leads to the inode with the name that it was
obtained by exactly as long as the name was not removed or installed anew, and otherwise to one that
never has a name again, so that it and whatever gets the name later do not share their bytes.
-/
theorem Run.names_never_alias (run : Run config deeds kernel)
    : (∀ left right inode,
        kernel.files.names.get? left = some inode
        → kernel.files.names.get? right = some inode
        → left = right)
      ∧ ∀ pid fd name since,
          Obtained deeds pid fd name since
          → ∃ inode, kernel.Linkage deeds pid fd name since inode := by
  refine ⟨fun _ _ _ => run.tidy.names.injective, fun pid fd name since obtained => ?_⟩
  obtain ⟨inode, leads⟩ := run.leads obtained
  refine ⟨inode, ?_⟩
  constructor
  · exact ⟨_, leads.held⟩
  · exact leads.named
  · intro severed more later steps
    exact steps.unnamed (leads.adrift severed) leads.taken
  · intro bytes reply member
    exact run.installed obtained member
  · exact leads.written run.tidy
  · intro severed deed after step differs
    exact step.written_of_unnamed (leads.adrift severed) leads.taken differs
  · intro severed caller other recent offset later unsevered held
    obtain ⟨current, follows⟩ := run.leads later
    cases held.symm.trans follows.held
    exact leads.adrift severed name (follows.linked unsevered)
  · intro unsevered caller other after step
    exact leads.truncated run unsevered step

/-- The deeds of a process that removes the name of a file which it has open, and creates another
one under the name.
-/
def recreatingDeeds : List Deed :=
  [
    .register "p",
    .spawn "p" [] (.ok (.ofNat 1)),
    .call (.ofNat 1) (.creat "a") (some (.ok ⟨2⟩)),
    .call (.ofNat 1) (.unlink "a") (some (.ok ())),
    .call (.ofNat 1) (.creat "a") (some (.ok ⟨3⟩)),
    .call (.ofNat 1) (.write ⟨3⟩ [1, 2]) (some (.ok 2))
  ]

/-- A write through the first descriptor does not reach the second file, as the law says after these
deeds.
-/
theorem names_never_alias_recreated
    : ∃ kernel after,
        Run .standard recreatingDeeds kernel
        ∧ Obtained recreatingDeeds (.ofNat 1) ⟨2⟩ "a" (recreatingDeeds.drop 3)
        ∧ kernel.call (.ofNat 1) (.write ⟨2⟩ [7, 7, 7]) = some (.ok 3, after)
        ∧ after.files.contents? "a" = some [1, 2] := by
  obtain ⟨kernel, run, written⟩
      : ∃ kernel,
          Run .standard recreatingDeeds kernel
          ∧ kernel.files.contents? "a" = some [1, 2] :=
    ⟨_, .extend .boot (.cons (.register "p") <| .cons (.spawn rfl) <| .cons (.call rfl rfl)
      <| .cons (.call rfl rfl) <| .cons (.call rfl rfl) <| .cons (.call rfl rfl) .nil), rfl⟩
  have obtained : Obtained recreatingDeeds (.ofNat 1) ⟨2⟩ "a" (recreatingDeeds.drop 3) :=
    ⟨recreatingDeeds.take 2, _, rfl, rfl, by simp [recreatingDeeds, Releases, Deed.fdEvent?]⟩
  have severed : Severed "a" (recreatingDeeds.drop 3) :=
    ⟨.call (.ofNat 1) (.unlink "a") (some (.ok ())), by simp [recreatingDeeds], .inl rfl⟩
  obtain ⟨inode, linkage⟩ := run.names_never_alias.2 _ _ _ _ obtained
  obtain ⟨after, done, -, same⟩ := linkage.written [7, 7, 7]
  exact ⟨kernel, after, run, obtained, done, (same severed).trans written⟩

end Kernel

end KernelConformance
