import KernelConformance.Proofs.Files.CallOutcomes

/-! What a deed does to the file system: to the names, to the inodes that they lead to, and to the
bytes of the inodes. A name that gets a new inode gets one that never had a name.
-/

namespace KernelConformance

open Utf8 (Bytes)

/-- What a deed means for the files. -/
inductive FileEvent where
  | created (name : String)
  | written (pid : Pid) (fd : Fd) (bytes : Bytes)
  | unlinked (name : String)
  | installed (name : String) (bytes : Bytes)

/-- A creation, a write, a removal or an installation that succeeds. -/
def Deed.fileEvent? : Deed → Option FileEvent
  | call _ (.creat name) (some (.ok _)) => some (.created name)
  | call pid (.write fd bytes) (some (.ok _)) => some (.written pid fd bytes)
  | call _ (.unlink name) (some (.ok _)) => some (.unlinked name)
  | install name bytes (.ok _) => some (.installed name bytes)
  | _ => none

namespace FileSystem

/-- What an event does to the file system, given what descriptors stand for. -/
inductive Step (files : FileSystem) (fds : Pid → Descriptors)
    : Option FileEvent → FileSystem → Prop where
  | bind {name} (unnamed : files.names.get? name = none)
    : Step files fds (some (.created name)) (files.bind name []).2
  | empty {name inode} (named : files.names.get? name = some inode)
    : Step files fds (some (.created name)) (files.setData inode [])
  | write {pid fd bytes inode offset} (held : (fds pid).get? fd = some (.file inode offset))
    : Step files fds (some (.written pid fd bytes))
        (files.setData inode (overlay offset bytes (files.data inode)))
  | print {pid fd bytes} (held : (fds pid).get? fd = some .stdout)
    : Step files fds (some (.written pid fd bytes)) files
  | unlink {name}
    : Step files fds (some (.unlinked name)) { files with names := files.names.erase name }
  | install {name bytes}
    : Step files fds (some (.installed name bytes)) (files.bind name bytes).2
  | idle : Step files fds none files

variable {files after : FileSystem} {name : String} {inode : Inode}

-----------------------------------------------------------------------------------------
-- Operations that succeed
-----------------------------------------------------------------------------------------

theorem create_cases (done : files.create name = .ok (inode, after))
    : files.acceptsName name = true
      ∧ (files.names.get? name = none ∧ inode = files.next ∧ after = (files.bind name []).2
        ∨ files.names.get? name = some inode ∧ after = files.setData inode []) := by
  unfold create at done
  split at done
  · cases done
  · next refused =>
      have accepted : files.acceptsName name = true := by simpa using refused
      split at done
      · next unnamed =>
          cases done
          exact ⟨accepted, .inl ⟨unnamed, rfl, rfl⟩⟩
      · next found =>
          cases done
          exact ⟨accepted, .inr ⟨found, rfl⟩⟩

theorem find_cases (done : files.find name = .ok inode)
    : files.acceptsName name = true ∧ files.names.get? name = some inode := by
  unfold find at done
  split at done
  · cases done
  · next refused =>
      have accepted : files.acceptsName name = true := by simpa using refused
      split at done
      · cases done
      · next found =>
          cases done
          exact ⟨accepted, found⟩

theorem remove_cases (done : files.remove name = .ok after)
    : after = { files with names := files.names.erase name } := by
  unfold remove at done
  split at done
  · cases done
  · split at done
    · cases done
    · cases done
      rfl

theorem put_cases {bytes : Bytes} (done : files.put name bytes = .ok after)
    : after = (files.bind name bytes).2 := by
  unfold put at done
  split at done
  · cases done
  · cases done
    rfl

theorem names_bind (name : String) (bytes : Bytes) (files : FileSystem) (other : String)
    : (files.bind name bytes).2.names.get? other
      = if other = name then some files.next else files.names.get? other :=
  FiniteMap.get?_insert name files.next files.names other

@[simp] theorem names_setData (inode : Inode) (bytes : Bytes) (files : FileSystem)
    : (files.setData inode bytes).names = files.names :=
  rfl

theorem data_setData (inode : Inode) (bytes : Bytes) (files : FileSystem) (other : Inode)
    : (files.setData inode bytes).data other
      = if other = inode then bytes else files.data other := by
  unfold setData data
  rw [FiniteMap.get?_insert]
  split <;> rfl

theorem data_bind (name : String) (bytes : Bytes) (files : FileSystem) (other : Inode)
    : (files.bind name bytes).2.data other
      = if other = files.next then bytes else files.data other :=
  data_setData files.next bytes _ other

theorem named_of_create (done : files.create name = .ok (inode, after))
    : after.names.get? name = some inode := by
  obtain ⟨-, ⟨-, rfl, rfl⟩ | ⟨named, rfl⟩⟩ := create_cases done
  · rw [names_bind, if_pos rfl]
  · exact named

-----------------------------------------------------------------------------------------
-- Steps
-----------------------------------------------------------------------------------------

variable {fds : Pid → Descriptors} {event : Option FileEvent}

/-- An event that takes a name from its inode, if it has one: a removal or an installation. -/
def Severs (name : String) (event : Option FileEvent) : Prop :=
  event = some (.unlinked name) ∨ ∃ bytes, event = some (.installed name bytes)

/-- An event that can give a name a new inode: a creation or an installation. -/
def Binds (name : String) (event : Option FileEvent) : Prop :=
  event = some (.created name) ∨ ∃ bytes, event = some (.installed name bytes)

theorem Step.acceptsName (step : files.Step fds event after)
    : after.acceptsName = files.acceptsName := by
  cases step <;> rfl

theorem Step.next_le (step : files.Step fds event after)
    : files.next.index ≤ after.next.index := by
  cases step with
  | bind => exact Nat.le_succ _
  | install => exact Nat.le_succ _
  | _ => exact Nat.le_refl _

/-- A name keeps its inode unless it is severed from it, by cases on the step. -/
theorem Step.name_kept (step : files.Step fds event after)
    (named : files.names.get? name = some inode) (kept : ¬Severs name event)
    : after.names.get? name = some inode := by
  cases step with
  | @bind other unnamed =>
      have different : name ≠ other := fun same => by
        subst same
        rw [named] at unnamed
        cases unnamed
      rw [names_bind, if_neg different, named]
  | @unlink other =>
      have different : name ≠ other := fun same => kept (.inl (same ▸ rfl))
      rw [FiniteMap.get?_erase, if_neg different, named]
  | @install other bytes =>
      have different : name ≠ other := fun same => kept (.inr ⟨bytes, same ▸ rfl⟩)
      rw [names_bind, if_neg different, named]
  | _ => exact named

/-- A name has an inode that it had before, or one that is new, by cases on the step. -/
theorem Step.name_cases (step : files.Step fds event after)
    (named : after.names.get? name = some inode)
    : files.names.get? name = some inode ∧ ¬Severs name event
      ∨ inode = files.next ∧ Binds name event ∧ files.next.index < after.next.index := by
  cases step with
  | @bind other unnamed =>
      rw [names_bind] at named
      split at named
      · next same =>
          cases named
          exact .inr ⟨rfl, .inl (same ▸ rfl), Nat.lt_succ_self _⟩
      · exact .inl ⟨named, by simp [Severs]⟩
  | @unlink other =>
      rw [FiniteMap.get?_erase] at named
      split at named
      · cases named
      · next different => exact .inl ⟨named, by simp [Severs, Ne.symm different]⟩
  | @install other bytes =>
      rw [names_bind] at named
      split at named
      · next same =>
          cases named
          exact .inr ⟨rfl, .inr ⟨bytes, same ▸ rfl⟩, Nat.lt_succ_self _⟩
      · next different => exact .inl ⟨named, by simp [Severs, Ne.symm different]⟩
  | _ => exact .inl ⟨named, by simp [Severs]⟩

theorem Binds.unique {left right : String} (leftBound : Binds left event)
    (rightBound : Binds right event)
    : left = right := by
  rcases leftBound with rfl | ⟨bytes, rfl⟩ <;> rcases rightBound with same | ⟨_, same⟩ <;>
    cases same <;> rfl

-----------------------------------------------------------------------------------------
-- Inodes do not share names
-----------------------------------------------------------------------------------------

/-- Every inode with a name has a number that is taken, and no second name. -/
structure Distinct (files : FileSystem) : Prop where
  taken : ∀ {name inode}, files.names.get? name = some inode → inode.index < files.next.index
  injective
    : ∀ {left right inode},
        files.names.get? left = some inode → files.names.get? right = some inode → left = right

/-- Whether no name leads to an inode. -/
def Unnamed (files : FileSystem) (inode : Inode) : Prop :=
  ∀ name, files.names.get? name ≠ some inode

/-- A new inode is none that had a name, so that names stay apart. -/
theorem Distinct.step (distinct : files.Distinct) (step : files.Step fds event after)
    : after.Distinct := by
  constructor
  · intro name inode named
    rcases step.name_cases named with ⟨before, -⟩ | ⟨rfl, -, fresh⟩
    · exact Nat.lt_of_lt_of_le (distinct.taken before) step.next_le
    · exact fresh
  · intro left right inode leftNamed rightNamed
    rcases step.name_cases leftNamed with ⟨leftBefore, -⟩ | ⟨leftNew, leftBound, -⟩ <;>
      rcases step.name_cases rightNamed with ⟨rightBefore, -⟩ | ⟨rightNew, rightBound, -⟩
    · exact distinct.injective leftBefore rightBefore
    · subst rightNew
      exact absurd (distinct.taken leftBefore) (Nat.lt_irrefl _)
    · subst leftNew
      exact absurd (distinct.taken rightBefore) (Nat.lt_irrefl _)
    · exact leftBound.unique rightBound

/-- An inode that lost its name never gets one again. -/
theorem Unnamed.step (unnamed : files.Unnamed inode) (taken : inode.index < files.next.index)
    (step : files.Step fds event after)
    : after.Unnamed inode := by
  intro name named
  rcases step.name_cases named with ⟨before, -⟩ | ⟨rfl, -, -⟩
  · exact unnamed name before
  · exact Nat.lt_irrefl _ taken

/-- An inode that is severed from its name has no other one. -/
theorem Distinct.unnamed_of_severs (distinct : files.Distinct)
    (step : files.Step fds event after) (named : files.names.get? name = some inode)
    (severed : Severs name event)
    : after.Unnamed inode := by
  intro other otherNamed
  rcases step.name_cases otherNamed with ⟨before, kept⟩ | ⟨rfl, -, -⟩
  · obtain rfl := distinct.injective named before
    exact kept severed
  · exact Nat.lt_irrefl _ (distinct.taken named)

end FileSystem

namespace Kernel

variable {kernel after : Kernel}

@[simp] theorem trace_files (kernel : Kernel) (pid : Pid) (kind : SyscallKind)
    (arguments outcome : String)
    : (kernel.trace pid kind arguments outcome).files = kernel.files := by
  rw [trace_eq]

@[simp] theorem finish_files (pid : Pid) (ending : Ending) (kernel : Kernel)
    : (kernel.finish pid ending).files = kernel.files := by
  cases ending <;> simp [finish, terminate]

theorem call_files {pid : Pid} {call : Syscall} {reply : call.Reply}
    (done : kernel.call pid call = some (reply, after))
    : kernel.files.Step kernel.fds (Deed.call pid call (some reply)).fileEvent? after.files := by
  obtain ⟨middle, effect, rfl⟩ := call_effect done
  rw [trace_files]
  cases effect with
  | @failed _ error =>
      have silent : (Deed.call pid call (some (.error error))).fileEvent? = none := by
        cases call <;> rfl
      rw [silent]
      exact .idle
  | exec started =>
      rcases start_cases started with ⟨_, replied, -⟩ | ⟨_, _, -, -, rfl⟩
      · cases replied
      · exact .idle
  | creat created =>
      obtain ⟨-, ⟨unnamed, -, rfl⟩ | ⟨named, rfl⟩⟩ := FileSystem.create_cases created
      · exact .bind unnamed
      · exact .empty named
  | print held => exact .print held
  | write held => exact .write held
  | unlink removed =>
      obtain rfl := FileSystem.remove_cases removed
      exact .unlink
  | _ => exact .idle

/-- A deed does to the file system what its event says, by cases on the deed. -/
theorem Step.files {deed : Deed} (step : kernel.Step deed after)
    : kernel.files.Step kernel.fds deed.fileEvent? after.files := by
  cases step with
  | register program =>
      unfold Kernel.register
      split <;> exact .idle
  | spawn done =>
      rcases start_cases done with ⟨_, rfl, rfl⟩ | ⟨_, _, rfl, -, rfl⟩ <;> exact .idle
  | wait done =>
      rcases reap_cases done with ⟨_, rfl, rfl⟩ | ⟨_, _, rfl, -, rfl⟩ <;> exact .idle
  | waitBlocked => exact .idle
  | install done =>
      rcases install_cases done with ⟨_, rfl, rfl⟩ | ⟨files, put, rfl, rfl⟩
      · exact .idle
      · obtain rfl := FileSystem.put_cases put
        exact .install
  | takeJournal => exact .idle
  | takeConsole => exact .idle
  | @callBlocked pid call runs blocked =>
      have silent : (Deed.call pid call none).fileEvent? = none := by cases call <;> rfl
      rw [silent]
      exact .idle
  | @finish pid ending runs =>
      rw [finish_files]
      exact .idle
  | call runs done => exact call_files done

end Kernel

end KernelConformance
