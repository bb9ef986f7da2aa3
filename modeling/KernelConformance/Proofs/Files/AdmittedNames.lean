import KernelConformance.Proofs.Files.FileSystemSteps

/-! Names that a file can have: a file can be made under each of them, and all files have one, so
that a removal which is refused has nothing to remove. Which names these are is up to the
configuration alone.
-/

namespace KernelConformance

/-- Whether all names in use are ones that a file can have. -/
def FileSystem.Admits (files : FileSystem) : Prop :=
  ∀ name inode, files.names.get? name = some inode → files.acceptsName name = true

namespace FileSystem

variable {files after : FileSystem} {name : String} {inode : Inode}

theorem acceptsName_iff
    : files.acceptsName name = true
      ↔ name ≠ "" ∧ name.utf8ByteSize ≤ files.maxNameLength ∧ Char.ofNat 0 ∉ name.toList := by
  simp [acceptsName, and_assoc]

theorem find_of_named (accepted : files.acceptsName name = true)
    (named : files.names.get? name = some inode)
    : files.find name = .ok inode := by
  simp [find, accepted, named]

/-- A name that is accepted and cannot be found is not in use. -/
theorem find_of_accepted (accepted : files.acceptsName name = true)
    : files.find name = .error .noSuchFile ∨ ∃ inode, files.find name = .ok inode := by
  rcases named : files.names.get? name with _ | inode
  · exact .inl (by simp [find, accepted, named])
  · exact .inr ⟨inode, find_of_named accepted named⟩

theorem remove_of_accepted (accepted : files.acceptsName name = true)
    : files.remove name = .error .noSuchFile ∨ ∃ after, files.remove name = .ok after := by
  rcases named : files.names.get? name with _ | inode
  · exact .inl (by simp [remove, accepted, named])
  · have removed : files.remove name = .ok { files with names := files.names.erase name } := by
      simp [remove, accepted, named]
    exact .inr ⟨_, removed⟩

/-- A name that is accepted can be made, and leads to an empty file then. -/
theorem create_of_accepted (accepted : files.acceptsName name = true)
    : ∃ inode made,
        files.create name = .ok (inode, made)
        ∧ made.acceptsName = files.acceptsName
        ∧ made.names.get? name = some inode
        ∧ made.data inode = []
        ∧ (∀ other, other ≠ name → made.names.get? other = files.names.get? other)
        ∧ ∀ other, other ≠ inode → made.data other = files.data other := by
  rcases named : files.names.get? name with _ | inode
  · have created : files.create name = .ok (files.bind name []) := by simp [create, accepted, named]
    refine ⟨_, _, created, rfl, ?_, ?_, ?_, ?_⟩
    · exact named_of_create created
    · exact (data_bind name [] files _).trans (if_pos rfl)
    · exact fun other different => (names_bind name [] files other).trans (if_neg different)
    · exact fun other different => (data_bind name [] files other).trans (if_neg different)
  · have created : files.create name = .ok (inode, files.setData inode []) := by
      simp [create, accepted, named]
    refine ⟨_, _, created, rfl, named, ?_, fun _ _ => rfl, ?_⟩
    · exact (data_setData inode [] files inode).trans (if_pos rfl)
    · exact fun other different => (data_setData inode [] files other).trans (if_neg different)

theorem Admits.bind (admits : files.Admits) (accepted : files.acceptsName name = true)
    (bytes : Utf8.Bytes)
    : (files.bind name bytes).2.Admits := by
  intro other inode named
  rw [names_bind] at named
  split at named
  · next same => exact same ▸ accepted
  · exact admits other inode named

theorem put_accepted {bytes : Utf8.Bytes} (done : files.put name bytes = .ok after)
    : files.acceptsName name = true := by
  unfold put at done
  split at done
  · cases done
  · next refused => simpa using refused

/-- A name that cannot be removed is not in use. -/
theorem absent_of_remove_error
    (admits : ∀ inode, files.names.get? name = some inode → files.acceptsName name = true)
    {error : Errno} (failed : files.remove name = .error error)
    : files.names.get? name = none := by
  unfold remove at failed
  split at failed
  · next refused =>
      rw [Option.eq_none_iff_forall_ne_some]
      intro inode named
      simp [admits inode named] at refused
  · split at failed
    · assumption
    · cases failed

end FileSystem

namespace Kernel

variable {config : Config} {deeds : List Deed} {kernel after : Kernel} {pid : Pid} {name : String}

/-- A kernel takes a name if nothing that is tried with it fails because no file can
have the name.
-/
structure Takes (kernel : Kernel) (name : String) : Prop where
  creat : ∀ pid, (kernel.creat pid name).1 ≠ .error .badFileName
  openFile : ∀ pid, (kernel.openFile pid name).1 ≠ .error .badFileName
  unlink : (kernel.unlink name).1 ≠ .error .badFileName
  install : ∀ bytes, (kernel.install name bytes).1 ≠ .error .badFileName

/-- With an accepted name there can only be no room for a descriptor, or no file. -/
theorem takes_of_accepted (accepted : kernel.files.acceptsName name = true)
    : kernel.Takes name where
  creat pid := by
    cases room : (kernel.fds pid).isExhausted with
    | true => simp [creat_of_exhausted room]
    | false =>
        obtain ⟨inode, made, created, -⟩ := FileSystem.create_of_accepted accepted
        obtain ⟨fd, fds, -, done⟩ := creat_of_room room created
        simp [done]
  openFile pid := by
    cases room : (kernel.fds pid).isExhausted with
    | true => simp [openFile_of_exhausted room]
    | false =>
        rcases FileSystem.find_of_accepted accepted with absent | ⟨inode, found⟩
        · simp [openFile_of_missing room absent]
        · obtain ⟨fd, fds, -, done⟩ := openFile_of_room room found
          simp [done]
  unlink := by
    rcases FileSystem.remove_of_accepted accepted with absent | ⟨after, removed⟩
    · simp [unlink_of_missing absent]
    · simp [unlink_of_removed removed]
  install bytes := by simp [install, FileSystem.put, accepted]

theorem takes_iff : kernel.Takes name ↔ kernel.files.acceptsName name = true := by
  refine ⟨fun takes => ?_, takes_of_accepted⟩
  cases accepted : kernel.files.acceptsName name with
  | true => rfl
  | false =>
      have refused : (kernel.install name []).1 = .error .badFileName := by
        simp [install, FileSystem.put, accepted]
      exact absurd refused (takes.install [])

/-- The names that a kernel accepts are those that its configuration says, by
induction on the run.
-/
theorem Run.acceptsName (run : Run config deeds kernel)
    : kernel.files.acceptsName = (FileSystem.empty config.maxNameLength).acceptsName := by
  induction run with
  | boot => rfl
  | step _ step ih => rw [step.files.acceptsName, ih]

theorem Run.takes_iff (run : Run config deeds kernel)
    : kernel.Takes name
      ↔ name ≠ "" ∧ name.utf8ByteSize ≤ config.maxNameLength ∧ Char.ofNat 0 ∉ name.toList := by
  rw [Kernel.takes_iff, run.acceptsName, FileSystem.acceptsName_iff]
  rfl

theorem call_admits {c : Syscall} {reply : c.Reply}
    (replied : kernel.call pid c = some (reply, after)) (admits : kernel.files.Admits)
    : after.files.Admits := by
  obtain ⟨middle, effect, rfl⟩ := call_effect replied
  rw [trace_files]
  cases effect with
  | exec started =>
      rcases start_cases started with ⟨_, -, rfl⟩ | ⟨_, _, -, -, rfl⟩ <;> exact admits
  | creat created =>
      obtain ⟨accepted, ⟨-, -, rfl⟩ | ⟨-, rfl⟩⟩ := FileSystem.create_cases created
      · exact admits.bind accepted []
      · exact admits
  | unlink removed =>
      obtain rfl := FileSystem.remove_cases removed
      intro other inode named
      rw [FiniteMap.get?_erase] at named
      split at named
      · cases named
      · exact admits other inode named
  | _ => exact admits

/-- Every file has been made under a name that it can have, by induction on the run. -/
theorem Run.admits (run : Run config deeds kernel) : kernel.files.Admits := by
  induction run with
  | boot => exact fun _ _ named => by cases named
  | step run step ih =>
      cases step with
      | register =>
          unfold Kernel.register
          split <;> exact ih
      | spawn done =>
          rcases start_cases done with ⟨_, -, rfl⟩ | ⟨_, _, -, -, rfl⟩ <;> exact ih
      | wait done => rcases reap_cases done with ⟨_, -, rfl⟩ | ⟨_, _, -, -, rfl⟩ <;> exact ih
      | install done =>
          rcases install_cases done with ⟨_, -, rfl⟩ | ⟨_, put, -, rfl⟩
          · exact ih
          · obtain rfl := FileSystem.put_cases put
            exact ih.bind (FileSystem.put_accepted put) _
      | call runs done => exact call_admits done ih
      | @finish pid ending runs =>
          rw [finish_files]
          exact ih
      | _ => exact ih

/-- A removal leaves no file with the name, whether it succeeds or not, and brings none back. -/
theorem call_unlink_absent {reply : Except Errno Unit}
    (replied : kernel.call pid (.unlink name) = some (reply, after))
    (admits
      : ∀ inode,
          kernel.files.names.get? name = some inode → kernel.files.acceptsName name = true)
    : after.files.names.get? name = none
      ∧ ∀ other,
          kernel.files.names.get? other = none → after.files.names.get? other = none := by
  obtain ⟨middle, performed, rfl⟩ := call_cases replied
  rw [trace_files]
  have done := Option.some.inj performed
  unfold Kernel.unlink at done
  split at done
  · next failed =>
      cases done
      exact ⟨FileSystem.absent_of_remove_error admits failed, fun _ absent => absent⟩
  · next removed =>
      cases done
      obtain rfl := FileSystem.remove_cases removed
      refine ⟨?_, fun other absent => ?_⟩
      · rw [FiniteMap.get?_erase, if_pos rfl]
      · rw [FiniteMap.get?_erase]
        split
        · rfl
        · exact absent

end Kernel

end KernelConformance
