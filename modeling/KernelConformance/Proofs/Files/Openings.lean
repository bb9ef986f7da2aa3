import KernelConformance.Proofs.Files.TidyKernels

/-! What comes of opening a file. The room in the table is looked at first, then the name, and a
file that passes both gets the lowest number that is free.
-/

namespace KernelConformance

/-- The reply to an attempt to open a file and the table after it. It is refused for want of room
exactly if the limit is reached, it fails with the table as it was, and it succeeds exactly if there
is room and the file can be had.
-/
structure Descriptors.Opening (table : Descriptors) (available : Prop) (reply : Except Errno Fd)
    (after : Descriptors)
    : Prop where
  refused : reply = .error .tooManyOpenFiles ↔ table.limit ≤ table.inUse.length
  failed : ∀ error, reply = .error error → after = table
  granted : (∃ fd, reply = .ok fd) ↔ table.inUse.length < table.limit ∧ available
  inserted : ∀ fd, reply = .ok fd → ∃ inode, table.Inserted (.file inode 0) fd after

namespace Descriptors

variable {table after : Descriptors} {available : Prop} {fd : Fd}

theorem isExhausted_iff : table.isExhausted = true ↔ table.limit ≤ table.inUse.length := by
  rw [length_inUse, isExhausted, decide_eq_true_iff]

theorem opening_of_exhausted (full : table.isExhausted = true)
    : table.Opening available (.error .tooManyOpenFiles) table := by
  have reached := isExhausted_iff.mp full
  exact {
    refused := iff_of_true rfl reached
    failed := fun _ _ => rfl
    granted := by simp [Nat.not_lt.mpr reached]
    inserted := nofun
  }

theorem opening_of_unavailable {error : Errno} (room : table.isExhausted = false)
    (missing : ¬available) (other : error ≠ .tooManyOpenFiles)
    : table.Opening available (.error error) table := by
  have within : ¬table.limit ≤ table.inUse.length := by
    rw [← isExhausted_iff, room]
    exact Bool.false_ne_true
  exact {
    refused := by simp [other, within]
    failed := fun _ _ => rfl
    granted := by simp [missing]
    inserted := nofun
  }

theorem opening_of_inserted {inode : Inode} (found : available)
    (inserted : table.Inserted (.file inode 0) fd after)
    : table.Opening available (.ok fd) after := by
  have room : table.inUse.length < table.limit := table.length_inUse ▸ inserted.room
  exact {
    refused := by simp [room]
    failed := nofun
    granted := iff_of_true ⟨fd, rfl⟩ ⟨room, found⟩
    inserted := fun _ same => by
      cases same
      exact ⟨inode, inserted⟩
  }

end Descriptors

namespace FileSystem

variable {files : FileSystem} {name : String}

theorem create_failed {error : Errno} (failed : files.create name = .error error)
    : ¬files.acceptsName name = true ∧ error = .badFileName := by
  unfold create at failed
  split at failed
  · next refused =>
      cases failed
      exact ⟨by simpa using refused, rfl⟩
  · split at failed <;> cases failed

/-- A file that cannot be found has no name, or one that no file can have. -/
theorem find_failed {error : Errno} (failed : files.find name = .error error)
    : ¬(files.acceptsName name = true ∧ (files.names.get? name).isSome = true)
      ∧ error ≠ .tooManyOpenFiles := by
  unfold find at failed
  split at failed
  · next refused =>
      cases failed
      have rejected : ¬files.acceptsName name = true := by simpa using refused
      exact ⟨fun found => rejected found.1, by decide⟩
  · split at failed
    · next absent =>
        cases failed
        exact ⟨fun found => by simp [absent] at found, by decide⟩
    · cases failed

end FileSystem

namespace Kernel

variable {kernel after : Kernel} {pid : Pid} {name : String}

/-- A creation opens a file if a file can have the name, by cases on the room in the table and on
the name.
-/
theorem creat_opening (streams : Descriptors.firstFile ≤ (kernel.fds pid).slots.length)
    (name : String)
    : (kernel.fds pid).Opening (kernel.files.acceptsName name = true) (kernel.creat pid name).1
        ((kernel.creat pid name).2.fds pid) := by
  cases room : (kernel.fds pid).isExhausted with
  | true =>
      rw [creat_of_exhausted room]
      exact Descriptors.opening_of_exhausted room
  | false =>
      rcases created : kernel.files.create name with error | ⟨inode, files⟩
      · obtain ⟨rejected, rfl⟩ := FileSystem.create_failed created
        rw [creat_of_refused room created]
        exact Descriptors.opening_of_unavailable room rejected (by decide)
      · obtain ⟨fd, fds, inserted, done⟩ := creat_of_room room created
        rw [done, fds_setFds, Function.update_self]
        exact Descriptors.opening_of_inserted (FileSystem.create_cases created).1
          (Descriptors.inserted_of_insert streams inserted)

/-- An opening opens a file if there is one with the name, by cases on the room in the table and on
the name.
-/
theorem openFile_opening (streams : Descriptors.firstFile ≤ (kernel.fds pid).slots.length)
    (name : String)
    : (kernel.fds pid).Opening
        (kernel.files.acceptsName name = true ∧ (kernel.files.names.get? name).isSome = true)
        (kernel.openFile pid name).1
        ((kernel.openFile pid name).2.fds pid) := by
  cases room : (kernel.fds pid).isExhausted with
  | true =>
      rw [openFile_of_exhausted room]
      exact Descriptors.opening_of_exhausted room
  | false =>
      rcases found : kernel.files.find name with error | inode
      · obtain ⟨missing, other⟩ := FileSystem.find_failed found
        rw [openFile_of_missing room found]
        exact Descriptors.opening_of_unavailable room missing other
      · obtain ⟨fd, fds, inserted, done⟩ := openFile_of_room room found
        obtain ⟨accepted, named⟩ := FileSystem.find_cases found
        rw [done, fds_setFds pid fds kernel.files kernel, Function.update_self]
        exact Descriptors.opening_of_inserted ⟨accepted, by rw [named]; rfl⟩
          (Descriptors.inserted_of_insert streams inserted)

theorem call_creat (streams : Descriptors.firstFile ≤ (kernel.fds pid).slots.length)
    (name : String)
    : ∃ reply after,
        kernel.call pid (.creat name) = some (reply, after)
        ∧ (kernel.fds pid).Opening (kernel.files.acceptsName name = true) reply
            (after.fds pid) := by
  have performed : kernel.perform pid (.creat name) = some (kernel.creat pid name) := rfl
  refine ⟨_, _, call_of_perform performed, ?_⟩
  rw [fds_trace]
  exact creat_opening streams name

theorem call_openFile (streams : Descriptors.firstFile ≤ (kernel.fds pid).slots.length)
    (name : String)
    : ∃ reply after,
        kernel.call pid (.openFile name) = some (reply, after)
        ∧ (kernel.fds pid).Opening
            (kernel.files.acceptsName name = true
              ∧ (kernel.files.names.get? name).isSome = true)
            reply (after.fds pid) := by
  have performed : kernel.perform pid (.openFile name) = some (kernel.openFile pid name) := rfl
  refine ⟨_, _, call_of_perform performed, ?_⟩
  rw [fds_trace]
  exact openFile_opening streams name

end Kernel

end KernelConformance
