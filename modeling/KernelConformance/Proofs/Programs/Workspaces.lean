import KernelConformance.Proofs.Files.TidyKernels
import KernelConformance.Proofs.Programs.SoloRuns

/-! What a process that is by itself works with: its descriptors and the files. Each call on files
is described by what it does to these two, and leaves everything else as it was.
-/

namespace KernelConformance

open Function (update)
open Utf8 (Bytes)

/-- Whether a descriptor is the lowest one for files that stands for nothing. -/
structure FirstFree (slots : Fd → Option Handle) (fd : Fd) : Prop where
  file : Descriptors.firstFile ≤ fd.index
  free : slots fd = none
  lower
    : ∀ other,
        Descriptors.firstFile ≤ other.index → other.index < fd.index → (slots other).isSome = true

/-- There is only one lowest free descriptor. -/
theorem FirstFree.unique {slots : Fd → Option Handle} {fd other : Fd} (first : FirstFree slots fd)
    (second : FirstFree slots other)
    : fd = other := by
  rcases Nat.lt_trichotomy fd.index other.index with less | same | more
  · have used := second.lower fd first.file less
    simp [first.free] at used
  · exact Fd.mk.injEq .. ▸ same
  · have used := first.lower other second.file more
    simp [second.free] at used

/-- A descriptor that is free while another one is in use is a different one, and
was free before.
-/
theorem FirstFree.of_update {slots : Fd → Option Handle} {fd other : Fd} {handle : Handle}
    (first : FirstFree (update slots fd (some handle)) other)
    : other ≠ fd ∧ slots other = none := by
  have free := first.free
  rw [Function.update_apply] at free
  split at free
  · cases free
  · next different => exact ⟨different, free⟩

namespace Kernel

/-- A kernel that is like `start` but for what a process has done by itself: its descriptors stand
for what `slots` says, `count` of them are in use, and the files are `files`.
-/
structure Workspace (start : Kernel) (pid : Pid) (slots : Fd → Option Handle) (count : Nat)
    (files : FileSystem) (kernel : Kernel)
    : Prop where
  elsewhere : start.Elsewhere pid kernel
  files : kernel.files = files
  get? : (kernel.fds pid).get? = slots
  size : (kernel.fds pid).size = count
  streams : Descriptors.firstFile ≤ (kernel.fds pid).slots.length
  limit : (kernel.fds pid).limit = start.config.maxOpenFiles

namespace Workspace

variable {start kernel : Kernel} {pid : Pid} {slots : Fd → Option Handle} {count : Nat}
  {files : FileSystem} {name : String} {inode : Inode} {fd : Fd}

/-- A process has a workspace when it begins. -/
theorem begin (start : Kernel) (pid : Pid)
    (streams : Descriptors.firstFile ≤ (start.fds pid).slots.length)
    (limit : (start.fds pid).limit = start.config.maxOpenFiles)
    : start.Workspace pid (start.fds pid).get? (start.fds pid).size start.files start :=
  ⟨.refl start pid, rfl, rfl, rfl, streams, limit⟩

/-- The trace of a call is no part of a workspace. -/
theorem replied {c : Syscall} {reply : c.Reply} {middle : Kernel}
    (performed : kernel.perform pid c = some (reply, middle))
    (workspace : start.Workspace pid slots count files middle)
    : ∃ after,
        kernel.call pid c = some (reply, after)
        ∧ start.Workspace pid slots count files after := by
  refine ⟨_, call_of_perform performed, ?_⟩
  obtain ⟨elsewhere, same, get?, size, streams, limit⟩ := workspace
  rw [trace_eq]
  exact ⟨.trans elsewhere ⟨rfl, rfl, rfl, fun _ _ => rfl⟩, same, get?, size, streams, limit⟩

/-- Other descriptors of the process and other files make another workspace. -/
theorem changed (workspace : start.Workspace pid slots count files kernel) {fds : Descriptors}
    (others : FileSystem) (streams : Descriptors.firstFile ≤ fds.slots.length)
    (limit : fds.limit = (kernel.fds pid).limit)
    : start.Workspace pid fds.get? fds.size others
        ({ kernel with files := others }.setFds pid fds) := by
  have own : ({ kernel with files := others }.setFds pid fds).fds pid = fds := by
    rw [fds_setFds, Function.update_self]
  refine ⟨workspace.elsewhere.trans (elsewhere_setFds kernel pid fds others), rfl, ?_, ?_, ?_, ?_⟩
  · rw [own]
  · rw [own]
  · rw [own]
    exact streams
  · rw [own, limit, workspace.limit]

theorem changedFds (workspace : start.Workspace pid slots count files kernel) {fds : Descriptors}
    (streams : Descriptors.firstFile ≤ fds.slots.length)
    (limit : fds.limit = (kernel.fds pid).limit)
    : start.Workspace pid fds.get? fds.size files (kernel.setFds pid fds) := by
  have same := workspace.changed kernel.files streams limit
  rw [workspace.files] at same
  rw [show kernel.setFds pid fds = ({ kernel with files }.setFds pid fds) by
    rw [← workspace.files]]
  exact same

-----------------------------------------------------------------------------------------
-- Opening and closing
-----------------------------------------------------------------------------------------

theorem isExhausted_iff (workspace : start.Workspace pid slots count files kernel)
    : (kernel.fds pid).isExhausted = true ↔ start.config.maxOpenFiles ≤ count := by
  rw [Descriptors.isExhausted, decide_eq_true_iff, workspace.size, workspace.limit]

/-- What is put into a table is seen at its number, which was the lowest that was free. -/
theorem inserted (workspace : start.Workspace pid slots count files kernel) {handle : Handle}
    {fds : Descriptors} (inserted : (kernel.fds pid).Inserted handle fd fds)
    : FirstFree slots fd
      ∧ fds.get? = update slots fd (some handle)
      ∧ fds.size = count + 1
      ∧ Descriptors.firstFile ≤ fds.slots.length
      ∧ fds.limit = (kernel.fds pid).limit := by
  refine ⟨⟨inserted.file, ?_, ?_⟩, ?_, ?_, ?_, inserted.limit⟩
  · rw [← workspace.get?]
    exact inserted.free
  · rw [← workspace.get?]
    exact inserted.lower
  · funext other
    rw [inserted.get?, Function.update_apply, workspace.get?]
  · rw [inserted.size, workspace.size]
  · rw [inserted.length]
    exact Nat.le_trans workspace.streams (Nat.le_max_left _ _)

theorem isExhausted_eq_false (workspace : start.Workspace pid slots count files kernel)
    (room : count < start.config.maxOpenFiles)
    : (kernel.fds pid).isExhausted = false := by
  rw [Bool.eq_false_iff, Ne, workspace.isExhausted_iff]
  exact Nat.not_le_of_lt room

/-- With room in the table, a file that there is gets the lowest free descriptor. -/
theorem openFile (workspace : start.Workspace pid slots count files kernel)
    (room : count < start.config.maxOpenFiles) (found : files.find name = .ok inode)
    : ∃ fd after,
        kernel.call pid (.openFile name) = some (.ok fd, after)
        ∧ FirstFree slots fd
        ∧ start.Workspace pid (update slots fd (some (.file inode 0))) (count + 1) files after := by
  have free := workspace.isExhausted_eq_false room
  rw [← workspace.files] at found
  obtain ⟨fd, fds, inserted, opened⟩ := openFile_of_room free found
  have inserted := Descriptors.inserted_of_insert workspace.streams inserted
  obtain ⟨first, get?, size, streams, limit⟩ := workspace.inserted inserted
  have middle := workspace.changedFds streams limit
  rw [get?, size] at middle
  have performed : kernel.perform pid (.openFile name) = some (.ok fd, kernel.setFds pid fds) :=
    congrArg some opened
  obtain ⟨after, done, workspace⟩ := replied performed middle
  exact ⟨fd, after, done, first, workspace⟩

/-- An opening fails without room in the table or without a file, and changes nothing. -/
theorem openFile_error (workspace : start.Workspace pid slots count files kernel) (name : String)
    (unable : start.config.maxOpenFiles ≤ count ∨ ∃ error, files.find name = .error error)
    : ∃ error after,
        kernel.call pid (.openFile name) = some (.error error, after)
        ∧ start.Workspace pid slots count files after := by
  have refused : ∃ error, kernel.openFile pid name = (.error error, kernel) := by
    by_cases full : (kernel.fds pid).isExhausted = true
    · exact ⟨_, openFile_of_exhausted full name⟩
    · obtain ⟨error, missing⟩ :=
        unable.resolve_left fun reached => full (workspace.isExhausted_iff.mpr reached)
      rw [← workspace.files] at missing
      exact ⟨error, openFile_of_missing (Bool.eq_false_iff.mpr full) missing⟩
  obtain ⟨error, refused⟩ := refused
  have performed : kernel.perform pid (.openFile name) = some (.error error, kernel) :=
    congrArg some refused
  obtain ⟨after, done, workspace⟩ := replied performed workspace
  exact ⟨error, after, done, workspace⟩

/-- With room in the table, a file that can be made gets the lowest free descriptor. -/
theorem creat (workspace : start.Workspace pid slots count files kernel)
    (room : count < start.config.maxOpenFiles) {made : FileSystem}
    (created : files.create name = .ok (inode, made))
    : ∃ fd after,
        kernel.call pid (.creat name) = some (.ok fd, after)
        ∧ FirstFree slots fd
        ∧ start.Workspace pid (update slots fd (some (.file inode 0))) (count + 1) made after := by
  have free := workspace.isExhausted_eq_false room
  rw [← workspace.files] at created
  obtain ⟨fd, fds, inserted, opened⟩ := creat_of_room free created
  have inserted := Descriptors.inserted_of_insert workspace.streams inserted
  obtain ⟨first, get?, size, streams, limit⟩ := workspace.inserted inserted
  have middle := workspace.changed made streams limit
  rw [get?, size] at middle
  have performed
      : kernel.perform pid (.creat name)
        = some (.ok fd, { kernel with files := made }.setFds pid fds) :=
    congrArg some opened
  obtain ⟨after, done, workspace⟩ := replied performed middle
  exact ⟨fd, after, done, first, workspace⟩

theorem creat_error (workspace : start.Workspace pid slots count files kernel) (name : String)
    (unable : start.config.maxOpenFiles ≤ count ∨ ∃ error, files.create name = .error error)
    : ∃ error after,
        kernel.call pid (.creat name) = some (.error error, after)
        ∧ start.Workspace pid slots count files after := by
  have refused : ∃ error, kernel.creat pid name = (.error error, kernel) := by
    by_cases full : (kernel.fds pid).isExhausted = true
    · exact ⟨_, creat_of_exhausted full name⟩
    · obtain ⟨error, rejected⟩ :=
        unable.resolve_left fun reached => full (workspace.isExhausted_iff.mpr reached)
      rw [← workspace.files] at rejected
      exact ⟨error, creat_of_refused (Bool.eq_false_iff.mpr full) rejected⟩
  obtain ⟨error, refused⟩ := refused
  have performed : kernel.perform pid (.creat name) = some (.error error, kernel) :=
    congrArg some refused
  obtain ⟨after, done, workspace⟩ := replied performed workspace
  exact ⟨error, after, done, workspace⟩

/-- A descriptor in use can be closed, and stands for nothing afterwards. -/
theorem close (workspace : start.Workspace pid slots count files kernel) (fd : Fd)
    (held : (slots fd).isSome = true)
    : ∃ after,
        kernel.call pid (.close fd) = some (.ok (), after)
        ∧ start.Workspace pid (update slots fd none) (count - 1) files after := by
  rw [← workspace.get?] at held
  obtain ⟨handle, held⟩ := Option.isSome_iff_exists.mp held
  obtain ⟨fds, freed⟩ : ∃ fds, (kernel.fds pid).erase fd = .ok fds := by
    unfold Descriptors.erase
    rw [held]
    exact ⟨_, rfl⟩
  have erased := Descriptors.erased_of_erase freed
  have middle := workspace.changedFds (erased.length ▸ workspace.streams) erased.limit
  have get? : fds.get? = update slots fd none := by
    funext other
    rw [erased.get?, Function.update_apply, workspace.get?]
  have size : fds.size = count - 1 := by
    rw [← workspace.size, ← erased.size, Nat.add_sub_cancel]
  rw [get?, size] at middle
  exact replied (congrArg some (close_of_erased freed)) middle

/-- Two descriptors that were free before they were opened are free again when they are closed. -/
theorem closeBoth {before : Fd → Option Handle} {first second : Fd}
    (workspace : start.Workspace pid slots (count + 2) files kernel) (apart : first ≠ second)
    (firstHeld : (slots first).isSome = true) (secondHeld : (slots second).isSome = true)
    (firstFree : before first = none) (secondFree : before second = none)
    (others : ∀ fd, fd ≠ first → fd ≠ second → slots fd = before fd)
    : ∃ middle after,
        kernel.call pid (.close first) = some (.ok (), middle)
        ∧ middle.call pid (.close second) = some (.ok (), after)
        ∧ start.Workspace pid before count files after := by
  obtain ⟨middle, firstClose, workspace⟩ := workspace.close first firstHeld
  obtain ⟨after, secondClose, workspace⟩ := workspace.close second
    (by rwa [Function.update_of_ne apart.symm])
  have restored : update (update slots first none) second none = before := by
    funext fd
    simp only [Function.update_apply]
    split
    · next same => rw [same, secondFree]
    · next notSecond =>
        split
        · next same => rw [same, firstFree]
        · next notFirst => exact others fd notFirst notSecond
  rw [restored] at workspace
  exact ⟨middle, after, firstClose, secondClose, workspace⟩

-----------------------------------------------------------------------------------------
-- Reading and writing
-----------------------------------------------------------------------------------------

theorem moved (workspace : start.Workspace pid slots count files kernel) {handle : Handle}
    (held : slots fd = some handle) (next : Handle) (others : FileSystem)
    : start.Workspace pid (update slots fd (some next)) count others
        ({ kernel with files := others }.setFds pid ((kernel.fds pid).set fd next)) := by
  rw [← workspace.get?] at held
  have get? : ((kernel.fds pid).set fd next).get? = update slots fd (some next) := by
    funext other
    rw [Descriptors.get?_set held, Function.update_apply, workspace.get?]
  have size : ((kernel.fds pid).set fd next).size = count := by
    rw [Descriptors.size_set held, workspace.size]
  have streams : Descriptors.firstFile ≤ ((kernel.fds pid).set fd next).slots.length := by
    rw [Descriptors.length_set]
    exact workspace.streams
  have middle := workspace.changed others streams (Descriptors.limit_set ..)
  rw [get?, size] at middle
  exact middle

/-- A read gives what follows the offset, which moves on by that much. -/
theorem read (workspace : start.Workspace pid slots count files kernel) {offset : Nat}
    (held : slots fd = some (.file inode offset)) (room : Nat)
    : ∃ after,
        kernel.call pid (.read fd room)
          = some (.ok (.of (slice offset room (files.data inode))), after)
        ∧ start.Workspace pid
            (update slots fd
              (some (.file inode (offset + (slice offset room (files.data inode)).length))))
            count files after := by
  have middle := workspace.moved held
    (.file inode (offset + (slice offset room (files.data inode)).length)) files
  rw [← workspace.get?] at held
  have done : kernel.read pid fd room
      = (.ok (.of (slice offset room (files.data inode))), { kernel with files }.setFds pid
          ((kernel.fds pid).set fd
            (.file inode (offset + (slice offset room (files.data inode)).length)))) := by
    rw [← workspace.files]
    exact read_of_file held room
  exact replied (congrArg some done) middle

/-- A write puts its bytes at the offset, which moves on by that much. -/
theorem write (workspace : start.Workspace pid slots count files kernel) {offset : Nat}
    (held : slots fd = some (.file inode offset)) (bytes : Bytes)
    : ∃ after,
        kernel.call pid (.write fd bytes) = some (.ok bytes.length, after)
        ∧ start.Workspace pid (update slots fd (some (.file inode (offset + bytes.length)))) count
            (files.setData inode (overlay offset bytes (files.data inode))) after := by
  have middle := workspace.moved held (.file inode (offset + bytes.length))
    (files.setData inode (overlay offset bytes (files.data inode)))
  rw [← workspace.get?] at held
  have done : kernel.write pid fd bytes
      = (.ok bytes.length,
          { kernel with
            files := files.setData inode (overlay offset bytes (files.data inode)) }.setFds pid
              ((kernel.fds pid).set fd (.file inode (offset + bytes.length)))) := by
    rw [← workspace.files]
    exact write_of_file held bytes
  exact replied (congrArg some done) middle

/-- What is printed goes to the console alone. -/
theorem print (workspace : start.Workspace pid slots count files kernel) (fd : Fd)
    (held : slots fd = some .stdout) (bytes : Bytes)
    : ∃ after,
        kernel.call pid (.write fd bytes) = some (.ok bytes.length, after)
        ∧ start.Workspace pid slots count files after := by
  obtain ⟨elsewhere, same, get?, size, streams, limit⟩ := workspace
  rw [← get?] at held
  exact replied (congrArg some (write_of_stdout held bytes))
    ⟨.trans elsewhere ⟨rfl, rfl, rfl, fun _ _ => rfl⟩, same, get?, size, streams, limit⟩

-----------------------------------------------------------------------------------------
-- Removing
-----------------------------------------------------------------------------------------

/-- A removal succeeds or fails as the files say. -/
theorem unlink (workspace : start.Workspace pid slots count files kernel) (name : String)
    : ∃ reply after,
        kernel.call pid (.unlink name) = some (reply, after)
        ∧ start.Workspace pid slots count
            (match files.remove name with
              | .ok removed => removed
              | .error _ => files)
            after := by
  obtain ⟨elsewhere, rfl, get?, size, streams, limit⟩ := workspace
  rcases removed : kernel.files.remove name with error | others
  · have done := unlink_of_missing removed
    obtain ⟨after, called, workspace⟩ := replied (c := .unlink name) (congrArg some done)
      ⟨elsewhere, rfl, get?, size, streams, limit⟩
    exact ⟨_, after, called, workspace⟩
  · have done := unlink_of_removed removed
    obtain ⟨after, called, workspace⟩ := replied (c := .unlink name) (congrArg some done)
      ⟨.trans elsewhere ⟨rfl, rfl, rfl, fun _ _ => rfl⟩, rfl, get?, size, streams, limit⟩
    exact ⟨_, after, called, workspace⟩

end Workspace

end Kernel

end KernelConformance
