import KernelConformance.Proofs.Files.TidyKernels

/-! Calls with bounds. Where a list is indexed or cut, there is no result if this goes beyond its
end. No call of a process that runs comes to that, as its table always has the slots of the streams.
-/

namespace KernelConformance

open Utf8 (Bytes)

-----------------------------------------------------------------------------------------
-- Accesses
-----------------------------------------------------------------------------------------

namespace Bounded

variable {α : Type}

/-- The first elements of a list. -/
def firsts (count : Nat) (list : List α) : Option (List α) :=
  if count ≤ list.length then some (list.take count) else none

/-- The elements of a list from an index on. -/
def lasts (index : Nat) (list : List α) : Option (List α) :=
  if index ≤ list.length then some (list.drop index) else none

/-- Puts another value at an index. -/
def replace (index : Nat) (value : α) (list : List α) : Option (List α) :=
  if index < list.length then some (list.set index value) else none

/-- Puts other values into a part of a list that is as long. -/
def overwrite (start stop : Nat) (values list : List α) : Option (List α) :=
  if start ≤ stop ∧ stop ≤ list.length ∧ values.length = stop - start then
    some (list.take start ++ values ++ list.drop stop)
  else none

/-- Reads into a buffer from an offset on: the number of bytes and the buffer after it. -/
def readAt (offset : Nat) (buffer data : Bytes) : Option (Nat × Bytes) :=
  match lasts offset data with
  | none => some (0, buffer)
  | some available => do
      let count := min available.length buffer.length
      let filled ← overwrite 0 count (← firsts count available) buffer
      pure (count, filled)

/-- Writes at an offset, after the data has grown as far as it has to. -/
def writeAt (offset : Nat) (bytes data : Bytes) : Option Bytes :=
  let stop := offset + bytes.length
  let grown := if data.length < stop then data ++ List.replicate (stop - data.length) 0 else data
  overwrite offset stop bytes grown

variable {list : List α} {index count start stop : Nat}

theorem firsts_eq (inside : count ≤ list.length) : firsts count list = some (list.take count) :=
  if_pos inside

theorem lasts_eq (inside : index ≤ list.length) : lasts index list = some (list.drop index) :=
  if_pos inside

theorem replace_eq (value : α) (inside : index < list.length)
    : replace index value list = some (list.set index value) :=
  if_pos inside

theorem overwrite_eq {values : List α} (order : start ≤ stop) (inside : stop ≤ list.length)
    (length : values.length = stop - start)
    : overwrite start stop values list = some (list.take start ++ values ++ list.drop stop) :=
  if_pos ⟨order, inside, length⟩

/-- What is read are the bytes of the slice, and the buffer keeps what is behind them. -/
theorem readAt_eq (offset : Nat) (buffer data : Bytes)
    : readAt offset buffer data
      = some ((slice offset buffer.length data).length,
          slice offset buffer.length data
            ++ buffer.drop (slice offset buffer.length data).length) := by
  by_cases inside : offset ≤ data.length
  · have part
        : (data.drop offset).take (min (data.drop offset).length buffer.length)
          = slice offset buffer.length data := by
      rw [slice, Nat.min_comm, ← List.take_take, List.take_length]
    have length
        : (slice offset buffer.length data).length
          = min (data.drop offset).length buffer.length := by
      rw [slice, List.length_take, Nat.min_comm]
    rw [readAt, lasts_eq inside]
    dsimp only
    rw [firsts_eq (Nat.min_le_left ..), part, Option.bind_eq_bind, Option.bind_some,
      overwrite_eq (Nat.zero_le _) (Nat.min_le_right ..) length, ← length]
    rfl
  · have nothing : data.drop offset = [] := List.drop_eq_nil_of_le (by omega)
    have outside : lasts offset data = none := if_neg inside
    rw [readAt, outside, slice, nothing]
    simp

/-- What is written is laid over the data, whatever its offset is. -/
theorem writeAt_eq (offset : Nat) (bytes data : Bytes)
    : writeAt offset bytes data = some (overlay offset bytes data) := by
  have grown
      : (if data.length < offset + bytes.length then
          data ++ List.replicate (offset + bytes.length - data.length) 0
        else data)
        = data ++ List.replicate (offset + bytes.length - data.length) 0 := by
    split
    · rfl
    · next short => simp [Nat.sub_eq_zero_of_le (Nat.le_of_not_lt short)]
  rw [writeAt, grown, overwrite_eq (Nat.le_add_right ..) (by simp; omega) (by omega), overlay]

end Bounded

-----------------------------------------------------------------------------------------
-- Calls
-----------------------------------------------------------------------------------------

/-- Puts a handle at the lowest free descriptor. -/
def Descriptors.boundedInsert (handle : Handle) (table : Descriptors)
    : Option (Except Errno (Fd × Descriptors)) :=
  if table.isExhausted then some (.error .tooManyOpenFiles)
  else do
    let files ← Bounded.lasts firstFile table.slots
    match files.findIdx? Option.isNone with
    | some index =>
        let slots ← Bounded.replace (index + firstFile) (some handle) table.slots
        pure (.ok (⟨index + firstFile⟩, { table with slots }))
    | none =>
        let slots := table.slots ++ [some handle]
        pure (.ok (⟨slots.length - 1⟩, { table with slots }))

theorem Descriptors.boundedInsert_eq {table : Descriptors}
    (streams : firstFile ≤ table.slots.length) (handle : Handle)
    : table.boundedInsert handle = some (table.insert handle) := by
  rw [boundedInsert, insert]
  split
  · rfl
  · rw [Bounded.lasts_eq streams, Option.bind_eq_bind, Option.bind_some, lowestFree]
    rcases found : (table.slots.drop firstFile).findIdx? Option.isNone with _ | index
    · have last := List.findIdx?_eq_none_iff_findIdx_eq.mp found
      rw [List.length_drop] at last
      have outside
          : firstFile + (table.slots.drop firstFile).findIdx Option.isNone
            = table.slots.length := by
        omega
      simp [outside]
    · obtain ⟨inside, first⟩ := List.findIdx?_eq_some_iff_findIdx_eq.mp found
      rw [List.length_drop] at inside
      have within : firstFile + index < table.slots.length := by omega
      simp only [first, within, if_true]
      rw [Nat.add_comm index, Bounded.replace_eq _ within]
      rfl

namespace Kernel

/-- Opens the file of an inode. -/
def boundedAddFile (pid : Pid) (inode : Inode) (kernel : Kernel)
    : Option (Except Errno Fd × Kernel) := do
  match ← (kernel.fds pid).boundedInsert (.file inode 0) with
  | .error error => pure (.error error, kernel)
  | .ok (fd, fds) => pure (.ok fd, kernel.setFds pid fds)

/-- Creates or empties a file and opens it. -/
def boundedCreat (pid : Pid) (name : String) (kernel : Kernel)
    : Option (Except Errno Fd × Kernel) :=
  if (kernel.fds pid).isExhausted then some (.error .tooManyOpenFiles, kernel)
  else
    match kernel.files.create name with
    | .error error => some (.error error, kernel)
    | .ok (inode, files) => { kernel with files }.boundedAddFile pid inode

/-- Opens a file that exists. -/
def boundedOpenFile (pid : Pid) (name : String) (kernel : Kernel)
    : Option (Except Errno Fd × Kernel) :=
  if (kernel.fds pid).isExhausted then some (.error .tooManyOpenFiles, kernel)
  else
    match kernel.files.find name with
    | .error error => some (.error error, kernel)
    | .ok inode => kernel.boundedAddFile pid inode

/-- Reads into a buffer of zeros. -/
def boundedRead (pid : Pid) (fd : Fd) (room : Nat) (kernel : Kernel)
    : Option (Except Errno Delivery × Kernel) :=
  let fds := kernel.fds pid
  match fds.get? fd with
  | none | some .stdout => some (.error .badDescriptor, kernel)
  | some .stdin => some (.ok (.of []), kernel)
  | some (.file inode offset) => do
      let (count, buffer) ←
        Bounded.readAt offset (List.replicate room 0) (kernel.files.data inode)
      pure (.ok ⟨count, buffer.take count⟩,
        kernel.setFds pid (fds.set fd (.file inode (offset + count))))

/-- Writes to the console, or to a file at the offset. -/
def boundedWrite (pid : Pid) (fd : Fd) (bytes : Bytes) (kernel : Kernel)
    : Option (Except Errno Nat × Kernel) :=
  let fds := kernel.fds pid
  match fds.get? fd with
  | none | some .stdin => some (.error .badDescriptor, kernel)
  | some .stdout => some (.ok bytes.length, kernel.print bytes)
  | some (.file inode offset) => do
      let data ← Bounded.writeAt offset bytes (kernel.files.data inode)
      let written := { kernel with files := kernel.files.setData inode data }
      pure (.ok bytes.length,
        written.setFds pid (fds.set fd (.file inode (offset + bytes.length))))

/-- The effect and the reply of a call. -/
def boundedPerform (pid : Pid) (kernel : Kernel)
    : (call : Syscall) → Option (Option (call.Reply × Kernel))
  | .creat name => (kernel.boundedCreat pid name).map some
  | .openFile name => (kernel.boundedOpenFile pid name).map some
  | .read fd room => (kernel.boundedRead pid fd room).map some
  | .write fd bytes => (kernel.boundedWrite pid fd bytes).map some
  | call => some (kernel.perform pid call)

variable {config : Config} {deeds : List Deed} {kernel : Kernel} {pid : Pid}

theorem boundedAddFile_eq (streams : Descriptors.firstFile ≤ (kernel.fds pid).slots.length)
    (inode : Inode)
    : kernel.boundedAddFile pid inode = some (kernel.addFile pid inode) := by
  rw [boundedAddFile, addFile, Descriptors.boundedInsert_eq streams, Option.bind_eq_bind,
    Option.bind_some]
  cases (kernel.fds pid).insert (.file inode 0) <;> rfl

/-- No access is out of bounds in a call of a process whose table has the slots of the streams, by
cases on the call.
-/
theorem boundedPerform_eq (streams : Descriptors.firstFile ≤ (kernel.fds pid).slots.length)
    (c : Syscall)
    : kernel.boundedPerform pid c = some (kernel.perform pid c) := by
  cases c with
  | creat name =>
      rw [boundedPerform, perform, boundedCreat, creat]
      split
      · rfl
      · rcases kernel.files.create name with error | ⟨inode, files⟩
        · rfl
        · dsimp only
          rw [boundedAddFile_eq]
          · rfl
          · exact streams
  | openFile name =>
      rw [boundedPerform, perform, boundedOpenFile, openFile]
      split
      · rfl
      · rcases kernel.files.find name with error | inode
        · rfl
        · dsimp only
          rw [boundedAddFile_eq streams]
          rfl
  | read fd room =>
      rw [boundedPerform, perform, boundedRead, read]
      dsimp only
      rcases (kernel.fds pid).get? fd with _ | _ | _ | ⟨inode, offset⟩
      · rfl
      · rfl
      · rfl
      · dsimp only
        rw [Bounded.readAt_eq, List.length_replicate, Option.bind_eq_bind, Option.bind_some,
          List.take_left]
        rfl
  | write fd bytes =>
      rw [boundedPerform, perform, boundedWrite, write]
      dsimp only
      rcases (kernel.fds pid).get? fd with _ | _ | _ | ⟨inode, offset⟩
      · rfl
      · rfl
      · rfl
      · dsimp only
        rw [Bounded.writeAt_eq]
        rfl
  | _ => rfl

/-- No access is out of bounds in a call of a process that runs. -/
theorem Run.boundedPerform (run : Run config deeds kernel)
    (runs : kernel.processes.isRunning pid = true) (c : Syscall)
    : kernel.boundedPerform pid c = some (kernel.perform pid c) :=
  boundedPerform_eq (run.tidy.streams pid runs) c

end Kernel

end KernelConformance
