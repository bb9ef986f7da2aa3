import KernelConformance.Proofs.Files.BoundedCalls
import KernelConformance.Proofs.Files.Chunking

/-! Offsets in the words of a machine. A descriptor can stand behind the end of its file when the
file has been emptied, but never behind the greatest length that the file has had. So no sum with an
offset exceeds a word as long as no list in memory is longer than half of one.
-/

namespace KernelConformance

open Utf8 (Bytes)

-----------------------------------------------------------------------------------------
-- Sums in a word
-----------------------------------------------------------------------------------------

namespace Word

/-- How many numbers a word has. -/
def limit : Nat := 18446744073709551616

/-- The greatest length that a list in memory can have. -/
def maxLength : Nat := 9223372036854775807

/-- The sum of two words, if it is one. -/
def add (left right : Nat) : Option Nat :=
  if left + right < limit then some (left + right) else none

theorem add_eq {left right : Nat} (fits : left + right < limit)
    : add left right = some (left + right) :=
  if_pos fits

/-- What is no longer than a list in memory can be added to what is no longer than one. -/
theorem fits_of_le {left right : Nat} (short : left ≤ maxLength) (shortToo : right ≤ maxLength)
    : left + right < limit := by
  unfold maxLength at short shortToo
  unfold limit
  omega

end Word

/-- Writes at an offset as `Bounded.writeAt` does, if the end of what is written is a word. -/
def Bounded.wordWriteAt (offset : Nat) (bytes data : Bytes) : Option Bytes := do
  let stop ← Word.add offset bytes.length
  let grown := if data.length < stop then data ++ List.replicate (stop - data.length) 0 else data
  overwrite offset stop bytes grown

theorem Bounded.wordWriteAt_eq {offset : Nat} {bytes : Bytes}
    (fits : offset + bytes.length < Word.limit) (data : Bytes)
    : wordWriteAt offset bytes data = some (overlay offset bytes data) := by
  rw [wordWriteAt, Word.add_eq fits, ← writeAt_eq]
  rfl

namespace Kernel

/-- Reads into a buffer of zeros, with the bounds of lists and of words. -/
def wordRead (pid : Pid) (fd : Fd) (room : Nat) (kernel : Kernel)
    : Option (Except Errno Delivery × Kernel) :=
  let fds := kernel.fds pid
  match fds.get? fd with
  | none | some .stdout => some (.error .badDescriptor, kernel)
  | some .stdin => some (.ok (.of []), kernel)
  | some (.file inode offset) => do
      let (count, buffer) ←
        Bounded.readAt offset (List.replicate room 0) (kernel.files.data inode)
      let moved ← Word.add offset count
      pure (.ok ⟨count, buffer.take count⟩, kernel.setFds pid (fds.set fd (.file inode moved)))

/-- Writes to the console, or to a file at the offset, with the bounds of lists and of words. -/
def wordWrite (pid : Pid) (fd : Fd) (bytes : Bytes) (kernel : Kernel)
    : Option (Except Errno Nat × Kernel) :=
  let fds := kernel.fds pid
  match fds.get? fd with
  | none | some .stdin => some (.error .badDescriptor, kernel)
  | some .stdout => some (.ok bytes.length, kernel.print bytes)
  | some (.file inode offset) => do
      let data ← Bounded.wordWriteAt offset bytes (kernel.files.data inode)
      let moved ← Word.add offset bytes.length
      let written := { kernel with files := kernel.files.setData inode data }
      pure (.ok bytes.length, written.setFds pid (fds.set fd (.file inode moved)))

/-- The greatest lengths of all inodes, after their bytes have changed. -/
def raised (files : FileSystem) (peak : Inode → Nat) (inode : Inode) : Nat :=
  max (peak inode) (files.data inode).length

/-- Deeds one after the other, with the greatest length that each inode has had before
and after them.
-/
inductive Peaks : Kernel → (Inode → Nat) → List Deed → Kernel → (Inode → Nat) → Prop where
  | nil {kernel peak} : Peaks kernel peak [] kernel peak
  | cons {kernel peak deed middle deeds after last} (step : kernel.Step deed middle)
    (rest : Peaks middle (raised middle.files peak) deeds after last)
    : Peaks kernel peak (deed :: deeds) after last

variable {config : Config} {deeds : List Deed} {kernel after : Kernel} {deed : Deed} {pid : Pid}
  {fd : Fd} {inode : Inode} {offset : Nat} {peak last : Inode → Nat}

theorem wordRead_eq {room : Nat} (held : (kernel.fds pid).get? fd = some (.file inode offset))
    (fits : offset + (slice offset room (kernel.files.data inode)).length < Word.limit)
    : kernel.wordRead pid fd room = some (kernel.read pid fd room) := by
  rw [wordRead, read]
  simp only [held]
  rw [Bounded.readAt_eq, List.length_replicate, Option.bind_eq_bind, Option.bind_some,
    Word.add_eq fits, List.take_left]
  rfl

theorem wordWrite_eq {bytes : Bytes} (held : (kernel.fds pid).get? fd = some (.file inode offset))
    (fits : offset + bytes.length < Word.limit)
    : kernel.wordWrite pid fd bytes = some (kernel.write pid fd bytes) := by
  rw [wordWrite, write]
  simp only [held]
  rw [Bounded.wordWriteAt_eq fits, Option.bind_eq_bind, Option.bind_some, Word.add_eq fits]
  rfl

-----------------------------------------------------------------------------------------
-- Offsets and lengths
-----------------------------------------------------------------------------------------

/-- A descriptor of a file after an event is one that was opened, or it stood before the event where
it has been moved from.
-/
theorem FdStep.held_cases {files : FileSystem} {event : Option (Pid × FdEvent)}
    {fds : Pid → Descriptors} (step : kernel.FdStep files event fds) (streams : kernel.HasStreams)
    (held : (fds pid).get? fd = some (.file inode offset))
    : offset = 0
      ∨ ∃ start,
          (kernel.fds pid).get? fd = some (.file inode start)
          ∧ offset = start + distance pid fd event := by
  have table := step.table pid
  generalize fds pid = own at table held
  cases table with
  | elsewhere other => exact .inr ⟨offset, held, by rw [distance_elsewhere other, Nat.add_zero]⟩
  | start => rcases Descriptors.get?_initial held with ⟨-, stream⟩ | ⟨-, stream⟩ <;> cases stream
  | finish => simp [Descriptors.get?] at held
  | opened runs _ _ inserted =>
      rw [(Descriptors.inserted_of_insert (streams pid runs) inserted).get? fd] at held
      split at held
      · cases held
        exact .inl rfl
      · exact .inr ⟨offset, held, rfl⟩
  | @moved moved _ start count _ before =>
      rw [Descriptors.get?_set before] at held
      split at held
      · next same =>
          cases held
          exact .inr ⟨start, same ▸ before, by simp [distance, same]⟩
      · next other => exact .inr ⟨offset, held, by simp [distance, Ne.symm other]⟩
  | @streamed moved count handle _ before stream =>
      refine .inr ⟨offset, held, ?_⟩
      by_cases same : moved = fd
      · subst same
        cases held.symm.trans before
        have still : offset + count = offset := (Handle.file.inj stream).2
        simpa [distance] using still.symm
      · simp [distance, same]
  | closed _ erased =>
      rw [(Descriptors.erased_of_erase erased).get?] at held
      split at held
      · cases held
      · exact .inr ⟨offset, held, rfl⟩

theorem Peaks.steps (peaks : Peaks kernel peak deeds after last) : Steps kernel deeds after := by
  induction peaks with
  | nil => exact .nil
  | cons step _ ih => exact .cons step ih

theorem Steps.exists_peaks (steps : Steps kernel deeds after) (peak : Inode → Nat)
    : ∃ last, Peaks kernel peak deeds after last := by
  induction steps generalizing peak with
  | nil => exact ⟨peak, .nil⟩
  | cons step _ ih =>
      obtain ⟨last, peaks⟩ := ih (raised _ peak)
      exact ⟨last, .cons step peaks⟩

/-- Whether no file is longer, and no descriptor stands farther in its file, than
the greatest lengths.
-/
structure Below (kernel : Kernel) (peak : Inode → Nat) : Prop where
  length : ∀ inode, (kernel.files.data inode).length ≤ peak inode
  offset
    : ∀ {pid fd inode offset},
        (kernel.fds pid).get? fd = some (.file inode offset) → offset ≤ peak inode

theorem below_boot (config : Config) : (boot config).Below fun _ => 0 := by
  constructor
  · intro inode
    exact Nat.le_refl 0
  · intro pid fd inode offset held
    simp [Kernel.fds, Kernel.context, Kernel.boot, Descriptors.get?] at held

/-- A write moves its descriptor to where the file now reaches at least, and a read does not move it
behind the end.
-/
theorem Below.step (below : kernel.Below peak) (run : Run config deeds kernel)
    (step : kernel.Step deed after)
    : after.Below (raised after.files peak) := by
  constructor
  · intro inode
    exact Nat.le_max_right _ _
  · intro pid fd inode offset held
    rcases (step.fds run.rooted).held_cases run.tidy.streams held with rfl | ⟨start, before, rfl⟩
    · exact Nat.zero_le _
    have bounded := below.offset before
    have length := below.length inode
    rw [raised]
    rcases step.uses_cases before with ⟨bytes, rfl⟩ | ⟨room, rfl⟩ | unused
    · rw [distance_write, step.data_of_write before, length_overlay]
      omega
    · have short := length_slice start room (kernel.files.data inode)
      rw [distance_read]
      omega
    · obtain ⟨-, -, -, still⟩ := Deed.idle_of_not_uses unused
      rw [still]
      omega

theorem Below.steps (below : kernel.Below peak) (run : Run config deeds kernel) {more : List Deed}
    (peaks : Peaks kernel peak more after last)
    : after.Below last := by
  induction peaks generalizing deeds with
  | nil => exact below
  | cons step _ ih => exact ih (below.step run step) (run.step step)

/-- What comes of an offset in a file whose greatest length is known: it is no greater, and if the
file was never too long for memory, then no read and no write of a buffer that is not too long
exceeds a word or goes beyond the end of a list.
-/
structure Contained (kernel : Kernel) (pid : Pid) (fd : Fd) (inode : Inode) (offset peak : Nat)
    : Prop where
  bounded : offset ≤ peak
  reads
    : peak ≤ Word.maxLength
      → ∀ room,
          offset + (slice offset room (kernel.files.data inode)).length < Word.limit
          ∧ kernel.wordRead pid fd room = some (kernel.read pid fd room)
  writes
    : peak ≤ Word.maxLength
      → ∀ bytes : Bytes,
          bytes.length ≤ Word.maxLength
          → offset + bytes.length < Word.limit
            ∧ kernel.wordWrite pid fd bytes = some (kernel.write pid fd bytes)

/-- No offset is greater than the greatest length that its file has had, whatever was done to the
file, and so no sum with an offset exceeds a word.
-/
theorem Run.offsets_contained (run : Run config deeds kernel)
    : (∃ peak, Peaks (.boot config) (fun _ => 0) deeds kernel peak)
      ∧ ∀ peak,
          Peaks (.boot config) (fun _ => 0) deeds kernel peak
          → ∀ pid fd inode offset,
              (kernel.fds pid).get? fd = some (.file inode offset)
              → kernel.Contained pid fd inode offset (peak inode) := by
  obtain ⟨_, logged⟩ := run.exists_log
  refine ⟨logged.steps.exists_peaks _, fun peak peaks pid fd inode offset held => ?_⟩
  have below := (below_boot config).steps .boot peaks
  have bounded := below.offset held
  constructor
  · exact bounded
  · intro small room
    have fits : offset + (slice offset room (kernel.files.data inode)).length < Word.limit := by
      have length := below.length inode
      have short := length_slice offset room (kernel.files.data inode)
      exact Word.fits_of_le (Nat.le_trans bounded small) (by omega)
    exact ⟨fits, wordRead_eq held fits⟩
  · intro small bytes short
    have fits := Word.fits_of_le (Nat.le_trans bounded small) short
    exact ⟨fits, wordWrite_eq held fits⟩

/-- The deeds of a process that reads a file and then creates it anew. -/
def strandedDeeds : List Deed :=
  [
    .install "a" [1, 2, 3] (.ok ()),
    .register "p",
    .spawn "p" [] (.ok (.ofNat 1)),
    .call (.ofNat 1) (.openFile "a") (some (.ok ⟨2⟩)),
    .call (.ofNat 1) (.read ⟨2⟩ 2) (some (.ok (.of [1, 2]))),
    .call (.ofNat 1) (.creat "a") (some (.ok ⟨3⟩))
  ]

/-- The first descriptor stands behind the end of the file, which is empty, but not behind the
length that the file had before.
-/
theorem offsets_contained_stranded
    : ∃ kernel peak,
        Peaks (.boot .standard) (fun _ => 0) strandedDeeds kernel peak
        ∧ (kernel.fds (.ofNat 1)).get? ⟨2⟩ = some (.file ⟨0⟩ 2)
        ∧ kernel.files.data ⟨0⟩ = []
        ∧ peak ⟨0⟩ = 3
        ∧ kernel.wordWrite (.ofNat 1) ⟨2⟩ [7] = some (kernel.write (.ofNat 1) ⟨2⟩ [7]) := by
  obtain ⟨kernel, peak, peaks, held, data, highest⟩
      : ∃ kernel peak,
          Peaks (.boot .standard) (fun _ => 0) strandedDeeds kernel peak
          ∧ (kernel.fds (.ofNat 1)).get? ⟨2⟩ = some (.file ⟨0⟩ 2)
          ∧ kernel.files.data ⟨0⟩ = []
          ∧ peak ⟨0⟩ = 3 :=
    ⟨_, _,
      .cons (.install rfl) <| .cons (.register "p") <| .cons (.spawn rfl)
      <| .cons (.call rfl rfl) <| .cons (.call rfl rfl) <| .cons (.call rfl rfl) .nil,
      rfl, rfl, rfl⟩
  have run : Run .standard strandedDeeds kernel := .extend .boot peaks.steps
  have contained := run.offsets_contained.2 peak peaks _ _ _ _ held
  rw [highest] at contained
  have written := contained.writes (by decide) [7] (by decide)
  exact ⟨kernel, peak, peaks, held, data, highest, written.2⟩

end Kernel

end KernelConformance
