import KernelConformance.Proofs.Files.AdmittedNames
import KernelConformance.Proofs.Programs.Workspaces
import KernelConformance.Proofs.Suite.RecurrenceCalls
import KernelConformance.Proofs.Text.Records

/-! The files of a recurrence while a process is by itself: each step of a round does to its two
files what a round in memory does to its two numbers, and leaves every other file alone.
-/

namespace KernelConformance

open Function (update)
open Utf8 (Bytes)

-----------------------------------------------------------------------------------------
-- Files other than those of a pair
-----------------------------------------------------------------------------------------

namespace FilePair

/-- Files that differ from earlier ones in those of a pair alone. A name of the pair leads to the
inode that it had, or to one that is new.
-/
structure Spares (pair : FilePair) (start files : FileSystem) : Prop where
  accepts : files.acceptsName = start.acceptsName
  next_le : start.next.index ≤ files.next.index
  distinct : files.Distinct
  names : ∀ name, ¬pair.Names name → files.names.get? name = start.names.get? name
  owned
    : ∀ name inode,
        pair.Names name
        → files.names.get? name = some inode
        → start.names.get? name = some inode ∨ start.next.index ≤ inode.index
  data
    : ∀ inode,
        inode.index < start.next.index
        → (∀ name, pair.Names name → start.names.get? name ≠ some inode)
        → files.data inode = start.data inode

namespace Spares

variable {pair : FilePair} {start files after : FileSystem} {name : String} {inode : Inode}

theorem refl (pair : FilePair) (distinct : start.Distinct) : pair.Spares start start :=
  ⟨rfl, Nat.le_refl _, distinct, fun _ _ => rfl, fun _ _ _ named => .inl named, fun _ _ _ => rfl⟩

/-- The bytes of a file of the pair are no other file's. -/
theorem setData (spares : pair.Spares start files) (own : pair.Names name)
    (named : files.names.get? name = some inode) (bytes : Bytes)
    : pair.Spares start (files.setData inode bytes) where
  accepts := spares.accepts
  next_le := spares.next_le
  distinct := ⟨spares.distinct.taken, spares.distinct.injective⟩
  names := spares.names
  owned := spares.owned
  data other old foreign := by
    have different : other ≠ inode := by
      rintro rfl
      rcases spares.owned name other own named with before | new
      · exact foreign name own before
      · exact Nat.not_le_of_lt old new
    rw [FileSystem.data_setData, if_neg different]
    exact spares.data other old foreign

/-- A file of the pair that is made gets a new inode, or loses its bytes. -/
theorem create (spares : pair.Spares start files) (own : pair.Names name)
    (created : files.create name = .ok (inode, after))
    : pair.Spares start after := by
  obtain ⟨-, ⟨unnamed, rfl, rfl⟩ | ⟨named, rfl⟩⟩ := FileSystem.create_cases created
  · have grown : files.next.index ≤ (files.bind name []).2.next.index := Nat.le_succ _
    refine ⟨spares.accepts, Nat.le_trans spares.next_le grown, ?_, ?_, ?_, ?_⟩
    · exact spares.distinct.step (.bind unnamed : files.Step (fun _ => .initial 0) _ _)
    · intro other foreign
      have different : other ≠ name := fun same => foreign (same ▸ own)
      rw [FileSystem.names_bind, if_neg different]
      exact spares.names other foreign
    · intro other inode owns named
      rw [FileSystem.names_bind] at named
      split at named
      · cases named
        exact .inr spares.next_le
      · exact spares.owned other inode owns named
    · intro other old foreign
      have different : other ≠ files.next := by
        rintro rfl
        exact Nat.not_le_of_lt old spares.next_le
      rw [FileSystem.data_bind, if_neg different]
      exact spares.data other old foreign
  · exact spares.setData own named []

theorem unlink (spares : pair.Spares start files) (own : pair.Names name)
    : pair.Spares start { files with names := files.names.erase name } where
  accepts := spares.accepts
  next_le := spares.next_le
  distinct := spares.distinct.step (.unlink : files.Step (fun _ => .initial 0) _ _)
  names other foreign := by
    have different : other ≠ name := fun same => foreign (same ▸ own)
    rw [FiniteMap.get?_erase, if_neg different]
    exact spares.names other foreign
  owned other inode owns named := by
    rw [FiniteMap.get?_erase] at named
    split at named
    · cases named
    · exact spares.owned other inode owns named
  data := spares.data

/-- A file with another name has the contents that it had. -/
theorem contents? (spares : pair.Spares start files) (distinct : start.Distinct)
    (foreign : ¬pair.Names name)
    : files.contents? name = start.contents? name := by
  unfold FileSystem.contents?
  rw [spares.names name foreign]
  rcases named : start.names.get? name with _ | inode
  · rfl
  · refine congrArg some (spares.data inode (distinct.taken named) fun other owns otherNamed => ?_)
    exact foreign (distinct.injective named otherNamed ▸ owns)

end Spares

end FilePair

-----------------------------------------------------------------------------------------
-- One record
-----------------------------------------------------------------------------------------

theorem slice_whole {bytes : Bytes} {size : Nat} (whole : bytes.length = size)
    : slice 0 size bytes = bytes := by
  unfold slice
  rw [List.drop_zero, List.take_of_length_le (Nat.le_of_eq whole)]

/-- Bytes that are written from the start of a file replace those that were there if they
are no fewer.
-/
theorem overlay_whole {bytes data : Bytes} (short : data.length ≤ bytes.length)
    : overlay 0 bytes data = bytes := by
  unfold overlay
  simp only [Nat.zero_add, List.take_zero, List.nil_append]
  rw [List.drop_eq_nil_of_le, List.append_nil]
  simp only [List.length_append, List.length_replicate]
  omega

theorem front_whole {bytes : Bytes} {size : Nat} (whole : bytes.length = size)
    : (Delivery.of bytes).front size = bytes := by
  rw [Delivery.front, Delivery.of, List.take_of_length_le (Nat.le_of_eq whole), whole]
  simp

namespace Kernel.Workspace

variable {start kernel : Kernel} {pid : Pid} {slots : Fd → Option Handle} {count : Nat}
  {files : FileSystem} {inode : Inode} {fd : Fd} {bytes : Bytes}

/-- A read of a whole file as long as a record. -/
theorem readRecord (workspace : start.Workspace pid slots count files kernel)
    (held : slots fd = some (.file inode 0)) (stored : files.data inode = bytes)
    (whole : bytes.length = Record.width)
    : ∃ after,
        kernel.call pid (.read fd Record.width) = some (.ok (.of bytes), after)
        ∧ start.Workspace pid (update slots fd (some (.file inode Record.width))) count files
            after := by
  obtain ⟨after, read, workspace⟩ := workspace.read held Record.width
  rw [stored, slice_whole whole] at read workspace
  rw [whole, Nat.zero_add] at workspace
  exact ⟨after, read, workspace⟩

/-- A write that replaces a file by bytes as long as a record. -/
theorem writeRecord (workspace : start.Workspace pid slots count files kernel)
    (held : slots fd = some (.file inode 0)) (short : (files.data inode).length ≤ Record.width)
    (whole : bytes.length = Record.width)
    : ∃ after,
        kernel.call pid (.write fd bytes) = some (.ok Record.width, after)
        ∧ start.Workspace pid (update slots fd (some (.file inode Record.width))) count
            (files.setData inode bytes) after := by
  obtain ⟨after, written, workspace⟩ := workspace.write held bytes
  rw [overlay_whole (whole ▸ short), whole, Nat.zero_add] at workspace
  exact ⟨after, whole ▸ written, workspace⟩

end Kernel.Workspace

namespace Recurrence

variable {kernel after : Kernel} {pid : Pid} {fd : Fd} {bytes : Bytes} {value : Int32}

/-- What bytes that were read from a file are taken for. -/
def reading (name : String) (bytes : Bytes) : Except Check.Stop Int32 :=
  match Record.decode bytes with
  | .ok value => .ok value
  | .error error => .error (.violation (.failure s!"{name}: {error.message}"))

theorem reading_encode (name : String) (value : Int32)
    : reading name (Record.encode value) = .ok value := by
  rw [reading, Record.decode_encode]

/-- Reading a record, once the call is known to deliver as many bytes. -/
theorem performs_readNumber
    (read : kernel.call pid (.read fd Record.width) = some (.ok (.of bytes), after))
    (whole : bytes.length = Record.width) (name : String)
    : Kernel.Performs pid kernel (readNumber fd name).run (reading name bytes) after := by
  refine (Kernel.Performs.demand_ok _ read rfl).check_ok ?_
  refine (Kernel.Performs.require_true (decide_eq_true whole) _).check_ok ?_
  rw [front_whole whole, reading]
  rcases Record.decode bytes with error | value
  · exact .done
  · exact .done

/-- Writing a record, once the call is known to take all of it. -/
theorem performs_writeNumber
    (written : kernel.call pid (.write fd (Record.encode value)) = some (.ok Record.width, after))
    (name : String)
    : Kernel.Performs pid kernel (writeNumber fd name value).run (.ok ()) after :=
  (Kernel.Performs.demand_ok _ written rfl).check_ok (.require_true (decide_eq_true rfl) _)

end Recurrence

end KernelConformance
