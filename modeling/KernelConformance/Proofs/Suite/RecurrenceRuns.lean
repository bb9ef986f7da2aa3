import KernelConformance.Proofs.Suite.RecurrenceFiles

/-! The rounds of a recurrence whose state is in files. With room for two files they are the rounds
in memory, for any number of rounds, and leave the descriptors of the process as they were.
-/

namespace KernelConformance

open Function (update)
open Utf8 (Bytes)

namespace FilePair

/-- The files of a pair hold the two numbers of a state. -/
structure Holds (pair : FilePair) (files : FileSystem) (first second : Inode)
    (state : Int32 × Int32)
    : Prop where
  firstNamed : files.names.get? pair.first = some first
  secondNamed : files.names.get? pair.second = some second
  apart : first ≠ second
  firstData : files.data first = Record.encode state.1
  secondData : files.data second = Record.encode state.2

/-- The files of a pair store some bytes, which are as long as records but need not be any. -/
structure Stores (pair : FilePair) (files : FileSystem) (first second : Inode)
    (bytes : Bytes × Bytes)
    : Prop where
  firstNamed : files.names.get? pair.first = some first
  secondNamed : files.names.get? pair.second = some second
  apart : first ≠ second
  firstData : files.data first = bytes.1
  secondData : files.data second = bytes.2
  firstWhole : bytes.1.length = Record.width
  secondWhole : bytes.2.length = Record.width

variable {pair : FilePair} {files : FileSystem} {first second : Inode} {state : Int32 × Int32}

/-- Files hold numbers by storing their records. -/
theorem holds_iff_stores
    : pair.Holds files first second state
      ↔ pair.Stores files first second (Record.encode state.1, Record.encode state.2) where
  mp holds :=
    ⟨holds.firstNamed, holds.secondNamed, holds.apart, holds.firstData, holds.secondData,
      Record.length_encode _, Record.length_encode _⟩
  mpr stores :=
    ⟨stores.firstNamed, stores.secondNamed, stores.apart, stores.firstData, stores.secondData⟩

/-- Files that have been made one after the other store what each of them was made with. -/
theorem stores_of_made {made : FileSystem} {bytes : Bytes × Bytes}
    (different : pair.first ≠ pair.second) (distinct : files.Distinct)
    (firstNamed : made.names.get? pair.first = some first) (firstData : made.data first = bytes.1)
    (secondNamed : files.names.get? pair.second = some second)
    (secondData : files.data second = bytes.2)
    (names : ∀ other, other ≠ pair.second → files.names.get? other = made.names.get? other)
    (data : ∀ other, other ≠ second → files.data other = made.data other)
    (firstWhole : bytes.1.length = Record.width) (secondWhole : bytes.2.length = Record.width)
    : pair.Stores files first second bytes := by
  rw [← names pair.first different] at firstNamed
  have apart : first ≠ second := by
    rintro rfl
    exact different (distinct.injective firstNamed secondNamed)
  rw [← data first apart] at firstData
  exact ⟨firstNamed, secondNamed, apart, firstData, secondData, firstWhole, secondWhole⟩

end FilePair

namespace Recurrence

variable {start kernel : Kernel} {pid : Pid} {slots : Fd → Option Handle} {count : Nat}
  {files : FileSystem} {pair : FilePair} {state : Int32 × Int32}

-----------------------------------------------------------------------------------------
-- The calls of a step
-----------------------------------------------------------------------------------------

/-- A pair of different names that files can have, and room for two files in the
table of a process.
-/
structure Usable (start : Kernel) (count : Nat) (pair : FilePair) : Prop where
  different : pair.first ≠ pair.second
  accepted : ∀ name, pair.Names name → start.files.acceptsName name = true
  room : count + 2 ≤ start.config.maxOpenFiles

/-- A process between two steps: it has no descriptors more than at the start, and of the files only
those of its pair differ.
-/
structure Between (start : Kernel) (pid : Pid) (slots : Fd → Option Handle) (count : Nat)
    (pair : FilePair) (files : FileSystem) (kernel : Kernel)
    : Prop where
  workspace : start.Workspace pid slots count files kernel
  spares : pair.Spares start.files files

theorem Between.accepted (between : Between start pid slots count pair files kernel)
    (usable : Usable start count pair) {name : String} (own : pair.Names name)
    : files.acceptsName name = true := by
  rw [between.spares.accepts]
  exact usable.accepted name own

/-- Making a file with the bytes of a record takes three calls, for which there must be room. -/
theorem Between.make (between : Between start pid slots count pair files kernel)
    (room : count < start.config.maxOpenFiles) {name : String} (own : pair.Names name)
    (accepted : files.acceptsName name = true) {bytes : Bytes}
    (whole : bytes.length = Record.width)
    : ∃ fd k₁ k₂ after inode made,
        kernel.call pid (.creat name) = some (.ok fd, k₁)
        ∧ k₁.call pid (.write fd bytes) = some (.ok Record.width, k₂)
        ∧ k₂.call pid (.close fd) = some (.ok (), after)
        ∧ Between start pid slots count pair made after
        ∧ made.names.get? name = some inode
        ∧ made.data inode = bytes
        ∧ (∀ other, other ≠ name → made.names.get? other = files.names.get? other)
        ∧ ∀ other, other ≠ inode → made.data other = files.data other := by
  obtain ⟨inode, made, created, -, named, empty, otherNames, otherData⟩ :=
    FileSystem.create_of_accepted accepted
  obtain ⟨fd, k₁, creat, lowest, workspace⟩ := between.workspace.creat room created
  obtain ⟨k₂, write, workspace⟩ := workspace.writeRecord (Function.update_self ..)
    (by rw [empty]; exact Nat.zero_le _) whole
  obtain ⟨after, close, workspace⟩ := workspace.close fd (by simp)
  have restored
      : update (update (update slots fd (some (.file inode 0))) fd
          (some (.file inode Record.width))) fd none = slots := by
    rw [Function.update_idem, Function.update_idem, Function.update_eq_self_iff, lowest.free]
  rw [restored, Nat.add_sub_cancel] at workspace
  refine ⟨fd, k₁, k₂, after, inode, _, creat, write, close, ⟨workspace, ?_⟩, named, ?_, otherNames,
    ?_⟩
  · exact (between.spares.create own created).setData own named _
  · rw [FileSystem.data_setData, if_pos rfl]
  · intro other different
    rw [FileSystem.data_setData, if_neg different, otherData other different]

variable {first second : Inode} {bytes : Bytes × Bytes}

/-- Reading both files takes six calls, which leave the files as they were. -/
theorem Between.readBoth (usable : Usable start count pair)
    (between : Between start pid slots count pair files kernel)
    (stores : pair.Stores files first second bytes)
    : ∃ firstFd secondFd k₁ k₂ k₃ k₄ k₅ after,
        kernel.call pid (.openFile pair.first) = some (.ok firstFd, k₁)
        ∧ k₁.call pid (.openFile pair.second) = some (.ok secondFd, k₂)
        ∧ k₂.call pid (.read secondFd Record.width) = some (.ok (.of bytes.2), k₃)
        ∧ k₃.call pid (.read firstFd Record.width) = some (.ok (.of bytes.1), k₄)
        ∧ k₄.call pid (.close firstFd) = some (.ok (), k₅)
        ∧ k₅.call pid (.close secondFd) = some (.ok (), after)
        ∧ Between start pid slots count pair files after := by
  have room := usable.room
  have firstFound := FileSystem.find_of_named (between.accepted usable (.inl rfl)) stores.firstNamed
  have secondFound :=
    FileSystem.find_of_named (between.accepted usable (.inr rfl)) stores.secondNamed
  obtain ⟨firstFd, k₁, firstOpen, firstFree, workspace⟩ :=
    between.workspace.openFile (by omega) firstFound
  obtain ⟨secondFd, k₂, secondOpen, secondFree, workspace⟩ :=
    workspace.openFile (by omega) secondFound
  obtain ⟨apart, free⟩ := secondFree.of_update
  obtain ⟨k₃, secondRead, workspace⟩ :=
    workspace.readRecord (Function.update_self ..) stores.secondData stores.secondWhole
  rw [Function.update_idem] at workspace
  have held
      : update (update slots firstFd (some (.file first 0))) secondFd
          (some (.file second Record.width)) firstFd = some (.file first 0) := by
    simp [apart.symm]
  obtain ⟨k₄, firstRead, workspace⟩ :=
    workspace.readRecord held stores.firstData stores.firstWhole
  obtain ⟨k₅, after, firstClose, secondClose, workspace⟩ := workspace.closeBoth apart.symm
    (by simp) (by simp [apart]) firstFree.free free
    (fun fd notFirst notSecond => by simp [notFirst, notSecond])
  exact ⟨firstFd, secondFd, k₁, k₂, k₃, k₄, k₅, after, firstOpen, secondOpen, secondRead, firstRead,
    firstClose, secondClose, workspace, between.spares⟩

/-- Giving both files new bytes takes six calls. -/
theorem Between.rewrite (usable : Usable start count pair)
    (between : Between start pid slots count pair files kernel)
    (stores : pair.Stores files first second bytes) (next : Bytes × Bytes)
    (firstWhole : next.1.length = Record.width) (secondWhole : next.2.length = Record.width)
    : ∃ firstFd secondFd k₁ k₂ k₃ k₄ k₅ after written,
        kernel.call pid (.openFile pair.first) = some (.ok firstFd, k₁)
        ∧ k₁.call pid (.write firstFd next.1) = some (.ok Record.width, k₂)
        ∧ k₂.call pid (.openFile pair.second) = some (.ok secondFd, k₃)
        ∧ k₃.call pid (.write secondFd next.2) = some (.ok Record.width, k₄)
        ∧ k₄.call pid (.close firstFd) = some (.ok (), k₅)
        ∧ k₅.call pid (.close secondFd) = some (.ok (), after)
        ∧ Between start pid slots count pair written after
        ∧ pair.Stores written first second next := by
  have room := usable.room
  have firstFound := FileSystem.find_of_named (between.accepted usable (.inl rfl)) stores.firstNamed
  have spares := between.spares.setData (.inl rfl) stores.firstNamed next.1
  have secondFound : (files.setData first next.1).find pair.second = .ok second :=
    FileSystem.find_of_named (between.accepted usable (.inr rfl)) stores.secondNamed
  have kept : (files.setData first next.1).data second = files.data second := by
    rw [FileSystem.data_setData, if_neg stores.apart.symm]
  have firstShort : (files.data first).length ≤ Record.width :=
    Nat.le_of_eq (by rw [stores.firstData, stores.firstWhole])
  have secondShort : ((files.setData first next.1).data second).length ≤ Record.width :=
    Nat.le_of_eq (by rw [kept, stores.secondData, stores.secondWhole])
  obtain ⟨firstFd, k₁, firstOpen, firstFree, workspace⟩ :=
    between.workspace.openFile (by omega) firstFound
  obtain ⟨k₂, firstWrite, workspace⟩ :=
    workspace.writeRecord (Function.update_self ..) firstShort firstWhole
  rw [Function.update_idem] at workspace
  obtain ⟨secondFd, k₃, secondOpen, secondFree, workspace⟩ :=
    workspace.openFile (by omega) secondFound
  obtain ⟨apart, free⟩ := secondFree.of_update
  obtain ⟨k₄, secondWrite, workspace⟩ :=
    workspace.writeRecord (Function.update_self ..) secondShort secondWhole
  rw [Function.update_idem] at workspace
  obtain ⟨k₅, after, firstClose, secondClose, workspace⟩ := workspace.closeBoth apart.symm
    (by simp [apart.symm]) (by simp) firstFree.free free
    (fun fd notFirst notSecond => by simp [notFirst, notSecond])
  refine ⟨firstFd, secondFd, k₁, k₂, k₃, k₄, k₅, after, _, firstOpen, firstWrite, secondOpen,
    secondWrite, firstClose, secondClose,
    ⟨workspace, spares.setData (.inr rfl) stores.secondNamed _⟩, ?_⟩
  exact {
    firstNamed := stores.firstNamed
    secondNamed := stores.secondNamed
    apart := stores.apart
    firstData := by
      rw [FileSystem.data_setData, if_neg stores.apart, FileSystem.data_setData, if_pos rfl]
    secondData := by rw [FileSystem.data_setData, if_pos rfl]
    firstWhole := firstWhole
    secondWhole := secondWhole
  }

-----------------------------------------------------------------------------------------
-- Steps of a round
-----------------------------------------------------------------------------------------

/-- Making a file with one record, for which there must be room. -/
theorem performs_seed (between : Between start pid slots count pair files kernel)
    (room : count < start.config.maxOpenFiles) {name : String} (own : pair.Names name)
    (accepted : files.acceptsName name = true) (value : Int32)
    : ∃ inode made after,
        Kernel.Performs pid kernel (seed name value).run (.ok ()) after
        ∧ Between start pid slots count pair made after
        ∧ made.names.get? name = some inode
        ∧ made.data inode = Record.encode value
        ∧ (∀ other, other ≠ name → made.names.get? other = files.names.get? other)
        ∧ ∀ other, other ≠ inode → made.data other = files.data other := by
  obtain ⟨_, _, _, after, inode, made, creat, write, close, rest⟩ :=
    between.make room own accepted (Record.length_encode value)
  refine ⟨inode, made, after, ?_, rest⟩
  refine (Kernel.Performs.demand_ok _ creat rfl).check_ok ?_
  exact (performs_writeNumber write name).check_ok (.demand_ok _ close rfl)

/-- What the bytes of both files are taken for. The second file is read first. -/
def readings (pair : FilePair) (bytes : Bytes × Bytes) : Except Check.Stop (Int32 × Int32) := do
  let second ← reading pair.second bytes.2
  let first ← reading pair.first bytes.1
  pure (first, second)

/-- Reading both files, which ends all reading unless both are records. -/
theorem performs_readings (usable : Usable start count pair)
    (between : Between start pid slots count pair files kernel)
    (stores : pair.Stores files first second bytes)
    : ∃ after,
        Kernel.Performs pid kernel (readState pair).run (readings pair bytes) after
        ∧ ∀ state,
            readings pair bytes = .ok state → Between start pid slots count pair files after := by
  obtain ⟨firstFd, secondFd, _, k₂, k₃, k₄, _, last, firstOpen, secondOpen, secondRead, firstRead,
      firstClose, secondClose, between⟩ :=
    between.readBoth usable stores
  have secondRead := performs_readNumber secondRead stores.secondWhole pair.second
  have firstRead := performs_readNumber firstRead stores.firstWhole pair.first
  have opened {f : Fd → Fd → Check (Int32 × Int32)} {outcome : Except Check.Stop (Int32 × Int32)}
      {after : Kernel} (reads : Kernel.Performs pid k₂ (f firstFd secondFd).run outcome after)
      : Kernel.Performs pid kernel
          (do
            let firstFd ← openFile pair.first
            let secondFd ← openFile pair.second
            f firstFd secondFd : Check (Int32 × Int32)).run
          outcome after :=
    (Kernel.Performs.demand_ok _ firstOpen rfl).check_ok
      ((Kernel.Performs.demand_ok _ secondOpen rfl).check_ok reads)
  unfold readings
  generalize reading pair.second bytes.2 = second at secondRead ⊢
  generalize reading pair.first bytes.1 = first at firstRead ⊢
  rcases second with stop | b
  · exact ⟨k₃, opened (secondRead.check_stop _), nofun⟩
  · rcases first with stop | a
    · exact ⟨k₄, opened (secondRead.check_ok (firstRead.check_stop _)), nofun⟩
    · refine ⟨last, opened (secondRead.check_ok (firstRead.check_ok ?_)), fun _ _ => between⟩
      refine (Kernel.Performs.demand_ok _ firstClose rfl).check_ok ?_
      exact (Kernel.Performs.demand_ok _ secondClose rfl).check_ok .done

/-- Reading both numbers. -/
theorem performs_readState (usable : Usable start count pair)
    (between : Between start pid slots count pair files kernel)
    (holds : pair.Holds files first second state)
    : ∃ after,
        Kernel.Performs pid kernel (readState pair).run (.ok state) after
        ∧ Between start pid slots count pair files after := by
  obtain ⟨after, performs, between⟩ :=
    performs_readings usable between (FilePair.holds_iff_stores.mp holds)
  have both : readings pair (Record.encode state.1, Record.encode state.2) = .ok state := by
    rw [readings, reading_encode, reading_encode]
    rfl
  exact ⟨after, both ▸ performs, between state both⟩

/-- Writing both numbers. -/
theorem performs_writeState (usable : Usable start count pair)
    (between : Between start pid slots count pair files kernel)
    (holds : pair.Holds files first second state) (next : Int32 × Int32)
    : ∃ written after,
        Kernel.Performs pid kernel (writeState pair next).run (.ok ()) after
        ∧ Between start pid slots count pair written after
        ∧ pair.Holds written first second next := by
  obtain ⟨_, _, _, _, _, _, _, after, written, firstOpen, firstWrite, secondOpen, secondWrite,
    firstClose, secondClose, between, stores⟩ :=
    between.rewrite usable (FilePair.holds_iff_stores.mp holds)
      (Record.encode next.1, Record.encode next.2) (Record.length_encode _) (Record.length_encode _)
  refine ⟨written, after, ?_, between, FilePair.holds_iff_stores.mpr stores⟩
  refine (Kernel.Performs.demand_ok _ firstOpen rfl).check_ok ?_
  refine (performs_writeNumber firstWrite _).check_ok ?_
  refine (Kernel.Performs.demand_ok _ secondOpen rfl).check_ok ?_
  refine (performs_writeNumber secondWrite _).check_ok ?_
  exact (Kernel.Performs.demand_ok _ firstClose rfl).check_ok (.demand_ok _ secondClose rfl)

-----------------------------------------------------------------------------------------
-- All rounds
-----------------------------------------------------------------------------------------

/-- Rounds on files are rounds in memory, by induction on their number. -/
theorem performs_rounds (usable : Usable start count pair) (number : Nat)
    (between : Between start pid slots count pair files kernel)
    (holds : pair.Holds files first second state)
    : ∃ written after,
        Kernel.Performs pid kernel (rounds pair number state.2).run (.ok (iterate number state).2)
          after
        ∧ Between start pid slots count pair written after
        ∧ pair.Holds written first second (iterate number state) := by
  induction number generalizing files kernel state with
  | zero => exact ⟨files, kernel, .done, between, holds⟩
  | succ number ih =>
      obtain ⟨k₁, read, between⟩ := performs_readState usable between holds
      obtain ⟨middle, k₂, write, between, holds⟩ :=
        performs_writeState usable between holds (advance state)
      obtain ⟨written, after, onward, between, holds⟩ := ih between holds
      exact ⟨written, after, read.check_ok (write.check_ok onward), between, holds⟩

/-- Making both files and all rounds. -/
theorem performs_compute (usable : Usable start count pair) (number : Nat)
    (between : Between start pid slots count pair files kernel)
    : ∃ first second written after,
        Kernel.Performs pid kernel (compute pair number).run (.ok (expected number)) after
        ∧ Between start pid slots count pair written after
        ∧ pair.Holds written first second (iterate number (0, 1)) := by
  have room : count < start.config.maxOpenFiles := Nat.lt_of_succ_lt usable.room
  obtain ⟨first, made, k₁, firstSeed, between, firstNamed, firstData, -, -⟩ :=
    performs_seed between room (.inl rfl) (between.accepted usable (.inl rfl)) 0
  obtain ⟨second, both, k₂, secondSeed, between, secondNamed, secondData, names, data⟩ :=
    performs_seed between room (.inr rfl) (between.accepted usable (.inr rfl)) 1
  have stores : pair.Stores both first second (Record.encode 0, Record.encode 1) :=
    FilePair.stores_of_made usable.different between.spares.distinct firstNamed
      firstData secondNamed
      secondData names data (Record.length_encode 0) (Record.length_encode 1)
  have holds : pair.Holds both first second (0, 1) := FilePair.holds_iff_stores.mpr stores
  obtain ⟨written, after, onward, between, holds⟩ := performs_rounds usable number between holds
  exact ⟨first, second, written, after, firstSeed.check_ok (secondSeed.check_ok onward), between,
    holds⟩

end Recurrence

end KernelConformance
