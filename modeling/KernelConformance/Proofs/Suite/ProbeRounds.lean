import KernelConformance.Proofs.Programs.Workspaces
import KernelConformance.Proofs.Randomness.Shuffles
import KernelConformance.Suite.Probe

/-! The rounds of a probe that is by itself. Between rounds it holds the lowest descriptors for
files, whatever order it closes them in, so that each round has one more until the table is full.
-/

namespace KernelConformance.Probe

open Function (update)
open Randomness (permutation permutation_perm)

-----------------------------------------------------------------------------------------
-- Descriptors that are held
-----------------------------------------------------------------------------------------

/-- The lowest descriptors that files get. -/
def consecutive (count : Nat) : List Fd := (List.range' Descriptors.firstFile count).map Fd.mk

@[simp] theorem length_consecutive (count : Nat) : (consecutive count).length = count := by
  simp [consecutive]

theorem consecutive_succ (count : Nat)
    : consecutive (count + 1) = consecutive count ++ [⟨Descriptors.firstFile + count⟩] := by
  simp [consecutive, List.range'_concat]

theorem mem_consecutive {count : Nat} {fd : Fd}
    : fd ∈ consecutive count
      ↔ Descriptors.firstFile ≤ fd.index ∧ fd.index < Descriptors.firstFile + count := by
  obtain ⟨index⟩ := fd
  simp [consecutive, List.mem_range'_1]

theorem nodup_consecutive (count : Nat) : (consecutive count).Nodup :=
  List.Pairwise.map Fd.mk (fun _ _ different same => different (congrArg Fd.index same))
    (List.nodup_range' ..)

/-- What descriptors stand for while a probe holds some: those are open on its file, and of the
streams only the output is.
-/
def occupied (inode : Inode) (fds : List Fd) (fd : Fd) : Option Handle :=
  if fd = .stdout then some .stdout else if fd ∈ fds then some (.file inode 0) else none

/-- The next descriptor for a file follows the ones that are held, if these are the lowest. -/
theorem firstFree_consecutive (inode : Inode) (count : Nat)
    : FirstFree (occupied inode (consecutive count)) ⟨Descriptors.firstFile + count⟩ where
  file := Nat.le_add_right _ _
  free := by
    have stream : (⟨Descriptors.firstFile + count⟩ : Fd) ≠ .stdout := by
      simp [Fd.stdout, Descriptors.firstFile]
      omega
    rw [occupied, if_neg stream,
      if_neg (fun member => Nat.lt_irrefl _ (mem_consecutive.mp member).2)]
  lower other file less := by
    have member : other ∈ consecutive count := mem_consecutive.mpr ⟨file, less⟩
    unfold occupied
    rw [if_pos member]
    split <;> rfl

/-- A kernel in which a probe holds some descriptors on its file, apart from what it has printed. -/
structure Holds (start : Kernel) (pid : Pid) (inode : Inode) (files : FileSystem) (fds : List Fd)
    (kernel : Kernel)
    : Prop where
  workspace : start.Workspace pid (occupied inode fds) (1 + fds.length) files kernel
  distinct : fds.Nodup
  ofFiles : ∀ fd ∈ fds, Descriptors.firstFile ≤ fd.index

namespace Holds

variable {start kernel : Kernel} {pid : Pid} {inode : Inode} {files : FileSystem} {fds : List Fd}
  {name : String}

theorem print (holds : Holds start pid inode files fds kernel) (text : String)
    : ∃ after,
        Kernel.Performs pid kernel (Prog.putLine text) () after
        ∧ Holds start pid inode files fds after := by
  obtain ⟨after, printed, workspace⟩ := holds.workspace.print .stdout (if_pos rfl)
    (Utf8.encode (text ++ "\n"))
  exact ⟨after, .attempt printed rfl, workspace, holds.distinct, holds.ofFiles⟩

theorem ne_stdout (holds : Holds start pid inode files fds kernel) {fd : Fd} (member : fd ∈ fds)
    : fd ≠ .stdout := by
  rintro rfl
  have file := holds.ofFiles _ member
  simp [Descriptors.firstFile, Fd.stdout] at file

/-- A descriptor that is held can be closed, and is not held then. -/
theorem close {front back : List Fd} {fd : Fd}
    (holds : Holds start pid inode files (front ++ fd :: back) kernel)
    : ∃ after,
        Kernel.Performs pid kernel (Prog.attempt (.close fd)) () after
        ∧ Holds start pid inode files (front ++ back) after := by
  have member : fd ∈ front ++ fd :: back := by simp
  have file := holds.ne_stdout member
  have unique := holds.distinct
  have smaller : (front ++ back).Sublist (front ++ fd :: back) := by simp
  rw [List.perm_middle.nodup_iff, List.nodup_cons] at unique
  have held : (occupied inode (front ++ fd :: back) fd).isSome = true := by
    rw [occupied, if_neg file, if_pos member]
    rfl
  obtain ⟨after, closed, workspace⟩ := holds.workspace.close fd held
  have rest : update (occupied inode (front ++ fd :: back)) fd none
    = occupied inode (front ++ back) := by
    funext other
    rw [Function.update_apply]
    split
    · next same =>
        subst same
        rw [occupied, if_neg file, if_neg unique.1]
    · next different => simp [occupied, different]
  have count : 1 + (front ++ fd :: back).length - 1 = 1 + (front ++ back).length := by
    simp only [List.length_append, List.length_cons]
    omega
  rw [rest, count] at workspace
  exact ⟨after, .attempt closed rfl, workspace, unique.2,
    fun other member => holds.ofFiles other (smaller.subset member)⟩

/-- With room in the table, one more descriptor is held. -/
theorem openFile {count : Nat} (holds : Holds start pid inode files (consecutive count) kernel)
    (room : 1 + count < start.config.maxOpenFiles) (found : files.find name = .ok inode)
    : ∃ after,
        Kernel.Performs pid kernel (Prog.perform (.openFile name))
          (.ok ⟨Descriptors.firstFile + count⟩) after
        ∧ Holds start pid inode files (consecutive (count + 1)) after := by
  obtain ⟨fd, after, opened, first, workspace⟩ := holds.workspace.openFile
    (by rwa [length_consecutive]) found
  obtain rfl := first.unique (firstFree_consecutive inode count)
  have grown
      : update (occupied inode (consecutive count)) ⟨Descriptors.firstFile + count⟩
          (some (.file inode 0)) = occupied inode (consecutive (count + 1)) := by
    funext other
    rw [Function.update_apply, consecutive_succ]
    split
    · next same =>
        subst same
        have stream : (⟨Descriptors.firstFile + count⟩ : Fd) ≠ .stdout := by
          simp [Fd.stdout, Descriptors.firstFile]
          omega
        simp [occupied, stream]
    · next different => simp [occupied, different]
  rw [grown, length_consecutive, Nat.add_assoc] at workspace
  refine ⟨after, .perform opened rfl, ?_, nodup_consecutive _, ?_⟩
  · rwa [length_consecutive]
  · exact fun other member => (mem_consecutive.mp member).1

/-- In a table that is full nothing more is opened. -/
theorem openFile_full (holds : Holds start pid inode files fds kernel)
    (full : start.config.maxOpenFiles ≤ 1 + fds.length) (name : String)
    : ∃ error after,
        Kernel.Performs pid kernel (Prog.perform (.openFile name)) (.error error) after
        ∧ Holds start pid inode files fds after := by
  obtain ⟨error, after, refused, workspace⟩ := holds.workspace.openFile_error name (.inl full)
  exact ⟨error, after, .perform refused rfl, workspace, holds.distinct, holds.ofFiles⟩

end Holds

-----------------------------------------------------------------------------------------
-- Closing in any order
-----------------------------------------------------------------------------------------

theorem held_append (front back : Slots) : held (front ++ back) = held front ++ held back :=
  List.filterMap_append

@[simp] theorem held_map_some (fds : List Fd) : held (fds.map some) = fds := by
  simp [held, List.filterMap_map]

@[simp] theorem held_replicate_none (count : Nat) : held (List.replicate count none) = [] := by
  simp [held]

/-- Slots of which the ones with the given numbers have been emptied. -/
def emptied (keepFirst : Bool) (order : List Nat) (slots : Slots) : Slots :=
  order.foldl (fun slots slot => if slot = 0 ∧ keepFirst then slots else slots.set slot none) slots

/-- A slot is empty if its number is one of those, by induction on them. -/
theorem getElem?_emptied (keepFirst : Bool) (order : List Nat) (slots : Slots) (slot : Nat)
    : (emptied keepFirst order slots)[slot]?
      = if slot ∈ order ∧ ¬(slot = 0 ∧ keepFirst) then slots[slot]?.map fun _ => none
        else slots[slot]? := by
  induction order generalizing slots with
  | nil => simp [emptied]
  | cons first rest ih =>
      have step : emptied keepFirst (first :: rest) slots
          = emptied keepFirst rest
              (if first = 0 ∧ keepFirst then slots else slots.set first none) := rfl
      rw [step, ih]
      by_cases kept : first = 0 ∧ keepFirst
      · rw [if_pos kept]
        by_cases same : slot = first
        · subst same
          simp [kept]
        · simp [same]
      · rw [if_neg kept]
        by_cases same : slot = first
        · subst same
          rw [List.getElem?_set_self']
          cases slots[slot]? <;> simp [kept]
        · simp [same, Ne.symm same]

variable {start kernel : Kernel} {pid : Pid} {inode : Inode} {files : FileSystem}

theorem set_none_of_empty {slots : Slots} {slot : Nat} (empty : slots.getD slot none = none)
    : slots.set slot none = slots := by
  rcases Nat.lt_or_ge slot slots.length with inside | outside
  · have found : slots[slot] = none := by simpa [inside] using empty
    rw [← found]
    exact List.set_getElem_self inside
  · exact List.set_eq_of_length_le outside

/-- A slot that is full holds one of the descriptors, and the others when it is emptied. -/
theorem held_of_full {slots : Slots} {slot : Nat} {fd : Fd} (full : slots.getD slot none = some fd)
    : ∃ front back,
        held slots = front ++ fd :: back ∧ held (slots.set slot none) = front ++ back := by
  obtain ⟨front, back, rfl, rfl⟩
      : ∃ front back, slots = front ++ some fd :: back ∧ slot = front.length := by
    have inside : slot < slots.length := by
      by_contra outside
      simp [Nat.le_of_not_lt outside] at full
    have found : slots[slot] = some fd := by simpa [inside] using full
    refine ⟨slots.take slot, slots.drop (slot + 1), ?_, by simp [Nat.le_of_lt inside]⟩
    rw [← found, List.getElem_cons_drop, List.take_append_drop]
  exact ⟨held front, held back, by simp [held], by simp [held]⟩

/-- Slots are emptied in any order, by induction on it. -/
theorem performs_release (keepFirst : Bool) (order : List Nat) {slots : Slots}
    (holds : Holds start pid inode files (held slots) kernel)
    : ∃ after,
        Kernel.Performs pid kernel (release keepFirst order slots) (emptied keepFirst order slots)
          after
        ∧ Holds start pid inode files (held (emptied keepFirst order slots)) after := by
  induction order generalizing slots kernel with
  | nil => exact ⟨kernel, .done, holds⟩
  | cons slot rest ih =>
      rw [release, emptied, List.foldl_cons]
      split
      · exact ih holds
      · split
        · next empty =>
            rw [set_none_of_empty empty]
            exact ih holds
        · next fd full =>
            obtain ⟨front, back, before, after⟩ := held_of_full full
            rw [before] at holds
            obtain ⟨middle, closed, holds⟩ := holds.close
            rw [← after] at holds
            obtain ⟨last, released, holds⟩ := ih holds
            exact ⟨last, closed.bind released, holds⟩

theorem getElem?_consecutive (count slot : Nat)
    : (consecutive count)[slot]?
      = if slot < count then some ⟨Descriptors.firstFile + slot⟩ else none := by
  by_cases inside : slot < count <;> simp [consecutive, inside]

/-- The slots of a round: the lowest descriptors, as far as the table has room, and then none. -/
def roundSlots (limit round : Nat) : Slots :=
  (consecutive (min round (limit - 1))).map some
    ++ List.replicate (round - min round (limit - 1)) none

/-- When every slot is closed in turn, only the first one can stay. -/
theorem emptied_all (keepFirst : Bool) {order : List Nat} {round : Nat} (positive : 1 ≤ round)
    (all : order.Perm (List.range round))
    : emptied keepFirst order ((consecutive round).map some)
      = (consecutive keepFirst.toNat).map some
        ++ List.replicate (round - keepFirst.toNat) none := by
  apply List.ext_getElem?
  intro slot
  simp only [getElem?_emptied, all.mem_iff, List.mem_range, List.getElem?_append, List.getElem?_map,
    getElem?_consecutive, List.getElem?_replicate, List.length_map, length_consecutive]
  cases keepFirst <;> grind

-----------------------------------------------------------------------------------------
-- Opening again
-----------------------------------------------------------------------------------------

theorem refill_map_some (name : String) (fds : List Fd) (slots : Slots)
    : refill name (fds.map some ++ slots)
      = (refill name slots >>= fun filled => pure (fds.map some ++ filled)) := by
  induction fds with
  | nil => exact (bind_pure _).symm
  | cons fd rest ih =>
      simp only [List.map_cons, List.cons_append, refill, ih, bind_assoc, pure_bind]

/-- Empty slots get the next descriptors as far as the table has room, by induction
on their number.
-/
theorem performs_refill {name : String} (found : files.find name = .ok inode) (empty held : Nat)
    (holds : Holds start pid inode files (consecutive held) kernel)
    : ∃ filled after,
        Kernel.Performs pid kernel (refill name (List.replicate empty none)) filled after
        ∧ (consecutive held).map some ++ filled
          = (consecutive (held + min empty (start.config.maxOpenFiles - 1 - held))).map some
            ++ List.replicate (empty - min empty (start.config.maxOpenFiles - 1 - held)) none
        ∧ Holds start pid inode files
            (consecutive (held + min empty (start.config.maxOpenFiles - 1 - held))) after := by
  induction empty generalizing held kernel with
  | zero => exact ⟨[], kernel, .done, by simp, by simpa using holds⟩
  | succ empty ih =>
      by_cases room : 1 + held < start.config.maxOpenFiles
      · obtain ⟨middle, opened, holds⟩ := holds.openFile room found
        obtain ⟨filled, after, performs, slots, holds⟩ := ih (held + 1) holds
        have count : held + min (empty + 1) (start.config.maxOpenFiles - 1 - held)
            = held + 1 + min empty (start.config.maxOpenFiles - 1 - (held + 1)) := by omega
        have left : empty + 1 - min (empty + 1) (start.config.maxOpenFiles - 1 - held)
            = empty - min empty (start.config.maxOpenFiles - 1 - (held + 1)) := by omega
        refine ⟨some ⟨Descriptors.firstFile + held⟩ :: filled, after, ?_, ?_, ?_⟩
        · exact opened.bind (performs.bind .done)
        · rw [count, left, ← slots, consecutive_succ]
          simp
        · rwa [count]
      · obtain ⟨error, middle, refused, holds⟩ := holds.openFile_full
          (by rw [length_consecutive]; omega) name
        obtain ⟨filled, after, performs, slots, holds⟩ := ih held holds
        have noRoom : start.config.maxOpenFiles - 1 - held = 0 := by omega
        rw [noRoom, Nat.min_zero, Nat.add_zero] at slots holds
        refine ⟨none :: filled, after, refused.bind (performs.bind .done), ?_, ?_⟩
        · have same : filled = List.replicate empty none := by simpa using slots
          simp [noRoom, same, List.replicate_succ]
        · simpa [noRoom] using holds

/-- Between two rounds the descriptors are closed in any order, and as many are held again as
before, and one more if there is room.
-/
theorem performs_turn {name : String} (found : files.find name = .ok inode) (keepFirst : Bool)
    {order : List Nat} {round : Nat} (positive : 1 ≤ round)
    (room : 1 + round ≤ start.config.maxOpenFiles) (all : order.Perm (List.range round))
    (holds : Holds start pid inode files (consecutive round) kernel)
    : ∃ closed middle after,
        Kernel.Performs pid kernel (release keepFirst order ((consecutive round).map some)) closed
          middle
        ∧ Kernel.Performs pid middle (refill name (closed ++ [none]))
            (roundSlots start.config.maxOpenFiles (round + 1)) after
        ∧ Holds start pid inode files
            (consecutive (min (round + 1) (start.config.maxOpenFiles - 1))) after := by
  rw [← held_map_some (consecutive round)] at holds
  obtain ⟨middle, released, holds⟩ := performs_release keepFirst order holds
  have kept : keepFirst.toNat ≤ 1 := by cases keepFirst <;> decide
  rw [emptied_all keepFirst positive all] at released holds
  rw [held_append, held_map_some, held_replicate_none, List.append_nil] at holds
  obtain ⟨filled, after, performs, slots, holds⟩ :=
    performs_refill found (round - keepFirst.toNat + 1) keepFirst.toNat holds
  have count
      : keepFirst.toNat
          + min (round - keepFirst.toNat + 1) (start.config.maxOpenFiles - 1 - keepFirst.toNat)
        = min (round + 1) (start.config.maxOpenFiles - 1) := by omega
  have left
      : round - keepFirst.toNat + 1
          - min (round - keepFirst.toNat + 1) (start.config.maxOpenFiles - 1 - keepFirst.toNat)
        = round + 1 - min (round + 1) (start.config.maxOpenFiles - 1) := by omega
  rw [count, left] at slots
  rw [count] at holds
  refine ⟨_, middle, after, released, ?_, holds⟩
  rw [List.append_assoc, ← List.replicate_succ', refill_map_some, roundSlots, ← slots]
  exact performs.bind .done

end KernelConformance.Probe
