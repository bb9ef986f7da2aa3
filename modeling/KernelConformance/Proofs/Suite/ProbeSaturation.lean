import KernelConformance.Proofs.Suite.ProbeRounds

/-! All rounds of a probe, one after the other. They come to their end if the table has room for
as many descriptors as the last of them holds, and otherwise stop in the round in which the
table is full.
-/

namespace KernelConformance.Probe

open Randomness (permutation permutation_perm)

-----------------------------------------------------------------------------------------
-- The check of a round
-----------------------------------------------------------------------------------------

/-- Different descriptors for files pass the check, by induction on them. -/
theorem checkSlots_append (round : Nat) {before fds : List Fd} (rest : Slots)
    (distinct : (before ++ fds).Nodup) (ofFiles : ∀ fd ∈ fds, Descriptors.firstFile ≤ fd.index)
    : checkSlots round before (fds.map some ++ rest) = checkSlots round (before ++ fds) rest := by
  induction fds generalizing before with
  | nil => simp
  | cons fd fds ih =>
      have file : fd.isStandard = false := by
        have index := ofFiles fd List.mem_cons_self
        obtain ⟨number⟩ := fd
        simp only [Descriptors.firstFile] at index
        simp only [Fd.isStandard, Fd.stdin, Fd.stdout, Fd.mk.injEq, Bool.or_eq_false_iff,
          decide_eq_false_iff_not]
        omega
      have new : fd ∉ before := fun member =>
        (List.nodup_append.mp distinct).2.2 fd member fd List.mem_cons_self rfl
      rw [List.append_cons] at distinct
      rw [List.map_cons, List.cons_append, checkSlots, if_neg (by simp [file]), if_neg new,
        ih distinct fun other member => ofFiles other (List.mem_cons_of_mem _ member),
        ← List.append_cons]

theorem checkSlots_consecutive (round count : Nat) (rest : Slots)
    : checkSlots round [] ((consecutive count).map some ++ rest)
      = checkSlots round (consecutive count) rest :=
  checkSlots_append round rest (nodup_consecutive count) fun _ member =>
    (mem_consecutive.mp member).1

/-- The message about a round in which the table was full. -/
def fullMessage (limit : Nat) : String := s!"test_fd: round {limit} fd[{limit - 1}] fails"

theorem checkSlots_full {limit : Nat} (positive : 1 ≤ limit)
    : checkSlots limit [] (roundSlots limit limit) = .error (.failure (fullMessage limit)) := by
  have held : min limit (limit - 1) = limit - 1 := by omega
  have empty : limit - (limit - 1) = 1 := by omega
  rw [roundSlots, held, empty, checkSlots_consecutive, List.replicate_one, checkSlots,
    length_consecutive]
  rfl

-----------------------------------------------------------------------------------------
-- All rounds
-----------------------------------------------------------------------------------------

/-- What a probe that is alone prints in each round. -/
def announce (probe : Probe) (slots : Slots) : Check Unit :=
  if probe.isAlone then
    let fds := String.intercalate " " ((held slots).map Fd.text)
    ExceptT.lift (Prog.putLine s!"round {slots.length} fds: {fds}")
  else pure ()

/-- What follows a round that has passed its check, with `count` more to come. -/
def proceed (probe : Probe) (count : Nat) (slots : Slots) (stream : Randomness.Stream)
    : Check (Slots × Randomness.Stream) :=
  if count = 0 then pure (slots, (permutation slots.length stream).2)
  else do
    let closed ← ExceptT.lift
      (release (!probe.isAlone) (permutation slots.length stream).1 slots)
    let refilled ← ExceptT.lift (refill probe.file (closed ++ [none]))
    rounds probe count refilled (permutation slots.length stream).2

/-- A round in its steps. -/
theorem rounds_succ (probe : Probe) (count : Nat) (slots : Slots) (stream : Randomness.Stream)
    : rounds probe (count + 1) slots stream
      = (Check.ofResult (checkSlots slots.length [] slots) >>= fun _ =>
          announce probe slots >>= fun _ => proceed probe count slots stream) := by
  rw [rounds]
  by_cases alone : probe.isAlone = true <;> simp [announce, proceed, alone]

variable {start kernel : Kernel} {pid : Pid} {inode : Inode} {files : FileSystem} {probe : Probe}

theorem performs_announce {fds : List Fd} (holds : Holds start pid inode files fds kernel)
    (probe : Probe) (slots : Slots)
    : ∃ after,
        Kernel.Performs pid kernel (announce probe slots).run (.ok ()) after
        ∧ Holds start pid inode files fds after := by
  unfold announce
  split
  · obtain ⟨after, printed, holds⟩ := holds.print _
    exact ⟨after, printed.lift, holds⟩
  · exact ⟨kernel, .done, holds⟩

/-- A round in which all slots are full passes its check. -/
theorem performs_passed {round : Nat}
    (holds : Holds start pid inode files (consecutive round) kernel) (probe : Probe) (count : Nat)
    (stream : Randomness.Stream)
    : ∃ after,
        Holds start pid inode files (consecutive round) after
        ∧ ∀ {outcome last},
            Kernel.Performs pid after
              (proceed probe count ((consecutive round).map some) stream).run
              outcome last
            → Kernel.Performs pid kernel
                (rounds probe (count + 1) ((consecutive round).map some) stream).run outcome
                last := by
  obtain ⟨after, announced, holds⟩ := performs_announce holds probe ((consecutive round).map some)
  refine ⟨after, holds, fun onward => ?_⟩
  have passed : checkSlots round [] ((consecutive round).map some) = .ok () := by
    have checked := checkSlots_consecutive round round []
    rwa [List.append_nil] at checked
  rw [rounds_succ, List.length_map, length_consecutive, passed]
  exact Kernel.Performs.check_ok .done (announced.check_ok onward)

/-- A round goes on to the next one with as many slots full as the table has room for. -/
theorem performs_round (found : files.find probe.file = .ok inode) {round : Nat}
    (positive : 1 ≤ round) (room : 1 + round ≤ start.config.maxOpenFiles) (count : Nat)
    (stream : Randomness.Stream)
    (holds : Holds start pid inode files (consecutive round) kernel)
    : ∃ after,
        Holds start pid inode files
            (consecutive (min (round + 1) (start.config.maxOpenFiles - 1))) after
        ∧ ∀ {outcome last},
            Kernel.Performs pid after
                (rounds probe (count + 1) (roundSlots start.config.maxOpenFiles (round + 1))
                  (permutation round stream).2).run outcome last
            → Kernel.Performs pid kernel
                (rounds probe (count + 2) ((consecutive round).map some) stream).run outcome
                last := by
  obtain ⟨checked, holds, passed⟩ := performs_passed holds probe (count + 1) stream
  obtain ⟨closed, released, after, release, refill, holds⟩ := performs_turn found (!probe.isAlone)
    positive room (permutation_perm round stream) holds
  refine ⟨after, holds, fun onward => passed ?_⟩
  rw [proceed, if_neg (Nat.succ_ne_zero count), List.length_map, length_consecutive]
  exact release.lift.check_ok (refill.lift.check_ok onward)

theorem roundSlots_of_room (limit round : Nat) (room : 1 + round ≤ limit)
    : roundSlots limit round = (consecutive round).map some := by
  have held : min round (limit - 1) = round := by omega
  rw [roundSlots, held, Nat.sub_self, List.replicate_zero, List.append_nil]

/-- With room for the last round all rounds pass, by induction on their number. -/
theorem performs_rounds_ok (found : files.find probe.file = .ok inode) (count : Nat) {round : Nat}
    (positive : 1 ≤ round) (room : round + count + 1 ≤ start.config.maxOpenFiles)
    (stream : Randomness.Stream)
    (holds : Holds start pid inode files (consecutive round) kernel)
    : ∃ left after,
        Kernel.Performs pid kernel
            (rounds probe (count + 1) ((consecutive round).map some) stream).run
            (.ok ((consecutive (round + count)).map some, left)) after
        ∧ Holds start pid inode files (consecutive (round + count)) after := by
  induction count generalizing round stream kernel with
  | zero =>
      obtain ⟨after, holds, passed⟩ := performs_passed holds probe 0 stream
      exact ⟨_, after, passed .done, holds⟩
  | succ count ih =>
      obtain ⟨middle, holds, passed⟩ := performs_round found positive (by omega) count stream holds
      have more : min (round + 1) (start.config.maxOpenFiles - 1) = round + 1 := by omega
      rw [more] at holds
      obtain ⟨left, after, onward, holds⟩ := ih (by omega) (by omega) _ holds
      rw [← roundSlots_of_room start.config.maxOpenFiles (round + 1) (by omega)]
        at onward
      rw [Nat.add_right_comm] at onward holds
      exact ⟨left, after, passed onward, holds⟩

/-- Without room for the last round, the first one with a slot too many fails, by induction on the
number of rounds that are left.
-/
theorem performs_rounds_full (found : files.find probe.file = .ok inode) (count : Nat)
    {round : Nat} (positive : 1 ≤ round) (room : 1 + round ≤ start.config.maxOpenFiles)
    (short : start.config.maxOpenFiles ≤ round + count) (stream : Randomness.Stream)
    (holds : Holds start pid inode files (consecutive round) kernel)
    : ∃ after,
        Kernel.Performs pid kernel
            (rounds probe (count + 1) ((consecutive round).map some) stream).run
            (.error (.violation (.failure (fullMessage start.config.maxOpenFiles)))) after
        ∧ Holds start pid inode files (consecutive (start.config.maxOpenFiles - 1)) after := by
  induction count generalizing round stream kernel with
  | zero => omega
  | succ count ih =>
      obtain ⟨middle, holds, passed⟩ := performs_round found positive room count stream holds
      by_cases last : round + 1 = start.config.maxOpenFiles
      · have held : min (round + 1) (start.config.maxOpenFiles - 1)
            = start.config.maxOpenFiles - 1 := by omega
        rw [held] at holds
        refine ⟨middle, passed ?_, holds⟩
        have slots : (roundSlots start.config.maxOpenFiles (round + 1)).length = round + 1 := by
          simp only [roundSlots, List.length_append, List.length_map, length_consecutive,
            List.length_replicate]
          omega
        rw [rounds_succ, slots, last, checkSlots_full (by omega)]
        exact Kernel.Performs.check_stop .done _
      · have more : min (round + 1) (start.config.maxOpenFiles - 1) = round + 1 := by omega
        rw [more] at holds
        obtain ⟨after, onward, holds⟩ := ih (by omega) (by omega) (by omega) _ holds
        rw [← roundSlots_of_room start.config.maxOpenFiles (round + 1) (by omega)]
          at onward
        exact ⟨after, passed onward, holds⟩

end KernelConformance.Probe
