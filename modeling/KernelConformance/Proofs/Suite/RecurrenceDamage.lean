import KernelConformance.Proofs.Programs.DamagedWrites
import KernelConformance.Proofs.Suite.RecurrenceRefinement

/-! A recurrence of which one write leaves bytes that are no record. The next round finds them and
stops the run. The last round has no next one, so what its two writes leave is never looked at.
-/

namespace KernelConformance

open Utf8 (Bytes)

/-- The file that a write goes to: both files take turns, beginning with the first. -/
def FilePair.target (pair : FilePair) (number : Nat) : String :=
  if number % 2 = 1 then pair.first else pair.second

namespace Recurrence

open Kernel (Suffers sent)

variable {start kernel : Kernel} {pid : Pid} {slots : Fd → Option Handle} {count : Nat}
  {files : FileSystem} {pair : FilePair} {first second : Inode} {state : Int32 × Int32}
  {bad : Nat} {garbage : Bytes} {error : Record.DecodeError}

-----------------------------------------------------------------------------------------
-- What the files store
-----------------------------------------------------------------------------------------

/-- Bytes that are as long as a record but are none, and why. -/
structure Garbled (garbage : Bytes) (error : Record.DecodeError) : Prop where
  whole : garbage.length = Record.width
  undecodable : Record.decode garbage = .error error

/-- A text with a letter among its digits, as long as a record. -/
def misprint : Bytes := [49, 120, 50] ++ List.replicate 17 0

theorem garbled_misprint : Garbled misprint (.notNumber .invalidDigit) := ⟨rfl, rfl⟩

theorem length_sent (garbled : Garbled garbage error) (number : Nat) (value : Int32)
    : (sent bad garbage number (Record.encode value)).length = Record.width := by
  unfold sent
  split
  · exact garbled.whole
  · exact Record.length_encode value

/-- What a state leaves in both files if a number of writes has been made before. -/
def sentBoth (bad : Nat) (garbage : Bytes) (made : Nat) (state : Int32 × Int32) : Bytes × Bytes :=
  (sent bad garbage (made + 1) (Record.encode state.1),
    sent bad garbage (made + 2) (Record.encode state.2))

/-- How a run stops at the garbage. -/
def detected (pair : FilePair) (bad : Nat) (error : Record.DecodeError) : Check.Stop :=
  .violation (.failure s!"{pair.target bad}: {error.message}")

theorem reading_sent (garbled : Garbled garbage error) (name : String) (number : Nat)
    (value : Int32)
    : reading name (sent bad garbage number (Record.encode value))
      = if number = bad then .error (.violation (.failure s!"{name}: {error.message}"))
        else .ok value := by
  unfold sent
  split
  · rw [reading, garbled.undecodable]
  · exact reading_encode name value

/-- Reading both files gives the state, unless one of its two writes was the damaged one. -/
theorem readings_sentBoth (garbled : Garbled garbage error) (rounds : Nat)
    : readings pair (sentBoth bad garbage (2 * rounds) state)
      = if bad = 2 * rounds + 1 ∨ bad = 2 * rounds + 2 then .error (detected pair bad error)
        else .ok state := by
  unfold readings sentBoth
  rw [reading_sent garbled, reading_sent garbled]
  by_cases even : 2 * rounds + 2 = bad
  · have target : pair.target bad = pair.second := if_neg (by omega)
    have here : bad = 2 * rounds + 1 ∨ bad = 2 * rounds + 2 := .inr even.symm
    rw [if_pos even, if_pos here, detected, target]
    rfl
  · rw [if_neg even]
    by_cases odd : 2 * rounds + 1 = bad
    · have target : pair.target bad = pair.first := if_pos (by omega)
      have here : bad = 2 * rounds + 1 ∨ bad = 2 * rounds + 2 := .inl odd.symm
      rw [if_pos odd, if_pos here, detected, target]
      rfl
    · have elsewhere : ¬(bad = 2 * rounds + 1 ∨ bad = 2 * rounds + 2) := by omega
      rw [if_neg odd, if_neg elsewhere]
      rfl

-----------------------------------------------------------------------------------------
-- Steps of a round
-----------------------------------------------------------------------------------------

theorem suffers_writeNumber {after : Kernel} {fd : Fd} {number : Nat} {value : Int32}
    (written
      : kernel.call pid (.write fd (sent bad garbage (number + 1) (Record.encode value)))
        = some (.ok Record.width, after))
    (name : String)
    : Suffers bad garbage pid kernel number (writeNumber fd name value).run (.ok ()) after
        (number + 1) :=
  (Suffers.demand_write _ written).check_ok .done

theorem suffers_seed (garbled : Garbled garbage error)
    (between : Between start pid slots count pair files kernel)
    (room : count < start.config.maxOpenFiles) {name : String} (own : pair.Names name)
    (accepted : files.acceptsName name = true) (number : Nat) (value : Int32)
    : ∃ inode made after,
        Suffers bad garbage pid kernel number (seed name value).run (.ok ()) after (number + 1)
        ∧ Between start pid slots count pair made after
        ∧ made.names.get? name = some inode
        ∧ made.data inode = sent bad garbage (number + 1) (Record.encode value)
        ∧ (∀ other, other ≠ name → made.names.get? other = files.names.get? other)
        ∧ ∀ other, other ≠ inode → made.data other = files.data other := by
  obtain ⟨_, _, _, after, inode, made, creat, write, close, rest⟩ :=
    between.make room own accepted (length_sent garbled (number + 1) value)
  refine ⟨inode, made, after, ?_, rest⟩
  refine (Suffers.demand_ok rfl _ creat rfl).check_ok ?_
  exact (suffers_writeNumber write name).check_ok (.demand_ok rfl _ close rfl)

theorem suffers_writeState (garbled : Garbled garbage error) (usable : Usable start count pair)
    (between : Between start pid slots count pair files kernel) {bytes : Bytes × Bytes}
    (stores : pair.Stores files first second bytes) (number : Nat) (next : Int32 × Int32)
    : ∃ written after,
        Suffers bad garbage pid kernel number (writeState pair next).run (.ok ()) after (number + 2)
        ∧ Between start pid slots count pair written after
        ∧ pair.Stores written first second (sentBoth bad garbage number next) := by
  obtain ⟨_, _, _, _, _, _, _, after, written, firstOpen, firstWrite, secondOpen, secondWrite,
    firstClose, secondClose, rest⟩ :=
    between.rewrite usable stores (sentBoth bad garbage number next) (length_sent garbled _ _)
      (length_sent garbled _ _)
  refine ⟨written, after, ?_, rest⟩
  refine (Suffers.demand_ok rfl _ firstOpen rfl).check_ok ?_
  refine (suffers_writeNumber firstWrite _).check_ok ?_
  refine (Suffers.demand_ok rfl _ secondOpen rfl).check_ok ?_
  refine (suffers_writeNumber secondWrite _).check_ok ?_
  exact (Suffers.demand_ok rfl _ firstClose rfl).check_ok (.demand_ok rfl _ secondClose rfl)

theorem silent_demand {c : Syscall} (other : c.isWrite = false) (wording : Errno → String)
    {past : List Exchange} {result : List Exchange → c.Value → Prop}
    (any : ∀ past value, result past value)
    : (Check.demand c wording).Upholds (fun _ c => c.isWrite = false) result (fun _ _ => True)
        past :=
  Check.upholds_demand.mpr ⟨other, fun _ => any _ _, fun _ => trivial⟩

/-- Reading a record takes no writes. -/
theorem silent_readNumber {past : List Exchange} (fd : Fd) (name : String)
    {result : List Exchange → Int32 → Prop} (any : ∀ past value, result past value)
    : (readNumber fd name).Upholds (fun _ c => c.isWrite = false) result
        (fun _ _ => True) past := by
  refine Check.upholds_bind.mpr (silent_demand rfl _ fun _ delivery => ?_)
  refine Check.upholds_bind.mpr (Check.upholds_require_of ?_ trivial)
  split
  · exact any _ _
  · trivial

theorem silent_readState (past : List Exchange)
    : (readState pair).Upholds (fun _ c => c.isWrite = false) (fun _ _ => True) (fun _ _ => True)
        past := by
  refine Check.upholds_bind.mpr (silent_demand rfl _ fun _ firstFd => ?_)
  refine Check.upholds_bind.mpr (silent_demand rfl _ fun _ secondFd => ?_)
  refine Check.upholds_bind.mpr (silent_readNumber secondFd pair.second fun _ second => ?_)
  refine Check.upholds_bind.mpr (silent_readNumber firstFd pair.first fun _ first => ?_)
  refine Check.upholds_bind.mpr (silent_demand rfl _ fun _ _ => ?_)
  exact Check.upholds_bind.mpr (silent_demand rfl _ fun _ _ => trivial)

theorem silent_removal (past : List Exchange)
    : (do
        Prog.attempt (.unlink pair.first)
        Prog.attempt (.unlink pair.second)).Upholds (fun _ c => c.isWrite = false)
        (fun _ _ => True) past :=
  ⟨rfl, fun _ => ⟨rfl, fun _ => trivial⟩⟩

-----------------------------------------------------------------------------------------
-- All rounds
-----------------------------------------------------------------------------------------

/-- Rounds stop at garbage in the files or in what they write, unless it is what the last
round writes; otherwise they are rounds in memory. By induction on their number, with the
rounds made so far.
-/
theorem suffers_rounds (garbled : Garbled garbage error) (usable : Usable start count pair)
    (number made : Nat) (between : Between start pid slots count pair files kernel)
    (stores : pair.Stores files first second (sentBoth bad garbage (2 * made) state))
    : ∃ after later,
        Suffers bad garbage pid kernel (2 * made + 2) (rounds pair number state.2).run
          (if 2 * made < bad ∧ bad ≤ 2 * (made + number) then .error (detected pair bad error)
            else .ok (iterate number state).2)
          after later := by
  induction number generalizing made files kernel state with
  | zero =>
      rw [if_neg (by omega)]
      exact ⟨kernel, _, .done⟩
  | succ number ih =>
      obtain ⟨middle, reads, kept⟩ := performs_readings usable between stores
      have reads : Suffers bad garbage pid kernel (2 * made + 2) (readState pair).run _ middle _ :=
        reads.suffers (silent_readState [])
      rw [readings_sentBoth garbled] at reads kept
      by_cases here : bad = 2 * made + 1 ∨ bad = 2 * made + 2
      · rw [if_pos here] at reads
        rw [if_pos (by omega)]
        exact ⟨middle, _, reads.check_stop _⟩
      · rw [if_neg here] at reads kept
        obtain ⟨written, k, writes, between, stores⟩ :=
          suffers_writeState garbled usable (kept state rfl) stores (2 * made + 2) (advance state)
        obtain ⟨after, later, onward⟩ := ih (made + 1) between stores
        refine ⟨after, later, reads.check_ok (writes.check_ok ?_)⟩
        have same
            : 2 * (made + 1) < bad ∧ bad ≤ 2 * (made + 1 + number)
              ↔ 2 * made < bad ∧ bad ≤ 2 * (made + (number + 1)) := by
          omega
        simp only [same] at onward
        exact onward

/-- A whole computation stops at the garbage of any write but the last two that it makes. -/
theorem suffers_compute (garbled : Garbled garbage error) (usable : Usable start count pair)
    (number bad : Nat) (between : Between start pid slots count pair files kernel)
    : ∃ after later,
        Suffers bad garbage pid kernel 0 (compute pair number).run
          (if 0 < bad ∧ bad ≤ 2 * number then .error (detected pair bad error)
            else .ok (expected number))
          after later := by
  have room : count < start.config.maxOpenFiles := Nat.lt_of_succ_lt usable.room
  obtain ⟨first, made, k₁, firstSeed, between, firstNamed, firstData, -, -⟩ :=
    suffers_seed garbled between room (.inl rfl) (between.accepted usable (.inl rfl)) 0 0
  obtain ⟨second, both, k₂, secondSeed, between, secondNamed, secondData, names, data⟩ :=
    suffers_seed garbled between room (.inr rfl) (between.accepted usable (.inr rfl)) 1 1
  have stores : pair.Stores both first second (sentBoth bad garbage 0 (0, 1)) :=
    FilePair.stores_of_made usable.different between.spares.distinct firstNamed
      firstData secondNamed
      secondData names data (length_sent garbled 1 0) (length_sent garbled 2 1)
  obtain ⟨after, later, onward⟩ :=
    suffers_rounds garbled usable number 0 between stores
  simp only [Nat.mul_zero, Nat.zero_add] at onward
  exact ⟨after, later, firstSeed.check_ok (secondSeed.check_ok onward)⟩

/-- A whole run, after which neither file is there. -/
theorem suffers_run (garbled : Garbled garbage error) (usable : Usable start count pair)
    (number bad : Nat) (between : Between start pid slots count pair files kernel)
    (admits : kernel.files.Admits)
    : ∃ after later,
        Suffers bad garbage pid kernel 0 (run pair number).run
          (if 0 < bad ∧ bad ≤ 2 * number then .error (detected pair bad error)
            else .ok (expected number))
          after later
        ∧ ∀ name, pair.Names name → after.files.names.get? name = none := by
  obtain ⟨middle, next, computes⟩ := suffers_compute garbled usable number bad between
  have admits := computes.keeps (fun kernel => kernel.files.Admits) Kernel.call_admits admits
  obtain ⟨after, removes, absent⟩ := performs_removal pid pair admits
  have removes : Suffers bad garbage pid middle next _ () after next :=
    removes.suffers (silent_removal [])
  refine ⟨after, next, ?_, absent⟩
  split
  · next here =>
      rw [if_pos here] at computes
      exact computes.andFinally_violation removes
  · next elsewhere =>
      rw [if_neg elsewhere] at computes
      exact computes.andFinally_ok removes

-----------------------------------------------------------------------------------------
-- Where damage is found
-----------------------------------------------------------------------------------------

/-- The first process that is started has what a run needs. -/
theorem exists_started
    : ∃ kernel,
        Kernel.Run .standard [.register "p", .spawn "p" [] (.ok .first)] kernel
        ∧ kernel.processes.isRunning .first = true
        ∧ (kernel.fds .first).size + 2 ≤ Config.standard.maxOpenFiles
        ∧ ∀ name, (FilePair.mk "a" "b").Names name → kernel.files.acceptsName name = true := by
  refine ⟨_, .extend .boot (.cons (.register "p") (.cons (.spawn rfl) .nil)), rfl, by decide, ?_⟩
  rintro name (rfl | rfl) <;> decide

section Runs

variable {ρ : Type} {config : Config} {deeds : List Deed}

/-- A run in a kernel that other runs lead to, and what it comes to. -/
theorem runFor_damaged (reached : Kernel.Run config deeds kernel) (images : Images ρ)
    (reports : List (Pid × ρ)) (runs : kernel.processes.isRunning pid = true)
    (room : (kernel.fds pid).size + 2 ≤ config.maxOpenFiles) (different : pair.first ≠ pair.second)
    (accepted : ∀ name, pair.Names name → kernel.files.acceptsName name = true)
    (garbled : Garbled garbage error) (number bad : Nat)
    : ∃ observation after,
        Machine.runFor images pid
            (Observation.observe [.badWrite bad garbage] (run pair number).run .empty)
            ⟨kernel, reports⟩
          = (some
              (some (if 0 < bad ∧ bad ≤ 2 * number then .error (detected pair bad error)
                else .ok (expected number)), observation),
            ⟨after, reports⟩)
        ∧ ∀ name, pair.Names name → after.files.names.get? name = none := by
  have usable : Usable kernel (kernel.fds pid).size pair :=
    ⟨different, accepted, reached.tidy.configured ▸ room⟩
  obtain ⟨after, _, suffers, absent⟩ :=
    suffers_run garbled usable number bad (.of_run reached runs pair) reached.admits
  obtain ⟨observation, -, performs⟩ := suffers .empty rfl
  exact ⟨observation, after, performs.runFor images reports, absent⟩

/-- If the kernel is given garbage in place of the bytes of one write, then the run comes to
a failure that names the file and says what is wrong with its bytes, for every write but the
two of the last round. Those are never read, and the run comes to what it must. Neither file
is there afterwards.
-/
theorem run_finds_garbage (reached : Kernel.Run config deeds kernel) (images : Images ρ)
    (reports : List (Pid × ρ)) (runs : kernel.processes.isRunning pid = true)
    (room : (kernel.fds pid).size + 2 ≤ config.maxOpenFiles) (different : pair.first ≠ pair.second)
    (accepted : ∀ name, pair.Names name → kernel.files.acceptsName name = true)
    (garbled : Garbled garbage error) (number : Nat) {bad : Nat} (counted : 1 ≤ bad)
    : ∃ outcome observation after,
        Machine.runFor images pid
            (Observation.observe [.badWrite bad garbage] (run pair number).run .empty)
            ⟨kernel, reports⟩
          = (some (some outcome, observation), ⟨after, reports⟩)
        ∧ (bad ≤ 2 * number
            → outcome
              = .error (.violation (.failure s!"{pair.target bad}: {error.message}")))
        ∧ (2 * number < bad → outcome = .ok (expected number))
        ∧ ∀ name, pair.Names name → after.files.names.get? name = none := by
  obtain ⟨observation, after, performed, absent⟩ :=
    runFor_damaged reached images reports runs room different accepted garbled number bad
  refine ⟨_, observation, after, performed, fun early => ?_, fun late => ?_, absent⟩
  · exact if_pos ⟨counted, early⟩
  · exact if_neg fun early => Nat.not_lt_of_le early.2 late

/-- A round finds the misprint that the second file was made with. -/
theorem run_finds_garbage_second
    : ∃ kernel observation after,
        Kernel.Run .standard [.register "p", .spawn "p" [] (.ok .first)] kernel
        ∧ Machine.runFor (fun _ => none : Images Unit) .first
            (Observation.observe [.badWrite 2 misprint] (run ⟨"a", "b"⟩ 1).run .empty) ⟨kernel, []⟩
          = (some
              (some (.error (.violation (.failure
                "b: record is not a number: invalid digit found in string"))), observation),
            ⟨after, []⟩) := by
  obtain ⟨kernel, reached, runs, room, accepted⟩ := exists_started
  obtain ⟨outcome, observation, after, performed, early, -, -⟩ :=
    run_finds_garbage reached (fun _ => none : Images Unit) [] runs room (by decide) accepted
      garbled_misprint 1 (show 1 ≤ 2 by decide)
  rw [early (by decide)] at performed
  exact ⟨kernel, observation, after, reached, performed⟩

/-- Not every write that leaves garbage keeps a run from what it must come to: the third one of a
single round does not.
-/
theorem not_finds_garbage_last
    : ¬∀ (kernel : Kernel) (config : Config) (deeds : List Deed) (pid : Pid) (pair : FilePair)
          (garbage : Bytes) (error : Record.DecodeError) (number bad : Nat),
          Kernel.Run config deeds kernel
          → kernel.processes.isRunning pid = true
          → (kernel.fds pid).size + 2 ≤ config.maxOpenFiles
          → pair.first ≠ pair.second
          → (∀ name, pair.Names name → kernel.files.acceptsName name = true)
          → Garbled garbage error
          → 1 ≤ number
          → 1 ≤ bad
          → bad ≤ 2 * number + 2
          → ∀ observation after,
              Machine.runFor (fun _ => none : Images Unit) pid
                  (Observation.observe [.badWrite bad garbage] (run pair number).run .empty)
                  ⟨kernel, []⟩
                ≠ (some (some (.ok (expected number)), observation), after) := by
  intro noticed
  obtain ⟨kernel, reached, runs, room, accepted⟩ := exists_started
  obtain ⟨observation, after, performed, -⟩ :=
    runFor_damaged reached (fun _ => none : Images Unit) [] runs room (by decide) accepted
      garbled_misprint 1 3
  exact noticed kernel .standard _ .first ⟨"a", "b"⟩ misprint _ 1 3 reached runs room (by decide)
    accepted garbled_misprint (by decide) (by decide) (by decide) observation _ performed

end Runs

end Recurrence

end KernelConformance
