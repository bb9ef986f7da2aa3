import KernelConformance.Proofs.Files.BoundedCalls
import KernelConformance.Proofs.Suite.ProbeDetection
import KernelConformance.Proofs.Text.Records
import KernelConformance.Suite.Programs

/-! The test programs with bounds. Where a program indexes or cuts a list, it faults if this goes
beyond the end of it, and the array of a probe has all its slots from the start. This makes no
difference to what the programs do, on any system.
-/

namespace KernelConformance

open Randomness (Stream)

variable {α β : Type}

/-- Programs that go on in the same way with every value that the first part comes to are equal, by
induction on the first part.
-/
theorem Prog.bind_congr {prog : Prog α} {f g : α → Prog β}
    (same : ∀ exchanges value, prog.Reaches exchanges (.done value) → f value = g value)
    : (prog >>= f) = (prog >>= g) := by
  induction prog with
  | done value => exact same [] value .refl
  | call c next ih =>
      refine congrArg (Prog.call c) (funext fun reply => ih reply fun exchanges value reached => ?_)
      exact same _ value (.call reply reached)

namespace Check

/-- Goes on with what an access gives, or faults if it is out of bounds. -/
def access : Option α → Check α
  | some value => pure value
  | none => fault

/-- The element at an index. -/
def element (index : Nat) (list : List α) : Check α := access list[index]?

/-- The first elements of a list. -/
def firsts (count : Nat) (list : List α) : Check (List α) := access (Bounded.firsts count list)

/-- Puts another value at an index. -/
def replace (index : Nat) (value : α) (list : List α) : Check (List α) :=
  access (Bounded.replace index value list)

/-- Exchanges the elements at two indices. -/
def swap (left right : Nat) (list : List α) : Check (List α) := do
  let first ← element left list
  let second ← element right list
  replace right first (← replace left second list)

variable {list : List α} {index count : Nat}

theorem element_eq (inside : index < list.length) : element index list = pure list[index] := by
  rw [element, List.getElem?_eq_getElem inside, access]

theorem firsts_eq (inside : count ≤ list.length) : firsts count list = pure (list.take count) := by
  rw [firsts, Bounded.firsts_eq inside, access]

theorem replace_eq (value : α) (inside : index < list.length)
    : replace index value list = pure (list.set index value) := by
  rw [replace, Bounded.replace_eq value inside, access]

/-- The calls of a program are made in two parts, as they are by the program. -/
theorem lift_bind (prog : Prog α) (f : α → Prog β)
    : (ExceptT.lift (prog >>= f) : Check β)
      = (do
        let value ← ExceptT.lift prog
        ExceptT.lift (f value)) := by
  change Except.ok <$> (prog >>= f) = (Except.ok <$> prog) >>= _
  rw [map_bind, bind_map_left]
  rfl

/-- Checks that go on in the same way with every value that the first part comes to are equal. -/
theorem bind_congr {check : Check α} {f g : α → Check β}
    (same : ∀ exchanges value, check.run.Reaches exchanges (.done (.ok value)) → f value = g value)
    : (check >>= f) = (check >>= g) := by
  refine Prog.bind_congr fun exchanges outcome reached => ?_
  cases outcome with
  | ok value => exact same exchanges value reached
  | error => rfl

end Check

-----------------------------------------------------------------------------------------
-- Permutations
-----------------------------------------------------------------------------------------

namespace Randomness

/-- Adds more numbers, each of which changes places with one that is drawn, or with itself. -/
def boundedShuffle : Nat → List Nat → Stream → Check (List Nat × Stream)
  | 0, numbers, stream => pure (numbers, stream)
  | count + 1, numbers, stream => do
      let (position, stream) := stream.below (numbers.length + 1)
      let numbers ← Check.swap numbers.length position (numbers ++ [numbers.length])
      boundedShuffle count numbers stream

/-- A random permutation of the numbers below `count`. -/
def boundedPermutation (count : Nat) (stream : Stream) : Check (List Nat × Stream) :=
  boundedShuffle count [] stream

/-- The number that was added last changes places with the one at the position. -/
theorem swap_eq {numbers : List Nat} {position : Nat} (inside : position ≤ numbers.length)
    : Check.swap numbers.length position (numbers ++ [numbers.length])
      = pure (place numbers position) := by
  have last : numbers.length < (numbers ++ [numbers.length]).length := by simp
  have drawn : position < (numbers ++ [numbers.length]).length := by simp; omega
  rw [Check.swap, Check.element_eq last, Check.element_eq drawn]
  simp only [pure_bind]
  rw [Check.replace_eq _ last, pure_bind, Check.replace_eq _ (by simpa using drawn)]
  refine congrArg pure (List.ext_getElem? fun index => ?_)
  rcases Nat.lt_or_eq_of_le inside with before | rfl
  · simp [place, List.getElem?_set, List.getElem?_append, before]
  · rw [place, List.set_eq_of_length_le (Nat.le_refl numbers.length)]
    simp

/-- Positions are drawn up to the end, by induction on their number. -/
theorem boundedShuffle_eq (count : Nat) (numbers : List Nat) (stream : Stream)
    : boundedShuffle count numbers stream
      = pure ((drawPositions count numbers.length stream).1.foldl place numbers,
          (drawPositions count numbers.length stream).2) := by
  induction count generalizing numbers stream with
  | zero => rfl
  | succ count ih =>
      have inside := Stream.below_lt (Nat.succ_pos numbers.length) stream
      have grown (position : Nat) : (place numbers position).length = numbers.length + 1 := by
        simp [place]
      rw [boundedShuffle]
      dsimp only
      rw [swap_eq (Nat.le_of_lt_succ inside), pure_bind, ih, grown]
      rfl

theorem boundedPermutation_eq (count : Nat) (stream : Stream)
    : boundedPermutation count stream = pure (permutation count stream) :=
  boundedShuffle_eq count [] stream

end Randomness

-----------------------------------------------------------------------------------------
-- Slots
-----------------------------------------------------------------------------------------

namespace Probe

open Randomness (permutation boundedPermutation)

/-- Checks slots of an array from a number on. -/
def boundedCheckFrom (round : Nat) (array : Slots) : Nat → Slots → Check Unit
  | _, [] => pure ()
  | slot, none :: _ => Check.violate (.failure s!"test_fd: round {round} fd[{slot}] fails")
  | slot, some fd :: rest => do
      Check.require (!fd.isStandard) (.failure s!"test_fd: illegal use fd {fd.text}.")
      let before ← Check.firsts slot array
      Check.require (some fd ∉ before)
        (.failure s!"test_fd: round {round} fd[{slot}] = {fd.text} is already held")
      boundedCheckFrom round array (slot + 1) rest

/-- Checks the slots of a round. -/
def boundedCheck (round : Nat) (array : Slots) : Check Unit := do
  boundedCheckFrom round array 0 (← Check.firsts round array)

/-- Closes the descriptors of the slots with the given numbers, in their order. -/
def boundedRelease (keepFirst : Bool) : List Nat → Slots → Check Slots
  | [], array => pure array
  | slot :: rest, array =>
      if slot = 0 ∧ keepFirst then boundedRelease keepFirst rest array
      else do
        match ← Check.element slot array with
        | none => boundedRelease keepFirst rest array
        | some fd => do
            ExceptT.lift (Prog.attempt (.close fd))
            boundedRelease keepFirst rest (array.set slot none)

/-- Opens the file for each of the first slots that is empty. -/
def boundedRefill (file : String) (count : Nat) (array : Slots) : Check Slots := do
  let front ← Check.firsts count array
  let filled ← ExceptT.lift (refill file front)
  pure (filled ++ array.drop count)

/-- Makes `count` rounds from the given one on. -/
def boundedRounds (probe : Probe) : Nat → Nat → Slots → Stream → Check (Slots × Stream)
  | 0, _, array, stream => pure (array, stream)
  | count + 1, round, array, stream => do
      boundedCheck round array
      if probe.isAlone then
        let fds := String.intercalate " " ((held (← Check.firsts round array)).map Fd.text)
        ExceptT.lift (Prog.putLine s!"round {round} fds: {fds}")
      let (order, stream) ← boundedPermutation round stream
      if count = 0 then pure (array, stream)
      else
        let array ← boundedRelease (!probe.isAlone) order array
        let array ← boundedRefill probe.file (round + 1) array
        boundedRounds probe count (round + 1) array stream

/-- Checks that nothing more can be opened if the probe is alone, and says what is held. -/
def boundedConclude (probe : Probe) (result : Slots × Stream) : Check (List Fd × Stream) := do
  if probe.isAlone then
    match ← Check.perform (.openFile probe.file) with
    | .error _ => pure ()
    | .ok extra =>
        ExceptT.lift (Prog.attempt (.close extra))
        Check.violate (.failure "test_fd: available fds exceed.")
  let front ← Check.firsts (probe.capacity - 1) result.1
  pure (held front, result.2)

/-- Makes the file and all rounds. -/
def boundedOpenRounds (probe : Probe) (stream : Stream) : Check (List Fd × Stream) := do
  let first ← Check.demand (.creat probe.file) fun error =>
    s!"test_fd: {probe.file} create fails: {error.message}"
  let array ← Check.replace 0 (some first) (List.replicate probe.capacity none)
  ExceptT.lift (Prog.attempt (.close .stdin))
  boundedConclude probe (← boundedRounds probe (probe.capacity - 1) 1 array stream)

/-- Makes all rounds, and removes the file on a violation and when the probe is alone. -/
def boundedRun (probe : Probe) (stream : Stream) : Check (List Fd × Stream) :=
  Check.andFinally (do
    Check.require (2 ≤ probe.capacity)
      (.failure s!"test_fd: capacity {probe.capacity} is too small")
    checkAbsent probe
    if maxSlots < probe.capacity then Check.fault else boundedOpenRounds probe stream)
    fun result =>
      if !result.toBool || probe.isAlone then Prog.attempt (.unlink probe.file) else pure ()

variable {probe : Probe} {slots : Slots} {exchanges : List Exchange}

/-- Slots are checked against those before them, by induction on them. -/
theorem boundedCheckFrom_eq (round : Nat) (before : List Fd) (slots after : Slots)
    : boundedCheckFrom round (before.map some ++ slots ++ after) before.length slots
      = Check.ofResult (checkSlots round before slots) := by
  induction slots generalizing before with
  | nil => rfl
  | cons slot rest ih =>
      cases slot with
      | none => rfl
      | some fd =>
          have next := ih (before ++ [fd])
          simp only [List.map_append, List.map_cons, List.map_nil, List.append_assoc,
            List.cons_append, List.nil_append, List.length_append,
            List.length_cons, List.length_nil, Nat.zero_add] at next
          rw [boundedCheckFrom, checkSlots, Check.firsts_eq (by simp)]
          have front
              : (before.map some ++ some fd :: rest ++ after).take before.length
                = before.map some := by
            rw [List.append_assoc, List.take_left' (by simp)]
          simp only [pure_bind, front]
          by_cases standard : fd.isStandard = true
          · simp only [standard, if_true, Check.require]
            rfl
          · by_cases member : fd ∈ before
            · simp [standard, member, Check.require]
              rfl
            · simp only [standard, member, Check.require]
              simpa [member] using next

theorem boundedCheck_eq (after : Slots)
    : boundedCheck slots.length (slots ++ after)
      = Check.ofResult (checkSlots slots.length [] slots) := by
  rw [boundedCheck, Check.firsts_eq (by simp), pure_bind, List.take_left]
  exact boundedCheckFrom_eq slots.length [] slots after

/-- Slots behind those that are released stay as they are, by induction on the order. -/
theorem boundedRelease_eq (keepFirst : Bool) {order : List Nat} (after : Slots)
    (inside : ∀ slot ∈ order, slot < slots.length)
    : boundedRelease keepFirst order (slots ++ after)
      = (do
        let left ← ExceptT.lift (release keepFirst order slots)
        pure (left ++ after)) := by
  induction order generalizing slots with
  | nil => rfl
  | cons slot rest ih =>
      have first := inside slot (List.mem_cons_self ..)
      have later (other : Nat) (member : other ∈ rest) : other < slots.length :=
        inside other (List.mem_cons_of_mem _ member)
      rw [boundedRelease, release]
      split
      · exact ih later
      · rw [Check.element_eq (by simp; omega), pure_bind, List.getElem_append_left first]
        have found : slots.getD slot none = slots[slot] := by simp [first]
        rw [found]
        rcases slots[slot] with _ | fd
        · exact ih later
        dsimp only
        rw [Check.lift_bind, bind_assoc]
        refine congrArg (ExceptT.lift (Prog.attempt (.close fd)) >>= ·) (funext fun _ => ?_)
        · have next := @ih (slots.set slot none) fun other member => by
            rw [List.length_set]
            exact later other member
          rw [List.set_append_left _ _ first]
          exact next

theorem length_release {keepFirst : Bool} {order : List Nat} {left : Slots}
    (reached : (release keepFirst order slots).Reaches exchanges (.done left))
    : left.length = slots.length := by
  induction order generalizing slots exchanges with
  | nil =>
      cases reached
      rfl
  | cons slot rest ih =>
      unfold release at reached
      split at reached
      · exact ih reached
      · split at reached
        · exact ih reached
        · cases reached with
          | call reply onward => rw [ih onward, List.length_set]

/-- The rounds hold one more slot each, by induction on their number. -/
theorem length_rounds {count : Nat} {stream last : Stream} {left : Slots}
    (reached
      : (rounds probe (count + 1) slots stream).run.Reaches exchanges (.done (.ok (left, last))))
    : left.length = slots.length + count := by
  induction count generalizing slots stream exchanges with
  | zero =>
      obtain ⟨-, order, rest, onward | ⟨bytes, reply, more, rfl, onward⟩⟩ :=
        reaches_rounds_succ reached
      · cases onward
        rfl
      · cases onward
        rfl
  | succ count ih =>
      have goes (order : List Nat) (stream : Stream) {exchanges : List Exchange}
          (reached
            : (onward probe (count + 1) order slots stream).run.Reaches exchanges
                (.done (.ok (left, last))))
          : left.length = slots.length + (count + 1) := by
        obtain ⟨released, filled, before, middle, after, rfl, closes, opens, further⟩ :=
          reaches_onward_succ reached
        have length := (held_refill opens).2
        rw [List.length_append, length_release closes] at length
        rw [ih further, length, List.length_singleton]
        omega
      obtain ⟨-, order, rest, onward | ⟨bytes, reply, more, rfl, onward⟩⟩ :=
        reaches_rounds_succ reached
      · exact goes order rest onward
      · exact goes order rest onward

/-- Between two rounds the array has the slots of the rounds, and behind them those that
are still empty.
-/
theorem boundedTurn_eq {order : List Nat} (count : Nat)
    (inside : ∀ slot ∈ order, slot < slots.length) (next : Slots → Check α) (keepFirst : Bool)
    (file : String)
    : (do
        let array ← boundedRelease keepFirst order (slots ++ List.replicate (count + 1) none)
        let array ← boundedRefill file (slots.length + 1) array
        next array)
      = (do
        let left ← ExceptT.lift (release keepFirst order slots)
        let filled ← ExceptT.lift (refill file (left ++ [none]))
        next (filled ++ List.replicate count none)) := by
  rw [boundedRelease_eq keepFirst _ inside, bind_assoc]
  refine Check.bind_congr fun exchanges left reached => ?_
  have length := length_release (Check.reaches_lift reached)
  have whole
      : left ++ List.replicate (count + 1) none = left ++ [none] ++ List.replicate count none := by
    rw [List.append_assoc]
    rfl
  have count : slots.length + 1 = (left ++ [none]).length := by simp [length]
  rw [pure_bind, boundedRefill, whole, Check.firsts_eq (by simp [length]), pure_bind, count,
    List.take_left, List.drop_left, bind_assoc]
  simp only [pure_bind]

/-- What is left of some rounds when the slots of one of them are checked and its order is drawn. -/
def boundedOnward (probe : Probe) (count : Nat) (order : List Nat) (round : Nat) (array : Slots)
    (stream : Stream)
    : Check (Slots × Stream) :=
  if count = 0 then pure (array, stream)
  else do
    let array ← boundedRelease (!probe.isAlone) order array
    let array ← boundedRefill probe.file (round + 1) array
    boundedRounds probe count (round + 1) array stream

/-- A round looks at its own slots alone, and its order is made of their numbers. -/
theorem boundedRounds_succ {count : Nat} {after : Slots} (stream : Stream)
    {next : Slots × Stream → Check (Slots × Stream)}
    (goes
      : ∀ order rest,
          (∀ slot ∈ order, slot < slots.length)
          → boundedOnward probe count order slots.length (slots ++ after) rest
            = onward probe count order slots rest >>= next)
    : boundedRounds probe (count + 1) slots.length (slots ++ after) stream
      = rounds probe (count + 1) slots stream >>= next := by
  have onward := goes (permutation slots.length stream).1 (permutation slots.length stream).2
    fun slot member =>
      List.mem_range.mp ((Randomness.permutation_perm slots.length stream).mem_iff.mp member)
  rw [boundedOnward, Probe.onward] at onward
  rw [boundedRounds, rounds]
  dsimp only
  rw [boundedCheck_eq, bind_assoc, Check.firsts_eq (by simp), List.take_left,
    Randomness.boundedPermutation_eq]
  refine congrArg (Check.ofResult _ >>= ·) (funext fun _ => ?_)
  simp only [pure_bind]
  by_cases alone : probe.isAlone = true
  · rw [if_pos alone, if_pos alone, bind_assoc]
    exact congrArg (ExceptT.lift _ >>= ·) (funext fun _ => onward)
  · rw [if_neg alone, if_neg alone]
    exact onward

/-- An array that has all its slots from the start is used as slots that grow by one in each round,
by induction on the number of rounds.
-/
theorem boundedRounds_eq (count : Nat) (stream : Stream)
    : boundedRounds probe (count + 1) slots.length (slots ++ List.replicate (count + 1) none) stream
      = rounds probe (count + 1) slots stream >>= fun (left, stream) =>
        pure (left ++ [none], stream) := by
  induction count generalizing slots stream with
  | zero => exact boundedRounds_succ stream fun order rest _ => rfl
  | succ count ih =>
      refine boundedRounds_succ stream fun order rest inside => ?_
      rw [boundedOnward, onward, if_neg (Nat.succ_ne_zero count), if_neg (Nat.succ_ne_zero count),
        boundedTurn_eq _ inside, bind_assoc]
      refine Check.bind_congr fun exchanges left closes => ?_
      rw [bind_assoc]
      refine Check.bind_congr fun exchanges filled opens => ?_
      have length := (held_refill (Check.reaches_lift opens)).2
      rw [List.length_append, length_release (Check.reaches_lift closes), List.length_singleton]
        at length
      rw [← length]
      exact ih rest

theorem boundedConclude_eq {left : Slots} (length : left.length = probe.capacity - 1)
    (stream : Stream)
    : boundedConclude probe (left ++ [none], stream) = conclude probe (left, stream) := by
  rw [boundedConclude, conclude]
  dsimp only
  rw [Check.firsts_eq (by simp [length]), ← length, List.take_left]
  simp only [pure_bind]
  split
  · refine congrArg (Check.perform (.openFile probe.file) >>= ·) (funext fun reply => ?_)
    cases reply <;> rfl
  · rfl

theorem boundedOpenRounds_eq (large : 2 ≤ probe.capacity) (stream : Stream)
    : boundedOpenRounds probe stream = openRounds probe stream := by
  have capacity : probe.capacity = probe.capacity - 2 + 1 + 1 := by omega
  have count : probe.capacity - 1 = probe.capacity - 2 + 1 := by omega
  rw [boundedOpenRounds, openRounds]
  refine congrArg (Check.demand _ _ >>= ·) (funext fun first => ?_)
  rw [Check.replace_eq _ (by simp; omega), pure_bind]
  refine congrArg (ExceptT.lift (Prog.attempt (.close .stdin)) >>= ·) (funext fun _ => ?_)
  have array
      : (List.replicate probe.capacity none).set 0 (some first)
        = [some first] ++ List.replicate (probe.capacity - 2 + 1) none := by
    rw [capacity]
    rfl
  have whole := @boundedRounds_eq probe [some first] (probe.capacity - 2) stream
  rw [List.length_singleton] at whole
  rw [array, count, whole, bind_assoc]
  refine Check.bind_congr fun exchanges result reached => ?_
  obtain ⟨left, stream⟩ := result
  have length := length_rounds reached
  rw [pure_bind]
  refine boundedConclude_eq ?_ stream
  rw [length, List.length_singleton]
  omega

/-- No access of a probe is out of bounds, whatever its capacity is and whatever the replies are. -/
theorem boundedRun_eq (probe : Probe) (stream : Stream)
    : boundedRun probe stream = run probe stream := by
  rw [boundedRun, run, runAllRounds_eq]
  refine congrArg (Check.andFinally · _) (Check.bind_congr fun exchanges value reached => ?_)
  have large := of_decide_eq_true (Check.reaches_require reached).2
  refine congrArg (checkAbsent probe >>= ·) (funext fun _ => ?_)
  rw [boundedOpenRounds_eq large]

end Probe

-----------------------------------------------------------------------------------------
-- Records
-----------------------------------------------------------------------------------------

namespace Record

open Utf8 (Bytes)

/-- The record of an integer: its text in front of NULs. -/
def boundedEncode (value : Int32) : Check Bytes :=
  let text := Utf8.encode (Decimal.write value)
  Check.access (Bounded.overwrite 0 text.length text (List.replicate width 0))

/-- The bytes in front of the first NUL, or all of them if there is none. -/
def boundedPayload (record : Bytes) : Check Bytes :=
  Check.firsts (record.findIdx (· = 0)) record

/-- The text of an integer fits in a record. -/
theorem boundedEncode_eq (value : Int32) : boundedEncode value = pure (encode value) := by
  have short : (Utf8.encode (Decimal.write value)).length ≤ width := by
    have length := length_encode value
    simp only [encode, List.length_append, List.length_replicate] at length
    omega
  rw [boundedEncode, Bounded.overwrite_eq (Nat.zero_le _) (by simpa using short) rfl, encode,
    List.drop_replicate]
  rfl

theorem boundedPayload_eq (record : Bytes) : boundedPayload record = pure (payload record) := by
  have front : record.takeWhile (· ≠ 0) = record.take (record.findIdx (· = 0)) := by
    rw [List.takeWhile_eq_take_findIdx_not]
    simp
  rw [boundedPayload, Check.firsts_eq List.findIdx_le_length, payload, front]

end Record

-----------------------------------------------------------------------------------------
-- The program
-----------------------------------------------------------------------------------------

/-- Makes a probe: alone without arguments, and otherwise as the one of several that
the arguments name.
-/
def FdTest.boundedBody (argv : List String) : Check Int32 := do
  if argv.length ≤ 1 then
    let _ ← Probe.alone.boundedRun (.ofSeed loneSeed)
    ExceptT.lift (Prog.putLine "--- PASS test_fd")
    pure 0
  else
    Check.require (3 ≤ argv.length) (.wrongResult "test_fd: argc < 3")
    let text ← Check.element 1 argv
    ExceptT.lift (Prog.putLine s!"multiprogramming: {text}")
    let index := (← argumentInt32 "instance" 1 argv).getD 0
    let file ← Check.element 2 argv
    let _ ← (Probe.shared index file).boundedRun (.ofSeed index.toInt.natAbs)
    ExceptT.lift (Prog.putLine s!"--- PASS test_fd {Decimal.write index}")
    pure index

/-- No access of a probe's program is out of bounds, whatever its arguments are. -/
theorem FdTest.boundedBody_eq (argv : List String) : boundedBody argv = body argv := by
  unfold boundedBody body
  split
  · rw [Probe.boundedRun_eq]
  · refine Check.bind_congr fun exchanges value reached => ?_
    have enough := of_decide_eq_true (Check.reaches_require reached).2
    have given (index : Nat) (inside : index < argv.length) : argv.getD index "" = argv[index] := by
      simp [List.getD, inside]
    rw [Check.element_eq (by omega), pure_bind, Check.element_eq (by omega),
      given 1 (by omega), given 2 (by omega)]
    simp only [pure_bind, Probe.boundedRun_eq]

end KernelConformance
