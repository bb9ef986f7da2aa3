import KernelConformance.Randomness.Shuffle
import KernelConformance.Suite.Check

/-! A probe of a process's descriptors. It holds one more descriptor in each round, and between
rounds closes them in a random order and opens them again, so the kernel reuses numbers in every
pattern; it must never hand out a number twice or run out early.
-/

namespace KernelConformance

open Randomness

/-- Whether a probe has the kernel for itself, or is one of several. -/
inductive Probe.Mode where
  | alone
  | shared (index : Int32)
  deriving DecidableEq

/-- A probe: how many descriptors are expected to be possible, the file that it opens, and the mode.
Alone it checks that no more are possible and removes its file; one of several keeps its first
descriptor and leaves the file in place.
-/
structure Probe where
  capacity : Nat
  file : String
  mode : Probe.Mode
  deriving DecidableEq

namespace Probe

/-- The most slots that a process has room for: a slot takes 16 bytes, and a process addresses fewer
than 0x8000000000000000 bytes.
-/
def maxSlots : Nat := 0x7ffffffffffffff

/-- The capacity of a probe that is alone. -/
def loneCapacity : Nat := 16

/-- The capacity of one of several probes. -/
def sharedCapacity : Nat := 8

/-- The file of a probe that is alone. -/
def loneFile : String := "nachos_test_fd.txt.test"

/-- The probe that is alone. -/
def alone : Probe := ⟨loneCapacity, loneFile, .alone⟩

/-- One of several probes. -/
def shared (index : Int32) (file : String) : Probe := ⟨sharedCapacity, file, .shared index⟩

/-- Whether a probe is alone. -/
def isAlone (probe : Probe) : Bool := probe.mode = .alone

/-- The description of a mode. -/
def Mode.description : Mode → String
  | .alone => "Single"
  | .shared index => Text.described "Multi" [("instance", Decimal.write index)]

/-- The description of a probe. -/
def description (probe : Probe) : String :=
  Text.described "ProbeConfig"
    [("capacity", toString probe.capacity), ("file", Text.quoted probe.file),
      ("mode", probe.mode.description)]

/-- The descriptors that a probe may hold, one in each slot. -/
abbrev Slots := List (Option Fd)

/-- The descriptors held in some slots. -/
def held (slots : Slots) : List Fd := slots.filterMap id

/-- Checks that each slot holds a descriptor that is neither standard nor among those before it. -/
def checkSlots (round : Nat) : List Fd → Slots → Except Violation Unit
  | _, [] => .ok ()
  | before, none :: _ => .error (.failure s!"test_fd: round {round} fd[{before.length}] fails")
  | before, some fd :: rest =>
      if fd.isStandard then .error (.failure s!"test_fd: illegal use fd {fd.text}.")
      else if fd ∈ before then
        .error (.failure
          s!"test_fd: round {round} fd[{before.length}] = {fd.text} is already held")
      else checkSlots round (before ++ [fd]) rest

/-- Closes the descriptors of the slots with the given numbers, in their order. -/
def release (keepFirst : Bool) : List Nat → Slots → Prog Slots
  | [], slots => pure slots
  | slot :: rest, slots =>
      if slot = 0 ∧ keepFirst then release keepFirst rest slots
      else
        match slots.getD slot none with
        | none => release keepFirst rest slots
        | some fd => do
            Prog.attempt (.close fd)
            release keepFirst rest (slots.set slot none)

/-- Opens the file for each slot that is empty. -/
def refill (file : String) : Slots → Prog Slots
  | [] => pure []
  | some fd :: rest => do
      let filled ← refill file rest
      pure (some fd :: filled)
  | none :: rest => do
      let reply ← Prog.perform (.openFile file)
      let filled ← refill file rest
      pure (reply.toOption :: filled)

/-- Makes `count` rounds. Each has as many slots as its number says, and one more is in use after
it; the last one ends before anything is closed.
-/
def rounds (probe : Probe) : Nat → Slots → Stream → Check (Slots × Stream)
  | 0, slots, stream => pure (slots, stream)
  | count + 1, slots, stream => do
      let round := slots.length
      Check.ofResult (checkSlots round [] slots)
      if probe.isAlone then
        let fds := String.intercalate " " ((held slots).map Fd.text)
        ExceptT.lift (Prog.putLine s!"round {round} fds: {fds}")
      let (order, stream) := permutation round stream
      if count = 0 then pure (slots, stream)
      else
        let slots ← ExceptT.lift (release (!probe.isAlone) order slots)
        let slots ← ExceptT.lift (refill probe.file (slots ++ [none]))
        rounds probe count slots stream

/-- Makes all rounds. A probe that is alone finds no file before them and no descriptor after them;
one that has no room for its slots faults before it makes its file.
-/
def runAllRounds (probe : Probe) (stream : Stream) : Check (List Fd × Stream) := do
  Check.require (2 ≤ probe.capacity)
    (.failure s!"test_fd: capacity {probe.capacity} is too small")
  if probe.isAlone then
    let reply ← Check.perform (.openFile probe.file)
    Check.require (!reply.toBool)
      (.failure s!"test_fd: {probe.file} exists before creation. check unlink.")
  if maxSlots < probe.capacity then Check.fault
  let first ← Check.demand (.creat probe.file) fun error =>
    s!"test_fd: {probe.file} create fails: {error.message}"
  ExceptT.lift (Prog.attempt (.close .stdin))
  let (slots, stream) ← rounds probe (probe.capacity - 1) [some first] stream
  if probe.isAlone then
    match ← Check.perform (.openFile probe.file) with
    | .error _ => pure ()
    | .ok extra =>
        ExceptT.lift (Prog.attempt (.close extra))
        Check.violate (.failure "test_fd: available fds exceed.")
  pure (held slots, stream)

/-- Makes all rounds, and removes the file on a violation and when the probe is alone. The result is
what was held in the last round.
-/
def run (probe : Probe) (stream : Stream) : Check (List Fd × Stream) :=
  (runAllRounds probe stream).andFinally fun result =>
    if !result.toBool || probe.isAlone then Prog.attempt (.unlink probe.file) else pure ()

end Probe

end KernelConformance
