import KernelConformance.Suite.Check
import KernelConformance.Suite.Record

/-! A recurrence whose state is in two files. Each round reads both, adds, and writes both, and
opens and closes each file around every access; a read or write that goes wrong shows in the sum.
-/

namespace KernelConformance

/-- The files of one run. -/
structure FilePair where
  first : String
  second : String
  deriving DecidableEq

/-- The files of a numbered run. -/
def FilePair.ofIndex (index : Int32) : FilePair :=
  ⟨"fb_temp_a_" ++ Decimal.write index, "fb_temp_b_" ++ Decimal.write index⟩

namespace Recurrence

/-- One round in memory: the second number, and the sum of both. -/
def advance (state : Int32 × Int32) : Int32 × Int32 := (state.2, state.1 + state.2)

/-- The state after some rounds in memory. -/
def iterate : Nat → Int32 × Int32 → Int32 × Int32
  | 0, state => state
  | rounds + 1, state => iterate rounds (advance state)

/-- What the second file holds after some rounds. -/
def expected (rounds : Nat) : Int32 := (iterate rounds (0, 1)).2

/-- The number of rounds of a full run. -/
def fullRounds : Nat := 100

/-- What the second file holds after a full run. -/
def fullResult : Int32 := -1869596475

/-- Opens a file. -/
def openFile (name : String) : Check Fd :=
  Check.demand (.openFile name) fun error => s!"open {name} failed: {error.message}"

/-- Creates a file. -/
def create (name : String) : Check Fd :=
  Check.demand (.creat name) fun error => s!"creat {name} failed: {error.message}"

/-- Closes a descriptor. -/
def close (fd : Fd) : Check Unit :=
  Check.demand (.close fd) fun error => s!"close {fd.text} failed: {error.message}"

/-- Reads a record. -/
def readNumber (fd : Fd) (name : String) : Check Int32 := do
  let delivery ← Check.demand (.read fd Record.width) fun error =>
    s!"read {name} failed: {error.message}"
  Check.require (delivery.count = Record.width)
    (.failure s!"short read from {name}: {delivery.count} of {Record.width} bytes")
  match Record.decode (delivery.front Record.width) with
  | .ok value => pure value
  | .error error => Check.violate (.failure s!"{name}: {error.message}")

/-- Writes a record. -/
def writeNumber (fd : Fd) (name : String) (value : Int32) : Check Unit := do
  let count ← Check.demand (.write fd (Record.encode value)) fun error =>
    s!"write {name} failed: {error.message}"
  Check.require (count = Record.width)
    (.failure s!"short write to {name}: {count} of {Record.width} bytes")

/-- Creates a file with one record. -/
def seed (name : String) (value : Int32) : Check Unit := do
  let fd ← create name
  writeNumber fd name value
  close fd

/-- Reads both files. -/
def readState (pair : FilePair) : Check (Int32 × Int32) := do
  let firstFd ← openFile pair.first
  let secondFd ← openFile pair.second
  let second ← readNumber secondFd pair.second
  let first ← readNumber firstFd pair.first
  close firstFd
  close secondFd
  pure (first, second)

/-- Writes both files. -/
def writeState (pair : FilePair) (state : Int32 × Int32) : Check Unit := do
  let firstFd ← openFile pair.first
  writeNumber firstFd pair.first state.1
  let secondFd ← openFile pair.second
  writeNumber secondFd pair.second state.2
  close firstFd
  close secondFd

/-- Makes some rounds and returns the last sum, which is `last` if there are none. -/
def rounds (pair : FilePair) : Nat → Int32 → Check Int32
  | 0, last => pure last
  | count + 1, _ => do
      let state := advance (← readState pair)
      writeState pair state
      rounds pair count state.2

/-- Makes both files and some rounds on them. -/
def compute (pair : FilePair) (count : Nat) : Check Int32 := do
  seed pair.first 0
  seed pair.second 1
  rounds pair count 1

/-- Makes some rounds and removes both files, whatever came of it. -/
def run (pair : FilePair) (count : Nat) : Check Int32 :=
  (compute pair count).andFinally fun _ => do
    Prog.attempt (.unlink pair.first)
    Prog.attempt (.unlink pair.second)

/-- Makes a full run and checks its result. -/
def check (pair : FilePair) : Check Unit := do
  let result ← run pair fullRounds
  Check.require (result = fullResult)
    (.wrongResult (s!"wrong {fullRounds}-round result: {Decimal.write result}, "
      ++ s!"expected {Decimal.write fullResult}"))

end Recurrence

end KernelConformance
