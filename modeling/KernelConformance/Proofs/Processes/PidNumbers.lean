import KernelConformance.Proofs.Processes.JournalReplay

/-! Numbers of 32 bits. The counter for the next process goes back to one after the last number, and
numbers are skipped that processes in the table have. As long as the counter has not gone round
nothing is skipped, so that every start takes the number that it takes with a counter without end.
-/

namespace KernelConformance

/-- How many numbers of 32 bits there are. -/
def Pid.wordCount : Nat := 4294967296

/-- The number after a number of 32 bits: the one after the last is one. -/
def Pid.nextWord (pid : Pid) : Pid :=
  if pid.number + 1 < wordCount then pid.next else .first

namespace ProcessTable

/-- The first number from `candidate` on that no process in the table has, with the number after it,
if it is among the next `tries`.
-/
def freeNumber? (table : ProcessTable) : Nat → Pid → Option (Pid × Pid)
  | 0, _ => none
  | tries + 1, candidate =>
      if table.slots.contains candidate then table.freeNumber? tries candidate.nextWord
      else some (candidate, candidate.nextWord)

/-- Takes a slot for a new process, with numbers of 32 bits. There is no result if all numbers are
taken: the search for one does not end.
-/
def spawnWord (parent : Parent) (program : String) (table : ProcessTable)
    : Option (Except Errno (Pid × ProcessTable)) :=
  if table.capacity ≤ table.size then some (.error .unavailable)
  else
    (table.freeNumber? Pid.wordCount table.next).map fun (pid, next) =>
      let started := { table with next, slots := table.slots.insert pid ⟨parent, .running⟩ }
      .ok (pid, started.record (.spawned pid parent program))

variable {table : ProcessTable}

/-- A number that is found is that of no process in the table, by induction on the tries. -/
theorem freeNumber?_fresh {tries : Nat} {candidate pid next : Pid}
    (found : table.freeNumber? tries candidate = some (pid, next))
    : table.slots.contains pid = false ∧ next = pid.nextWord := by
  induction tries generalizing candidate with
  | zero => cases found
  | succ tries ih =>
      rw [freeNumber?] at found
      split at found
      · exact ih found
      · next free =>
          cases found
          exact ⟨by simpa using free, rfl⟩

/-- Before the counter goes round the next number is free. -/
theorem Rooted.spawnWord_eq (rooted : table.Rooted) (before : table.next.number + 1 < Pid.wordCount)
    (parent : Parent) (program : String)
    : table.spawnWord parent program = some (table.spawn parent program) := by
  have free : table.slots.contains table.next = false := by
    rw [FiniteMap.contains]
    rcases found : table.slots.get? table.next with _ | slot
    · rfl
    · exact absurd (rooted.numbered found) (Nat.lt_irrefl _)
  have search
      : table.freeNumber? Pid.wordCount table.next = some (table.next, table.next.next) := by
    rw [show Pid.wordCount
      = 4294967295 + 1 from rfl, freeNumber?, free, Pid.nextWord, if_pos before]
    rfl
  rw [spawnWord, spawn, search]
  split <;> rfl

end ProcessTable

/-- As long as fewer processes were started than there are numbers, the next start takes the number
that it takes with a counter without end.
-/
theorem Kernel.Run.spawnWord_eq {config : Config} {deeds : List Deed} {kernel : Kernel}
    (run : Run config deeds kernel)
    (few : (deeds.filterMap Deed.startedPid?).length + 2 < Pid.wordCount) (parent : Parent)
    (program : String)
    : kernel.processes.spawnWord parent program = some (kernel.processes.spawn parent program) := by
  refine run.rooted.spawnWord_eq ?_ parent program
  rw [run.accounts.next, Journal.spawnCount, history_starts]
  exact few

end KernelConformance
