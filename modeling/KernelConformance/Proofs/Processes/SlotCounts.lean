import KernelConformance.Proofs.Files.CallOutcomes
import KernelConformance.Proofs.Processes.JoinOutcomes

/-! How many slots a step takes or gives up, and which starts there is room for. A process without
children keeps its slot when it ends, until it is joined.
-/

namespace KernelConformance

namespace FiniteMap

variable {κ ν : Type}

theorem filter_eq_self {keep : κ → ν → Bool} {map : FiniteMap κ ν}
    (kept : ∀ entry ∈ map.entries, keep entry.1 entry.2 = true)
    : map.filter keep = map := by
  obtain ⟨entries, unique⟩ := map
  simp only [filter, FiniteMap.mk.injEq]
  exact List.filter_eq_self.mpr kept

theorem mapValues_eq_self {f : κ → ν → ν} {map : FiniteMap κ ν}
    (kept : ∀ entry ∈ map.entries, f entry.1 entry.2 = entry.2)
    : map.mapValues f = map := by
  obtain ⟨entries, unique⟩ := map
  simp only [mapValues, FiniteMap.mk.injEq]
  calc entries.map (fun entry => (entry.1, f entry.1 entry.2))
      = entries.map id :=
        List.map_congr_left fun entry member => Prod.ext rfl (kept entry member)
    _ = entries := List.map_id entries

/-- A removal takes away one entry if the key has one, as no key has two. -/
theorem size_erase [DecidableEq κ] {map : FiniteMap κ ν} {key : κ} {value : ν}
    (found : map.get? key = some value)
    : (map.erase key).size + 1 = map.size := by
  have member : key ∈ map.entries.map Prod.fst :=
    List.mem_map.mpr ⟨(key, value), get?_eq_some.mp found, rfl⟩
  have once : map.entries.countP (fun entry => decide (entry.1 = key)) = 1 := by
    have counted := map.keysUnique.count (a := key)
    rw [if_pos member, List.count, List.countP_map] at counted
    exact (List.countP_congr fun entry _ => by simp).trans counted
  have split :=
    @List.length_eq_countP_add_countP _ (fun entry => decide (entry.1 = key)) map.entries
  rw [once] at split
  simp only [size, erase, filter, ← List.countP_eq_length_filter, split, Nat.add_comm 1]
  refine congrArg (· + 1) (List.countP_congr fun entry _ => ?_)
  simp

end FiniteMap

namespace ProcessTable

variable {table after : ProcessTable} {pid : Pid}

theorem Started.size {parent : Parent} {program : String}
    (started : table.Started parent program pid after) (rooted : table.Rooted)
    : after.size = table.size + 1 := by
  have absent : table.slots.contains pid = false :=
    Option.isSome_eq_false_iff.mpr (Option.isNone_iff_eq_none.mpr (rooted.get?_started started))
  rw [ProcessTable.size, started.slots, FiniteMap.size_insert, absent]
  rfl

theorem Freed.size {caller : Parent} {status : ExitStatus}
    (freed : table.Freed caller pid status after)
    : after.size + 1 = table.size := by
  rw [ProcessTable.size, freed.slots]
  exact FiniteMap.size_erase freed.found

/-- The end of a process that has no children and can be joined changes its own slot alone. -/
theorem exit_childless {parent : Parent} {state : SlotState} (status : ExitStatus)
    (found : table.slots.get? pid = some ⟨parent, state⟩) (attached : parent ≠ .detached)
    (childless : ∀ other slot, table.slots.get? other = some slot → slot.parent ≠ .proc pid)
    : (table.exit pid status).slots = table.slots.insert pid ⟨parent, .zombie status⟩ := by
  have stranger (entry : Pid × Slot) (member : entry ∈ table.slots.entries)
      : entry.2.parent ≠ .proc pid :=
    childless entry.1 entry.2 (FiniteMap.get?_eq_some.mpr member)
  have kept : disown pid table.slots = table.slots := by
    rw [disown, FiniteMap.filter_eq_self fun entry member => by simp [stranger entry member],
      FiniteMap.mapValues_eq_self fun entry member => by simp [stranger entry member]]
  simp only [exit, record, kept, found, if_neg attached]

end ProcessTable

namespace Kernel

variable {kernel after : Kernel}

-----------------------------------------------------------------------------------------
-- Starts
-----------------------------------------------------------------------------------------

/-- A program that can be loaded stays so, by cases on the deed. -/
theorem Step.programs {deed : Deed} (step : kernel.Step deed after) {program : String}
    (known : program ∈ kernel.programs)
    : program ∈ after.programs := by
  cases step with
  | register other =>
      unfold Kernel.register
      split
      · exact known
      · exact List.mem_cons_of_mem _ known
  | spawn done => rcases start_cases done with ⟨_, -, rfl⟩ | ⟨_, _, -, -, rfl⟩ <;> exact known
  | wait done => rcases reap_cases done with ⟨_, -, rfl⟩ | ⟨_, _, -, -, rfl⟩ <;> exact known
  | install done => rcases install_cases done with ⟨_, -, rfl⟩ | ⟨_, -, -, rfl⟩ <;> exact known
  | call runs done =>
      rw [(call_frame done).2]
      exact known
  | @finish pid ending =>
      rw [(finish_frame pid ending kernel).2]
      exact known
  | _ => exact known

/-- A program that can be loaded, with no more arguments than a process can be given, is refused
only if no slot is free.
-/
theorem full_of_refused {pid : Pid} {program : String} {argv : List String} {error : Errno}
    (known : program ∈ kernel.programs) (short : argv.length ≤ maxArguments)
    (refused : kernel.call pid (.exec program argv) = some (.error error, after))
    : kernel.processes.capacity ≤ kernel.processes.size := by
  obtain ⟨middle, performed, -⟩ := call_cases refused
  have started : kernel.start (.proc pid) program argv = (.error error, middle) :=
    Option.some.inj performed
  rw [start, allot, if_neg (Nat.not_lt_of_le short), if_neg (not_not_intro known)] at started
  rcases Nat.lt_or_ge kernel.processes.size kernel.processes.capacity with room | full
  · rw [ProcessTable.spawn, if_neg (Nat.not_le_of_lt room)] at started
    cases started
  · exact full

theorem started_of_call {pid child : Pid} {program : String} {argv : List String}
    (done : kernel.call pid (.exec program argv) = some (.ok child, after))
    : kernel.processes.Started (.proc pid) program child after.processes := by
  obtain ⟨middle, performed, rfl⟩ := call_cases done
  rw [trace_processes]
  rcases start_cases (Option.some.inj performed) with
    ⟨_, failed, -⟩ | ⟨_, processes, same, spawned, rfl⟩
  · cases failed
  · cases same
    exact ProcessTable.started_of_spawn spawned

theorem freed_of_call {pid child : Pid} {status : ExitStatus}
    (done : kernel.call pid (.join child) = some (.ok status, after))
    : kernel.processes.Freed (.proc pid) child status after.processes := by
  obtain ⟨middle, performed, rfl⟩ := call_cases done
  rw [trace_processes]
  rcases reap_cases performed with ⟨_, failed, -⟩ | ⟨_, processes, same, reaped, rfl⟩
  · cases failed
  · cases same
    exact ProcessTable.freed_of_reap reaped

/-- A call that fails leaves the processes as they were. -/
theorem call_error_processes {pid : Pid} {c : Syscall} {error : Errno}
    (failed : kernel.call pid c = some (.error error, after))
    : after.processes = kernel.processes := by
  obtain ⟨middle, effect, rfl⟩ := call_effect failed
  rw [trace_processes]
  generalize replied : (Except.error error : c.Reply) = reply at effect
  cases effect <;> first | rfl | cases replied

end Kernel

end KernelConformance
