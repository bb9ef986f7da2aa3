import KernelConformance.Proofs.Programs.ConsoleOutput
import KernelConformance.Proofs.Suite.Cleanliness
import KernelConformance.Proofs.Suite.JobCrews

/-! How a process that runs jobs comes to its end. Its crew can always bring it there, whatever was
done before, and a machine does, where each child runs to its end as soon as it is started. Joins
are made in the order of the starts.
-/

namespace KernelConformance

open Kernel (Performs)
open Utf8 (Bytes)

namespace Spawner

variable {α : Type} {config : Config} {jobs : List Job} {names : Nat → String → Prop}
  {begin kernel after last : Kernel} {root child : Pid} {prog : Prog α}
  {result : List Exchange → α → Prop} {past : List Exchange} {during : List Deed}

namespace Crew

variable (undertaking : Undertaking config jobs names begin root prog result)

include undertaking

-----------------------------------------------------------------------------------------
-- Ends of children
-----------------------------------------------------------------------------------------

/-- What a child performs by itself are deeds of the crew, by induction on the run. -/
theorem performs (crew : Crew config jobs names begin root prog during kernel) {index : Nat}
    {job : Job} (assigned : Assigned jobs (exchanges root during) index child job)
    (alive : kernel.processes.isRunning child = true) {todo rest : Prog Ending}
    (known : testRun? job.program job.argv = some todo)
    (reached : todo.Reaches (exchanges child during) rest) {ending : Ending}
    (performs : Performs child kernel rest ending last)
    : ∃ more,
        Crew config jobs names begin root prog (during ++ more) last
        ∧ Assigned jobs (exchanges root (during ++ more)) index child job
        ∧ last.processes.isRunning child = true
        ∧ todo.Reaches (exchanges child (during ++ more)) (.done ending)
        ∧ ∀ deed ∈ more, deed.IsOwn child := by
  induction performs generalizing during with
  | done => exact ⟨[], by simpa using ⟨crew, assigned, alive, reached⟩⟩
  | @call kernel c next reply middle ending last replied alone _ ih =>
      obtain ⟨_, run, -⟩ := crew.reachable undertaking
      have notRoot := crew.ne_root undertaking (List.mem_of_getElem? assigned.place)
      have step : kernel.Step (.call child c (some reply)) middle := .call alive replied
      have further := crew.step undertaking step
        (.child (crew.listed index child job assigned) known reached)
      have idle := exchanges_call_of_ne notRoot during (some reply)
      have exchanged := exchanges_call child during reply
      obtain ⟨more, crewAfter, kept, stillAlive, finished, own⟩ :=
        ih further (idle ▸ assigned) (run.isRunning_call step alive)
          (exchanged ▸ reached.snoc reply)
      rw [List.append_assoc] at crewAfter kept finished
      refine ⟨_, crewAfter, kept, stillAlive, finished, ?_⟩
      exact List.forall_mem_cons.mpr ⟨⟨c, reply, rfl, alone⟩, own⟩

/-- A child that still runs can come to its end before anything else is done. -/
theorem ends_child (crew : Crew config jobs names begin root prog during kernel) {index : Nat}
    {job : Job} (assigned : Assigned jobs (exchanges root during) index child job)
    (alive : kernel.processes.isRunning child = true)
    : ∃ todo rest more last,
        testRun? job.program job.argv = some todo
        ∧ todo.Reaches (exchanges child during) rest
        ∧ Performs child kernel rest (.exit job.signature) last
        ∧ exchanges root (during ++ more) = exchanges root during
        ∧ .finish child (.exit job.signature) ∈ more
        ∧ Crew config jobs names begin root prog (during ++ more)
            (last.finish child (.exit job.signature)) := by
  obtain ⟨todo, rest, known, reached, can⟩ := crew.live index child job assigned alive
  obtain ⟨last, performed⟩ := can.ends
  obtain ⟨more, crewAfter, kept, stillAlive, finished, own⟩ :=
    crew.performs undertaking assigned alive known reached performed
  have ends := crewAfter.step undertaking (.finish stillAlive)
    (.finish (crewAfter.listed index child job kept) known finished)
  have notRoot := crew.ne_root undertaking (List.mem_of_getElem? assigned.place)
  have silent : exchanges root more = [] :=
    List.filterMap_eq_nil_iff.mpr fun deed member =>
      (own deed member).exchange?_eq_none notRoot
  rw [List.append_assoc] at ends
  refine ⟨todo, rest, _, last, known, reached, performed, ?_, ?_, ends⟩
  · rw [exchanges_append, exchanges_append, silent]
    exact List.append_nil _
  · exact List.mem_append_right _ (List.mem_singleton.mpr rfl)

omit undertaking in
/-- Children are assigned jobs. -/
theorem exists_assigned (crew : Crew config jobs names begin root prog during kernel)
    (member : child ∈ started (exchanges root during))
    : ∃ index job, Assigned jobs (exchanges root during) index child job := by
  obtain ⟨index, place⟩ := List.mem_iff_getElem?.mp member
  have bound := (List.getElem?_eq_some_iff.mp place).1
  exact ⟨index, _, place, List.getElem?_eq_getElem (Nat.lt_of_lt_of_le bound crew.hosted.issued)⟩

-----------------------------------------------------------------------------------------
-- The end of the process that runs the jobs
-----------------------------------------------------------------------------------------

/-- The next call of the process has a reply, or it is a join of a child that still runs. -/
theorem replies (crew : Crew config jobs names begin root prog during kernel) {c : Syscall}
    (issued : Issues jobs (exchanges root during) c)
    : (∃ reply later, kernel.call root c = some (reply, later))
      ∨ ∃ child,
          c = .join child
          ∧ child ∈ started (exchanges root during)
          ∧ kernel.processes.isRunning child = true := by
  rcases issued with calls | ⟨bytes, rfl⟩
  · exact crew.hosted.replies (rooted undertaking) undertaking.runs calls
  · exact .inl (Kernel.call_onFiles rfl kernel root)

/-- Whatever its crew has done, the process can come to the end of its program, by induction on what
is left of it. Where it waits for a child, this comes to its end first.
-/
theorem completes {rest : Prog α} (crew : Crew config jobs names begin root prog during kernel)
    (reached : prog.Reaches (exchanges root during) rest)
    : ∃ more value last,
        Crew config jobs names begin root prog (during ++ more) last
        ∧ prog.Reaches (exchanges root (during ++ more)) (.done value) := by
  induction rest generalizing during kernel with
  | done value => exact ⟨[], value, kernel, by simpa using ⟨crew, reached⟩⟩
  | call c next ih =>
      have onward {during : List Deed} {kernel : Kernel}
          (crew : Crew config jobs names begin root prog during kernel)
          (reached : prog.Reaches (exchanges root during) (.call c next)) {reply : c.Reply}
          {later : Kernel} (replied : kernel.call root c = some (reply, later))
          : ∃ more value last,
              Crew config jobs names begin root prog (during ++ more) last
              ∧ prog.Reaches (exchanges root (during ++ more)) (.done value) := by
        have acts := crew.hosted.hosts.isRunning (rooted undertaking) undertaking.runs
        have exchanged := exchanges_call root during reply
        obtain ⟨more, value, last, further, ended⟩ :=
          ih reply (crew.step undertaking (.call acts replied) (.root reached))
            (exchanged ▸ reached.snoc reply)
        rw [List.append_assoc] at further ended
        exact ⟨_, value, last, further, ended⟩
      have issues := issued undertaking reached
      rcases crew.replies undertaking issues with
        ⟨reply, later, replied⟩ | ⟨child, rfl, member, alive⟩
      · exact onward crew reached replied
      · obtain ⟨index, job, assigned⟩ := crew.exists_assigned member
        obtain ⟨_, _, more, last, -, -, -, idle, -, further⟩ :=
          crew.ends_child undertaking assigned alive
        rw [← idle] at reached issues
        rcases further.replies undertaking issues with ⟨reply, later, replied⟩ | ⟨_, same, -, alive⟩
        · obtain ⟨rest, value, last, done, ended⟩ := onward further reached replied
          rw [List.append_assoc] at done ended
          exact ⟨_, value, last, done, ended⟩
        · cases same
          cases alive.symm.trans (Kernel.isRunning_finish_self ..)

end Crew

end Spawner

end KernelConformance
