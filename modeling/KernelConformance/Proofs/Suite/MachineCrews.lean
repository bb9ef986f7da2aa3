import KernelConformance.Proofs.Suite.CrewRuns

/-! Crews on a machine, where each child runs to its end as soon as it is started. The process comes
to the end of its program there, as none of its joins has to wait, and the console tells the
children apart.
-/

namespace KernelConformance

open Kernel (Performs)
open Utf8 (Bytes)

-----------------------------------------------------------------------------------------
-- What is printed
-----------------------------------------------------------------------------------------

/-- What is printed in the course of some exchanges, the oldest first, if each process that they
start prints its lines before anything else is done. These are given by the number of the start.
-/
def shown (lines : Nat → List Bytes) : Nat → List Exchange → List Bytes
  | _, [] => []
  | number, exchange :: rest =>
      match exchange.started? with
      | some _ => lines number ++ shown lines (number + 1) rest
      | none => exchange.printed?.toList ++ shown lines number rest

/-- What is printed in the course of more exchanges comes after the rest, by induction on
the first ones.
-/
theorem shown_append (lines : Nat → List Bytes) (number : Nat) (past more : List Exchange)
    : shown lines number (past ++ more)
      = shown lines number past ++ shown lines (number + (started past).length) more := by
  induction past generalizing number with
  | nil => rfl
  | cons exchange past ih =>
      rw [List.cons_append, shown, shown, started, List.filterMap_cons]
      rcases exchange.started? with _ | child
      · simp only [ih, List.append_assoc]
        rfl
      · simp only [ih, List.append_assoc, List.length_cons, Nat.add_assoc, Nat.add_comm 1]
        rfl

/-- A process that prints nothing leaves the console to those that it starts, by induction
on its exchanges.
-/
theorem shown_of_silent (lines : Nat → List Bytes) (number : Nat) {past : List Exchange}
    (silent : ∀ exchange ∈ past, exchange.printed? = none)
    : shown lines number past
      = (List.range' number (started past).length).flatMap lines := by
  induction past generalizing number with
  | nil => rfl
  | cons exchange past ih =>
      obtain ⟨first, rest⟩ := List.forall_mem_cons.mp silent
      rw [shown, started, List.filterMap_cons, first]
      rcases exchange.started? with _ | child
      · exact ih number rest
      · rw [ih (number + 1) rest]
        rfl

namespace Spawner

variable {α : Type} {config : Config} {jobs : List Job} {names : Nat → String → Prop}
  {begin kernel after : Kernel} {root child : Pid} {prog : Prog α}
  {result : List Exchange → α → Prop} {past : List Exchange} {during : List Deed}
  {images : Images Unit} {depth : Nat}

/-- Whether a job prints some lines wherever it runs to its end, if nothing is traced. -/
def Prints (config : Config) (job : Job) (lines : List Bytes) : Prop :=
  ∀ deeds kernel pid todo last,
    Kernel.Run config deeds kernel
    → kernel.Newborn pid job.program job.argv
    → testRun? job.program job.argv = some todo
    → Performs pid kernel todo (.exit job.signature) last
    → (∀ kind, config.traces kind = false)
    → last.console.writes = lines.reverse ++ kernel.console.writes

/-- A child that has just been started has exchanged nothing. -/
theorem exchanges_started {before : List Deed}
    (run : Kernel.Run config (before ++ during) kernel) {program : String} {argv : List String}
    (replied : kernel.call root (.exec program argv) = some (.ok child, after))
    (different : child ≠ root)
    : exchanges child (during ++ [.call root (.exec program argv) (some (.ok child))]) = [] := by
  have new := congrArg Pid.number (Kernel.started_of_call replied).numbered.symm
  have none := run.exchanges_eq_nil (Nat.le_of_eq new)
  rw [exchanges_append, List.append_eq_nil_iff] at none
  rw [exchanges_append, none.2, exchanges_cons_other different.symm]
  rfl

/-- A machine runs a child to its end that has all of its program before it. -/
theorem Crew.launch (undertaking : Undertaking config jobs names begin root prog result)
    (crew : Crew config jobs names begin root prog during kernel) {index : Nat} {job : Job}
    (assigned : Assigned jobs (exchanges root during) index child job)
    (newborn : kernel.Newborn child job.program job.argv) (nothing : exchanges child during = [])
    (shipped : Shipped images) (below : Nat) (reports : List (Pid × Unit))
    : ∃ todo more last,
        testRun? job.program job.argv = some todo
        ∧ Performs child kernel todo (.exit job.signature) last
        ∧ (Machine.launch images (below + 1) child job.program ⟨kernel, reports⟩).kernel
          = last.finish child (.exit job.signature)
        ∧ exchanges root (during ++ more) = exchanges root during
        ∧ .finish child (.exit job.signature) ∈ more
        ∧ Crew config jobs names begin root prog (during ++ more)
            (last.finish child (.exit job.signature)) := by
  obtain ⟨todo, rest, more, last, known, reached, performs, onward⟩ :=
    crew.ends_child undertaking assigned newborn.runs
  rw [nothing] at reached
  obtain rfl := reached.of_nil
  obtain ⟨main, program, same⟩ := Option.map_eq_some_iff.mp known
  refine ⟨todo, more, last, known, performs, ?_, onward⟩
  rw [Machine.launch_main (shipped _ _ program)
    (by rw [newborn.context, same]; exact performs.runCalls _ reports)]

/-- What holds of a crew on a machine: all children that were started have ended, and each of them
has printed its lines at its start.
-/
structure Serial (config : Config) (jobs : List Job) (names : Nat → String → Prop) (begin : Kernel)
    (root : Pid) (prog : Prog α) (during : List Deed) (kernel : Kernel)
    : Prop where
  crew : Crew config jobs names begin root prog during kernel
  allEnded : ∀ child ∈ started (exchanges root during), Ended during child
  console
    : ∀ lines,
        (∀ index job, jobs[index]? = some job → Prints config job (lines index))
        → (∀ kind, config.traces kind = false)
        → kernel.console.writes
          = (shown lines 0 (exchanges root during)).reverse ++ begin.console.writes

namespace Serial

variable (undertaking : Undertaking config jobs names begin root prog result)

include undertaking

theorem begins : Serial config jobs names begin root prog [] begin :=
  ⟨undertaking.begins, nofun, fun _ _ _ => rfl⟩

/-- A child that was started has ended, so that it does not run. -/
theorem not_running (serial : Serial config jobs names begin root prog during kernel)
    (member : child ∈ started (exchanges root during))
    : kernel.processes.isRunning child = false := by
  obtain ⟨_, run, before, rfl⟩ := serial.crew.reachable undertaking
  obtain ⟨ending, finished⟩ := serial.allEnded child member
  refine Bool.eq_false_of_not_eq_true fun alive => ?_
  exact (run.isRunning_iff.mp alive).2 ⟨ending, List.mem_append_right _ finished⟩

/-- The process goes on with a call that starts nobody. -/
theorem exchange (serial : Serial config jobs names begin root prog during kernel) {c : Syscall}
    {next : c.Reply → Prog α} {reply : c.Reply}
    (reached : prog.Reaches (exchanges root during) (.call c next))
    (replied : kernel.call root c = some (reply, after))
    (alone : (Exchange.mk c reply).started? = none)
    : Serial config jobs names begin root prog (during ++ [.call root c (some reply)]) after := by
  obtain ⟨_, run, -⟩ := serial.crew.reachable undertaking
  have acts := serial.crew.hosted.hosts.isRunning (Crew.rooted undertaking) undertaking.runs
  have exchanged := exchanges_call root during reply
  refine ⟨serial.crew.step undertaking (.call acts replied) (.root reached), ?_, ?_⟩
  · rw [exchanged, started_snoc, alone, Option.toList_none, List.append_nil]
    intro child member
    obtain ⟨ending, finished⟩ := serial.allEnded child member
    exact ⟨ending, List.mem_append_left _ finished⟩
  · intro lines prints silent
    rw [run.call_console silent replied, serial.console lines prints silent, exchanged,
      shown_append, shown, alone, shown, List.append_nil, List.reverse_append, List.append_assoc]
    congr 1
    cases Exchange.printed? _ <;> rfl

/-- A child that is started runs to its end, and prints its lines. -/
theorem start (serial : Serial config jobs names begin root prog during kernel) {program : String}
    {argv : List String} {next : Except Errno Pid → Prog α}
    (reached : prog.Reaches (exchanges root during) (.call (.exec program argv) next))
    (replied : kernel.call root (.exec program argv) = some (.ok child, after))
    (shipped : Shipped images) (levels : config.maxProcesses = depth + 1)
    (reports : List (Pid × Unit))
    : ∃ more,
        exchanges root (during ++ more) = exchanges root during ++ [⟨.exec program argv, .ok child⟩]
        ∧ Serial config jobs names begin root prog (during ++ more)
            (Machine.launch images depth child program ⟨after, reports⟩).kernel := by
  obtain ⟨_, run, before, rfl⟩ := serial.crew.reachable undertaking
  have acts := serial.crew.hosted.hosts.isRunning (Crew.rooted undertaking) undertaking.runs
  have step : kernel.Step (.call root (.exec program argv) (some (.ok child))) after :=
    .call acts replied
  have newborn := Kernel.newborn_of_call replied
  have crew := serial.crew.step undertaking step (.root reached)
  have exchanged := exchanges_call root during (c := .exec program argv) (.ok child)
  obtain ⟨job, given, rfl, rfl⟩
      : ∃ job,
          jobs[(started (exchanges root during)).length]? = some job
          ∧ program = job.program
          ∧ argv = job.argv := by
    rcases Crew.issued undertaking reached with calls | ⟨bytes, printed⟩
    · exact calls
    · cases printed
  have assigned
      : Assigned jobs
          (exchanges root (during ++ [.call root (.exec job.program job.argv) (some (.ok child))]))
          (started (exchanges root during)).length child job :=
    exchanged ▸ (assigned_start given).mpr (.inr ⟨rfl, rfl, rfl⟩)
  have different := crew.ne_root undertaking (List.mem_of_getElem? assigned.place)
  obtain ⟨below, rfl⟩ := run.exists_level acts (Kernel.started_of_call replied) levels
  obtain ⟨todo, more, last, known, performs, launched, idle, finished, further⟩ :=
    crew.launch undertaking assigned newborn (exchanges_started run replied different) shipped below
      reports
  rw [exchanged, List.append_assoc] at idle
  rw [List.append_assoc] at further
  refine ⟨[.call root (.exec job.program job.argv) (some (.ok child))] ++ more, idle, ?_⟩
  rw [launched]
  refine ⟨further, ?_, fun lines prints silent => ?_⟩
  · rw [idle, started_snoc]
    intro other member
    rcases List.mem_append.mp member with earlier | newest
    · obtain ⟨ending, ended⟩ := serial.allEnded other earlier
      exact ⟨ending, List.mem_append_left _ ended⟩
    · obtain rfl := List.mem_singleton.mp newest
      exact ⟨_, List.mem_append_right _ (List.mem_append_right _ finished)⟩
  · have reachable := run.step step
    obtain ⟨_, finished, -⟩ := reachable.performs newborn.runs performs
    have configured := finished.tidy.configured
    have shows := prints _ _ given _ _ _ _ _ reachable newborn known performs silent
    rw [Kernel.finish, Kernel.untraced silent configured, idle, shown_append, Nat.zero_add]
    change last.console.writes = _
    rw [shows, run.call_console silent replied, serial.console lines prints silent]
    simp [shown, Exchange.started?, Exchange.printed?]

/-- A call of the process has a reply, and what is started runs to its end, by cases on the call. -/
theorem answers {machine : Machine Unit}
    (serial : Serial config jobs names begin root prog during machine.kernel) {c : Syscall}
    {next : c.Reply → Prog α} (reached : prog.Reaches (exchanges root during) (.call c next))
    (shipped : Shipped images) (levels : config.maxProcesses = depth + 1)
    : ∃ reply kernel more,
        machine.kernel.call root c = some (reply, kernel)
        ∧ exchanges root (during ++ more) = exchanges root during ++ [⟨c, reply⟩]
        ∧ Serial config jobs names begin root prog (during ++ more)
            (Machine.answered (Machine.launch images depth) c reply
              ⟨kernel, machine.reports⟩).kernel := by
  rcases serial.crew.replies undertaking (Crew.issued undertaking reached) with
    ⟨reply, kernel, replied⟩ | ⟨child, rfl, member, alive⟩
  · rcases begun : c.started? reply with _ | ⟨program, child⟩
    · have alone : (Exchange.mk c reply).started? = none := by
        cases c <;> cases reply <;> first | rfl | cases begun
      refine ⟨reply, kernel, [.call root c (some reply)], replied, exchanges_call .., ?_⟩
      rw [Machine.answered_alone begun]
      exact serial.exchange undertaking reached replied alone
    · obtain ⟨argv, rfl, rfl⟩
          : ∃ argv, ∃ same : c = .exec program argv, reply = same ▸ .ok child := by
        cases c <;> cases reply <;> cases begun
        exact ⟨_, rfl, rfl⟩
      obtain ⟨more, exchanged, further⟩ :=
        serial.start undertaking reached replied shipped levels machine.reports
      exact ⟨_, kernel, more, replied, exchanged, further⟩
  · rw [serial.not_running undertaking member] at alive
    cases alive

/-- On a machine the process comes to the end of its program. -/
theorem comes (shipped : Shipped images) (levels : config.maxProcesses = depth + 1)
    (reports : List (Pid × Unit))
    : ∃ value machine during,
        Machine.runCalls (Machine.launch images depth) root prog ⟨begin, reports⟩
          = (some value, machine)
        ∧ prog.Reaches (exchanges root during) (.done value)
        ∧ result (exchanges root during) value
        ∧ Serial config jobs names begin root prog during machine.kernel := by
  have upholds := undertaking.issues.reaching .refl
  have keep (past : List Exchange) (machine : Machine Unit) (c : Syscall)
      (allowed : Issues jobs past c ∧ ∃ next, prog.Reaches past (.call c next))
      (invariant
        : ∃ during,
            exchanges root during = past
            ∧ Serial config jobs names begin root prog during machine.kernel)
      : ∃ reply kernel,
          machine.kernel.call root c = some (reply, kernel)
          ∧ ∃ during,
              exchanges root during = past ++ [⟨c, reply⟩]
              ∧ Serial config jobs names begin root prog during
                  (Machine.answered (Machine.launch images depth) c reply
                    ⟨kernel, machine.reports⟩).kernel := by
    obtain ⟨-, next, reached⟩ := allowed
    obtain ⟨during, rfl, serial⟩ := invariant
    obtain ⟨reply, kernel, more, replied, exchanged, further⟩ :=
      serial.answers undertaking reached shipped levels
    exact ⟨reply, kernel, replied, _, exchanged, further⟩
  have opening
      : ∃ during,
          exchanges root during = []
          ∧ Serial config jobs names begin root prog during (Machine.mk begin reports).kernel :=
    ⟨[], rfl, begins undertaking⟩
  obtain ⟨value, machine, past, runs, reached, last, during, rfl, serial⟩ :=
    Machine.runCalls_upholds keep upholds opening
  exact ⟨value, machine, during, runs, reached, last.1, serial⟩

end Serial

end Spawner

end KernelConformance
