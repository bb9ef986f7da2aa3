import KernelConformance.Proofs.Suite.CrewJournals
import KernelConformance.Proofs.Suite.MachineCrews

/-! The end of a process that runs jobs. When it ends it has joined all its children, so that nobody
of its crew acts after it, and the host finds the status that it has ended with.
-/

namespace KernelConformance

open Kernel (Steps)

/-- Whether a deed is one of a process, which goes on with its program and ends where it does, or of
one of its children, which goes on with the test program that it was started as.
-/
inductive Acts (root : Pid) (prog : Prog Ending) (past : List Deed) : Deed → Prop where
  | proceeds {deed} (onward : Proceeds root prog past deed) : Acts root prog past deed
  | ends {ending} (reached : prog.Reaches (exchanges root past) (.done ending))
    : Acts root prog past (.finish root ending)

/-- Who does a deed runs: the process, or one that was started. -/
theorem Proceeds.running {root : Pid} {prog : Prog Ending} {past : List Deed} {deed : Deed}
    {kernel after : Kernel} (proceeds : Proceeds root prog past deed)
    (step : kernel.Step deed after)
    : kernel.processes.isRunning root = true
      ∨ ∃ entry ∈ starts past, kernel.processes.isRunning entry.child = true := by
  cases proceeds with
  | root =>
      cases step with
      | call runs => exact .inl runs
      | callBlocked runs => exact .inl runs
  | child begun =>
      cases step with
      | call runs => exact .inr ⟨_, begun, runs⟩
      | callBlocked runs => exact .inr ⟨_, begun, runs⟩
  | finish begun =>
      cases step with
      | finish runs => exact .inr ⟨_, begun, runs⟩

/-- A crew takes nothing from the journal. -/
theorem untaken_of_proceeds {α : Type} {root : Pid} {prog : Prog α} {during : List Deed}
    (proceeds : Throughout (Proceeds root prog) during)
    : ∀ deed ∈ during, deed.taken = [] := by
  intro deed member
  obtain ⟨before, after, whole⟩ := List.append_of_mem member
  cases proceeds before deed after whole <;> rfl

namespace Spawner

variable {config : Config} {jobs : List Job} {names : Nat → String → Prop}
  {begin kernel after : Kernel} {root : Pid} {prog : Prog Ending}
  {result : List Exchange → Ending → Prop} {during : List Deed} {deed : Deed} {ending : Ending}

/-- Whether a process that runs jobs has started and joined a child for each of them when it comes
to the end of its program.
-/
def Concludes (begin : Kernel) (jobs : List Job) (result : List Exchange → Ending → Prop) : Prop :=
  ∀ past ending,
    result past ending
    → Served (room begin.processes) jobs past
    → (started past).length = jobs.length ∧ (joined past).length = jobs.length

/-- What a crew has come to whose process has ended: it was at the end of its program then. -/
structure Over (config : Config) (jobs : List Job) (names : Nat → String → Prop) (begin : Kernel)
    (root : Pid) (prog : Prog Ending) (result : List Exchange → Ending → Prop) (earlier : List Deed)
    (ending : Ending) (kernel : Kernel)
    : Prop where
  crew : Crew config jobs names begin root prog earlier kernel
  reached : prog.Reaches (exchanges root earlier) (.done ending)
  holds : result (exchanges root earlier) ending

variable (undertaking : Undertaking config jobs names begin root prog result)

include undertaking

/-- What a process comes to at the end of its program may be its result. -/
theorem Crew.settled (crew : Crew config jobs names begin root prog during kernel)
    (reached : prog.Reaches (exchanges root during) (.done ending))
    : Over config jobs names begin root prog result during ending kernel := by
  have holds := undertaking.issues.reaches reached
  rw [List.nil_append] at holds
  exact ⟨crew, reached, holds⟩

/-- Nobody of a crew runs when its process has ended. -/
theorem Over.still (settled : Over config jobs names begin root prog result during ending kernel)
    (concludes : Concludes begin jobs result)
    : (kernel.finish root ending).processes.isRunning root = false
      ∧ ∀ entry ∈ starts during,
          (kernel.finish root ending).processes.isRunning entry.child = false := by
  obtain ⟨deeds, run, -⟩ := settled.crew.reachable undertaking
  have rooted := Crew.rooted undertaking
  have acts := settled.crew.hosted.hosts.isRunning rooted undertaking.runs
  refine ⟨Kernel.isRunning_finish_self .., fun entry begun => ?_⟩
  refine Bool.eq_false_of_not_eq_true fun alive => ?_
  have ends : kernel.Step (.finish root ending) _ := .finish acts
  obtain ⟨index, job, assigned, -⟩ := settled.crew.begun entry begun
  have member := List.mem_of_getElem? assigned.place
  -- A child that still ran would be one that was not joined, but all of them were.
  rcases run.running_step ends alive with started | ⟨before, -⟩
  · cases started
  · obtain ⟨parent, found⟩ := ProcessTable.isRunning_iff.mp before
    have left := settled.crew.hosted.hosts.unjoined_of_found rooted member found
    obtain ⟨all, same⟩ := concludes _ _ settled.holds settled.crew.hosted.served
    rw [unjoined, List.drop_eq_nil_of_le (Nat.le_of_eq (all.trans same.symm))] at left
    cases left

/-- Whatever a process that runs jobs and its children do, they are a crew, or the process has ended
and they were one before, by induction on the deeds.
-/
theorem Undertaking.crew_or_over (concludes : Concludes begin jobs result)
    (steps : Steps begin during after) (acts : Throughout (Acts root prog) during)
    : Crew config jobs names begin root prog during after
      ∨ ∃ earlier ending kernel,
          during = earlier ++ [.finish root ending]
          ∧ Over config jobs names begin root prog result earlier ending kernel
          ∧ after = kernel.finish root ending := by
  induction during using List.reverseRecOn generalizing after with
  | nil =>
      cases steps
      exact .inl undertaking.begins
  | append_singleton during deed ih =>
      obtain ⟨middle, earlier, last⟩ := steps.of_snoc
      obtain ⟨before, next⟩ := throughout_snoc.mp acts
      rcases ih earlier before with crew | ⟨during, ending, kernel, rfl, settled, rfl⟩
      · cases next with
        | proceeds onward => exact .inl (crew.step undertaking last onward)
        | ends reached =>
            cases last with
            | finish => exact .inr ⟨during, _, middle, rfl, crew.settled undertaking reached, rfl⟩
      · obtain ⟨ended, still⟩ := settled.still undertaking concludes
        cases next with
        | proceeds onward =>
            rcases onward.running last with alive | ⟨entry, begun, alive⟩
            · rw [ended] at alive
              cases alive
            · have listed : entry ∈ starts during := by
                rw [starts_append] at begun
                exact (List.mem_append.mp begun).resolve_right List.not_mem_nil
              rw [still entry listed] at alive
              cases alive
        | ends =>
            cases last with
            | finish alive =>
                rw [ended] at alive
                cases alive

/-- Whatever was done, the process can come to its end. -/
theorem Crew.ends (crew : Crew config jobs names begin root prog during kernel)
    : ∃ more ending last,
        Over config jobs names begin root prog result (during ++ more) ending last
        ∧ last.Step (.finish root ending) (last.finish root ending) := by
  obtain ⟨rest, reached⟩ := undertaking.reaches crew.steps crew.proceeds
  obtain ⟨more, ending, last, further, finished⟩ := crew.completes undertaking reached
  have acts := further.hosted.hosts.isRunning (Crew.rooted undertaking) undertaking.runs
  exact ⟨more, ending, last, further.settled undertaking finished, .finish acts⟩

/-- Whatever the process prints is printed. -/
theorem Crew.printed (crew : Crew config jobs names begin root prog during kernel)
    {bytes : Utf8.Bytes} {reply : Except Errno Nat}
    (member : ⟨.write .stdout bytes, reply⟩ ∈ exchanges root during)
    : reply = .ok bytes.length := by
  obtain ⟨earlier, later, whole⟩ := List.append_of_mem (mem_exchanges.mp member)
  have steps := crew.steps
  have proceeds := crew.proceeds
  rw [whole] at steps proceeds
  obtain ⟨middle, first, rest⟩ := steps.split
  cases rest with
  | cons step =>
      cases step with
      | call _ replied => exact ((undertaking.crew first proceeds.of_append).print replied).1

omit undertaking in
/-- A child that has ended has ended with the signature of the job that it was started for. -/
theorem Crew.signed (crew : Crew config jobs names begin root prog during kernel) {entry : Begin}
    (begun : entry ∈ starts during) (finished : .finish entry.child ending ∈ during)
    : ∃ (index : Nat) (job : Job),
        jobs[index]? = some job
        ∧ entry.argv = job.argv
        ∧ ending = .exit job.signature := by
  obtain ⟨index, job, assigned, rfl⟩ := crew.ended _ _ finished
  obtain ⟨other, task, assignedToo, -, same⟩ := crew.begun _ begun
  obtain rfl := crew.hosted.hosts.index_eq assigned.place assignedToo.place
  cases assigned.given.symm.trans assignedToo.given
  exact ⟨_, job, assigned.given, same, rfl⟩

-----------------------------------------------------------------------------------------
-- Journals
-----------------------------------------------------------------------------------------

/-- What a process that runs jobs has logged in the end: a child was started for each job, in their
order, and it was joined in this order with the signature of its job, which it has ended with.
-/
structure Whole (jobs : List Job) (root : Pid) (children : List Pid) (deeds : List Deed)
    : Prop where
  number : children.length = jobs.length
  starts
    : (history deeds).filterMap (Event.startBy? root)
      = (children.zip jobs).map fun entry => (entry.1, entry.2.program)
  joins
    : (history deeds).filterMap (Event.joinBy? root)
      = (children.zip jobs).map fun entry => (entry.1, .exited entry.2.signature)
  given
    : ∀ (index : Nat) (child : Pid) (job : Job),
        children[index]? = some child
        → jobs[index]? = some job
        → .call root (.exec job.program job.argv) (some (.ok child)) ∈ deeds
          ∧ ∀ ending, .finish child ending ∈ deeds ↔ ending = .exit job.signature

/-- A child that was joined with a status has ended with it since it was started. -/
theorem finish_of_start (crew : Crew config jobs names begin root prog during kernel)
    {program : String} {argv : List String} {child : Pid} {status : Int32}
    (begun : .call root (.exec program argv) (some (.ok child)) ∈ during)
    (joined : ⟨.join child, .ok (.exited status)⟩ ∈ exchanges root during)
    : .finish child (.exit status) ∈ during := by
  obtain ⟨_, run, before, rfl⟩ := crew.reachable undertaking
  have made : ⟨.join child, .ok (.exited status)⟩ ∈ exchanges root (before ++ during) := by
    rw [exchanges_append]
    exact List.mem_append_right _ joined
  have finished := SeqFib.finish_of_join run made
  obtain ⟨earlier, later, rfl⟩ := List.append_of_mem begun
  rw [← List.append_assoc] at run
  obtain ⟨middle, next, reached, step⟩ := run.split
  have alive : next.processes.isRunning child = true := by
    cases step with
    | call _ replied => exact (Kernel.newborn_of_call replied).runs
  have unended := ((reached.step step).isRunning_iff.mp alive).2
  rcases List.mem_append.mp finished with old | new
  · exact absurd ⟨_, List.mem_append_left _ (List.mem_append_left _ old)⟩ unended
  · exact new

/-- A process that has ended has started and joined a child for each of its jobs. -/
theorem Over.whole (settled : Over config jobs names begin root prog result during ending kernel)
    (concludes : Concludes begin jobs result)
    : Whole jobs root (started (exchanges root during)) (during ++ [.finish root ending]) := by
  have served := settled.crew.hosted.served
  obtain ⟨all, same⟩ := concludes _ _ settled.holds served
  have inOrder := inOrder_of_served (undertaking.issues.throughout settled.reached) served
  have exchanged := exchanges_finish root root during ending
  have long : ((started (exchanges root during)).zip jobs).length ≤ jobs.length := by
    rw [List.length_zip]
    exact Nat.min_le_right ..
  refine ⟨all, ?_, ?_, fun index child job place given => ?_⟩
  · rw [history_startBy, exchanged, inOrder.begins]
  · rw [history_joinBy, exchanged, inOrder.reaps, same, List.take_of_length_le long]
  · have assigned : Assigned jobs (exchanges root during) index child job := ⟨place, given⟩
    have started := mem_exchanges.mp (inOrder.begun index child job place given)
    refine ⟨List.mem_append_left _ started, fun status => ⟨fun finished => ?_, ?_⟩⟩
    · have member := List.mem_of_getElem? place
      have notRoot := settled.crew.ne_root undertaking member
      rcases List.mem_append.mp finished with earlier | last
      · obtain ⟨other, task, assignedToo, rfl⟩ := settled.crew.ended child status earlier
        obtain rfl := settled.crew.hosted.hosts.index_eq place assignedToo.place
        cases given.symm.trans assignedToo.given
        rfl
      · cases List.mem_singleton.mp last
        exact absurd rfl notRoot
    · rintro rfl
      refine List.mem_append_left _ (finish_of_start undertaking settled.crew started ?_)
      have bound := (List.getElem?_eq_some_iff.mp given).1
      exact inOrder.joined place given (same.symm ▸ bound)

-----------------------------------------------------------------------------------------
-- Runs for the host
-----------------------------------------------------------------------------------------

/-- What the host has started it can join when it has ended, with the status that it
has ended with.
-/
theorem Over.reap {program : String} {argv : List String} {before : Kernel}
    (settled : Over config jobs names begin root prog result during ending kernel)
    (started : before.start .host program argv = (.ok root, begin))
    : ∃ processes,
        (kernel.finish root ending).reap .host root
          = some (.ok ending.status, { kernel.finish root ending with processes }) := by
  have rooted := Crew.rooted undertaking
  have hosts := settled.crew.hosted.hosts
  have stayed := hosts.kept root (hosts.old_notMem (rooted.running_lt undertaking.runs))
  have begun : begin.processes.slots.get? root = some ⟨.host, .running⟩ := by
    rw [(Kernel.started_of_start started).get?, if_pos rfl]
  have found
      : (kernel.finish root ending).processes.slots.get? root
        = some ⟨.host, .zombie ending.status⟩ := by
    rw [Kernel.finish_processes, ProcessTable.get?_exit, ProcessTable.get?_disown, stayed, begun]
    simp [Slot.ended]
  obtain ⟨processes, reaped, -⟩ := Kernel.reap_ended found
  exact ⟨processes, reaped⟩

/-- A machine runs a process that runs jobs to its end, and its children with it. -/
theorem Undertaking.run {program : String} {argv : List String} {main : Main} {before : Kernel}
    {deeds : List Deed} {images : Images Unit} (reached : Kernel.Run config deeds before)
    (started : before.start .host program argv = (.ok root, begin)) (shipped : Shipped images)
    (known : testProgram? program = some main) (same : main (argv.headD program) argv = prog)
    (reports : List (Pid × Unit))
    : ∃ during ending kernel after last,
        Machine.run images program argv ⟨before, reports⟩
          = (some (.ok (root, ending.status)), ⟨after, last⟩)
        ∧ Serial config jobs names begin root prog during kernel
        ∧ Over config jobs names begin root prog result during ending kernel
        ∧ after.processes.events
          = before.processes.events
            ++ history
              (.spawn program argv (.ok root) :: during
                ++ [.finish root ending, .wait root (some (.ok ending.status))])
        ∧ after.console = (kernel.finish root ending).console := by
  obtain ⟨depth, levels⟩ := Kernel.levels_of_start reached started
  obtain ⟨ending, machine, during, calls, finished, -, serial⟩ :=
    Serial.comes undertaking shipped levels reports
  have settled := serial.crew.settled undertaking finished
  obtain ⟨processes, reaped⟩ := settled.reap undertaking started
  have acts := serial.crew.hosted.hosts.isRunning (Crew.rooted undertaking) undertaking.runs
  have runs := Kernel.run_of_calls reached started levels (shipped _ _ known) (same ▸ calls) reaped
  refine ⟨during, ending, machine.kernel, _, _, runs, serial, settled, ?_, rfl⟩
  refine reached.events_extend (.cons (.spawn started) ?_) ?_
  · have steps := (serial.crew.steps.snoc (.finish acts)).snoc (.wait reaped)
    rwa [List.append_assoc] at steps
  · have untaken := untaken_of_proceeds serial.crew.proceeds
    simp only [List.cons_append, List.forall_mem_cons, List.forall_mem_append]
    exact ⟨rfl, untaken, rfl, rfl, fun _ member => absurd member List.not_mem_nil⟩

end Spawner

end KernelConformance
