import KernelConformance.Proofs.Suite.SpawnerSlots
import Mathlib.Data.List.Induction

/-! A process that runs jobs among others. Whenever its children end, and whatever else is done that
no process starts or ends by, it comes to the report of a system with as much room as was left when
it began, and leaves the process table as it was.
-/

namespace KernelConformance.Spawner

open Kernel (Steps)

/-- What may be done while a process runs jobs: calls of its own, ends of its children with the
signatures of their jobs, and everything that means nothing for the life of a process.
-/
def Permits (jobs : List Job) (pid : Pid) (past : List Deed) (deed : Deed) : Prop :=
  (∃ call reply, deed = .call pid call reply)
  ∨ deed.event? = none
  ∨ ∃ (index : Nat) (child : Pid) (job : Job),
      (started (exchanges pid past))[index]? = some child
      ∧ jobs[index]? = some job
      ∧ deed = .finish child (.exit job.signature)

/-- Deeds in the course of which a process runs jobs, with what is left of its
program after them.
-/
structure Undisturbed (jobs : List Job) (pid : Pid) (during : List Deed)
    (rest : Prog (Except Check.Stop Report))
    : Prop where
  follows : (runJobs jobs).run.Reaches (exchanges pid during) rest
  permits : Throughout (Permits jobs pid) during

variable {begin kernel after : Kernel} {pid : Pid} {jobs : List Job} {past : List Exchange}
  {during : List Deed} {rest : Prog (Except Check.Stop Report)}

/-- The calls of a process that runs jobs are those of a spawner. -/
theorem Undisturbed.allowed {call : Syscall}
    {next : call.Reply → Prog (Except Check.Stop Report)}
    (undisturbed : Undisturbed jobs pid during (.call call next)) (capacity : Nat)
    : Allowed capacity jobs (exchanges pid during) call := by
  have upholds := (upholds_runJobs capacity jobs).reaches undisturbed.follows
  rw [List.nil_append] at upholds
  exact upholds.1

/-- What the process comes to in the end is what a spawner comes to. -/
theorem Undisturbed.concluded {outcome : Except Check.Stop Report}
    (undisturbed : Undisturbed jobs pid during (.done outcome)) (capacity : Nat)
    : (∃ report, outcome = .ok report ∧ Concluded capacity jobs (exchanges pid during) report)
      ∨ ∃ violation,
          outcome = .error (.violation violation)
          ∧ Stopped capacity jobs (exchanges pid during) violation := by
  have upholds := (upholds_runJobs capacity jobs).reaches undisturbed.follows
  rw [List.nil_append] at upholds
  cases outcome with
  | ok report => exact .inl ⟨report, rfl, upholds⟩
  | error stop =>
      obtain ⟨violation, rfl, stopped⟩ := upholds
      exact .inr ⟨violation, rfl, stopped⟩

/-- The room that is left in a process table. -/
def room (table : ProcessTable) : Nat := table.capacity - table.size

/-- What holds while a process runs jobs: its children hold their slots, it was served, and what it
starts can be loaded.
-/
structure Hosted (begin : Kernel) (pid : Pid) (jobs : List Job) (past : List Exchange)
    (kernel : Kernel)
    : Prop where
  hosts : Hosts begin.processes pid jobs past kernel.processes
  served : Served (room begin.processes) jobs past
  issued : (started past).length ≤ jobs.length
  loadable : ∀ job ∈ jobs, job.program ∈ kernel.programs

section Hosted

variable (rooted : begin.processes.Rooted) (runs : begin.processes.isRunning pid = true)

include rooted runs

/-- A child that is started for the next job is served, as there was room for it. -/
theorem Hosted.start (hosted : Hosted begin pid jobs past kernel) {job : Job} {child : Pid}
    (next : jobs[(started past).length]? = some job)
    (done : kernel.call pid (.exec job.program job.argv) = some (.ok child, after))
    (loadable : ∀ job ∈ jobs, job.program ∈ after.programs)
    : Hosted begin pid jobs (past ++ [⟨.exec job.program job.argv, .ok child⟩]) after := by
  have begun := Kernel.started_of_call done
  have size := hosted.hosts.size
  have capacity := hosted.hosts.capacity
  have free := begun.room
  refine ⟨hosted.hosts.start (hosted.hosts.isRunning rooted runs) begun,
    throughout_snoc.mpr ⟨hosted.served, ?_⟩, ?_, loadable⟩
  · change (unjoined past).length < begin.processes.capacity - begin.processes.size
    omega
  · rw [started_exec, List.length_append]
    exact Nat.succ_le_of_lt (List.getElem?_eq_some_iff.mp next).1

omit rooted runs in
/-- A start is refused only when the children take all the room that there was. -/
theorem Hosted.refuse (hosted : Hosted begin pid jobs past kernel)
    (short : ∀ job ∈ jobs, job.argv.length ≤ maxArguments) {job : Job} {error : Errno}
    (next : jobs[(started past).length]? = some job)
    (done : kernel.call pid (.exec job.program job.argv) = some (.error error, after))
    (loadable : ∀ job ∈ jobs, job.program ∈ after.programs)
    : Hosted begin pid jobs (past ++ [⟨.exec job.program job.argv, .error error⟩]) after := by
  have member := List.mem_of_getElem? next
  have size := hosted.hosts.size
  have capacity := hosted.hosts.capacity
  have full := Kernel.full_of_refused (hosted.loadable job member) (short job member) done
  have bounded := hosted.hosts.rooted.bounded
  refine ⟨?_, throughout_snoc.mpr ⟨hosted.served, ?_⟩, ?_, loadable⟩
  · rw [Kernel.call_error_processes done]
    exact hosted.hosts.aside rfl rfl
  · change (unjoined past).length = begin.processes.capacity - begin.processes.size
    omega
  · simpa [Exchange.started?] using hosted.issued

/-- The oldest child is joined with the signature of its job, and cannot be refused. -/
theorem Hosted.reap (hosted : Hosted begin pid jobs past kernel) {child : Pid}
    {reply : Except Errno ExitStatus} (oldest : (unjoined past).head? = some child)
    (done : kernel.call pid (.join child) = some (reply, after))
    (loadable : ∀ job ∈ jobs, job.program ∈ after.programs)
    : Hosted begin pid jobs (past ++ [⟨.join child, reply⟩]) after := by
  have acts := hosted.hosts.isRunning rooted runs
  cases reply with
  | ok status =>
      have freed := Kernel.freed_of_call done
      obtain ⟨job, given, rfl⟩ := hosted.hosts.status_of_freed hosted.issued oldest freed
      refine ⟨hosted.hosts.join rooted oldest freed,
        throughout_snoc.mpr ⟨hosted.served, ⟨job, given, rfl⟩⟩, ?_, loadable⟩
      rw [started_join]
      exact hosted.issued
  | error error =>
      have tried : (Wait.mk (.proc pid) child).retry kernel = some (.error error, after) := done
      obtain ⟨-, job, -, running | zombie⟩ := hosted.hosts.oldest hosted.issued oldest
      · rw [Wait.retry_running ⟨.proc pid, child⟩ acts running] at tried
        cases tried
      · obtain ⟨later, replied, -⟩ := Wait.retry_zombie ⟨.proc pid, child⟩ acts zombie
        rw [replied] at tried
        cases tried

/-- A call that the process makes as a spawner is served, and its children hold their slots after
it, by cases on the call and its reply.
-/
theorem Hosted.exchange (hosted : Hosted begin pid jobs past kernel)
    (short : ∀ job ∈ jobs, job.argv.length ≤ maxArguments) {call : Syscall} {reply : call.Reply}
    (calls : Calls jobs past call) (step : kernel.Step (.call pid call (some reply)) after)
    : Hosted begin pid jobs (past ++ [⟨call, reply⟩]) after := by
  have loadable (job : Job) (member : job ∈ jobs) : job.program ∈ after.programs :=
    step.programs (hosted.loadable job member)
  cases step with
  | call _ done =>
      cases call with
      | exec program argv =>
          obtain ⟨job, next, rfl, rfl⟩ := calls
          cases reply with
          | ok child => exact hosted.start rooted runs next done loadable
          | error error => exact hosted.refuse short next done loadable
      | join child => exact hosted.reap rooted runs calls done loadable
      | _ => cases calls

/-- What others do, and a join that is blocked, leaves everything in place. -/
theorem Hosted.silent (hosted : Hosted begin pid jobs (exchanges pid during) kernel) {deed : Deed}
    (step : kernel.Step deed after) (permits : Permits jobs pid during deed)
    (silent : deed.exchange? pid = none)
    : Hosted begin pid jobs (exchanges pid during) after := by
  have loadable (job : Job) (member : job ∈ jobs) : job.program ∈ after.programs :=
    step.programs (hosted.loadable job member)
  have kept (none : deed.event? = none)
      : Hosted begin pid jobs (exchanges pid during) after := by
    have unchanged := step.processes
    rw [none] at unchanged
    exact ⟨hosted.hosts.idle unchanged, hosted.served, hosted.issued, loadable⟩
  rcases permits with ⟨call, reply, rfl⟩ | none | ⟨index, child, job, place, given, rfl⟩
  · cases reply with
    | none => exact kept (by cases call <;> rfl)
    | some reply => simp [Deed.exchange?] at silent
  · exact kept none
  · cases step with
    | finish alive =>
        refine ⟨?_, hosted.served, hosted.issued, loadable⟩
        rw [Kernel.finish_processes]
        exact hosted.hosts.finish rooted runs hosted.issued place given alive

/-- Everything stays in place while a process runs jobs undisturbed, by induction on the deeds. -/
theorem hosted_during (loadable : ∀ job ∈ jobs, job.program ∈ begin.programs)
    (short : ∀ job ∈ jobs, job.argv.length ≤ maxArguments) (steps : Steps begin during after)
    (undisturbed : Undisturbed jobs pid during rest)
    : Hosted begin pid jobs (exchanges pid during) after := by
  induction during using List.reverseRecOn generalizing after rest with
  | nil =>
      cases steps
      exact ⟨hosts_begin rooted pid jobs, throughout_nil, Nat.zero_le _, loadable⟩
  | append_singleton during deed ih =>
      obtain ⟨kernel, earlier, step⟩ := steps.of_snoc
      obtain ⟨follows, permits⟩ := undisturbed
      obtain ⟨permitted, permits⟩ := throughout_snoc.mp permits
      rw [exchanges_snoc] at follows ⊢
      rcases made : deed.exchange? pid with _ | ⟨call, reply⟩
      · rw [made, Option.toList_none, List.append_nil] at follows
        rw [Option.toList_none, List.append_nil]
        exact (ih earlier ⟨follows, permitted⟩).silent rooted runs step permits made
      · obtain rfl := Deed.eq_call_of_exchange made
        rw [made, Option.toList_some] at follows
        obtain ⟨next, reached, rfl⟩ := follows.of_snoc
        have before : Undisturbed jobs pid during (.call call next) := ⟨reached, permitted⟩
        exact (ih earlier before).exchange rooted runs short (before.allowed 0).1 step

/-- The next call of the process has a reply, or it is a join of a child that still runs. -/
theorem Hosted.replies (hosted : Hosted begin pid jobs past kernel) {call : Syscall}
    (calls : Calls jobs past call)
    : (∃ reply later, kernel.call pid call = some (reply, later))
      ∨ ∃ child,
          call = .join child
          ∧ child ∈ started past
          ∧ kernel.processes.isRunning child = true := by
  have acts := hosted.hosts.isRunning rooted runs
  cases call with
  | exec program argv => exact .inl ⟨_, _, rfl⟩
  | join child =>
      obtain ⟨place, job, -, running | zombie⟩ := hosted.hosts.oldest hosted.issued calls
      · exact .inr
          ⟨child, rfl, List.mem_of_getElem? place, ProcessTable.isRunning_iff.mpr ⟨_, running⟩⟩
      · obtain ⟨later, replied, -⟩ := Wait.retry_zombie ⟨.proc pid, child⟩ acts zombie
        exact .inl ⟨_, later, replied⟩
  | _ => cases calls

variable (loadable : ∀ job ∈ jobs, job.program ∈ begin.programs)
  (short : ∀ job ∈ jobs, job.argv.length ≤ maxArguments)

include loadable short

/-- A call that has a reply can be made at once. -/
theorem call_made {call : Syscall} {next : call.Reply → Prog (Except Check.Stop Report)}
    (steps : Steps begin during kernel)
    (undisturbed : Undisturbed jobs pid during (.call call next)) {reply : call.Reply}
    (replied : kernel.call pid call = some (reply, after))
    : Steps begin (during ++ [.call pid call (some reply)]) after
      ∧ Undisturbed jobs pid (during ++ [.call pid call (some reply)]) (next reply)
      ∧ exchanges pid (during ++ [.call pid call (some reply)])
        = exchanges pid during ++ [⟨call, reply⟩] := by
  have hosted := hosted_during rooted runs loadable short steps undisturbed
  have acts := hosted.hosts.isRunning rooted runs
  have same := exchanges_call pid during reply
  refine ⟨steps.snoc (.call acts replied), ⟨same ▸ undisturbed.follows.snoc reply, ?_⟩, same⟩
  exact throughout_snoc.mpr ⟨undisturbed.permits, .inl ⟨_, _, rfl⟩⟩

/-- The next call of the process comes to a reply, after the end of a child if it waits for it. -/
theorem proceeds {call : Syscall} {next : call.Reply → Prog (Except Check.Stop Report)}
    (steps : Steps begin during kernel)
    (undisturbed : Undisturbed jobs pid during (.call call next))
    : ∃ more reply after,
        Steps begin (during ++ more) after
        ∧ Undisturbed jobs pid (during ++ more) (next reply)
        ∧ exchanges pid (during ++ more) = exchanges pid during ++ [⟨call, reply⟩] := by
  have calls := (undisturbed.allowed 0).1
  have hosted := hosted_during rooted runs loadable short steps undisturbed
  rcases hosted.replies rooted runs calls with ⟨reply, after, replied⟩ | ⟨child, rfl, member, alive⟩
  · exact ⟨_, reply, after, call_made rooted runs loadable short steps undisturbed replied⟩
  · obtain ⟨index, place⟩ := List.mem_iff_getElem?.mp member
    have bound := (List.getElem?_eq_some_iff.mp place).1
    obtain ⟨job, given⟩ : ∃ job, jobs[index]? = some job :=
      ⟨_, List.getElem?_eq_getElem (Nat.lt_of_lt_of_le bound hosted.issued)⟩
    -- The child ends, so that the join has a reply.
    have ends : kernel.Step (.finish child (.exit job.signature)) _ := .finish alive
    have ended := steps.snoc ends
    have same := exchanges_finish pid child during (.exit job.signature)
    have waits
        : Undisturbed jobs pid (during ++ [.finish child (.exit job.signature)])
            (.call (.join child) next) :=
      ⟨same ▸ undisturbed.follows,
        throughout_snoc.mpr
          ⟨undisturbed.permits, .inr (.inr ⟨index, child, job, place, given, rfl⟩)⟩⟩
    have hosted := hosted_during rooted runs loadable short ended waits
    rw [same] at hosted
    rcases hosted.replies rooted runs calls with ⟨reply, after, replied⟩ | ⟨other, equal, -, alive⟩
    · obtain ⟨made, onward, exchanged⟩ :=
        call_made rooted runs loadable short ended waits replied
      rw [List.append_assoc] at made onward exchanged
      exact ⟨_, reply, after, made, onward, same ▸ exchanged⟩
    · cases equal
      cases alive.symm.trans (Kernel.isRunning_finish_self ..)

/-- The process comes to the end of its jobs, by induction on the calls that it may still make. -/
theorem completes (steps : Steps begin during kernel)
    (undisturbed : Undisturbed jobs pid during rest)
    : ∃ more outcome after,
        Steps begin (during ++ more) after
          ∧ Undisturbed jobs pid (during ++ more) (.done outcome) := by
  generalize left
    : mostCalls (room begin.processes) jobs - (exchanges pid during).length = number
  induction number generalizing during kernel rest with
  | zero =>
      cases rest with
      | done outcome => exact ⟨[], outcome, kernel, by simpa using ⟨steps, undisturbed⟩⟩
      | call call next =>
          have hosted := hosted_during rooted runs loadable short steps undisturbed
          have fewer := (undisturbed.allowed _).2 hosted.served
          omega
  | succ number ih =>
      cases rest with
      | done outcome => exact ⟨[], outcome, kernel, by simpa using ⟨steps, undisturbed⟩⟩
      | call call next =>
          obtain ⟨more, reply, after, further, onward, exchanged⟩ :=
            proceeds rooted runs loadable short steps undisturbed
          have fewer
              : mostCalls (room begin.processes) jobs - (exchanges pid (during ++ more)).length
                = number := by
            rw [exchanged, List.length_append, List.length_singleton]
            omega
          obtain ⟨last, outcome, later, made, ended⟩ := ih further onward fewer
          rw [List.append_assoc] at made ended
          exact ⟨_, outcome, later, made, ended⟩

end Hosted

-----------------------------------------------------------------------------------------
-- What jobs come to
-----------------------------------------------------------------------------------------

/-- What a process comes to that runs jobs with room for some children, at any time. It makes no
more calls than a number, its next call has a reply unless it waits for a child that still runs, and
in the end it has the full report, or a failure if it has jobs and there is no room at all. The
table has then the slots in it that it has begun with.
-/
structure Admission (capacity : Nat) (jobs : List Job) (pid : Pid) (begin : Kernel)
    (during : List Deed) (rest : Prog (Except Check.Stop Report)) (after : Kernel)
    : Prop where
  bounded : (exchanges pid during).length ≤ mostCalls capacity jobs
  advances
    : ∀ call next,
        rest = .call call next
        → (∃ reply later, after.call pid call = some (reply, later))
          ∨ ∃ child,
              call = .join child
              ∧ child ∈ started (exchanges pid during)
              ∧ after.processes.isRunning child = true
  reports
    : ∀ outcome,
        rest = .done outcome
        → 1 ≤ capacity ∨ jobs = []
        → outcome = .ok (fullReport capacity jobs)
  starves
    : ∀ outcome,
        rest = .done outcome
        → capacity = 0
        → jobs ≠ []
        → (∃ message, outcome = .error (.violation (.failure message)))
          ∧ started (exchanges pid during) = []
  restores
    : ∀ outcome,
        rest = .done outcome
        → after.processes.size = begin.processes.size
          ∧ ∀ other, after.processes.slots.get? other = begin.processes.slots.get? other

/-- The calls that were made were each allowed, so that there are no more than the most. -/
theorem Undisturbed.bounded (undisturbed : Undisturbed jobs pid during rest) {capacity : Nat}
    (served : Served capacity jobs (exchanges pid during))
    : (exchanges pid during).length ≤ mostCalls capacity jobs := by
  have follows := undisturbed.follows
  generalize exchanges pid during = past at follows served
  rcases List.eq_nil_or_concat past with rfl | ⟨earlier, last, rfl⟩
  · exact Nat.zero_le _
  · rw [List.concat_eq_append] at follows served ⊢
    obtain ⟨next, reached, -⟩ := follows.of_snoc
    have upholds := (upholds_runJobs capacity jobs).reaches reached
    rw [List.nil_append] at upholds
    rw [List.length_append]
    exact upholds.1.2 (throughout_snoc.mp served).1

/-- In the end no child is left. -/
theorem Undisturbed.unjoined_eq_nil {outcome : Except Check.Stop Report} {capacity : Nat}
    (undisturbed : Undisturbed jobs pid during (.done outcome))
    (served : Served capacity jobs (exchanges pid during))
    : unjoined (exchanges pid during) = [] := by
  rw [unjoined, List.drop_eq_nil_iff]
  rcases undisturbed.concluded capacity with ⟨report, -, concluded⟩ | ⟨violation, -, stopped⟩
  · exact Nat.le_of_eq (by rw [concluded.started, concluded.joined])
  · rw [(stopped.2 served).nothing]
    exact Nat.zero_le _

/-- A process that runs jobs undisturbed, from any point of a run on, is admitted exactly the room
that it has found. Its jobs can always come to their end, whatever was done until then.
-/
theorem runJobs_admitted {config : Config} {before : List Deed}
    (run : Kernel.Run config before begin) (runs : begin.processes.isRunning pid = true)
    (loadable : ∀ job ∈ jobs, job.program ∈ begin.programs)
    (short : ∀ job ∈ jobs, job.argv.length ≤ maxArguments)
    (steps : Steps begin during after) (undisturbed : Undisturbed jobs pid during rest)
    : Admission (config.maxProcesses - begin.processes.size) jobs pid begin during rest after
      ∧ ∃ more outcome last,
          Steps begin (during ++ more) last
          ∧ Undisturbed jobs pid (during ++ more) (.done outcome) := by
  have hosted := hosted_during run.rooted runs loadable short steps undisturbed
  have served := hosted.served
  rw [room, run.capacity] at served
  refine ⟨?_, completes run.rooted runs loadable short steps undisturbed⟩
  constructor
  · exact undisturbed.bounded served
  · rintro call next rfl
    exact hosted.replies run.rooted runs (undisturbed.allowed 0).1
  · rintro outcome rfl enough
    rcases undisturbed.concluded (config.maxProcesses - begin.processes.size) with
      ⟨report, rfl, concluded⟩ | ⟨violation, rfl, stopped⟩
    · rw [(concluded.served served).1]
    · obtain ⟨full, wanted, -⟩ := stopped.2 served
      rcases enough with room | none
      · omega
      · exact absurd none wanted
  · rintro outcome rfl full wanted
    rcases undisturbed.concluded (config.maxProcesses - begin.processes.size) with
      ⟨report, rfl, concluded⟩ | ⟨violation, rfl, ⟨message, rfl⟩, starved⟩
    · have room := (concluded.served served).2 (List.length_pos_iff.mpr wanted)
      omega
    · exact ⟨⟨message, rfl⟩, (starved served).nothing⟩
  · rintro outcome rfl
    have none := undisturbed.unjoined_eq_nil served
    refine ⟨?_, fun other => hosted.hosts.kept other (none ▸ List.not_mem_nil)⟩
    rw [hosted.hosts.size, none]
    rfl

/-- A kernel with three slots and one process, which has just started. -/
def crowdedKernel : Kernel :=
  (((Kernel.boot { Config.standard with maxProcesses := 3 }).register "p").start .host "p" []).2

/-- Three jobs for the two slots that are left. -/
def crowdedJobs : List Job := [.of "p" 5, .of "p" 6, .of "p" 7]

/-- The deeds of the three jobs. The second child ends first, and the third job has to wait for the
first child.
-/
def crowdedDeeds : List Deed :=
  [
    .call .first (.exec "p" ["p"]) (some (.ok (.ofNat 2))),
    .call .first (.exec "p" ["p"]) (some (.ok (.ofNat 3))),
    .finish (.ofNat 3) (.exit 6),
    .call .first (.exec "p" ["p"]) (some (.error .unavailable)),
    .call .first (.join (.ofNat 2)) none,
    .finish (.ofNat 2) (.exit 5),
    .call .first (.join (.ofNat 2)) (some (.ok (.exited 5))),
    .call .first (.exec "p" ["p"]) (some (.ok (.ofNat 4))),
    .call .first (.join (.ofNat 3)) (some (.ok (.exited 6))),
    .finish (.ofNat 4) (.exit 7),
    .call .first (.join (.ofNat 4)) (some (.ok (.exited 7)))
  ]

/-- With three slots in all, two of the three jobs run at once and one start is refused, as the law
says after these deeds.
-/
theorem runJobs_admitted_crowded
    : ∃ after,
        Steps crowdedKernel crowdedDeeds after
        ∧ Undisturbed crowdedJobs .first crowdedDeeds (.done (.ok ⟨3, 3, 1, 2, [0, 1, 2]⟩))
        ∧ after.processes.size = 1 := by
  have run : Kernel.Run { Config.standard with maxProcesses := 3 }
      [.register "p", .spawn "p" [] (.ok .first)] crowdedKernel :=
    .extend .boot (.cons (.register "p") <| .cons (.spawn rfl) .nil)
  obtain ⟨after, steps⟩ : ∃ after, Steps crowdedKernel crowdedDeeds after :=
    ⟨_, .cons (.call rfl rfl) <| .cons (.call rfl rfl) <| .cons (.finish rfl)
      <| .cons (.call rfl rfl) <| .cons (.callBlocked rfl rfl) <| .cons (.finish rfl)
      <| .cons (.call rfl rfl) <| .cons (.call rfl rfl) <| .cons (.call rfl rfl)
      <| .cons (.finish rfl) <| .cons (.call rfl rfl) .nil⟩
  have own {past : List Deed} {c : Syscall} {reply : Option c.Reply}
      : Permits crowdedJobs .first past (.call .first c reply) :=
    .inl ⟨_, _, rfl⟩
  have permits : Throughout (Permits crowdedJobs .first) crowdedDeeds :=
    .cons own <| .cons own <| .cons (.inr (.inr ⟨1, _, _, rfl, rfl, rfl⟩)) <| .cons own
      <| .cons own <| .cons (.inr (.inr ⟨0, _, _, rfl, rfl, rfl⟩)) <| .cons own <| .cons own
      <| .cons own <| .cons (.inr (.inr ⟨2, _, _, rfl, rfl, rfl⟩)) <| .cons own throughout_nil
  have replayed
      : (Prog.replay (exchanges .first crowdedDeeds) (runJobs crowdedJobs).run).isSome = true := by
    decide +kernel
  obtain ⟨outcome, same⟩ := Option.isSome_iff_exists.mp replayed
  have follows := Prog.reaches_of_replay same
  have admission := (runJobs_admitted run rfl (by decide) (by decide) steps ⟨follows, permits⟩).1
  obtain rfl := admission.reports outcome rfl (.inl (by decide))
  exact ⟨after, steps, ⟨follows, permits⟩, (admission.restores _ rfl).1⟩

end KernelConformance.Spawner
