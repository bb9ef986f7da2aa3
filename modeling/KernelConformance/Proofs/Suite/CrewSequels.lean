import KernelConformance.Proofs.Suite.RootEnds

/-! What comes after a process has run jobs. It and its children are a crew until then, in whatever
order they act. If all children were joined the process is alone from there on, so that it passes or
fails in one way only, and nothing is left of its children but the files that they leave to it.
-/

namespace KernelConformance

open Kernel (Performs Steps)

/-- Once a process has ended it exchanges nothing, by induction on the deeds. -/
theorem Kernel.Run.exchanges_of_ended {config : Config} {deeds more : List Deed}
    {kernel after : Kernel} {pid : Pid} (run : Kernel.Run config deeds kernel)
    (ended : Ended deeds pid) (steps : Steps kernel more after)
    : exchanges pid more = [] := by
  induction more using List.reverseRecOn generalizing after with
  | nil => rfl
  | append_singleton more deed ih =>
      obtain ⟨middle, earlier, step⟩ := steps.of_snoc
      rw [exchanges_snoc, ih earlier, List.nil_append]
      rcases made : deed.exchange? pid with _ | exchange
      · rfl
      · obtain rfl := Deed.eq_call_of_exchange made
        obtain ⟨ending, finished⟩ := ended
        cases step with
        | call alive =>
            have unended := ((run.extend earlier).isRunning_iff.mp alive).2
            exact absurd ⟨ending, List.mem_append_left _ finished⟩ unended

namespace Spawner

variable {α : Type} {config : Config} {jobs : List Job} {names : Nat → String → Prop}
  {except : String → Prop} {begin kernel middle : Kernel} {root child : Pid}
  {program : String} {argv : List String} {during early late : List Deed} {ending : Ending}

-----------------------------------------------------------------------------------------
-- Crews whose children have ended
-----------------------------------------------------------------------------------------

section Crews

variable {first : Prog α} {onward : α → Prog Ending} {result : List Exchange → α → Prop}
  (undertaking : Undertaking config jobs names begin root first result)

include undertaking

/-- A child that is not there any more has come to the end of its program. -/
theorem Crew.followed (crew : Crew config jobs names begin root first during kernel) {entry : Begin}
    (begun : entry ∈ starts during) (gone : kernel.processes.slots.get? entry.child = none)
    : ∃ job ∈ jobs,
        ∃ todo ending,
          testRun? job.program job.argv = some todo
          ∧ todo.Reaches (exchanges entry.child during) (.done ending) := by
  obtain ⟨deeds, run⟩ := undertaking.reachable
  obtain ⟨ending, finished⟩ := run.finish_of_gone crew.steps begun gone
  obtain ⟨before, after, whole⟩ := List.append_of_mem finished
  have proceeds := crew.proceeds before _ after whole
  have steps := crew.steps
  rw [whole] at steps
  cases proceeds with
  | @finish program argv child todo ending begun known reached =>
      obtain ⟨index, job, assigned, rfl, rfl⟩ :=
        crew.begun _ (whole ▸ starts_append before _ ▸ List.mem_append_left _ begun)
      refine ⟨job, List.mem_of_getElem? assigned.given, todo, ending, known, ?_⟩
      rw [← List.singleton_append, ← List.append_assoc] at whole steps
      obtain ⟨middle, earlier, later⟩ := steps.split
      have ended : Ended (deeds ++ (before ++ [.finish entry.child ending])) entry.child :=
        ⟨ending, List.mem_append_right _ (List.mem_append_right _ (List.mem_singleton.mpr rfl))⟩
      rw [whole, exchanges_append, (run.extend earlier).exchanges_of_ended ended later,
        List.append_nil, exchanges_finish]
      exact reached

/-- Whatever a process that begins by running jobs and its children do, they are a crew, or they
were one until the process had run its jobs, by induction on the deeds.
-/
theorem Undertaking.crew_or_beyond (steps : Steps begin during kernel)
    (acts : Throughout (Acts root (first >>= onward)) during)
    : Crew config jobs names begin root first during kernel
      ∨ ∃ early late value middle,
          during = early ++ late
          ∧ Crew config jobs names begin root first early middle
          ∧ first.Reaches (exchanges root early) (.done value)
          ∧ Steps middle late kernel := by
  induction during using List.reverseRecOn generalizing kernel with
  | nil =>
      cases steps
      exact .inl undertaking.begins
  | append_singleton during deed ih =>
      obtain ⟨middle, earlier, step⟩ := steps.of_snoc
      obtain ⟨before, last⟩ := throughout_snoc.mp acts
      rcases ih earlier before with crew | ⟨early, late, value, ready, rfl, crew, reached, later⟩
      · obtain ⟨rest, here⟩ := undertaking.reaches crew.steps crew.proceeds
        cases rest with
        | done value =>
            exact .inr ⟨during, [deed], value, middle, rfl, crew, here, .cons step .nil⟩
        | call c next =>
            have whole := here.bind onward
            cases last with
            | proceeds onward =>
                cases onward with
                | root called =>
                    cases called.unique whole
                    exact .inl (crew.step undertaking step (.root here))
                | child begun known reached =>
                    exact .inl (crew.step undertaking step (.child begun known reached))
                | finish begun known reached =>
                    exact .inl (crew.step undertaking step (.finish begun known reached))
            | ends finished => cases finished.unique whole
      · exact .inr ⟨early, late ++ [deed], value, ready, by simp, crew, reached, later.snoc step⟩

/-- A process that has ended has run its jobs before, and has gone on from what it
has come to then.
-/
theorem Undertaking.beyond (steps : Steps begin during kernel)
    (acts : Throughout (Acts root (first >>= onward)) during)
    (finished : .finish root ending ∈ during)
    : ∃ early late value middle,
        during = early ++ late
        ∧ Crew config jobs names begin root first early middle
        ∧ first.Reaches (exchanges root early) (.done value)
        ∧ Steps middle late kernel
        ∧ .finish root ending ∈ late
        ∧ ∃ past, (onward value).Reaches past (.done ending) := by
  obtain ⟨deeds, run⟩ := undertaking.reachable
  rcases undertaking.crew_or_beyond steps acts with
    crew | ⟨early, late, value, middle, rfl, crew, reached, later⟩
  · exact absurd finished (crew.unfinished undertaking ending)
  · have last : .finish root ending ∈ late :=
      (List.mem_append.mp finished).resolve_left (crew.unfinished undertaking ending)
    refine ⟨early, late, value, middle, rfl, crew, reached, later, last, ?_⟩
    obtain ⟨before, after, rfl⟩ := List.append_of_mem last
    cases acts (early ++ before) (.finish root ending) after (by simp) with
    | proceeds onward =>
        cases onward with
        | finish begun =>
            obtain ⟨_, earlier, -⟩ := (List.append_assoc early before _ ▸ steps).split
            have new := (earlier.starts_number begun).1
            exact absurd (run.rooted.running_lt undertaking.runs) (Nat.not_lt_of_le new)
    | ends ended =>
        rw [exchanges_append] at ended
        obtain ⟨rest, here, goesOn⟩ := ended.split
        cases (reached.bind onward).unique here
        exact ⟨_, goesOn⟩

omit undertaking in
/-- When all children were joined, the table is as it was when the process began. -/
theorem Crew.slots_eq (crew : Crew config jobs names begin root first during kernel)
    (all : unjoined (exchanges root during) = []) (pid : Pid)
    : kernel.processes.slots.get? pid = begin.processes.slots.get? pid :=
  crew.hosted.hosts.kept pid (all ▸ List.not_mem_nil)

omit undertaking in
/-- When all children were joined, the process runs alone, and only the host has children. -/
theorem Crew.alone (crew : Crew config jobs names begin root first during kernel)
    (opening : begin.Opening config program argv root)
    (all : unjoined (exchanges root during) = [])
    : kernel.processes.isRunning root = true
      ∧ (∀ pid, kernel.processes.isRunning pid = true → pid = root)
      ∧ ∀ pid slot, kernel.processes.slots.get? pid = some slot → slot.parent = .host := by
  refine ⟨?_, fun pid alive => opening.only pid ?_, fun pid slot found => ?_⟩
  · rw [ProcessTable.isRunning, crew.slots_eq all]
    exact opening.newborn.runs
  · rwa [ProcessTable.isRunning, ← crew.slots_eq all]
  · exact opening.childless pid slot (crew.slots_eq all pid ▸ found)

/-- When all children were joined, they are gone. -/
theorem Crew.gone (crew : Crew config jobs names begin root first during kernel)
    (all : unjoined (exchanges root during) = []) {entry : Begin} (begun : entry ∈ starts during)
    : kernel.processes.slots.get? entry.child = none := by
  obtain ⟨index, job, assigned, -⟩ := crew.begun entry begun
  rw [crew.slots_eq all]
  exact crew.hosted.hosts.absent (Crew.rooted undertaking) (List.mem_of_getElem? assigned.place)

end Crews

-----------------------------------------------------------------------------------------
-- Files of the children
-----------------------------------------------------------------------------------------

/-- Whether a job leaves no files that it has made, but those that are excepted. -/
def Sweeps (except : String → Prop) (job : Job) : Prop :=
  ∀ todo,
    testRun? job.program job.argv = some todo
    → todo.Upholds (fun _ _ => True) (fun past _ => ∀ name ∈ unremoved past, except name) []

/-- A deed that is only in the first part of a list has the second part after it. -/
theorem append_eq_of_notMem {deed : Deed} {before after : List Deed}
    (same : early ++ late = before ++ deed :: after) (elsewhere : deed ∉ late)
    : ∃ between, early = before ++ deed :: between ∧ after = between ++ late := by
  rcases List.append_eq_append_iff.mp same with ⟨more, rfl, rfl⟩ | ⟨more, rfl, rest⟩
  · exact absurd (List.mem_append_right _ (.head _)) elsewhere
  · cases more with
    | nil =>
        rw [List.nil_append] at rest
        exact absurd (rest ▸ List.mem_cons_self ..) elsewhere
    | cons first more =>
        cases rest
        exact ⟨more, rfl, rfl⟩

/-- Files that children were to make are not there any more when they are gone and the process,
which makes none, has removed those that are excepted.
-/
theorem Crew.nothing_left {first : Prog α} {onward : α → Prog Ending}
    {result : List Exchange → α → Prop}
    (undertaking : Undertaking config jobs names begin root first result)
    (crew : Crew config jobs names begin root first early middle)
    (gone : ∀ entry ∈ starts early, middle.processes.slots.get? entry.child = none)
    (makes : (first >>= onward).Makes Syscall.MakesNoFile)
    (sweeps : ∀ job ∈ jobs, Sweeps except job) (steps : Steps begin (early ++ late) kernel)
    (acts : Throughout (Acts root (first >>= onward)) (early ++ late))
    (own : ∀ deed ∈ late, deed.IsOwn root ∨ deed = .finish root ending)
    (removes : ∀ name, except name → ∃ reply, ⟨.unlink name, reply⟩ ∈ exchanges root late)
    {name : String} (absent : begin.files.names.get? name = none)
    : kernel.files.names.get? name = none := by
  by_contra present
  obtain ⟨deeds, run⟩ := undertaking.reachable
  have outside (bytes : Utf8.Bytes) (reply : Except Errno Unit)
      : .install name bytes reply ∉ early ++ late := by
    intro member
    obtain ⟨before, after, whole⟩ := List.append_of_mem member
    cases acts before _ after whole with
    | proceeds onward => cases onward
  obtain ⟨before, pid, reply, after, whole, kept⟩ := run.made_of_new steps outside absent present
  cases acts before _ after whole with
  | proceeds goesOn =>
      cases goesOn with
      | root called => exact (makes.reaches called).1 name rfl
      | child begun =>
          -- The process has made no file, so that it was a child, and that before all children were
          -- gone.
          have different : pid ≠ root := by
            rintro rfl
            obtain ⟨_, earlier, -⟩ := (whole ▸ steps).split
            have new := (earlier.starts_number begun).1
            exact absurd (run.rooted.running_lt undertaking.runs) (Nat.not_lt_of_le new)
          have elsewhere : .call pid (.creat name) (some reply) ∉ late := by
            intro member
            rcases own _ member with mine | same
            · exact different mine.eq_caller
            · cases same
          obtain ⟨between, rfl, rfl⟩ := append_eq_of_notMem whole elsewhere
          have listed :=
            List.mem_append_left (starts (.call pid (.creat name) (some reply) :: between)) begun
          rw [← starts_append] at listed
          obtain ⟨job, member, todo, _, known, reached⟩ :=
            crew.followed undertaking listed (gone _ listed)
          have left := (sweeps job member todo known).reaches reached
          rw [List.nil_append, exchanges_append, exchanges_cons_call] at left
          have excepted := left name (mem_unremoved_of_creat fun reply unlinked =>
            kept pid reply (List.mem_append_left _ (mem_exchanges.mp unlinked)))
          obtain ⟨reply, removed⟩ := removes name excepted
          exact kept root reply (List.mem_append_right _ (mem_exchanges.mp removed))

-----------------------------------------------------------------------------------------
-- Passing and failing
-----------------------------------------------------------------------------------------

/-- Whether a check runs jobs and joins all that it has started, and fails, if it is served, exactly
without any room for a child.
-/
def NeedsRoom (capacity : Nat) (jobs : List Job) (check : Check α) : Prop :=
  check.Upholds (Issues jobs)
    (fun past _ => Served capacity jobs past → 0 < capacity ∧ unjoined past = [])
    (fun past stop =>
      ∃ message,
        stop = .violation (.failure message) ∧ (Served capacity jobs past → capacity = 0))
    []

/-- What a process does after it has run jobs. It makes no files. If the jobs have passed it passes
by itself and removes the files that are excepted, and if they have failed it fails.
-/
structure Sequel (except : String → Prop) (onward : Except Check.Stop α → Prog Ending) : Prop where
  makes : ∀ outcome, (onward outcome).Makes Syscall.MakesNoFile
  passes
    : ∀ value (kernel : Kernel) root,
        ExecTest.absentProgram ∉ kernel.programs
        → (∀ pid slot, kernel.processes.slots.get? pid = some slot → slot.parent = .host)
        → ∃ after, Performs root kernel (onward (.ok value)) (.exit 0) after
  removes
    : ∀ value,
        (onward (.ok value)).Upholds (fun _ _ => True)
          (fun past _ => ∀ name, except name → ∃ reply, ⟨.unlink name, reply⟩ ∈ past) []
  fails
    : ∀ message,
        (onward (.error (.violation (.failure message)))).Upholds (fun _ _ => True)
          (fun _ ending => ending ≠ .exit 0) []

variable {check : Check α} {onward : Except Check.Stop α → Prog Ending}

theorem makesNoFile_of_issues {past : List Exchange} {c : Syscall} (issues : Issues jobs past c)
    : c.MakesNoFile := by
  rintro name rfl
  rcases issues with calls | ⟨bytes, same⟩
  · exact calls
  · cases same

/-- A process that runs jobs which pass where there is room for a child passes exactly if there is a
second slot, and then nothing is left.
-/
theorem Feasible.passes (feasible : Feasible config jobs names)
    (opening : begin.Opening config program argv root)
    (loadable : ∀ job ∈ jobs, job.program ∈ begin.programs)
    (needs : NeedsRoom (room begin.processes) jobs check) (sequel : Sequel except onward)
    (sweeps : ∀ job ∈ jobs, Sweeps except job) (steps : Steps begin during kernel)
    (acts : Throughout (Acts root (check.run >>= onward)) during)
    (finished : .finish root ending ∈ during)
    : (ending = .exit 0 ↔ 2 ≤ config.maxProcesses)
      ∧ (2 ≤ config.maxProcesses → kernel.Vacated root) := by
  obtain ⟨deeds, run⟩ := opening.reachable
  have undertaking := feasible.undertaking run opening.newborn loadable needs
  obtain ⟨early, late, outcome, middle, rfl, crew, reached, later, last, _, goesOn⟩ :=
    undertaking.beyond steps acts finished
  have holds := undertaking.issues.reaches reached
  rw [List.nil_append] at holds
  have served := crew.hosted.served
  have space : room begin.processes + 1 = config.maxProcesses := by
    have slot := run.rooted.bounded
    rw [opening.size, run.capacity] at slot
    rw [room, opening.size, run.capacity]
    omega
  cases outcome with
  | error stop =>
      obtain ⟨message, rfl, full⟩ := holds
      have none := full served
      refine ⟨iff_of_false ((sequel.fails message).reaches goesOn) (by omega), fun some => ?_⟩
      omega
  | ok value =>
      obtain ⟨free, all⟩ := holds served
      obtain ⟨runs, alone, hosted⟩ := crew.alone opening all
      obtain ⟨after, performs⟩ :=
        sequel.passes value middle root
          (programs_of_acts crew.steps acts.of_append ▸ opening.absent) hosted
      obtain ⟨own, ended⟩ := alone_until_ended (run.extend crew.steps) runs alone
        (fun entry begun => crew.begun_ne_root undertaking begun) (reached.bind onward)
          performs later acts
      obtain ⟨rfl, rfl, complete⟩ := ended ending last
      refine ⟨iff_of_true rfl (by omega), fun _ => ⟨fun pid different => ?_, fun name => ?_⟩⟩
      · refine Kernel.slots_finish ?_ different _
        rw [performs.processes_eq, crew.slots_eq all, opening.alone pid different]
        intro pid slot found
        rw [hosted pid slot found]
        exact Parent.noConfusion
      · refine crew.nothing_left undertaking (fun entry => crew.gone undertaking all) ?_ sweeps
          steps acts own
          (fun name excepted => ?_) (opening.names name)
        · refine Prog.Makes.bind
            (undertaking.issues.makes fun _ _ => makesNoFile_of_issues) sequel.makes
        · rw [exchanges_append] at complete
          obtain ⟨rest, here, onward⟩ := complete.split
          cases (reached.bind _).unique here
          exact (sequel.removes value).reaches onward name excepted

/-- A process that has to meet a status that none of its jobs has does not pass. -/
theorem Feasible.fails (feasible : Feasible config jobs names)
    (opening : begin.Opening config program argv root)
    (loadable : ∀ job ∈ jobs, job.program ∈ begin.programs)
    (issues
      : check.Upholds (Issues jobs) (fun past _ => ¬Served (room begin.processes) jobs past)
          Check.Failed [])
    (sequel : Sequel except onward)
    (steps : Steps begin during kernel)
    (acts : Throughout (Acts root (check.run >>= onward)) during)
    (finished : .finish root ending ∈ during)
    : ending ≠ .exit 0 := by
  obtain ⟨deeds, run⟩ := opening.reachable
  have undertaking := feasible.undertaking run opening.newborn loadable issues
  obtain ⟨early, late, outcome, middle, rfl, crew, reached, -, -, _, goesOn⟩ :=
    undertaking.beyond steps acts finished
  have holds := undertaking.issues.reaches reached
  rw [List.nil_append] at holds
  cases outcome with
  | ok value => exact absurd crew.hosted.served holds
  | error stop =>
      obtain ⟨message, rfl⟩ := holds
      exact (sequel.fails message).reaches goesOn

end Spawner

end KernelConformance
