import KernelConformance.Proofs.Programs.MadeFiles
import KernelConformance.Proofs.Suite.CrewEnds
import KernelConformance.Proofs.Suite.FaultFreeRuns
import KernelConformance.Proofs.Suite.IdleKernels

/-! What a process comes to that has a kernel for itself, in whatever order it and its children act.
While it is alone it goes on in one way only. If it begins by running jobs, then it and its children
are a crew until it has done so, and it is alone again if all of them were joined.
-/

namespace KernelConformance

open Kernel (EndsAlone Performs Steps noName)

variable {config : Config} {deeds early late during : List Deed} {begin middle kernel last : Kernel}
  {root pid : Pid} {prog rest : Prog Ending} {ending : Ending} {program : String}
  {argv : List String}

-----------------------------------------------------------------------------------------
-- A process that is alone
-----------------------------------------------------------------------------------------

/-- Whoever does a deed runs. -/
theorem Acts.running {deed : Deed} (acts : Acts root prog early deed)
    (step : middle.Step deed kernel)
    : ∃ pid, middle.processes.isRunning pid = true := by
  cases acts with
  | proceeds onward =>
      rcases onward.running step with runs | ⟨entry, -, runs⟩
      · exact ⟨root, runs⟩
      · exact ⟨entry.child, runs⟩
  | ends =>
      cases step with
      | finish runs => exact ⟨root, runs⟩

/-- A process and its children make no program loadable, by induction on their deeds. -/
theorem programs_of_acts (steps : Steps begin during kernel)
    (acts : Throughout (Acts root prog) during)
    : kernel.programs = begin.programs := by
  induction during using List.reverseRecOn generalizing kernel with
  | nil =>
      cases steps
      rfl
  | append_singleton during deed ih =>
      obtain ⟨middle, earlier, step⟩ := steps.of_snoc
      obtain ⟨before, last⟩ := throughout_snoc.mp acts
      rw [← ih earlier before]
      cases step with
      | call _ replied => exact Kernel.call_programs replied
      | callBlocked => rfl
      | finish => exact Kernel.finish_programs ..
      | _ =>
          cases last with
          | proceeds onward => cases onward

/-- Once a process has ended nobody acts, if it was the only one that ran. -/
theorem nobody_acts (run : Kernel.Run config deeds middle)
    (runs : middle.processes.isRunning root = true)
    (alone : ∀ pid, middle.processes.isRunning pid = true → pid = root)
    (steps : Steps (middle.finish root ending) late kernel)
    (acts : Throughout (Acts root prog) (early ++ late))
    : late = [] ∧ kernel = middle.finish root ending := by
  cases steps with
  | nil => exact ⟨rfl, rfl⟩
  | @cons _ deed _ _ _ step _ =>
      obtain ⟨pid, alive⟩ := (acts early deed _ rfl).running step
      have ends : middle.Step (.finish root ending) _ := .finish runs
      rcases run.running_step ends alive with started | ⟨before, stays⟩
      · cases started
      · obtain rfl := alone pid before
        exact absurd rfl stays

/-- A call that starts nobody leaves a process alone. -/
theorem alone_after_call (run : Kernel.Run config deeds middle)
    (runs : middle.processes.isRunning root = true)
    (alone : ∀ pid, middle.processes.isRunning pid = true → pid = root) {c : Syscall}
    {reply : c.Reply} (replied : middle.call root c = some (reply, kernel))
    (idle : c.started? reply = none) (pid : Pid) (alive : kernel.processes.isRunning pid = true)
    : pid = root := by
  have step : middle.Step (.call root c (some reply)) kernel := .call runs replied
  rcases run.running_step step alive with started | ⟨before, -⟩
  · cases c with
    | exec =>
        cases reply with
        | ok => cases idle
        | error => cases started
    | _ => rcases reply with _ | _ <;> cases started
  · exact alone pid before

/-- What comes next where a process is alone: it makes the call that it comes to and starts nobody,
or it ends.
-/
theorem alone_cases (alone : ∀ pid, middle.processes.isRunning pid = true → pid = root)
    (others : ∀ entry ∈ starts early, entry.child ≠ root)
    (reached : prog.Reaches (exchanges root early) rest)
    (performs : Performs root middle rest ending last) {deed : Deed} {next : Kernel}
    (step : middle.Step deed next) (acts : Acts root prog early deed)
    : (∃ c onward reply,
        deed = .call root c (some reply)
        ∧ c.started? reply = none
        ∧ rest = .call c onward
        ∧ middle.call root c = some (reply, next)
        ∧ Performs root next (onward reply) ending last)
      ∨ deed = .finish root ending
        ∧ rest = .done ending
        ∧ middle = last
        ∧ next = middle.finish root ending := by
  have own {entry : Begin} (begun : entry ∈ starts early)
      (acts : middle.processes.isRunning entry.child = true)
      : False :=
    others entry begun (alone entry.child acts)
  cases acts with
  | proceeds onward =>
      cases onward with
      | root called =>
          obtain rfl := called.unique reached
          cases performs with
          | call made idle performs =>
              cases step with
              | callBlocked _ blocked => cases blocked.symm.trans made
              | call _ replied =>
                  cases made.symm.trans replied
                  exact .inl ⟨_, _, _, rfl, idle, rfl, made, performs⟩
      | child begun =>
          cases step with
          | call alive => exact (own begun alive).elim
          | callBlocked alive => exact (own begun alive).elim
      | finish begun =>
          cases step with
          | finish alive => exact (own begun alive).elim
  | ends finished =>
      obtain rfl := finished.unique reached
      cases performs
      cases step
      exact .inr ⟨rfl, rfl, rfl, rfl⟩

/-- A process that is alone goes on by itself until it has ended, by induction on the deeds. -/
theorem alone_until_ended (run : Kernel.Run config deeds middle)
    (runs : middle.processes.isRunning root = true)
    (alone : ∀ pid, middle.processes.isRunning pid = true → pid = root)
    (others : ∀ entry ∈ starts early, entry.child ≠ root)
    (reached : prog.Reaches (exchanges root early) rest)
    (performs : Performs root middle rest ending last) (steps : Steps middle late kernel)
    (acts : Throughout (Acts root prog) (early ++ late))
    : (∀ deed ∈ late, deed.IsOwn root ∨ deed = .finish root ending)
      ∧ ∀ other,
          .finish root other ∈ late
          → other = ending
            ∧ kernel = last.finish root ending
            ∧ prog.Reaches (exchanges root (early ++ late)) (.done ending) := by
  induction late generalizing early middle rest deeds with
  | nil => exact ⟨nofun, nofun⟩
  | cons deed late ih =>
      have whole : early ++ deed :: late = (early ++ [deed]) ++ late := by simp
      cases steps with
      | cons step steps =>
          rcases alone_cases alone others reached performs step (acts early deed late rfl) with
            ⟨c, onward, reply, rfl, idle, rfl, replied, performs⟩ | ⟨rfl, rfl, rfl, rfl⟩
          · have mine : (Deed.call root c (some reply)).IsOwn root := ⟨c, reply, rfl, idle⟩
            rw [whole] at acts ⊢
            obtain ⟨all, ended⟩ := ih (run.step step) (run.isRunning_call step runs)
              (alone_after_call run runs alone replied idle)
              (by rwa [starts_snoc_of_none early mine.begin?_eq_none])
              (exchanges_call root early reply ▸ reached.snoc reply) performs steps acts
            refine ⟨List.forall_mem_cons.mpr ⟨.inl mine, all⟩, fun other finished => ?_⟩
            rcases List.mem_cons.mp finished with same | later
            · exact absurd same.symm (mine.ne_finish other)
            · exact ended other later
          · rw [whole] at acts
            obtain ⟨rfl, rfl⟩ := nobody_acts run runs alone steps acts
            refine ⟨fun deed member => .inr (List.mem_singleton.mp member), fun other member => ?_⟩
            cases List.mem_singleton.mp member
            exact ⟨rfl, rfl, by rwa [exchanges_finish]⟩

/-- What a process without children performs leaves the process table as it was, by
induction on the run.
-/
theorem Kernel.Performs.processes_eq {α : Type} {prog : Prog α} {value : α}
    (performs : Performs root middle prog value last)
    (childless : ∀ pid slot, middle.processes.slots.get? pid = some slot → slot.parent ≠ .proc root)
    : last.processes = middle.processes := by
  induction performs with
  | done => rfl
  | @call kernel c next reply after value last replied idle _ ih =>
      have same : after.processes = kernel.processes := by
        cases c with
        | exec =>
            cases reply with
            | ok => cases idle
            | error => exact Kernel.call_error_processes replied
        | join child =>
            have refused := Wait.retry_noChild ⟨.proc root, child⟩ fun slot => childless child slot
            cases replied.symm.trans refused
            exact Kernel.call_error_processes replied
        | _ => exact (Kernel.call_elsewhere rfl replied).processes
      rw [← same]
      exact ih fun pid slot found => childless pid slot (same ▸ found)

/-- A kernel on which nothing is left but the entry of a process. -/
structure Kernel.Vacated (root : Pid) (kernel : Kernel) : Prop where
  slots : ∀ pid, pid ≠ root → kernel.processes.slots.get? pid = none
  names : ∀ name, kernel.files.names.get? name = none

/-- The end of a process brings nobody into the table. -/
theorem Kernel.slots_finish (gone : kernel.processes.slots.get? pid = none) (different : pid ≠ root)
    (ending : Ending)
    : (kernel.finish root ending).processes.slots.get? pid = none := by
  rw [Kernel.finish_processes, ProcessTable.get?_exit, ProcessTable.get?_disown, gone]
  simp [different]

/-- Whether a program with some arguments that has a kernel for itself exits with zero exactly if
something holds, in whatever order it and its children act, and leaves nothing then but its status.
-/
def Settles (config : Config) (program : String) (argv : List String) (passes : Prop) : Prop :=
  ∃ prog,
    testRun? program argv = some prog
    ∧ ∀ root begin during kernel ending,
        begin.Opening config program argv root
        → Steps begin during kernel
        → Throughout (Acts root prog) during
        → .finish root ending ∈ during
        → (ending = .exit 0 ↔ passes) ∧ (passes → kernel.Vacated root)

namespace Kernel.Opening

/-- The process is the only one. -/
theorem only (opening : begin.Opening config program argv root) (pid : Pid)
    (alive : begin.processes.isRunning pid = true)
    : pid = root := by
  by_contra different
  obtain ⟨parent, found⟩ := ProcessTable.isRunning_iff.mp alive
  rw [opening.alone pid different] at found
  cases found

theorem childless (opening : begin.Opening config program argv root) (pid : Pid) (slot : Slot)
    (found : begin.processes.slots.get? pid = some slot)
    : slot.parent = .host := by
  by_cases same : pid = root
  · rw [same, opening.hosted] at found
    cases found
    rfl
  · rw [opening.alone pid same] at found
    cases found

end Kernel.Opening

/-- A program that ends by itself and leaves no files passes by the status that it ends with. -/
theorem settles_of_endsAlone {main : Main} {passes : Prop}
    (known : testProgram? program = some main)
    (ends
      : EndsAlone config main program argv fun kernel _ _ after =>
          kernel.files.Leaves noName after.files)
    (exits
      : ∀ root begin,
          begin.Opening config program argv root
          → ∃ status after,
              Performs root begin (main (argv.headD program) argv) (.exit status) after
              ∧ (status = 0 ↔ passes))
    : Settles config program argv passes := by
  refine ⟨main (argv.headD program) argv, by rw [testRun?, known]; rfl, ?_⟩
  intro root begin during kernel ending opening steps acts finished
  obtain ⟨deeds, run⟩ := opening.reachable
  obtain ⟨status, after, performs, verdict⟩ := exits root begin opening
  obtain ⟨_, _, performed, -, leaves⟩ := ends deeds begin root run opening.newborn
  obtain ⟨rfl, rfl⟩ := performs.unique performed
  have acts : Throughout (Acts root (main (argv.headD program) argv)) ([] ++ during) := acts
  have nobody (entry : Begin) (begun : entry ∈ starts []) : entry.child ≠ root := by cases begun
  obtain ⟨-, ended⟩ :=
    alone_until_ended run opening.newborn.runs opening.only nobody .refl performs steps acts
  obtain ⟨rfl, rfl, -⟩ := ended ending finished
  have childless (pid : Pid) (slot : Slot) (found : begin.processes.slots.get? pid = some slot)
      : slot.parent ≠ .proc root := by
    rw [opening.childless pid slot found]
    nofun
  rw [← verdict]
  refine ⟨by simp, fun _ => ⟨fun pid different => ?_, fun name => ?_⟩⟩
  · refine Kernel.slots_finish ?_ different _
    rw [performs.processes_eq childless]
    exact opening.alone pid different
  · rw [Kernel.finish_files]
    by_contra present
    rw [← FileSystem.contents?_eq_none, ← Ne, Option.ne_none_iff_exists'] at present
    obtain ⟨bytes, there⟩ := present
    have before := (leaves name bytes there).resolve_right id
    rw [FileSystem.contents?_eq_none.mpr (opening.names name)] at before
    cases before

end KernelConformance
