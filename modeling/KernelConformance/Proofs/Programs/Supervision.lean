import KernelConformance.Proofs.Files.Leavings
import KernelConformance.Proofs.Programs.Families

/-! What a machine makes of a program whose children end by themselves. If each call that it may
make is one that a supervisor makes, then it comes to its end, its family goes with it, and no file
stays but those that are excepted and were not removed.
-/

namespace KernelConformance

/-- The names that were removed since a process was last started. -/
def cleared : List Exchange → List String :=
  List.foldl (fun names exchange =>
    match exchange.call with
    | .exec _ _ => []
    | .unlink name => name :: names
    | _ => names) []

theorem cleared_snoc (past : List Exchange) (last : Exchange)
    : cleared (past ++ [last])
      = match last.call with
        | .exec _ _ => []
        | .unlink name => name :: cleared past
        | _ => cleared past := by
  rw [cleared, List.foldl_append]
  rfl

theorem ProcessTable.size_pos {table : ProcessTable} {pid : Pid} (runs : table.isRunning pid = true)
    : 0 < table.size := by
  obtain ⟨parent, found⟩ := isRunning_iff.mp runs
  exact List.length_pos_of_mem (FiniteMap.get?_eq_some.mp found)

namespace Kernel

variable {config : Config} {kernel middle after begin : Kernel} {root pid child : Pid}
  {past : List Exchange} {images : Images Unit} {depth : Nat} {deeds : List Deed}
  {proper : String → List String → ExitStatus → Prop} {except : String → Prop}

/-- The calls of a supervisor. It starts only programs that end by themselves, leave no files but
those that are excepted and have a proper status, or that cannot be loaded. It prints, and removes
files that are excepted.
-/
def Supervises (config : Config) (images : Images Unit) (begin : Kernel)
    (proper : String → List String → ExitStatus → Prop) (except : String → Prop)
    (_ : List Exchange)
    : Syscall → Prop
  | .exec program argv =>
      program ∉ begin.programs
      ∨ ∃ main,
          images program = some (Image.ofMain main)
          ∧ EndsAlone config main program argv fun kernel _ ending after =>
              kernel.files.Leaves except after.files ∧ proper program argv ending.status
  | .join _ => True
  | .write fd _ => fd = .stdout
  | .unlink name => except name
  | _ => False

/-- What holds while a supervisor is at work: its family is as it should be, it has no descriptors
but those of its start, and no file is new but those that are excepted and were not removed.
-/
structure Supervised (config : Config) (begin : Kernel) (root : Pid)
    (proper : String → List String → ExitStatus → Prop) (except : String → Prop)
    (past : List Exchange) (kernel : Kernel)
    : Prop where
  family : begin.Family config root proper past kernel
  fds : kernel.fds root = .initial config.maxOpenFiles
  files : begin.files.Leaves (fun name => except name ∧ name ∉ cleared past) kernel.files

/-- A process that has just been started has no file open. -/
theorem Newborn.closed {program : String} {argv : List String}
    (newborn : kernel.Newborn pid program argv) (inode : Inode)
    : ¬(kernel.fds pid).Opens inode := by
  rw [fds, newborn.context]
  exact Descriptors.not_opens_initial _

/-- A process that has just been started has the descriptors of a start. -/
theorem Newborn.fds (run : Run config deeds kernel) {program : String} {argv : List String}
    (newborn : kernel.Newborn pid program argv)
    : kernel.fds pid = .initial config.maxOpenFiles := by
  rw [Kernel.fds, newborn.context, run.tidy.configured]

theorem fds_elsewhere (same : kernel.Elsewhere child after) (different : root ≠ child)
    : after.fds root = kernel.fds root :=
  congrArg Context.fds (same.contexts root different)

/-- Only a program that can be loaded is started. -/
theorem program_of_start {parent : Parent} {program : String} {argv : List String}
    (started : kernel.start parent program argv = (.ok child, after))
    : program ∈ kernel.programs := by
  by_contra unknown
  have refused : ∃ error, kernel.allot parent program argv = (.error error, kernel) := by
    by_cases long : maxArguments < argv.length
    · exact ⟨_, if_pos long⟩
    · exact ⟨_, (if_neg long).trans (if_pos unknown)⟩
  obtain ⟨error, refused⟩ := refused
  rw [start, refused] at started
  cases started

theorem program_of_call {program : String} {argv : List String}
    (started : kernel.call root (.exec program argv) = some (.ok child, after))
    : program ∈ kernel.programs := by
  obtain ⟨middle, performed, -⟩ := call_cases started
  exact program_of_start (Option.some.inj performed)

/-- A start leaves the files and the descriptors of all other processes as they were. -/
theorem exec_fds {program : String} {argv : List String} {reply : Except Errno Pid}
    (replied : kernel.call root (.exec program argv) = some (reply, after))
    : after.files = kernel.files ∧ ∀ pid, reply ≠ .ok pid → after.fds pid = kernel.fds pid := by
  obtain ⟨middle, performed, rfl⟩ := call_cases replied
  rw [trace_files, fds_trace]
  rcases start_cases (Option.some.inj performed) with ⟨_, -, rfl⟩ | ⟨started, _, rfl, -, rfl⟩
  · exact ⟨rfl, fun _ _ => rfl⟩
  · refine ⟨rfl, fun pid other => ?_⟩
    have different : pid ≠ started := fun same => other (same ▸ rfl)
    rw [fds_insert kernel _ kernel.files, Function.update_of_ne different]

/-- A join leaves the files and all descriptors as they were. -/
theorem join_unseen {reply : Except Errno ExitStatus}
    (replied : kernel.call root (.join child) = some (reply, after))
    : after.files = kernel.files ∧ after.fds = kernel.fds := by
  obtain ⟨middle, performed, rfl⟩ := call_cases replied
  rw [trace_files, fds_trace]
  rcases reap_cases performed with ⟨_, -, rfl⟩ | ⟨_, _, -, -, rfl⟩ <;> exact ⟨rfl, rfl⟩

theorem fds_unlink {name : String} {reply : Except Errno Unit}
    (replied : kernel.call root (.unlink name) = some (reply, after))
    : after.fds = kernel.fds := by
  obtain ⟨middle, performed, rfl⟩ := call_cases replied
  rw [fds_trace]
  have done : kernel.unlink name = (reply, middle) := Option.some.inj performed
  unfold Kernel.unlink at done
  split at done <;> cases done <;> rfl

/-- A process and its child both hold a slot, so that there is a level for the child. -/
theorem Run.exists_level (run : Run config deeds kernel)
    (acts : kernel.processes.isRunning root = true) {program : String} {table : ProcessTable}
    (begun : kernel.processes.Started (.proc root) program child table)
    (levels : config.maxProcesses = depth + 1)
    : ∃ below, depth = below + 1 := by
  refine Nat.exists_eq_succ_of_ne_zero ?_
  rintro rfl
  have room := begun.room
  have held := ProcessTable.size_pos acts
  have capacity := run.capacity
  omega

namespace Supervised

variable (run : Run config deeds begin) (runs : begin.processes.isRunning root = true)

theorem alone (run : Run config deeds begin)
    (fds : begin.fds root = .initial config.maxOpenFiles)
    : begin.Supervised config root proper except [] begin :=
  ⟨.alone run root, fds, .refl _ _⟩

include run runs

/-- A supervisor that starts a program has it refused, or the child comes to its end by itself. -/
theorem exec {program : String} {argv : List String} {past : List Exchange}
    (supervised : begin.Supervised config root proper except past kernel)
    (allowed : Supervises config images begin proper except past (.exec program argv))
    (levels : config.maxProcesses = depth + 1) (reports : List (Pid × Unit))
    : ∃ reply middle,
        kernel.call root (.exec program argv) = some (reply, middle)
        ∧ begin.Supervised config root proper except (past ++ [⟨.exec program argv, reply⟩])
            (Machine.answered (Machine.launch images depth) (.exec program argv) reply
              ⟨middle, reports⟩).kernel := by
  have acts := supervised.family.runs run runs
  obtain ⟨earlier, reachable⟩ := supervised.family.reachable
  obtain ⟨reply, middle, replied⟩
      : ∃ reply middle, kernel.call root (.exec program argv) = some (reply, middle) :=
    ⟨_, _, rfl⟩
  obtain ⟨sameFiles, sameFds⟩ := exec_fds replied
  have none : cleared (past ++ [⟨.exec program argv, reply⟩]) = [] := cleared_snoc ..
  refine ⟨reply, middle, replied, ?_⟩
  cases reply with
  | error error =>
      refine ⟨supervised.family.refused run runs replied, ?_, ?_⟩
      · rw [← supervised.fds]
        exact sameFds root nofun
      · rw [none]
        change begin.files.Leaves _ middle.files
        rw [sameFiles]
        exact supervised.files.mono fun name left => ⟨left.1, List.not_mem_nil⟩
  | ok child =>
      have begun := started_of_call replied
      have known : program ∈ begin.programs := by
        rw [← supervised.family.programs]
        exact program_of_call replied
      obtain ⟨main, image, ends⟩ := allowed.resolve_left (not_not_intro known)
      have newborn := newborn_of_call replied
      obtain ⟨ending, after, performs, same, left, right⟩ :=
        ends _ _ _ (reachable.step (.call acts replied)) newborn
      obtain ⟨below, rfl⟩ := reachable.exists_level acts begun levels
      have calls := performs.runCalls (Machine.launch images below) reports
      have context := newborn.context
      rw [Machine.answered]
      simp only [Syscall.started?]
      rw [Machine.launch_main image (by rw [context]; exact calls)]
      have different := reachable.rooted.ne_started begun acts
      refine ⟨supervised.family.reared run runs replied performs same right, ?_, ?_⟩
      · rw [fds_finish, Function.update_of_ne different, fds_elsewhere same different,
          sameFds root fun equal => different (Except.ok.inj equal).symm, supervised.fds]
      · rw [none, finish_files]
        rw [sameFiles] at left
        exact (supervised.files.mono fun name kept => ⟨kept.1, List.not_mem_nil⟩).trans
          (left.mono fun name kept => ⟨kept, List.not_mem_nil⟩)

/-- A supervisor that joins a process always has a reply. -/
theorem join {past : List Exchange}
    (supervised : begin.Supervised config root proper except past kernel)
    (newest : begin.processes.next = root.next) (child : Pid)
    : ∃ reply after,
        kernel.call root (.join child) = some (reply, after)
        ∧ begin.Supervised config root proper except (past ++ [⟨.join child, reply⟩]) after := by
  obtain ⟨reply, after, replied, family⟩ := supervised.family.join run runs newest child
  obtain ⟨sameFiles, sameFds⟩ := join_unseen replied
  refine ⟨reply, after, replied, family, ?_, ?_⟩
  · rw [sameFds, supervised.fds]
  · rw [sameFiles, cleared_snoc]
    exact supervised.files

/-- A supervisor that prints changes nothing but the console. -/
theorem print {past : List Exchange}
    (supervised : begin.Supervised config root proper except past kernel) (bytes : Utf8.Bytes)
    : ∃ reply after,
        kernel.call root (.write .stdout bytes) = some (reply, after)
        ∧ begin.Supervised config root proper except (past ++ [⟨.write .stdout bytes, reply⟩])
            after := by
  have acts := supervised.family.runs run runs
  obtain ⟨earlier, reachable⟩ := supervised.family.reachable
  have held : (kernel.fds root).get? .stdout = some .stdout := by
    rw [supervised.fds]
    rfl
  have performed
      : kernel.perform root (.write .stdout bytes) = some (.ok bytes.length, kernel.print bytes) :=
    congrArg some (write_of_stdout held bytes)
  have replied := call_of_perform performed
  refine ⟨_, _, replied, ?_, ?_, ?_⟩
  · have same := call_elsewhere (c := .write .stdout bytes) rfl replied
    exact supervised.family.idle ⟨_, reachable.step (.call acts replied)⟩ same.programs
      same.processes rfl
  · rw [fds_trace]
    exact supervised.fds
  · rw [trace_files, cleared_snoc]
    exact supervised.files

/-- A supervisor that removes a file has no file of that name then. -/
theorem unlink {past : List Exchange}
    (supervised : begin.Supervised config root proper except past kernel) (name : String)
    : ∃ reply after,
        kernel.call root (.unlink name) = some (reply, after)
        ∧ begin.Supervised config root proper except (past ++ [⟨.unlink name, reply⟩]) after := by
  have acts := supervised.family.runs run runs
  obtain ⟨earlier, reachable⟩ := supervised.family.reachable
  obtain ⟨reply, after, replied⟩ := @call_onFiles (.unlink name) rfl kernel root
  have same := call_elsewhere (c := .unlink name) rfl replied
  obtain ⟨absent, -⟩ := call_unlink_absent replied (reachable.admits name)
  have closed (inode : Inode) : ¬(kernel.fds root).Opens inode := by
    rw [supervised.fds]
    exact Descriptors.not_opens_initial _
  have confined : kernel.Confined (· = name) root after :=
    call_confined (c := .unlink name) rfl (fun _ uses => (Option.some.inj uses).symm) replied
  have leaves : kernel.files.Leaves (fun _ => False) after.files := by
    refine confined.files.leaves closed reachable.tidy.names fun other uses stays => ?_
    exact stays (uses ▸ absent)
  refine ⟨reply, after, replied, ?_, ?_, ?_⟩
  · exact supervised.family.idle ⟨_, reachable.step (.call acts replied)⟩ same.programs
      same.processes rfl
  · rw [fds_unlink replied, supervised.fds]
  · have removed := (supervised.files.trans (leaves.mono fun _ => False.elim)).without absent
    refine removed.mono fun other left => ⟨left.1.1, ?_⟩
    rw [cleared_snoc]
    simp [left.1.2, left.2]

/-- A call that a supervisor makes has a reply, and leaves it at work, by cases on the call. -/
theorem answers {machine : Machine Unit} {c : Syscall} {past : List Exchange}
    (supervised : begin.Supervised config root proper except past machine.kernel)
    (newest : begin.processes.next = root.next) (levels : config.maxProcesses = depth + 1)
    (allowed : Supervises config images begin proper except past c)
    : ∃ reply middle,
        machine.kernel.call root c = some (reply, middle)
        ∧ begin.Supervised config root proper except (past ++ [⟨c, reply⟩])
            (Machine.answered (Machine.launch images depth) c reply
              ⟨middle, machine.reports⟩).kernel := by
  cases c with
  | exec program argv => exact supervised.exec run runs allowed levels machine.reports
  | join child =>
      obtain ⟨reply, middle, replied, kept⟩ := supervised.join run runs newest child
      exact ⟨reply, middle, replied, kept⟩
  | write fd bytes =>
      obtain rfl : fd = .stdout := allowed
      obtain ⟨reply, middle, replied, kept⟩ := supervised.print run runs bytes
      exact ⟨reply, middle, replied, kept⟩
  | unlink name =>
      obtain ⟨reply, middle, replied, kept⟩ := supervised.unlink run runs name
      exact ⟨reply, middle, replied, kept⟩
  | _ => exact allowed.elim

/-- A program that makes the calls of a supervisor comes to its end on a machine, with everything as
it is while a supervisor is at work.
-/
theorem comes {α : Type} {prog : Prog α} {result : List Exchange → α → Prop}
    (newest : begin.processes.next = root.next) (levels : config.maxProcesses = depth + 1)
    (fds : begin.fds root = .initial config.maxOpenFiles)
    (upholds : prog.Upholds (Supervises config images begin proper except) result [])
    (reports : List (Pid × Unit))
    : ∃ value after exchanges,
        Machine.runCalls (Machine.launch images depth) root prog ⟨begin, reports⟩
          = (some value, after)
        ∧ prog.Reaches exchanges (.done value)
        ∧ result exchanges value
        ∧ begin.Supervised config root proper except exchanges after.kernel := by
  have keep (past : List Exchange) (machine : Machine Unit) (c : Syscall)
      (allowed : Supervises config images begin proper except past c)
      (supervised : begin.Supervised config root proper except past machine.kernel) :=
    supervised.answers run runs newest levels allowed
  have alone : begin.Supervised config root proper except [] begin := .alone run fds
  exact Machine.runCalls_upholds keep upholds alone

end Supervised

-----------------------------------------------------------------------------------------
-- Runs for the host
-----------------------------------------------------------------------------------------

/-- A kernel after the host has run a program: the table has the entries that it had before. -/
structure Settled (config : Config) (before after : Kernel) : Prop where
  reachable : ∃ deeds, Run config deeds after
  programs : after.programs = before.programs
  slots : ∀ pid, after.processes.slots.get? pid = before.processes.slots.get? pid

variable {before : Kernel} {program : String} {argv : List String}

/-- A machine cannot run what the kernel refuses to start. -/
theorem run_of_refused (images : Images Unit) {error : Errno}
    (refused : before.start .host program argv = (.error error, after))
    (reports : List (Pid × Unit))
    : Machine.run images program argv ⟨before, reports⟩
      = (some (.error error), ⟨before, reports⟩) := by
  obtain rfl := start_failed refused
  simp only [Machine.run, Machine.spawn, refused]

/-- A machine runs a program to its end if its calls come to an end and it can be joined then. -/
theorem run_of_calls {machine : Machine Unit} {main : Main} {ending : Ending} {last : Kernel}
    {reports : List (Pid × Unit)} (run : Run config deeds before)
    (started : before.start .host program argv = (.ok root, begin))
    (levels : config.maxProcesses = depth + 1) (image : images program = some (Image.ofMain main))
    (calls
      : Machine.runCalls (Machine.launch images depth) root (main (argv.headD program) argv)
          ⟨begin, reports⟩
        = (some ending, machine))
    (reaped : (machine.kernel.finish root ending).reap .host root = some (.ok ending.status, last))
    : Machine.run images program argv ⟨before, reports⟩
      = (some (.ok (root, ending.status)), ⟨last, (root, ()) :: machine.reports⟩) := by
  have context := (newborn_of_start started).context
  have launched
      : Machine.launch images (depth + 1) root program ⟨begin, reports⟩
        = ⟨machine.kernel.finish root ending, (root, ()) :: machine.reports⟩ :=
    Machine.launch_main image (by rw [context]; exact calls)
  have spawned
      : Machine.spawn images program argv ⟨before, reports⟩
        = (.ok root, ⟨machine.kernel.finish root ending, (root, ()) :: machine.reports⟩) := by
    simp only [Machine.spawn, started, Machine.levels, run.capacity, levels, launched]
  simp only [Machine.run, spawned, Machine.wait, reaped, Option.map_some]
  rfl

/-- A machine runs a program to its end if it comes to an end for a family, and the family
goes with it.
-/
theorem run_of_family {machine : Machine Unit} {main : Main} {ending : Ending}
    {reports : List (Pid × Unit)} (run : Run config deeds before)
    (started : before.start .host program argv = (.ok root, begin))
    (levels : config.maxProcesses = depth + 1) (image : images program = some (Image.ofMain main))
    (calls
      : Machine.runCalls (Machine.launch images depth) root (main (argv.headD program) argv)
          ⟨begin, reports⟩
        = (some ending, machine))
    (family : begin.Family config root proper past machine.kernel)
    : ∃ after,
        Machine.run images program argv ⟨before, reports⟩
          = (some (.ok (root, ending.status)), ⟨after, (root, ()) :: machine.reports⟩)
        ∧ before.Settled config after
        ∧ after.files = machine.kernel.files
        ∧ after.console = (machine.kernel.finish root ending).console := by
  obtain ⟨processes, reaped, reachable, slots⟩ := family.reaped run started ending
  have programs := (start_frame started).1
  refine ⟨_, run_of_calls run started levels image calls reaped, ⟨reachable, ?_, slots⟩,
    finish_files .., rfl⟩
  exact (finish_programs ..).trans (family.programs.trans programs)

/-- Whoever is started finds that there is a level for it. -/
theorem levels_of_start (run : Run config deeds before)
    (started : before.start .host program argv = (.ok root, begin))
    : ∃ depth, config.maxProcesses = depth + 1 := by
  have room := (started_of_start started).room
  rw [run.capacity] at room
  exact Nat.exists_eq_succ_of_ne_zero (Nat.ne_of_gt (Nat.zero_lt_of_lt room))

/-- A machine runs a program to its end that ends by itself. -/
theorem run_endsAlone {main : Main} {outcome : Kernel → Pid → Ending → Kernel → Prop}
    (run : Run config deeds before) (image : images program = some (Image.ofMain main))
    (ends : EndsAlone config main program argv outcome)
    (started : before.start .host program argv = (.ok root, begin)) (reports : List (Pid × Unit))
    : ∃ ending finished after last,
        Machine.run images program argv ⟨before, reports⟩
          = (some (.ok (root, ending.status)), ⟨after, last⟩)
        ∧ before.Settled config after
        ∧ Performs root begin (main (argv.headD program) argv) ending finished
        ∧ outcome begin root ending finished
        ∧ after.files = finished.files := by
  obtain ⟨depth, levels⟩ := levels_of_start run started
  have newborn := newborn_of_start started
  have reachable := run.step (.spawn started)
  obtain ⟨ending, finished, performs, same, outcome⟩ := ends _ _ _ reachable newborn
  obtain ⟨more, reached, -⟩ := reachable.performs newborn.runs performs
  have family : begin.Family config root (fun _ _ _ => True) [] finished :=
    (Family.alone reachable root).elsewhere same ⟨_, reached⟩
  obtain ⟨after, runs, settled, files, -⟩ :=
    run_of_family run started levels image (performs.runCalls _ reports) family
  exact ⟨ending, finished, after, _, runs, settled, performs, outcome, files⟩

/-- A machine runs a program to its end that makes the calls of a supervisor. -/
theorem run_supervises {main : Main} {result : List Exchange → Ending → Prop}
    (run : Run config deeds before) (image : images program = some (Image.ofMain main))
    (started : before.start .host program argv = (.ok root, begin))
    (upholds
      : (main (argv.headD program) argv).Upholds (Supervises config images begin proper except)
          result [])
    (reports : List (Pid × Unit))
    : ∃ depth ending exchanges machine after last,
        Machine.run images program argv ⟨before, reports⟩
          = (some (.ok (root, ending.status)), ⟨after, last⟩)
        ∧ before.Settled config after
        ∧ config.maxProcesses = depth + 1
        ∧ Machine.runCalls (Machine.launch images depth) root (main (argv.headD program) argv)
            ⟨begin, reports⟩
          = (some ending, machine)
        ∧ (main (argv.headD program) argv).Reaches exchanges (.done ending)
        ∧ result exchanges ending
        ∧ begin.Supervised config root proper except exchanges machine.kernel
        ∧ after.files = machine.kernel.files := by
  obtain ⟨depth, levels⟩ := levels_of_start run started
  have newborn := newborn_of_start started
  have reachable := run.step (.spawn started)
  have newest := (started_of_start started).next
  have fds := newborn.fds reachable
  obtain ⟨ending, machine, exchanges, calls, reached, last, supervised⟩ :=
    Supervised.comes reachable newborn.runs newest levels fds upholds reports
  obtain ⟨after, runs, settled, files, -⟩ :=
    run_of_family run started levels image calls supervised.family
  exact ⟨depth, ending, exchanges, machine, after, _, runs, settled, levels, calls, reached, last,
    supervised, files⟩

end Kernel

end KernelConformance
