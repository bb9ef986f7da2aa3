import KernelConformance.Proofs.FailedCalls
import KernelConformance.Proofs.Programs.Tracing

/-! The lines that trace syscalls. Whoever reads the console finds what the processes have written,
and behind it one line for each completed call whose syscall is traced. Without these lines it is
the console of a kernel that traces nothing.
-/

namespace KernelConformance

open Utf8 (Bytes)

/-- What is written to the console at once: the output of a process, or a line that
traces a call.
-/
inductive Write where
  | output (bytes : Bytes)
  | line (bytes : Bytes)

namespace Write

/-- The bytes of a write. -/
def bytes : Write → Bytes
  | output bytes | line bytes => bytes

/-- Whether a write traces a call. -/
def isLine : Write → Bool
  | output _ => false
  | line _ => true

end Write

/-- The line that traces a call of a process with a name. -/
def lineText (name : String) (pid : Pid) (kind : SyscallKind) (arguments outcome : String)
    : String :=
  name ++ "(" ++ pid.text ++ ")" ++ ": syscall " ++ kind.name ++ " (" ++ arguments ++ ") -> "
    ++ outcome
    ++ "\n"

/-- The syscall that a deed of a process with a name completes, with the line that traces it: a call
by its reply, and an exit by the end of the process. A process that faults completes nothing.
-/
def Deed.completed? (name : String) : Deed → Option (SyscallKind × String)
  | call pid c (some reply) =>
      some (c.kind, lineText name pid c.kind c.argumentText (c.replyText reply))
  | finish pid (.exit status) => some (.exit, lineText name pid .exit (Decimal.write status) "()")
  | _ => none

/-- What traces a deed of a process with a name: one line if the deed completes a syscall of the
mask, and nothing otherwise.
-/
def Deed.lines (name : String) (mask : Nat) (deed : Deed) : List Write :=
  match deed.completed? name with
  | some (kind, text) => if kind.inMask mask then [.line (Utf8.encode text)] else []
  | none => []

namespace Outcome

/-- What an outcome writes if the syscalls of a mask are traced: what a process prints,
and its trace.
-/
def written (mask : Nat) : Outcome → List Write
  | acted name deed => deed.printed?.toList.map .output ++ deed.lines name mask
  | _ => []

/-- Whether an outcome has emptied the console. -/
def takesConsole : Outcome → Bool
  | hosted (.takeConsole _) => true
  | _ => false

/-- What the host has read from the console. -/
def read? : Outcome → Option String
  | hosted (.takeConsole text) | console text => some text
  | _ => none

end Outcome

/-- All that some outcomes have written, in order. -/
def written (mask : Nat) (outcomes : List Outcome) : List Write :=
  outcomes.flatMap (Outcome.written mask)

/-- What can be read after one more outcome: what it writes, after what was there unless
it was taken.
-/
def readable (mask : Nat) (before : List Write) (outcome : Outcome) : List Write :=
  (if outcome.takesConsole then [] else before) ++ outcome.written mask

/-- What some outcomes have written since the console was emptied. -/
def unread (mask : Nat) (outcomes : List Outcome) : List Write := outcomes.foldl (readable mask) []

-----------------------------------------------------------------------------------------
-- Writes without the lines that trace calls
-----------------------------------------------------------------------------------------

theorem Deed.lines_zero (name : String) (deed : Deed) : deed.lines name 0 = [] := by
  rw [lines]
  split
  · simp [SyscallKind.inMask]
  · rfl

theorem Deed.isLine_of_mem_lines {name : String} {mask : Nat} {deed : Deed} {write : Write}
    (member : write ∈ deed.lines name mask)
    : write.isLine = true := by
  rw [lines] at member
  split at member
  · split at member
    · obtain rfl := List.mem_singleton.mp member
      rfl
    · cases member
  · cases member

namespace Outcome

variable {mask : Nat}

/-- Without the lines an outcome writes what it writes if nothing is traced. -/
theorem written_filter (outcome : Outcome)
    : (outcome.written mask).filter (!·.isLine) = outcome.silenced.written 0 := by
  cases outcome with
  | acted name deed =>
      have lineless : (deed.lines name mask).filter (!·.isLine) = [] :=
        List.filter_eq_nil_iff.mpr fun write member => by simp [deed.isLine_of_mem_lines member]
      have outputs : (deed.printed?.toList.map Write.output).filter (!·.isLine)
          = deed.printed?.toList.map Write.output :=
        List.filter_eq_self.mpr (by simp [Write.isLine])
      change _ = (acted name deed).written 0
      rw [written, List.filter_append, lineless, outputs, written, deed.lines_zero]
  | hosted deed => cases deed <;> rfl
  | _ => rfl

theorem written_silenced (outcome : Outcome) : outcome.silenced.written 0 = outcome.written 0 := by
  cases outcome with
  | hosted deed => cases deed <;> rfl
  | _ => rfl

theorem takesConsole_silenced (outcome : Outcome)
    : outcome.silenced.takesConsole = outcome.takesConsole := by
  cases outcome with
  | hosted deed => cases deed <;> rfl
  | _ => rfl

end Outcome

theorem written_silenced (outcomes : List Outcome)
    : written 0 (outcomes.map Outcome.silenced) = written 0 outcomes := by
  rw [written, written, List.flatMap_map]
  exact List.flatMap_congr fun outcome _ => outcome.written_silenced

theorem unread_silenced (outcomes : List Outcome)
    : unread 0 (outcomes.map Outcome.silenced) = unread 0 outcomes := by
  have same (before : List Write) (outcome : Outcome)
      : readable 0 before outcome.silenced = readable 0 before outcome := by
    rw [readable, readable, outcome.takesConsole_silenced, outcome.written_silenced]
  rw [unread, unread, List.foldl_map]
  simp only [same]

/-- Without the lines some outcomes write what they write if nothing is traced. -/
theorem written_filter (mask : Nat) (outcomes : List Outcome)
    : (written mask outcomes).filter (!·.isLine) = written 0 (outcomes.map Outcome.silenced) := by
  rw [written, written, List.filter_flatMap, List.flatMap_map]
  exact List.flatMap_congr fun outcome _ => outcome.written_filter

/-- Without the lines the same can be read as if nothing is traced, by induction on the outcomes. -/
theorem unread_filter (mask : Nat) (outcomes : List Outcome)
    : (unread mask outcomes).filter (!·.isLine) = unread 0 (outcomes.map Outcome.silenced) := by
  have general (before : List Write)
      : (outcomes.foldl (readable mask) before).filter (!·.isLine)
        = (outcomes.map Outcome.silenced).foldl (readable 0) (before.filter (!·.isLine)) := by
    induction outcomes generalizing before with
    | nil => rfl
    | cons outcome outcomes ih =>
        rw [List.foldl_cons, ih, List.map_cons, List.foldl_cons]
        refine congrArg (List.foldl _ · _) ?_
        rw [readable, readable, List.filter_append, outcome.written_filter,
          outcome.takesConsole_silenced]
        split <;> rfl
  exact general []

-----------------------------------------------------------------------------------------
-- What is on the console
-----------------------------------------------------------------------------------------

namespace Kernel

variable {config : Config} {deeds : List Deed} {kernel after : Kernel} {pid : Pid} {c : Syscall}
  {reply : c.Reply}

theorem setFds_name (kernel : Kernel) (pid other : Pid) (fds : Descriptors)
    : ((kernel.setFds pid fds).context other).name = (kernel.context other).name := by
  simp only [Kernel.context, setFds, FiniteMap.get?_insert]
  split
  · next same => rw [same]; rfl
  · rfl

/-- A process keeps its name in all that it does, by cases on its call. -/
theorem Run.perform_name (run : Run config deeds kernel)
    (runs : kernel.processes.isRunning pid = true)
    (performed : kernel.perform pid c = some (reply, after))
    : (after.context pid).name = (kernel.context pid).name := by
  cases perform_effect performed with
  | exec started =>
      rcases start_cases started with ⟨_, failed, -⟩ | ⟨child, processes, -, spawned, rfl⟩
      · cases failed
      · have fresh := run.rooted.ne_started (ProcessTable.started_of_spawn spawned) runs
        simp only [Kernel.context, FiniteMap.get?_insert, if_neg fresh]
  | creat | openFile | read | write | close => exact setFds_name _ _ _ _
  | _ => rfl

theorem trace_writes (kernel : Kernel) (pid : Pid) (kind : SyscallKind) (arguments outcome : String)
    : (kernel.trace pid kind arguments outcome).console.writes.reverse
      = kernel.console.writes.reverse
        ++ if kind.inMask kernel.config.traceMask then
            [Utf8.encode (lineText (kernel.context pid).name pid kind arguments outcome)]
          else [] := by
  rw [trace_console, Config.traces]
  split
  · exact List.reverse_cons
  · exact (List.append_nil _).symm

/-- A call adds to the console what it prints, and then its trace. -/
theorem Run.call_writes {mask : Nat} (run : Run (config.tracing mask) deeds kernel)
    (runs : kernel.processes.isRunning pid = true)
    (replied : kernel.call pid c = some (reply, after))
    : after.console.writes.reverse
      = kernel.console.writes.reverse
        ++ ((Outcome.acted (kernel.context pid).name (.call pid c (some reply))).written mask).map
          Write.bytes := by
  obtain ⟨middle, performed, rfl⟩ := call_cases replied
  have masked : middle.config.traceMask = mask := by
    have configured := (call_config replied).trans run.tidy.configured
    rw [trace_eq] at configured
    exact congrArg Config.traceMask configured
  rw [trace_writes, run.perform_name runs performed, run.perform_console performed, masked,
    Outcome.written, Deed.lines]
  simp only [Deed.completed?, Deed.printed?]
  rcases Exchange.printed? ⟨c, reply⟩ <;> split <;> simp [Write.bytes]

/-- The end of a process adds to the console the trace of its exit, if it has not faulted. -/
theorem Run.finish_writes {mask : Nat} (run : Run (config.tracing mask) deeds kernel)
    (ending : Ending)
    : (kernel.finish pid ending).console.writes.reverse
      = kernel.console.writes.reverse
        ++ ((Outcome.acted (kernel.context pid).name (.finish pid ending)).written mask).map
          Write.bytes := by
  have masked : kernel.config.traceMask = mask := congrArg Config.traceMask run.tidy.configured
  cases ending with
  | fault => exact (List.append_nil _).symm
  | exit status =>
      rw [finish]
      change (kernel.trace ..).console.writes.reverse = _
      rw [trace_writes, masked, Outcome.written, Deed.lines]
      simp only [Deed.completed?, Deed.printed?]
      split <;> simp [Write.bytes]

end Kernel

namespace Pool

variable {config : Config} {mask : Nat} {pool : Pool}

/-- Every move adds to the console what it writes, unless it takes what was there, by cases
on the move.
-/
theorem Sound.move_writes (sound : pool.Sound (config.tracing mask)) (move : Move)
    {before : List Write} (shown : pool.kernel.console.writes.reverse = before.map Write.bytes)
    : (pool.move move).2.kernel.console.writes.reverse
      = (readable mask before (pool.move move).1).map Write.bytes := by
  obtain ⟨deeds, reached⟩ := sound.reachable
  have same {after : Kernel} {outcome : Outcome} (kept : after.console = pool.kernel.console)
      (keeps : outcome.takesConsole = false) (silent : outcome.written mask = [])
      : after.console.writes.reverse = (readable mask before outcome).map Write.bytes := by
    simp [kept, shown, readable, keeps, silent]
  cases move with
  | register program main => exact same (Kernel.register_console ..) rfl rfl
  | spawn program argv =>
      refine same ?_ rfl rfl
      rcases done : pool.kernel.start .host program argv with ⟨reply, after⟩
      simp only [Pool.move, done, load_kernel]
      exact Kernel.start_console done
  | wait pid =>
      simp only [Pool.move]
      split
      · exact same rfl rfl rfl
      · next done => exact same (Kernel.reap_console done) rfl rfl
  | install name bytes =>
      refine same ?_ rfl rfl
      rcases done : pool.kernel.install name bytes with ⟨reply, after⟩
      simp only [Pool.move, done]
      exact Kernel.install_console done
  | takeConsole => rfl
  | goOn pid =>
      simp only [Pool.move, Pool.goOn]
      split
      · exact same rfl rfl rfl
      · rw [reached.finish_writes, shown, readable, List.map_append]
        rfl
      · next c next found =>
          split
          · exact same rfl rfl rfl
          · next replied =>
              rw [load_kernel, reached.call_writes (sound.running pid _ found) replied, shown,
                readable, List.map_append]
              rfl
  | _ => exact same rfl rfl rfl

/-- What the host reads from the console is what is there. -/
theorem move_read {text : String} {move : Move} (read : (pool.move move).1.read? = some text)
    : text = pool.kernel.console.text := by
  cases move with
  | console | takeConsole => exact (Option.some.inj read).symm
  | wait pid =>
      simp only [Pool.move] at read
      split at read <;> cases read
  | goOn pid =>
      simp only [Pool.move, Pool.goOn] at read
      split at read
      · cases read
      · cases read
      · split at read <;> cases read
  | _ => cases read

/-- Throughout a run the console has what was written since it was emptied, and this is what the
host reads, by induction on the moves.
-/
theorem Sound.run_writes (sound : pool.Sound (config.tracing mask)) (moves : List Move)
    {before : List Write} (shown : pool.kernel.console.writes.reverse = before.map Write.bytes)
    : (run moves pool).2.kernel.console.writes.reverse
        = ((run moves pool).1.foldl (readable mask) before).map Write.bytes
      ∧ Throughout
          (fun past outcome => ∀ text,
            outcome.read? = some text
            → text = Utf8.decodeLossy ((past.foldl (readable mask) before).flatMap Write.bytes))
          (run moves pool).1 := by
  induction moves generalizing pool before with
  | nil => exact ⟨shown, throughout_nil⟩
  | cons move moves ih =>
      obtain ⟨last, reads⟩ := ih (sound.move move) (sound.move_writes move shown)
      refine ⟨last, Throughout.cons (fun text read => ?_) reads⟩
      rw [move_read read, Console.text, Console.bytes, shown, List.flatMap]
      rfl

/-- Nothing but the console depends on what is traced. From boot with two masks the same moves come
to the same, but for what is read from the console and for the masks, and lead to the same processes
with the same journal, files, descriptors and programs, and the processes have the same left to do.
Under a mask the console is written to as without traces, and one line more for each completed call
of the mask, which is what can be read.
-/
theorem tracing_transparent (config : Config) (moves : List Move)
    : let ran mask := run moves (boot (config.tracing mask))
      (∀ mask other,
        (ran mask).1.map Outcome.silenced = (ran other).1.map Outcome.silenced
        ∧ (ran mask).2.kernel.processes = (ran other).2.kernel.processes
        ∧ (ran mask).2.kernel.files = (ran other).2.kernel.files
        ∧ (ran mask).2.kernel.contexts = (ran other).2.kernel.contexts
        ∧ (ran mask).2.kernel.programs = (ran other).2.kernel.programs
        ∧ (ran mask).2.mains = (ran other).2.mains
        ∧ (ran mask).2.left = (ran other).2.left)
      ∧ ∀ mask,
          (written mask (ran mask).1).filter (!·.isLine) = written 0 (ran 0).1
          ∧ (unread mask (ran mask).1).filter (!·.isLine) = unread 0 (ran 0).1
          ∧ (ran mask).2.kernel.console.writes.reverse = (unread mask (ran mask).1).map Write.bytes
          ∧ Throughout
              (fun past outcome => ∀ text,
                outcome.read? = some text
                → text = Utf8.decodeLossy ((unread mask past).flatMap Write.bytes))
              (ran mask).1 := by
  intro ran
  have same (mask other : Nat)
      : (ran mask).1.map Outcome.silenced = (ran other).1.map Outcome.silenced
        ∧ (ran mask).2.silenced = (ran other).2.silenced :=
    run_silenced moves rfl
  refine ⟨fun mask other => ?_, fun mask => ?_⟩
  · obtain ⟨outcomes, last⟩ := same mask other
    obtain ⟨kernel, mains, left⟩ := Pool.mk.inj last
    obtain ⟨-, programs, processes, contexts, files, -⟩ := Kernel.mk.inj kernel
    exact ⟨outcomes, processes, files, contexts, programs, mains, left⟩
  · have outcomes := (same mask 0).1
    have blank
        : (boot (config.tracing mask)).kernel.console.writes.reverse
          = ([] : List Write).map Write.bytes :=
      rfl
    obtain ⟨last, reads⟩ := (boot_sound (config.tracing mask)).run_writes moves blank
    refine ⟨?_, ?_, last, reads⟩
    · rw [written_filter, outcomes, written_silenced]
    · rw [unread_filter, outcomes, unread_silenced]

/-- A process that opens a file in vain, writes and exits, and between its calls another
one that faults.
-/
def greeting : List Move :=
  [.register "p" fun _ _ => do
      let _ ← Prog.perform (.openFile "absent")
      let _ ← Prog.perform (.write .stdout (Utf8.encode "hi\n"))
      pure (.exit 0),
    .register "q" fun _ _ => pure .fault,
    .spawn "p" [], .spawn "q" [], .goOn (.ofNat 1), .goOn (.ofNat 1), .goOn (.ofNat 2),
    .goOn (.ofNat 1),
    .takeConsole]

/-- If writes and exits are traced, the write and the exit add a line each. The open and the fault
add none, and without the two lines the host reads what it reads if nothing is traced.
-/
theorem tracing_transparent_greeting
    : let mask := SyscallKind.write.maskBit ||| SyscallKind.exit.maskBit
      let ran mask := run greeting (boot (Config.standard.tracing mask))
      (ran mask).1.filterMap Outcome.read?
          = ["hi\np(1): syscall write (1, 3) -> 3\np(1): syscall exit (0) -> ()\n"]
        ∧ (ran 0).1.filterMap Outcome.read? = ["hi\n"]
        ∧ (written mask (ran mask).1).map Write.isLine = [false, true, true]
        ∧ (written mask (ran mask).1).filter (!·.isLine) = [.output (Utf8.encode "hi\n")]
        ∧ (ran mask).1.map Outcome.silenced = (ran 0).1.map Outcome.silenced := by
  obtain ⟨alike, lines⟩ := tracing_transparent .standard greeting
  obtain ⟨outcomes, -⟩ := alike (SyscallKind.write.maskBit ||| SyscallKind.exit.maskBit) 0
  obtain ⟨outputs, -⟩ := lines (SyscallKind.write.maskBit ||| SyscallKind.exit.maskBit)
  exact ⟨by decide +kernel, by decide +kernel, by decide +kernel, outputs.trans rfl, outcomes⟩

end Pool

end KernelConformance
