import KernelConformance.Proofs.Programs.ConsoleOutput
import KernelConformance.Proofs.Programs.Pools

/-! Traces of syscalls. A kernel and the same kernel without its console and its mask of
traces do the same in every move, so that nothing that a process or the host gets depends on
what is traced. On the console each completed call whose syscall is traced adds one line to
what the processes write.
-/

namespace KernelConformance

open Utf8 (Bytes)

/-- A configuration with another mask of the syscalls that are traced. -/
def Config.tracing (mask : Nat) (config : Config) : Config := { config with traceMask := mask }

-----------------------------------------------------------------------------------------
-- Nothing depends on what is traced
-----------------------------------------------------------------------------------------

namespace Kernel

variable {kernel : Kernel}

/-- A kernel without its console and its traces. -/
def silenced (kernel : Kernel) : Kernel :=
  { kernel with config := kernel.config.tracing 0, console := .empty }

/-- A reply, and the kernel after it without its console and its traces. -/
def quiet {α : Type} (result : α × Kernel) : α × Kernel := (result.1, result.2.silenced)

@[simp] theorem trace_silenced (pid : Pid) (kind : SyscallKind) (arguments outcome : String)
    (kernel : Kernel)
    : (kernel.trace pid kind arguments outcome).silenced = kernel.silenced := by
  rw [trace_eq]
  rfl

@[simp] theorem silenced_programs (kernel : Kernel)
    : kernel.silenced.programs = kernel.programs := rfl

@[simp] theorem silenced_processes (kernel : Kernel)
    : kernel.silenced.processes = kernel.processes := rfl

@[simp] theorem silenced_files (kernel : Kernel) : kernel.silenced.files = kernel.files := rfl

@[simp] theorem silenced_fds (kernel : Kernel) (pid : Pid)
    : kernel.silenced.fds pid = kernel.fds pid := rfl

/-- Replies that are the same, up to the console and the traces of the kernels after them. -/
theorem alike_of_quiet {α : Type} {left right : Option (α × Kernel)}
    (same : left.map quiet = right.map quiet)
    : left = none ∧ right = none
      ∨ ∃ reply after other,
          left = some (reply, after)
          ∧ right = some (reply, other)
          ∧ after.silenced = other.silenced := by
  rcases left with _ | ⟨reply, after⟩
  · exact .inl ⟨rfl, Option.map_eq_none_iff.mp same.symm⟩
  · obtain ⟨⟨again, other⟩, rfl, equal⟩ := Option.map_eq_some_iff.mp same.symm
    obtain ⟨rfl, silent⟩ := Prod.mk.inj equal
    exact .inr ⟨again, after, other, rfl, rfl, silent.symm⟩

theorem start_silenced (parent : Parent) (program : String) (argv : List String) (kernel : Kernel)
    : quiet (kernel.silenced.start parent program argv)
      = quiet (kernel.start parent program argv) := by
  simp only [start, allot, silenced_programs, silenced_processes]
  by_cases long : maxArguments < argv.length
  · simp only [long, if_true]
    rfl
  · by_cases known : program ∈ kernel.programs
    · simp only [long, known, not_true, if_false]
      rcases kernel.processes.spawn parent program with error | ⟨pid, processes⟩ <;> rfl
    · simp only [long, known, not_false_eq_true, if_true, if_false]
      rfl

theorem reap_silenced (caller : Parent) (pid : Pid) (kernel : Kernel)
    : (kernel.silenced.reap caller pid).map quiet = (kernel.reap caller pid).map quiet := by
  simp only [reap, silenced_processes]
  split <;> rfl

theorem addFile_silenced (pid : Pid) (inode : Inode) (kernel : Kernel)
    : quiet (kernel.silenced.addFile pid inode) = quiet (kernel.addFile pid inode) := by
  simp only [addFile, silenced_fds]
  split <;> rfl

theorem creat_silenced (pid : Pid) (name : String) (kernel : Kernel)
    : quiet (kernel.silenced.creat pid name) = quiet (kernel.creat pid name) := by
  simp only [creat, silenced_fds, silenced_files]
  by_cases full : (kernel.fds pid).isExhausted = true
  · simp only [full, if_true]
    rfl
  · simp only [full, Bool.false_eq_true, if_false]
    split
    · rfl
    · next inode files _ => exact addFile_silenced pid inode { kernel with files }

theorem openFile_silenced (pid : Pid) (name : String) (kernel : Kernel)
    : quiet (kernel.silenced.openFile pid name) = quiet (kernel.openFile pid name) := by
  simp only [openFile, silenced_fds, silenced_files]
  by_cases full : (kernel.fds pid).isExhausted = true
  · simp only [full, if_true]
    rfl
  · simp only [full, Bool.false_eq_true, if_false]
    split
    · rfl
    · exact addFile_silenced pid _ kernel

theorem read_silenced (pid : Pid) (fd : Fd) (room : Nat) (kernel : Kernel)
    : quiet (kernel.silenced.read pid fd room) = quiet (kernel.read pid fd room) := by
  simp only [read, silenced_fds, silenced_files]
  split <;> rfl

theorem write_silenced (pid : Pid) (fd : Fd) (bytes : Bytes) (kernel : Kernel)
    : quiet (kernel.silenced.write pid fd bytes) = quiet (kernel.write pid fd bytes) := by
  simp only [write, silenced_fds, silenced_files]
  split <;> rfl

theorem close_silenced (pid : Pid) (fd : Fd) (kernel : Kernel)
    : quiet (kernel.silenced.close pid fd) = quiet (kernel.close pid fd) := by
  simp only [close, silenced_fds]
  split <;> rfl

theorem unlink_silenced (name : String) (kernel : Kernel)
    : quiet (kernel.silenced.unlink name) = quiet (kernel.unlink name) := by
  simp only [unlink, silenced_files]
  split <;> rfl

theorem install_silenced (name : String) (bytes : Bytes) (kernel : Kernel)
    : quiet (kernel.silenced.install name bytes) = quiet (kernel.install name bytes) := by
  simp only [install, silenced_files]
  split <;> rfl

theorem register_silenced (program : String) (kernel : Kernel)
    : (kernel.silenced.register program).silenced = (kernel.register program).silenced := by
  by_cases known : program ∈ kernel.programs <;>
    simp only [register, silenced_programs, known, if_true, if_false] <;> rfl

/-- No call looks at the console or at what is traced, by cases on it. -/
theorem perform_silenced (pid : Pid) (c : Syscall) (kernel : Kernel)
    : (kernel.silenced.perform pid c).map quiet = (kernel.perform pid c).map quiet := by
  cases c with
  | exec program argv => exact congrArg some (start_silenced _ program argv kernel)
  | join child => exact reap_silenced _ child kernel
  | creat name => exact congrArg some (creat_silenced pid name kernel)
  | openFile name => exact congrArg some (openFile_silenced pid name kernel)
  | read fd room => exact congrArg some (read_silenced pid fd room kernel)
  | write fd bytes => exact congrArg some (write_silenced pid fd bytes kernel)
  | close fd => exact congrArg some (close_silenced pid fd kernel)
  | unlink name => exact congrArg some (unlink_silenced name kernel)

/-- A call that is traced gets the reply, and has the effect, that it has without its trace. -/
theorem call_silenced (pid : Pid) (c : Syscall) (kernel : Kernel)
    : (kernel.silenced.call pid c).map quiet = (kernel.call pid c).map quiet := by
  have traceless (kernel : Kernel)
      : (kernel.call pid c).map quiet = (kernel.perform pid c).map quiet := by
    rw [call, Option.map_map]
    refine congrArg (Option.map · _) (funext fun result => ?_)
    simp [quiet]
  rw [traceless, traceless, perform_silenced]

theorem finish_silenced (pid : Pid) (ending : Ending) (kernel : Kernel)
    : (kernel.silenced.finish pid ending).silenced = (kernel.finish pid ending).silenced := by
  cases ending with
  | fault => rfl
  | exit status =>
      rw [finish, finish, trace_eq, trace_eq kernel]
      rfl

end Kernel

/-- An outcome without what it shows of the console and of the mask of traces. -/
def Outcome.silenced : Outcome → Outcome
  | hosted (.takeConsole _) => hosted (.takeConsole "")
  | console _ => console ""
  | config shown => config (shown.tracing 0)
  | other => other

namespace Pool

/-- A pool whose kernel is without its console and its traces. -/
def silenced (pool : Pool) : Pool := { pool with kernel := pool.kernel.silenced }

/-- What comes of a move and the pool after it, without the console and the traces. -/
def quiet (result : Outcome × Pool) : Outcome × Pool := (result.1.silenced, result.2.silenced)

theorem load_silenced (started : Option (String × Pid)) (pool : Pool)
    : (pool.load started).silenced = pool.silenced.load started := by
  rcases started with _ | ⟨program, pid⟩
  · rfl
  · rcases found : pool.mains.get? program with _ | main
    · simp only [load, silenced, found]
    · simp only [load, silenced, found]
      rfl

/-- What is loaded does not depend on the console and the traces. -/
theorem silenced_load_congr {pool other : Pool} (same : pool.silenced = other.silenced)
    (started : Option (String × Pid))
    : (pool.load started).silenced = (other.load started).silenced := by
  rw [load_silenced, load_silenced, same]

theorem silenced_eq {kernel other : Kernel} (same : kernel.silenced = other.silenced)
    (mains : FiniteMap String Main) (left : FiniteMap Pid (Prog Ending))
    : silenced ⟨kernel, mains, left⟩ = silenced ⟨other, mains, left⟩ := by
  rw [silenced, silenced, same]

/-- A process goes on in the same way whatever is traced, by cases on what it has to do. -/
theorem goOn_silenced (pid : Pid) (pool : Pool)
    : quiet (pool.silenced.goOn pid) = quiet (pool.goOn pid) := by
  obtain ⟨kernel, mains, left⟩ := pool
  simp only [goOn, silenced]
  rcases left.get? pid with _ | ending | ⟨c, next⟩
  · rfl
  · exact Prod.ext rfl (silenced_eq (kernel.finish_silenced pid ending) _ _)
  · rcases Kernel.alike_of_quiet (kernel.call_silenced pid c) with
      ⟨blocked, blockedToo⟩ | ⟨reply, after, other, replied, repliedToo, same⟩
    · simp only [blocked, blockedToo]
      rfl
    · simp only [replied, repliedToo]
      exact Prod.ext rfl (silenced_load_congr (silenced_eq same _ _) _)

/-- Every move comes to the same whatever is traced, by cases on it. -/
theorem move_silenced (move : Move) (pool : Pool)
    : quiet (pool.silenced.move move) = quiet (pool.move move) := by
  obtain ⟨kernel, mains, left⟩ := pool
  cases move with
  | register program main => exact Prod.ext rfl (silenced_eq (kernel.register_silenced program) _ _)
  | spawn program argv =>
      obtain ⟨reply, same⟩ := Prod.mk.inj (kernel.start_silenced .host program argv)
      simp only [Pool.move, silenced, reply]
      exact Prod.ext rfl (silenced_load_congr (silenced_eq same _ _) _)
  | wait pid =>
      rcases Kernel.alike_of_quiet (kernel.reap_silenced .host pid) with
        ⟨blocked, blockedToo⟩ | ⟨reply, after, other, replied, repliedToo, same⟩
      · simp only [Pool.move, silenced, blocked, blockedToo]
        rfl
      · simp only [Pool.move, silenced, replied, repliedToo]
        exact Prod.ext rfl (silenced_eq same _ _)
  | install name bytes =>
      obtain ⟨reply, same⟩ := Prod.mk.inj (kernel.install_silenced name bytes)
      simp only [Pool.move, silenced, reply]
      exact Prod.ext rfl (silenced_eq same _ _)
  | goOn pid => exact goOn_silenced pid ⟨kernel, mains, left⟩
  | _ => rfl

/-- Moves come to the same whatever is traced, by induction on them. -/
theorem run_silenced (moves : List Move) {pool other : Pool} (same : pool.silenced = other.silenced)
    : (run moves pool).1.map Outcome.silenced = (run moves other).1.map Outcome.silenced
      ∧ (run moves pool).2.silenced = (run moves other).2.silenced := by
  induction moves generalizing pool other with
  | nil => exact ⟨rfl, same⟩
  | cons move moves ih =>
      have alike : quiet (pool.move move) = quiet (other.move move) := by
        rw [← move_silenced, same, move_silenced]
      obtain ⟨outcome, after⟩ := Prod.mk.inj alike
      obtain ⟨outcomes, last⟩ := ih after
      exact ⟨congrArg₂ List.cons outcome outcomes, last⟩

end Pool

end KernelConformance
