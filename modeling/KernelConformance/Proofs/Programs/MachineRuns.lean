import KernelConformance.Proofs.Programs.SoloRuns

/-! Programs on a machine, where every process that is started runs to its end before its parent
goes on. A program comes to a value there if each call that it may make has a reply.
-/

namespace KernelConformance.Machine

variable {ρ α β : Type} {images : Images ρ} {raise : Pid → String → Machine ρ → Machine ρ}
  {pid : Pid} {machine after : Machine ρ} {prog : Prog α}

/-- A machine after a reply to a call: it has run the process that was started, if any. -/
def answered (raise : Pid → String → Machine ρ → Machine ρ) (c : Syscall) (reply : c.Reply)
    (machine : Machine ρ)
    : Machine ρ :=
  match c.started? reply with
  | some (program, child) => raise child program machine
  | none => machine

theorem answered_alone {c : Syscall} {reply : c.Reply} (alone : c.started? reply = none)
    : machine.answered raise c reply = machine := by
  rw [answered, alone]

theorem runCalls_call {c : Syscall} {next : c.Reply → Prog α} {reply : c.Reply} {kernel : Kernel}
    (replied : machine.kernel.call pid c = some (reply, kernel))
    : runCalls raise pid (.call c next) machine
      = runCalls raise pid (next reply) (answered raise c reply ⟨kernel, machine.reports⟩) := by
  rw [runCalls, replied]
  rfl

/-- What every call keeps that is allowed holds in the end of a program that makes only such calls,
by induction on the program. It comes to a value, as all the calls have replies.
-/
theorem runCalls_upholds {allowed : List Exchange → Syscall → Prop}
    {result : List Exchange → α → Prop} {invariant : List Exchange → Machine ρ → Prop}
    (keep
      : ∀ past machine c,
          allowed past c
          → invariant past machine
          → ∃ reply kernel,
              machine.kernel.call pid c = some (reply, kernel)
              ∧ invariant (past ++ [⟨c, reply⟩]) (answered raise c reply ⟨kernel, machine.reports⟩))
    {past : List Exchange} (upholds : prog.Upholds allowed result past)
    (holds : invariant past machine)
    : ∃ value after exchanges,
        runCalls raise pid prog machine = (some value, after)
        ∧ prog.Reaches exchanges (.done value)
        ∧ result (past ++ exchanges) value
        ∧ invariant (past ++ exchanges) after := by
  induction prog generalizing past machine with
  | done value =>
      refine ⟨value, machine, [], rfl, .refl, ?_, ?_⟩
      · rwa [List.append_nil]
      · rwa [List.append_nil]
  | call c next ih =>
      obtain ⟨allows, onward⟩ := upholds
      obtain ⟨reply, kernel, replied, kept⟩ := keep past machine c allows holds
      obtain ⟨value, after, exchanges, runs, reached, last, holds⟩ := ih reply (onward reply) kept
      refine ⟨value, after, ⟨c, reply⟩ :: exchanges, ?_, .call reply reached, ?_, ?_⟩
      · rw [runCalls_call replied, runs]
      · simpa using last
      · simpa using holds

/-- A composed program goes on where its first part ends, if it does, by induction on
the first part.
-/
theorem runCalls_bind_eq (prog : Prog α) (f : α → Prog β) (machine : Machine ρ)
    : runCalls raise pid (prog >>= f) machine
      = match runCalls raise pid prog machine with
        | (some value, after) => runCalls raise pid (f value) after
        | (none, after) => (none, after) := by
  induction prog generalizing machine with
  | done value => rfl
  | call c next ih =>
      rw [Prog.bind_call]
      rcases replied : machine.kernel.call pid c with _ | ⟨reply, kernel⟩
      · rw [runCalls, runCalls, replied]
      · rw [runCalls_call replied, runCalls_call replied]
        exact ih reply _

/-- A process is ended by its program if this comes to its end, and leaves no report. -/
theorem launch_eq {images : Images Unit} {program : String} {main : Main}
    (image : images program = some (Image.ofMain main)) (depth : Nat) (pid : Pid)
    (machine : Machine Unit)
    : launch images (depth + 1) pid program machine
      = match runCalls (launch images depth) pid
          (main (machine.kernel.context pid).name (machine.kernel.context pid).argv) machine with
        | (some ending, after) => ⟨after.kernel.finish pid ending, (pid, ()) :: after.reports⟩
        | (none, after) => after := by
  rw [launch, image]
  simp only [Image.ofMain]
  rw [map_eq_pure_bind, runCalls_bind_eq]
  rcases runCalls (launch images depth) pid
    (main (machine.kernel.context pid).name (machine.kernel.context pid).argv) machine
    with ⟨_ | ending, after⟩ <;> rfl

theorem launch_main {images : Images Unit} {depth : Nat} {program : String} {main : Main}
    {machine after : Machine Unit} {ending : Ending}
    (image : images program = some (Image.ofMain main))
    (runs
      : runCalls (launch images depth) pid
          (main (machine.kernel.context pid).name (machine.kernel.context pid).argv) machine
        = (some ending, after))
    : launch images (depth + 1) pid program machine
      = ⟨after.kernel.finish pid ending, (pid, ()) :: after.reports⟩ := by
  rw [launch_eq image, runs]

end KernelConformance.Machine
