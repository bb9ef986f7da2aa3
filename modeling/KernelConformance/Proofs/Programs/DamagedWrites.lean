import KernelConformance.Injection.Observation
import KernelConformance.Proofs.Programs.SoloRuns

/-! Programs that one process performs while one of its writes is damaged on the way to the kernel:
other bytes are written in place of its own, and the process is told what became of them.
-/

namespace KernelConformance

open Utf8 (Bytes)

/-- The damage of the write with a number, counted from 1. -/
def Fault.badWrite (number : Nat) (bytes : Bytes) : Fault := ⟨.write, some number, .replace bytes⟩

/-- Whether a call is a write. -/
def Syscall.isWrite : Syscall → Bool
  | write .. => true
  | _ => false

theorem Syscall.kind_ne_write {c : Syscall} (other : c.isWrite = false) : c.kind ≠ .write := by
  cases c with
  | write => cases other
  | _ =>
      intro same
      cases same

/-- A call that starts nothing breaks nobody. -/
theorem Syscall.breaks_of_alone {c : Syscall} {reply : c.Reply} (alone : c.started? reply = none)
    : c.breaks reply = false := by
  unfold breaks
  split
  · cases alone
  · rfl

namespace Observation

variable {α β : Type} {faults : List Fault} {observation : Observation}

theorem count_tally (kind other : SyscallKind)
    : (observation.tally kind).count other
      = if other = kind then observation.count kind + 1 else observation.count other := by
  unfold count tally
  rw [FiniteMap.get?_insert]
  split <;> rfl

/-- A computation that goes on is observed in both parts, by induction on the first one. -/
theorem observe_bind (prog : Prog α) (f : α → Prog β)
    : observe faults (prog >>= f) observation
      = observe faults prog observation >>= fun (value, observation) =>
          match value with
          | some value => observe faults (f value) observation
          | none => .done (none, observation) := by
  induction prog generalizing observation with
  | done value => rfl
  | call c next ih =>
      rw [Prog.bind_call, observe, observe]
      dsimp only
      split
      · rfl
      · exact ih _
      · rw [Prog.bind_call]
        refine congrArg _ (funext fun reply => ?_)
        split
        · rfl
        · exact ih _

/-- A call that no fault applies to is made as it is. -/
theorem observe_call_spared {c : Syscall} {next : c.Reply → Prog α}
    (spared : Fault.select faults c.kind ((observation.tally c.kind).count c.kind) = none)
    : observe faults (.call c next) observation
      = .call c fun reply =>
          if c.breaks reply then .done (none, observation.tally c.kind)
          else observe faults (next reply)
            ((observation.tally c.kind).note (.answered c reply)) := by
  rw [observe]
  simp only [spared]
  rfl

end Observation

namespace Kernel

open Observation (observe)

variable {α β : Type} {pid : Pid} {kernel middle after : Kernel} {bad : Nat} {garbage : Bytes}
  {number next later : Nat}

/-- Whether a process that has made a number of writes performs a program while the write with the
number `bad` is damaged; `later` says how many writes it has made then.
-/
def Suffers (bad : Nat) (garbage : Bytes) (pid : Pid) (kernel : Kernel) (number : Nat)
    (prog : Prog α) (value : α) (after : Kernel) (later : Nat)
    : Prop :=
  ∀ observation : Observation,
    observation.count .write = number
    → ∃ observed,
        observed.count .write = later
        ∧ Performs pid kernel (observe [.badWrite bad garbage] prog observation)
            (some value, observed) after

theorem Suffers.done {value : α}
    : Suffers bad garbage pid kernel number (.done value) value kernel number :=
  fun observation count => ⟨observation, count, .done⟩

theorem Suffers.bind {prog : Prog α} {f : α → Prog β} {value : α} {last : β}
    (first : Suffers bad garbage pid kernel number prog value middle next)
    (second : Suffers bad garbage pid middle next (f value) last after later)
    : Suffers bad garbage pid kernel number (prog >>= f) last after later := by
  intro observation count
  obtain ⟨observed, count, performs⟩ := first observation count
  obtain ⟨last, count, onward⟩ := second observed count
  refine ⟨last, count, ?_⟩
  rw [Observation.observe_bind]
  exact performs.bind onward

/-- A call that is not a write is made as it is. -/
theorem Suffers.call {c : Syscall} {onward : c.Reply → Prog α} {reply : c.Reply} {value : α}
    (other : c.isWrite = false) (replied : kernel.call pid c = some (reply, middle))
    (alone : c.started? reply = none)
    (goes : Suffers bad garbage pid middle number (onward reply) value after later)
    : Suffers bad garbage pid kernel number (.call c onward) value after later := by
  intro observation count
  have other := Syscall.kind_ne_write other
  have spared
      : Fault.select [.badWrite bad garbage] c.kind ((observation.tally c.kind).count c.kind)
        = none := by
    simp [Fault.select, Fault.badWrite, Ne.symm other]
  have same : ((observation.tally c.kind).note (.answered c reply)).count .write = number := by
    change (observation.tally c.kind).count .write = number
    rw [Observation.count_tally, if_neg (Ne.symm other), count]
  obtain ⟨observed, count, performs⟩ := goes _ same
  refine ⟨observed, count, ?_⟩
  rw [Observation.observe_call_spared spared]
  refine .call replied alone ?_
  rwa [if_neg (by simp [Syscall.breaks_of_alone alone])]

/-- What is written in place of the bytes of a write. -/
def sent (bad : Nat) (garbage : Bytes) (number : Nat) (bytes : Bytes) : Bytes :=
  if number = bad then garbage else bytes

/-- A write is made with the bytes that are sent in place of its own. -/
theorem Suffers.write {fd : Fd} {bytes : Bytes} {onward : Except Errno Nat → Prog α}
    {reply : Except Errno Nat} {value : α}
    (replied
      : kernel.call pid (.write fd (sent bad garbage (number + 1) bytes)) = some (reply, middle))
    (goes : Suffers bad garbage pid middle (number + 1) (onward reply) value after later)
    : Suffers bad garbage pid kernel number (.call (.write fd bytes) onward) value after later := by
  intro observation count
  have tallied : (observation.tally .write).count .write = number + 1 := by
    rw [Observation.count_tally, if_pos rfl, count]
  obtain ⟨observed, count, performs⟩ := goes
    ((observation.tally .write).note (.answered (.write fd bytes) reply)) tallied
  refine ⟨observed, count, ?_⟩
  by_cases here : number + 1 = bad
  · rw [sent, if_pos here] at replied
    have hit
        : Fault.select [.badWrite bad garbage] .write ((observation.tally .write).count .write)
          = some (.replace garbage) := by
      simp [Fault.select, Fault.badWrite, tallied, here]
    rw [observe]
    simp only [Syscall.kind, hit]
    exact .call replied rfl performs
  · rw [sent, if_neg here] at replied
    have spared
        : Fault.select [.badWrite bad garbage] .write ((observation.tally .write).count .write)
          = none := by
      simp [Fault.select, Fault.badWrite, tallied, Ne.symm here]
    rw [@Observation.observe_call_spared _ _ _ (.write fd bytes) _ spared]
    exact .call replied rfl performs

/-- A program that makes no writes is performed as it is, by induction on the run. -/
theorem Performs.suffers {prog : Prog α} {value : α} {result : List Exchange → α → Prop}
    {past : List Exchange} (performs : Performs pid kernel prog value after)
    (silent : prog.Upholds (fun _ c => c.isWrite = false) result past)
    : Suffers bad garbage pid kernel number prog value after number := by
  induction performs generalizing past with
  | done => exact .done
  | call replied alone _ ih => exact .call silent.1 replied alone (ih (silent.2 _))

section Checks

variable {check : Check α} {f : α → Check β} {outcome : Except Check.Stop β} {value : α}

theorem Suffers.check_ok
    (first : Suffers bad garbage pid kernel number check.run (.ok value) middle next)
    (second : Suffers bad garbage pid middle next (f value).run outcome after later)
    : Suffers bad garbage pid kernel number (check >>= f).run outcome after later :=
  first.bind second

theorem Suffers.check_stop {stop : Check.Stop}
    (first : Suffers bad garbage pid kernel number check.run (.error stop) after later)
    (f : α → Check β)
    : Suffers bad garbage pid kernel number (check >>= f).run (.error stop) after later :=
  first.bind .done

theorem Suffers.demand_ok {c : Syscall} {value : c.Value} (other : c.isWrite = false)
    (wording : Errno → String) (replied : kernel.call pid c = some (.ok value, after))
    (alone : c.started? (.ok value) = none)
    : Suffers bad garbage pid kernel number (Check.demand c wording).run (.ok value) after number :=
  .call other replied alone .done

/-- A write that must succeed. -/
theorem Suffers.demand_write {fd : Fd} {bytes : Bytes} {count : Nat} (wording : Errno → String)
    (replied
      : kernel.call pid (.write fd (sent bad garbage (number + 1) bytes)) = some (.ok count, after))
    : Suffers bad garbage pid kernel number (Check.demand (.write fd bytes) wording).run (.ok count)
        after (number + 1) :=
  .write replied .done

theorem Suffers.andFinally_ok {last : Except Violation α → Prog Unit}
    (first : Suffers bad garbage pid kernel number check.run (.ok value) middle next)
    (second : Suffers bad garbage pid middle next (last (.ok value)) () after later)
    : Suffers bad garbage pid kernel number (check.andFinally last).run (.ok value) after later :=
  first.bind (second.bind .done)

theorem Suffers.andFinally_violation {violation : Violation}
    {last : Except Violation α → Prog Unit}
    (first
      : Suffers bad garbage pid kernel number check.run (.error (.violation violation)) middle next)
    (second : Suffers bad garbage pid middle next (last (.error violation)) () after later)
    : Suffers bad garbage pid kernel number (check.andFinally last).run
        (.error (.violation violation)) after later :=
  first.bind (second.bind .done)

end Checks

/-- What every call keeps is kept by a run that suffers. -/
theorem Suffers.keeps {prog : Prog α} {value : α}
    (suffers : Suffers bad garbage pid kernel 0 prog value after later) (invariant : Kernel → Prop)
    (keep
      : ∀ {kernel after} {c : Syscall} {reply : c.Reply},
          kernel.call pid c = some (reply, after) → invariant kernel → invariant after)
    (holds : invariant kernel)
    : invariant after := by
  obtain ⟨_, -, performs⟩ := suffers .empty rfl
  exact performs.keeps invariant keep holds

end Kernel

end KernelConformance
