import KernelConformance.Syscall.Call

/-! Programs as trees of calls. What a program does next depends on the replies alone, so the tree
says what it does on every system, whatever the replies are.
-/

namespace KernelConformance

/-- A computation that makes calls one after the other and comes to a value. -/
inductive Prog (α : Type) where
  | done (value : α)
  | call (call : Syscall) (next : call.Reply → Prog α)

namespace Prog

variable {α β γ : Type}

/-- Goes on from the value of a computation. -/
def bind : Prog α → (α → Prog β) → Prog β
  | done value, f => f value
  | call c next, f => call c fun reply => (next reply).bind f

instance : Monad Prog where
  pure := done
  bind := bind

@[simp] theorem pure_eq (value : α) : (pure value : Prog α) = done value := rfl

@[simp] theorem bind_done (value : α) (f : α → Prog β) : (done value >>= f) = f value := rfl

@[simp] theorem bind_call (c : Syscall) (next : c.Reply → Prog α) (f : α → Prog β)
    : (call c next >>= f) = call c fun reply => next reply >>= f := rfl

/-- Going on with nothing changes nothing, by induction on the tree. -/
theorem bind_pure (prog : Prog α) : (prog >>= pure) = prog := by
  induction prog with
  | done => rfl
  | call c next ih => simp only [bind_call, ih]

/-- Going on twice is going on with the rest, by induction on the tree. -/
theorem bind_assoc (prog : Prog α) (f : α → Prog β) (g : β → Prog γ)
    : (prog >>= f >>= g) = (prog >>= fun value => f value >>= g) := by
  induction prog with
  | done => rfl
  | call c next ih => simp only [bind_call, ih]

instance : LawfulMonad Prog :=
  LawfulMonad.mk' Prog bind_pure (fun _ _ => rfl) bind_assoc

/-- Makes one call. -/
def perform (c : Syscall) : Prog c.Reply := call c done

end Prog

/-- How a process ends. -/
inductive Ending where
  | exit (status : Int32)
  | fault
  deriving DecidableEq

/-- The status that the end of a process publishes. -/
def Ending.status : Ending → ExitStatus
  | .exit status => .exited status
  | .fault => .faulted

/-- What a process runs, from its name and its argument list. -/
abbrev Main := String → List String → Prog Ending

end KernelConformance
