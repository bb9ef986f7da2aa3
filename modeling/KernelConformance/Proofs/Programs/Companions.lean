import KernelConformance.Proofs.Files.Correspondence
import KernelConformance.Proofs.Files.Leavings

/-! Processes that act side by side, each with names of its own. What one of them can still perform
by itself it can perform after all that the others do, as it does not notice them.
-/

namespace KernelConformance.Kernel

variable {α : Type} {names others : String → Prop} {pid other child : Pid}
  {kernel after left right last : Kernel} {prog : Prog α} {value : α}

-----------------------------------------------------------------------------------------
-- What is left to perform
-----------------------------------------------------------------------------------------

/-- A program that works with some names is performed in any kernel that looks the same to them, by
induction on the run.
-/
theorem Mirrors.performs {start : Inode} {twin : Inode → Inode} {result : List Exchange → α → Prop}
    {past : List Exchange} (mirrors : left.Mirrors names pid start twin right)
    (performs : Performs pid right prog value last)
    (works : prog.Upholds (WorksWith names) result past)
    : ∃ after, Performs pid left prog value after := by
  induction performs generalizing left twin past with
  | done => exact ⟨left, .done⟩
  | call replied alone _ ih =>
      obtain ⟨⟨onFiles, uses⟩, onward⟩ := works
      obtain ⟨reply, leftNext, rightNext, next, made, same, matched⟩ := mirrors.call onFiles uses
      cases replied.symm.trans same
      obtain ⟨after, further⟩ := ih matched (onward _)
      exact ⟨after, .call made alone further⟩

/-- A change that a process does not notice leaves it all that it can perform. -/
theorem Performs.unnoticed {result : List Exchange → α → Prop} {past : List Exchange}
    (performs : Performs pid kernel prog value last)
    (works : prog.Upholds (WorksWith names) result past)
    (taken : ∀ inode, kernel.Footprint names pid inode → inode.index < kernel.files.next.index)
    (unnoticed : kernel.Unnoticed names pid after)
    : ∃ last, Performs pid after prog value last :=
  ((mirrors_self taken).unnoticed_left unnoticed).performs performs works

/-- Whether a process can come to its end by itself with a status, by what is left of a program that
works with some names.
-/
structure CanEnd (kernel : Kernel) (names : String → Prop) (pid : Pid) (rest : Prog Ending)
    (status : Int32)
    : Prop where
  works : ∃ past, rest.Upholds (WorksWith names) (fun _ _ => True) past
  ends : ∃ last, Performs pid kernel rest (.exit status) last

namespace CanEnd

variable {rest : Prog Ending} {status : Int32}

theorem unnoticed (can : kernel.CanEnd names pid rest status)
    (taken : ∀ inode, kernel.Footprint names pid inode → inode.index < kernel.files.next.index)
    (unnoticed : kernel.Unnoticed names pid after)
    : after.CanEnd names pid rest status := by
  obtain ⟨past, works⟩ := can.works
  obtain ⟨last, performs⟩ := can.ends
  exact ⟨⟨past, works⟩, performs.unnoticed works taken unnoticed⟩

/-- The next call of the process has a reply, is confined to its names, and it can
go on from there.
-/
theorem call {c : Syscall} {next : c.Reply → Prog Ending}
    (can : kernel.CanEnd names pid (.call c next) status)
    : c.onFiles = true
      ∧ ∃ reply after,
          kernel.call pid c = some (reply, after)
          ∧ kernel.Confined names pid after
          ∧ after.CanEnd names pid (next reply) status := by
  obtain ⟨past, ⟨onFiles, uses⟩, works⟩ := can.works
  obtain ⟨last, performs⟩ := can.ends
  obtain ⟨reply, after, replied⟩ := call_onFiles onFiles kernel pid
  have confined := call_confined onFiles uses replied
  exact ⟨onFiles, reply, after, replied, confined, ⟨_, works reply⟩, last, performs.of_call replied⟩

theorem ending_eq {ending : Ending} (can : kernel.CanEnd names pid (.done ending) status)
    : ending = .exit status := by
  obtain ⟨last, performs⟩ := can.ends
  exact performs.of_done

end CanEnd

-----------------------------------------------------------------------------------------
-- Processes that come and go
-----------------------------------------------------------------------------------------

/-- A process notices nothing that changes neither its descriptors nor the files. -/
theorem unnoticed_of_same (names : String → Prop) (fds : after.fds pid = kernel.fds pid)
    (files : after.files = kernel.files)
    : kernel.Unnoticed names pid after where
  fds := fds
  accepts := by rw [files]
  next_le := Nat.le_of_eq (by rw [files])
  named _ _ := by rw [files]
  data _ _ := by rw [files]

theorem Footprint.mono {inode : Inode} (inside : kernel.Footprint names pid inode)
    (wider : ∀ name, names name → others name)
    : kernel.Footprint others pid inode := by
  rcases inside with opens | ⟨name, uses, named⟩
  · exact .inl opens
  · exact .inr ⟨name, wider name uses, named⟩

/-- What a process without open files can get at are the files of its names. -/
theorem Footprint.inherit {inode : Inode} (inside : kernel.Footprint names child inode)
    (closed : ∀ inode, ¬(kernel.fds child).Opens inode)
    : kernel.Footprint names pid inode :=
  inside.elim (fun opens => absurd opens (closed inode)) .inr

/-- A process that gives up names stays apart from the others. -/
theorem Apart.narrow {fewer : String → Prop} (apart : kernel.Apart names pid others other)
    (less : ∀ name, fewer name → names name)
    : kernel.Apart fewer pid others other where
  different := apart.different
  disjoint name uses := apart.disjoint name (less name uses)
  inodes inode inside := apart.inodes inode (inside.mono less)
  taken inode inside := apart.taken inode (inside.mono less)
  takenOther := apart.takenOther

/-- A process without open files that takes over the names of another one is apart from those from
whom that one was.
-/
theorem Apart.inherit (apart : kernel.Apart names pid others other) (different : other ≠ child)
    (closed : ∀ inode, ¬(kernel.fds child).Opens inode)
    : kernel.Apart names child others other where
  different := different
  disjoint := apart.disjoint
  inodes inode inside := apart.inodes inode (inside.inherit closed)
  taken inode inside := apart.taken inode (inside.inherit closed)
  takenOther := apart.takenOther

/-- Processes without open files are apart if their names are different, as no inode
has two names.
-/
theorem apart_of_closed {config : Config} {deeds : List Deed} (run : Run config deeds kernel)
    (different : other ≠ pid) (disjoint : ∀ name, names name → ¬others name)
    (closed : ∀ inode, ¬(kernel.fds pid).Opens inode)
    (closedOther : ∀ inode, ¬(kernel.fds other).Opens inode)
    : kernel.Apart names pid others other := by
  have named {pid : Pid} {names : String → Prop} {inode : Inode}
      (inside : kernel.Footprint names pid inode)
      (closed : ∀ inode, ¬(kernel.fds pid).Opens inode)
      : ∃ name, names name ∧ kernel.files.names.get? name = some inode :=
    inside.elim (fun opens => absurd opens (closed inode)) id
  refine ⟨different, disjoint, fun inode mine yours => ?_, fun inode mine => ?_,
    fun inode yours => ?_⟩
  · obtain ⟨name, uses, found⟩ := named mine closed
    obtain ⟨same, used, foundToo⟩ := named yours closedOther
    obtain rfl := run.tidy.names.injective found foundToo
    exact disjoint name uses used
  · obtain ⟨name, -, found⟩ := named mine closed
    exact run.tidy.names.taken found
  · obtain ⟨name, -, found⟩ := named yours closedOther
    exact run.tidy.names.taken found

end KernelConformance.Kernel
