import KernelConformance.Proofs.Files.CallOutcomes

/-! Calls that fail. A deed that gets an error leaves the kernel as it was, but for the line on the
console that traces it.
-/

namespace KernelConformance

/-- The error that a deed has got, if it has failed. -/
def Deed.error? : Deed → Option Errno
  | spawn _ _ (.error error) => some error
  | wait _ (some (.error error)) => some error
  | install _ _ (.error error) => some error
  | call _ _ (some (.error error)) => some error
  | _ => none

namespace Kernel

variable {kernel after : Kernel} {pid : Pid}

/-- A call that fails has no effect, by cases on what it can have done. -/
theorem Effect.eq_of_failed {call : Syscall} {reply : call.Reply} {error : Errno}
    (effect : kernel.Effect pid call reply after) (failed : reply = .error error)
    : after = kernel := by
  cases effect with
  | failed => rfl
  | _ => cases failed

theorem trace_console (kernel : Kernel) (pid : Pid) (kind : SyscallKind)
    (arguments outcome : String)
    : (kernel.trace pid kind arguments outcome).console
      = if kernel.config.traces kind then
          kernel.console.write (Utf8.encode (kernel.traceLine pid kind arguments outcome))
        else kernel.console := by
  unfold trace
  split <;> rfl

/-- A failed deed of the host leaves everything as it was, and one of a process all but its trace,
by cases on the deed.
-/
theorem Step.failed {deed : Deed} {error : Errno} (step : kernel.Step deed after)
    (failed : deed.error? = some error)
    : after = kernel
      ∨ ∃ pid call reply,
          deed = .call pid call (some reply)
          ∧ after = kernel.trace pid call.kind call.argumentText (call.replyText reply) := by
  cases step with
  | @spawn program argv reply _ done =>
      cases reply with
      | error _ => exact .inl (start_failed done)
      | ok _ => cases failed
  | wait done =>
      rcases reap_cases done with ⟨_, -, same⟩ | ⟨_, _, rfl, -⟩
      · exact .inl same
      · cases failed
  | install done =>
      rcases install_cases done with ⟨_, -, same⟩ | ⟨_, -, rfl, -⟩
      · exact .inl same
      · cases failed
  | @call pid call reply _ _ done =>
      obtain ⟨middle, effect, rfl⟩ := call_effect done
      rcases reply with error | value
      · obtain rfl := effect.eq_of_failed rfl
        exact .inr ⟨pid, call, .error error, rfl, rfl⟩
      · cases failed
  | _ => cases failed

/-- Whatever a deed is refused for, no process, file or descriptor changes, and the console grows by
the trace of a call at most. In particular a creation that finds the table full leaves the files
alone, and an opening that has found or made its file gets a descriptor for it.
-/
theorem failed_calls_atomic (kernel : Kernel)
    : (∀ deed after error,
        kernel.Step deed after
        → deed.error? = some error
        → after = { kernel with console := after.console }
          ∧ (after.console = kernel.console
            ∨ ∃ pid call reply,
                deed = .call pid call (some reply)
                ∧ kernel.config.traces call.kind = true
                ∧ after.console
                  = kernel.console.write (Utf8.encode (kernel.traceLine pid call.kind
                      call.argumentText (call.replyText reply)))))
      ∧ (∀ pid name,
          (kernel.fds pid).isExhausted = true
          → ∃ after,
              kernel.call pid (.creat name) = some (.error .tooManyOpenFiles, after)
              ∧ after.files = kernel.files)
      ∧ (∀ pid name inode files,
          (kernel.fds pid).isExhausted = false
          → kernel.files.create name = .ok (inode, files)
          → ∃ fd fds after,
              (kernel.fds pid).insert (.file inode 0) = .ok (fd, fds)
              ∧ kernel.call pid (.creat name) = some (.ok fd, after))
      ∧ (∀ pid name inode,
          (kernel.fds pid).isExhausted = false
          → kernel.files.find name = .ok inode
          → ∃ fd fds after,
              (kernel.fds pid).insert (.file inode 0) = .ok (fd, fds)
              ∧ kernel.call pid (.openFile name) = some (.ok fd, after)) := by
  refine ⟨?_, ?_, ?_, ?_⟩
  · intro deed after error step failed
    rcases step.failed failed with rfl | ⟨pid, call, reply, rfl, rfl⟩
    · exact ⟨rfl, .inl rfl⟩
    · refine ⟨trace_eq _ _ _ _ _, ?_⟩
      rw [trace_console]
      split
      · next traced => exact .inr ⟨pid, call, reply, rfl, traced, rfl⟩
      · exact .inl rfl
  · intro pid name full
    have refused : kernel.perform pid (.creat name) = some (.error .tooManyOpenFiles, kernel) :=
      congrArg some (creat_of_exhausted full name)
    refine ⟨_, call_of_perform refused, ?_⟩
    rw [trace_eq]
  · intro pid name inode files room created
    obtain ⟨fd, fds, inserted, done⟩ := creat_of_room room created
    exact ⟨fd, fds, _, inserted, call_of_perform (congrArg some done)⟩
  · intro pid name inode room found
    obtain ⟨fd, fds, inserted, done⟩ := openFile_of_room room found
    exact ⟨fd, fds, _, inserted, call_of_perform (congrArg some done)⟩

/-- A kernel that traces creations, with a file and a process that has no room for any. -/
def crowded : Kernel :=
  let config : Config := { Config.standard with maxOpenFiles := 2 }
  let booted := (boot (config.trace .creat)).register "p"
  ((booted.start .host "p" []).2.install "a" [1, 2, 3]).2

/-- The same kernel after the process has closed its input. -/
def spared : Kernel := (crowded.close (.ofNat 1) .stdin).2

/-- The refused creation of a file that exists leaves its bytes, and both a creation and an opening
succeed once there is room, as the law says of these kernels.
-/
theorem failed_calls_atomic_crowded
    : (∃ after,
        crowded.Step (.call (.ofNat 1) (.creat "a") (some (.error .tooManyOpenFiles))) after
        ∧ after = { crowded with console := after.console }
        ∧ after.files.contents? "a" = some [1, 2, 3])
      ∧ (∃ fd after, spared.call (.ofNat 1) (.creat "b") = some (.ok fd, after))
      ∧ ∃ fd after, spared.call (.ofNat 1) (.openFile "a") = some (.ok fd, after) := by
  refine ⟨?_, ?_, ?_⟩
  · obtain ⟨after, refused, -⟩ := crowded.failed_calls_atomic.2.1 (.ofNat 1) "a" rfl
    have step
        : crowded.Step (.call (.ofNat 1) (.creat "a") (some (.error .tooManyOpenFiles))) after :=
      .call rfl refused
    have same := (crowded.failed_calls_atomic.1 _ _ _ step rfl).1
    refine ⟨after, step, same, ?_⟩
    rw [same]
    rfl
  · obtain ⟨fd, _, after, -, created⟩ :=
      spared.failed_calls_atomic.2.2.1 (.ofNat 1) "b" _ _ rfl rfl
    exact ⟨fd, after, created⟩
  · obtain ⟨fd, _, after, -, opened⟩ :=
      spared.failed_calls_atomic.2.2.2 (.ofNat 1) "a" _ rfl rfl
    exact ⟨fd, after, opened⟩

end Kernel

end KernelConformance
