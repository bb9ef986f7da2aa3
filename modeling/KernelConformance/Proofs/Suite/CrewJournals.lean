import KernelConformance.Proofs.Processes.LogOrder
import KernelConformance.Proofs.Suite.CrewRuns

/-! What the journal tells of a process that runs jobs. It has started a child for each job, in the
order of the jobs, and has joined its children in the order in which it has started them.
-/

namespace KernelConformance

/-- The start that an event is, if a process has made it. -/
def Event.startBy? (pid : Pid) : Event → Option (Pid × String)
  | spawned child parent program => if parent = .proc pid then some (child, program) else none
  | _ => none

/-- The join that an event is, if a process has made it. -/
def Event.joinBy? (pid : Pid) : Event → Option (Pid × ExitStatus)
  | reaped child parent status => if parent = .proc pid then some (child, status) else none
  | _ => none

/-- The process that an exchange has started, and its program. -/
def Exchange.begun? : Exchange → Option (Pid × String)
  | ⟨.exec program _, .ok child⟩ => some (child, program)
  | _ => none

/-- The process that an exchange has joined, and its status. -/
def Exchange.reaped? : Exchange → Option (Pid × ExitStatus)
  | ⟨.join child, .ok status⟩ => some (child, status)
  | _ => none

/-- What a view of the log finds of a process is what a view of its exchanges finds, if the deeds of
others mean nothing to it, and its own mean the same to both.
-/
theorem history_filterMap {α : Type} {pid : Pid} {view : Event → Option α}
    {viewOf : Exchange → Option α}
    (own
      : ∀ (c : Syscall) (reply : c.Reply),
          (Deed.call pid c (some reply)).event?.bind view = viewOf ⟨c, reply⟩)
    (others
      : ∀ (deed : Deed) (event : Event),
          deed.event? = some event → deed.exchange? pid = none → view event = none)
    (deeds : List Deed)
    : (history deeds).filterMap view = (exchanges pid deeds).filterMap viewOf := by
  rw [history, exchanges, List.filterMap_filterMap, List.filterMap_filterMap]
  congr 1
  funext deed
  rcases made : deed.exchange? pid with _ | exchange
  · exact Option.bind_eq_none_iff.mpr fun event logged => others deed event logged made
  · rw [Deed.eq_call_of_exchange made]
    exact own _ _

/-- The starts that a process has logged are those of its exchanges. -/
theorem history_startBy (pid : Pid) (deeds : List Deed)
    : (history deeds).filterMap (Event.startBy? pid)
      = (exchanges pid deeds).filterMap Exchange.begun? := by
  refine history_filterMap (fun c reply => ?_) (fun deed event logged silent => ?_) deeds
  · cases c <;> cases reply <;> simp [Deed.event?, Event.startBy?, Exchange.begun?]
  · cases event with
    | spawned child parent program =>
        obtain ⟨argv, rfl⟩ := Deed.eq_start logged
        refine if_neg ?_
        rintro rfl
        simp [Deed.start, Deed.exchange?] at silent
    | _ => rfl

/-- The joins that a process has logged are those of its exchanges. -/
theorem history_joinBy (pid : Pid) (deeds : List Deed)
    : (history deeds).filterMap (Event.joinBy? pid)
      = (exchanges pid deeds).filterMap Exchange.reaped? := by
  refine history_filterMap (fun c reply => ?_) (fun deed event logged silent => ?_) deeds
  · cases c <;> cases reply <;> simp [Deed.event?, Event.joinBy?, Exchange.reaped?]
  · cases event with
    | reaped child parent status =>
        obtain rfl := Deed.eq_join logged
        refine if_neg ?_
        rintro rfl
        simp [Deed.join, Deed.exchange?] at silent
    | _ => rfl

/-- A journal from which nothing is taken grows by what happens. -/
theorem Kernel.Run.events_extend {config : Config} {deeds during : List Deed}
    {begin kernel : Kernel} (run : Run config deeds begin) (steps : Steps begin during kernel)
    (untaken : ∀ deed ∈ during, deed.taken = [])
    : kernel.processes.events = begin.processes.events ++ history during := by
  have whole := (run.extend steps).journal
  rw [List.flatMap_append, List.flatMap_eq_nil_iff.mpr untaken, List.append_nil, history,
    List.filterMap_append] at whole
  apply @List.append_cancel_left _ (deeds.flatMap Deed.taken)
  rw [whole, ← List.append_assoc, run.journal]
  rfl

namespace Spawner

variable {jobs : List Job} {past : List Exchange} {capacity : Nat}

/-- What the exchanges of a process tell that runs jobs: each child was started with the
program of the job at its place, and those that were joined were joined in order, with the
signatures of their jobs.
-/
structure InOrder (jobs : List Job) (past : List Exchange) : Prop where
  issued : (started past).length ≤ jobs.length
  retired : (joined past).length ≤ (started past).length
  begun : Begun jobs past
  begins
    : past.filterMap Exchange.begun?
      = ((started past).zip jobs).map fun entry => (entry.1, entry.2.program)
  reaps
    : past.filterMap Exchange.reaped?
      = (((started past).zip jobs).take (joined past).length).map fun entry =>
          (entry.1, .exited entry.2.signature)

theorem InOrder.aside (inOrder : InOrder jobs past) {last : Exchange} (idle : last.started? = none)
    (idleToo : last.joined? = none)
    : InOrder jobs (past ++ [last]) := by
  have begun : last.begun? = none := by
    unfold Exchange.begun?
    split
    · cases idle
    · rfl
  have reaped : last.reaped? = none := by
    unfold Exchange.reaped?
    split
    · cases idleToo
    · rfl
  refine ⟨?_, ?_, inOrder.begun.snoc idle, ?_, ?_⟩
  · simpa [idle] using inOrder.issued
  · simpa [idle, idleToo] using inOrder.retired
  · simpa [filterMap_snoc, idle, begun] using inOrder.begins
  · simpa [filterMap_snoc, idle, idleToo, reaped] using inOrder.reaps

theorem InOrder.start (inOrder : InOrder jobs past) {job : Job}
    (next : jobs[(started past).length]? = some job) (child : Pid)
    : InOrder jobs (past ++ [⟨.exec job.program job.argv, .ok child⟩]) := by
  have begins := started_exec past job.program job.argv child
  have joins := joined_exec past job.program job.argv child
  have enough : (joined past).length ≤ ((started past).zip jobs).length := by
    rw [List.length_zip, Nat.min_eq_left inOrder.issued]
    exact inOrder.retired
  refine ⟨?_, ?_, inOrder.begun.start next child, ?_, ?_⟩
  · rw [begins, List.length_append]
    exact Nat.succ_le_of_lt (List.getElem?_eq_some_iff.mp next).1
  · rw [begins, joins, List.length_append]
    exact Nat.le_succ_of_le inOrder.retired
  · rw [begins, zip_snoc next, filterMap_snoc, inOrder.begins, List.map_append]
    rfl
  · rw [begins, joins, zip_snoc next, List.take_append_of_le_length enough, filterMap_snoc,
      inOrder.reaps]
    exact List.append_nil _

theorem InOrder.join (inOrder : InOrder jobs past) {child : Pid} {job : Job}
    (oldest : (unjoined past).head? = some child)
    (given : jobs[(joined past).length]? = some job)
    : InOrder jobs (past ++ [⟨.join child, .ok (.exited job.signature)⟩]) := by
  have begins := started_join past child (.exited job.signature)
  have joins := joined_join past child (.exited job.signature)
  have place : (started past)[(joined past).length]? = some child := by
    rwa [head?_unjoined] at oldest
  have next : ((started past).zip jobs)[(joined past).length]? = some (child, job) :=
    List.getElem?_zip_eq_some.mpr ⟨place, given⟩
  refine ⟨?_, ?_, inOrder.begun.snoc rfl, ?_, ?_⟩
  · rw [begins]
    exact inOrder.issued
  · rw [begins, joins, List.length_append]
    exact Nat.succ_le_of_lt (List.getElem?_eq_some_iff.mp place).1
  · rw [begins, filterMap_snoc, inOrder.begins]
    exact List.append_nil _
  · rw [begins, joins, List.length_append, List.length_singleton, List.take_add_one, next,
      filterMap_snoc, inOrder.reaps, List.map_append]
    rfl

/-- A child whose place was joined was joined with the signature of its job. -/
theorem InOrder.joined (inOrder : InOrder jobs past) {index : Nat} {child : Pid} {job : Job}
    (place : (started past)[index]? = some child) (given : jobs[index]? = some job)
    (retired : index < (joined past).length)
    : ⟨.join child, .ok (.exited job.signature)⟩ ∈ past := by
  have listed : (child, ExitStatus.exited job.signature) ∈ past.filterMap Exchange.reaped? := by
    rw [inOrder.reaps]
    refine List.mem_map.mpr ⟨(child, job), List.mem_of_getElem? (i := index) ?_, rfl⟩
    rw [List.getElem?_take, if_pos retired]
    exact List.getElem?_zip_eq_some.mpr ⟨place, given⟩
  obtain ⟨exchange, member, reaped⟩ := List.mem_filterMap.mp listed
  unfold Exchange.reaped? at reaped
  split at reaped
  · cases reaped
    exact member
  · cases reaped

/-- A process that is served joins its children in the order in which it has started them, by
induction on its exchanges.
-/
theorem inOrder_of_served
    (issues : Throughout (fun past exchange => Issues jobs past exchange.call) past)
    (served : Served capacity jobs past)
    : InOrder jobs past := by
  induction past using List.reverseRecOn with
  | nil => exact ⟨Nat.zero_le _, Nat.le_refl _, nofun, rfl, rfl⟩
  | append_singleton past last ih =>
      obtain ⟨issuesBefore, issued⟩ := throughout_snoc.mp issues
      obtain ⟨servedBefore, answered⟩ := throughout_snoc.mp served
      have inOrder := ih issuesBefore servedBefore
      obtain ⟨c, reply⟩ := last
      rcases issued with calls | ⟨bytes, rfl⟩
      · cases c with
        | exec program argv =>
            obtain ⟨job, next, rfl, rfl⟩ := calls
            cases reply with
            | ok child => exact inOrder.start next child
            | error error => exact inOrder.aside rfl rfl
        | join child =>
            obtain ⟨job, given, rfl⟩ := answered
            exact inOrder.join calls given
        | _ => exact calls.elim
      · exact inOrder.aside rfl rfl

end Spawner

end KernelConformance
