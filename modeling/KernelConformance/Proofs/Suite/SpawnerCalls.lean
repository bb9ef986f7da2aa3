import KernelConformance.Proofs.Programs.Followers
import KernelConformance.Suite.Jobs

/-! The calls of a spawner on any system: it starts its jobs in order and joins its children in
the order in which it has started them. If starts are refused exactly when some number of
children is outstanding, and joins give the right statuses, then it never has to stop unless
that number is zero.
-/

namespace KernelConformance

/-- The processes that were started and not joined, if joins are made in the order of the starts. -/
def unjoined (past : List Exchange) : List Pid := (started past).drop (joined past).length

/-- The oldest process that was not joined is the one that comes after those that were. -/
theorem head?_unjoined (past : List Exchange)
    : (unjoined past).head? = (started past)[(joined past).length]? :=
  List.head?_drop

theorem length_unjoined (past : List Exchange)
    : (unjoined past).length = (started past).length - (joined past).length :=
  List.length_drop

namespace Spawner

variable {jobs : List Job} {past : List Exchange} {spawner : Spawner} {capacity : Nat}

-----------------------------------------------------------------------------------------
-- What a spawner has done
-----------------------------------------------------------------------------------------

/-- The children that were started for the first jobs, in order. -/
def children (pids : List Pid) (jobs : List Job) : List Child :=
  (pids.zip jobs).mapIdx fun order entry => ⟨entry.1, entry.2.signature, order⟩

theorem length_children {pids : List Pid} (enough : pids.length ≤ jobs.length)
    : (children pids jobs).length = pids.length := by
  simp [children, Nat.min_eq_left enough]

theorem children_getElem? {pids : List Pid} {index : Nat} {child : Child}
    (found : (children pids jobs)[index]? = some child)
    : ∃ job,
        pids[index]? = some child.pid
        ∧ jobs[index]? = some job
        ∧ child.signature = job.signature
        ∧ child.order = index := by
  rw [children, List.getElem?_mapIdx] at found
  obtain ⟨entry, zipped, rfl⟩ := Option.map_eq_some_iff.mp found
  obtain ⟨pid, job⟩ := List.getElem?_zip_eq_some.mp zipped
  exact ⟨entry.2, pid, job, rfl, rfl⟩

theorem mem_children {pids : List Pid} {index : Nat} {pid : Pid} {job : Job}
    (place : pids[index]? = some pid) (given : jobs[index]? = some job)
    : ⟨pid, job.signature, index⟩ ∈ children pids jobs := by
  have zipped : (pids.zip jobs)[index]? = some (pid, job) :=
    List.getElem?_zip_eq_some.mpr ⟨place, given⟩
  refine List.mem_of_getElem? (i := index) ?_
  rw [children, List.getElem?_mapIdx, zipped]
  rfl

/-- One more element of a list is beside the next one of the other list. -/
theorem zip_snoc {α β : Type} {list : List α} {others : List β} {other : β}
    (next : others[list.length]? = some other) (last : α)
    : (list ++ [last]).zip others = list.zip others ++ [(last, other)] := by
  obtain ⟨bound, rfl⟩ := List.getElem?_eq_some_iff.mp next
  have enough : list.length ≤ others.length := Nat.le_of_lt bound
  refine List.ext_getElem (by simp; omega) fun index _ _ => ?_
  simp only [List.getElem_zip, List.getElem_append, List.length_zip]
  split <;> split <;> first | omega | skip
  · rfl
  · have same : index = list.length := by simp at *; omega
    simp [same]

theorem children_snoc {pids : List Pid} {job : Job} (next : jobs[pids.length]? = some job)
    (pid : Pid)
    : children (pids ++ [pid]) jobs
      = children pids jobs ++ [⟨pid, job.signature, pids.length⟩] := by
  have enough : pids.length ≤ jobs.length := Nat.le_of_lt (List.getElem?_eq_some_iff.mp next).1
  rw [children, zip_snoc next, List.mapIdx_concat, List.length_zip, Nat.min_eq_left enough]
  rfl

/-- Whether the processes that were started were started for the first jobs. -/
def Begun (jobs : List Job) (past : List Exchange) : Prop :=
  ∀ (index : Nat) (pid : Pid) (job : Job),
    (started past)[index]? = some pid
    → jobs[index]? = some job
    → ⟨.exec job.program job.argv, .ok pid⟩ ∈ past

theorem Begun.snoc (begun : Begun jobs past) {last : Exchange} (idle : last.started? = none)
    : Begun jobs (past ++ [last]) := by
  intro index pid job place given
  rw [started_snoc, idle, Option.toList_none, List.append_nil] at place
  exact List.mem_append_left _ (begun index pid job place given)

theorem Begun.start (begun : Begun jobs past) {job : Job}
    (next : jobs[(started past).length]? = some job) (pid : Pid)
    : Begun jobs (past ++ [⟨.exec job.program job.argv, .ok pid⟩]) := by
  intro index other task place given
  rw [started_snoc, Exchange.started?, Option.toList_some, List.getElem?_append] at place
  split at place
  · exact List.mem_append_left _ (begun index other task place given)
  · next beyond =>
      obtain ⟨here, same⟩ := List.getElem?_eq_some_iff.mp place
      rw [List.length_singleton] at here
      obtain rfl : index = (started past).length := by omega
      rw [next] at given
      cases given
      rw [List.getElem_singleton] at same
      exact List.mem_append_right _ (same ▸ List.mem_singleton.mpr rfl)

/-- What a spawner knows after some exchanges: it has started its children for the first jobs, its
queue has those that were not joined, the others have exited with their signatures, and its report
counts them.
-/
structure Tracks (jobs : List Job) (past : List Exchange) (spawner : Spawner) : Prop where
  issued : (started past).length ≤ jobs.length
  retired : (joined past).length ≤ (started past).length
  queue : spawner.outstanding = (children (started past) jobs).drop (joined past).length
  numbered : spawner.nextOrder = (started past).length
  report
    : spawner.report
      = ⟨(started past).length, (joined past).length, refusals past,
          spawner.report.peakOutstanding, List.range (joined past).length⟩
  begun : Begun jobs past
  exited
    : ∀ child ∈ (children (started past) jobs).take (joined past).length,
        ⟨.join child.pid, .ok (.exited child.signature)⟩ ∈ past
  calls : past.length = (started past).length + (joined past).length + refusals past

theorem tracks_empty (jobs : List Job) : Tracks jobs [] empty :=
  ⟨Nat.zero_le _, Nat.le_refl _, rfl, rfl, rfl, nofun, by simp [joined], rfl⟩

/-- A start puts a child at the end of the queue. -/
theorem Tracks.start (tracks : Tracks jobs past spawner) {job : Job}
    (next : jobs[(started past).length]? = some job) (pid : Pid)
    : Tracks jobs (past ++ [⟨.exec job.program job.argv, .ok pid⟩])
        (spawner.noteSpawned.enqueue ⟨pid, job.signature, spawner.nextOrder⟩) := by
  have fits : (joined past).length ≤ (children (started past) jobs).length :=
    length_children tracks.issued ▸ tracks.retired
  constructor
  · simpa [Exchange.started?] using Nat.succ_le_of_lt (List.getElem?_eq_some_iff.mp next).1
  · simpa [Exchange.started?, Exchange.joined?] using Nat.le_succ_of_le tracks.retired
  · simp [enqueue, noteSpawned, Exchange.started?, Exchange.joined?, children_snoc next,
      tracks.queue, tracks.numbered, List.drop_append_of_le_length fits]
  · simp [enqueue, noteSpawned, tracks.numbered, Exchange.started?]
  · rw [enqueue, noteSpawned, tracks.report]
    simp [Exchange.started?, Exchange.joined?, Exchange.isRefusal]
  · exact tracks.begun.start next pid
  · simp only [started_snoc, joined_snoc_exchange, Exchange.started?, Exchange.joined?,
      Option.toList_some, Option.toList_none, List.append_nil, children_snoc next,
      List.take_append_of_le_length fits]
    exact fun child member => List.mem_append_left _ (tracks.exited child member)
  · simp [tracks.calls, Exchange.started?, Exchange.joined?, Exchange.isRefusal]
    omega

/-- A start that is refused is counted. -/
theorem Tracks.refuse (tracks : Tracks jobs past spawner) (program : String) (argv : List String)
    (error : Errno)
    : Tracks jobs (past ++ [⟨.exec program argv, .error error⟩]) spawner.noteRefusal := by
  constructor
  · simpa [Exchange.started?] using tracks.issued
  · simpa [Exchange.started?, Exchange.joined?] using tracks.retired
  · simpa [noteRefusal, Exchange.started?, Exchange.joined?] using tracks.queue
  · simpa [noteRefusal, Exchange.started?] using tracks.numbered
  · rw [noteRefusal, tracks.report]
    simp [Exchange.started?, Exchange.joined?, Exchange.isRefusal]
  · exact tracks.begun.snoc rfl
  · simp only [started_snoc, joined_snoc_exchange, Exchange.started?, Exchange.joined?,
      Option.toList_none, List.append_nil]
    exact fun child member => List.mem_append_left _ (tracks.exited child member)
  · simp [tracks.calls, Exchange.started?, Exchange.joined?, Exchange.isRefusal]
    omega

/-- The front of the queue is the first child that was not joined. -/
theorem Tracks.oldest (tracks : Tracks jobs past spawner) {oldest : Child} {rest : List Child}
    (queue : spawner.outstanding = oldest :: rest)
    : (children (started past) jobs)[(joined past).length]? = some oldest
      ∧ rest = (children (started past) jobs).drop ((joined past).length + 1) := by
  have dropped := tracks.queue.symm.trans queue
  refine ⟨?_, ?_⟩
  · rw [← List.head?_drop, dropped]
    rfl
  · rw [← List.tail_drop, dropped]
    rfl

/-- A join that gives the signature of the front of the queue retires it. -/
theorem Tracks.retire (tracks : Tracks jobs past spawner) {oldest : Child} {rest : List Child}
    (queue : spawner.outstanding = oldest :: rest)
    : Tracks jobs (past ++ [⟨.join oldest.pid, .ok (.exited oldest.signature)⟩])
        (noteRetired oldest { spawner with outstanding := rest }) := by
  obtain ⟨found, others⟩ := tracks.oldest queue
  obtain ⟨job, pid, -, -, order⟩ := children_getElem? found
  have bound := (List.getElem?_eq_some_iff.mp pid).1
  constructor
  · simpa [Exchange.started?] using tracks.issued
  · simpa [Exchange.started?, Exchange.joined?] using Nat.succ_le_of_lt bound
  · simpa [noteRetired, Exchange.started?, Exchange.joined?] using others
  · simpa [noteRetired, Exchange.started?] using tracks.numbered
  · simp only [noteRetired]
    rw [tracks.report]
    simp [Exchange.started?, Exchange.joined?, Exchange.isRefusal, order, List.range_succ]
  · exact tracks.begun.snoc rfl
  · simp only [started_snoc, joined_snoc_exchange, Exchange.started?, Exchange.joined?,
      Option.toList_some, Option.toList_none, List.append_nil, List.length_append,
      List.length_singleton, List.take_add_one, found, List.mem_append]
    intro child member
    rcases member with earlier | last
    · exact .inl (tracks.exited child earlier)
    · obtain rfl := List.mem_singleton.mp last
      exact .inr (List.mem_singleton.mpr rfl)
  · simp [tracks.calls, Exchange.started?, Exchange.joined?, Exchange.isRefusal]
    omega

-----------------------------------------------------------------------------------------
-- What a spawner relies on
-----------------------------------------------------------------------------------------

/-- The calls of a spawner: starts of the next job, and joins of the oldest child. -/
def Calls (jobs : List Job) (past : List Exchange) : Syscall → Prop
  | .exec program argv =>
      ∃ job, jobs[(started past).length]? = some job ∧ program = job.program ∧ argv = job.argv
  | .join child => (unjoined past).head? = some child
  | _ => False

/-- Whether a call is answered as by a system with room for a number of children, all of which exit
with the signatures of their jobs.
-/
def Answered (capacity : Nat) (jobs : List Job) (past : List Exchange) : Exchange → Prop
  | ⟨.exec _ _, .ok _⟩ => (unjoined past).length < capacity
  | ⟨.exec _ _, .error _⟩ => (unjoined past).length = capacity
  | ⟨.join _, reply⟩ =>
      ∃ job, jobs[(joined past).length]? = some job ∧ reply = .ok (.exited job.signature)
  | _ => True

/-- Whether all calls were answered like this. -/
abbrev Served (capacity : Nat) (jobs : List Job) (past : List Exchange) : Prop :=
  Throughout (Answered capacity jobs) past

/-- The most calls that a spawner makes if it is served: two for each job, and one that is refused
for each job beyond the capacity.
-/
def mostCalls (capacity : Nat) (jobs : List Job) : Nat :=
  2 * jobs.length + (jobs.length - capacity)

/-- How the counts of a spawner that still starts jobs relate if it is served: every refusal makes
it retire a child, and it has retired as many as it had to, or up to `slack` more.
-/
structure Paced (capacity slack : Nat) (report : Report) : Prop where
  even : report.refusals = report.retired
  behind : report.spawned - capacity ≤ report.retired
  ahead : report.retired ≤ report.spawned + slack - capacity
  peak : report.peakOutstanding = min report.spawned capacity
  room : 0 < report.spawned → 0 < capacity

/-- What has been refused to a spawner that stops if it is served: its first start, as there is no
room at all.
-/
structure Starved (capacity : Nat) (jobs : List Job) (past : List Exchange) : Prop where
  full : capacity = 0
  wanted : jobs ≠ []
  nothing : started past = []

/-- What may stop a spawner: a failure, and if it is served only the lack of any room. -/
def Stopped (capacity : Nat) (jobs : List Job) (past : List Exchange) (violation : Violation)
    : Prop :=
  (∃ message, violation = .failure message)
  ∧ (Served capacity jobs past → Starved capacity jobs past)

/-- What a spawner is allowed: its calls, and not too many of them if it is served. -/
def Allowed (capacity : Nat) (jobs : List Job) (past : List Exchange) (call : Syscall) : Prop :=
  Calls jobs past call ∧ (Served capacity jobs past → past.length < mostCalls capacity jobs)

-----------------------------------------------------------------------------------------
-- One start and one join
-----------------------------------------------------------------------------------------

/-- A child is judged well exactly if the reply is its signature, and otherwise it is a failure. -/
theorem judge_cases (child : Child) (reply : Except Errno ExitStatus)
    : child.judge reply = .ok () ∧ reply = .ok (.exited child.signature)
      ∨ (∃ message, child.judge reply = .error (.failure message))
        ∧ reply ≠ .ok (.exited child.signature) := by
  cases reply with
  | error error => exact .inr ⟨⟨_, rfl⟩, nofun⟩
  | ok status =>
      cases status with
      | faulted => exact .inr ⟨⟨_, rfl⟩, nofun⟩
      | exited code =>
          by_cases same : code = child.signature
          · exact .inl ⟨if_pos same, by rw [same]⟩
          · refine .inr ⟨⟨_, if_neg same⟩, fun equal => same ?_⟩
            cases equal
            rfl

variable {allowed : List Exchange → Syscall → Prop} {job : Job} {child : Child}

theorem upholds_tryStart {result : List Exchange → Option Child × Spawner → Prop}
    (allows : allowed past (.exec job.program job.argv))
    (starts : ∀ pid,
      result (past ++ [⟨.exec job.program job.argv, .ok pid⟩])
        (some ⟨pid, job.signature, spawner.nextOrder⟩, spawner.noteSpawned))
    (refuses : ∀ error,
      result (past ++ [⟨.exec job.program job.argv, .error error⟩]) (none, spawner.noteRefusal))
    : (tryStart job spawner).Upholds allowed result past := by
  refine ⟨allows, fun reply => ?_⟩
  cases reply with
  | ok pid => exact starts pid
  | error error => exact refuses error

theorem upholds_retire {result : List Exchange → Except Violation Unit × Spawner → Prop}
    (allows : allowed past (.join child.pid))
    (retires
      : result (past ++ [⟨.join child.pid, .ok (.exited child.signature)⟩])
          (.ok (), spawner.noteRetired child))
    (stops : ∀ reply message,
      reply ≠ .ok (.exited child.signature)
      → result (past ++ [⟨.join child.pid, reply⟩]) (.error (.failure message), spawner))
    : (retire child spawner).Upholds allowed result past := by
  refine Prog.upholds_bind.mpr ⟨allows, fun reply => ?_⟩
  rcases judge_cases child reply with ⟨judged, rfl⟩ | ⟨⟨message, judged⟩, wrong⟩
  · simp only [Prog.Upholds, judged]
    exact retires
  · simp only [Prog.Upholds, judged]
    exact stops reply message wrong

-----------------------------------------------------------------------------------------
-- Issuing jobs
-----------------------------------------------------------------------------------------

/-- What a spawner comes to that has started its jobs up to a number of them, with some slack in
what it has retired.
-/
def Issued (capacity : Nat) (jobs : List Job) (number : Nat) (past : List Exchange)
    : Except Violation Unit × Spawner → Prop
  | (.ok (), spawner) =>
      Tracks jobs past spawner
      ∧ (started past).length = number
      ∧ (Served capacity jobs past → Paced capacity 0 spawner.report)
  | (.error violation, _) => Stopped capacity jobs past violation

/-- The spawner is allowed to join its oldest child, and a join that does not give its signature was
not served.
-/
theorem Tracks.join (tracks : Tracks jobs past spawner) {oldest : Child} {rest : List Child}
    (queue : spawner.outstanding = oldest :: rest) (capacity : Nat)
    : Calls jobs past (.join oldest.pid)
      ∧ ∀ reply,
          Answered capacity jobs past ⟨.join oldest.pid, reply⟩
          → reply = .ok (.exited oldest.signature) := by
  obtain ⟨job, pid, found, signature, -⟩ := children_getElem? (tracks.oldest queue).1
  refine ⟨?_, fun reply answered => ?_⟩
  · rw [Calls, head?_unjoined, pid]
  · obtain ⟨other, same, rfl⟩ := answered
    rw [found] at same
    cases same
    rw [signature]

/-- The counts of a report are those of the exchanges. -/
theorem Tracks.counts (tracks : Tracks jobs past spawner)
    : spawner.report.spawned = (started past).length
      ∧ spawner.report.retired = (joined past).length
      ∧ spawner.report.refusals = refusals past
      ∧ spawner.outstanding.length = (started past).length - (joined past).length := by
  refine ⟨congrArg Report.spawned tracks.report, congrArg Report.retired tracks.report,
    congrArg Report.refusals tracks.report, ?_⟩
  rw [tracks.queue, List.length_drop, length_children tracks.issued]

theorem Tracks.allowed_start (tracks : Tracks jobs past spawner)
    (next : jobs[(started past).length]? = some job)
    (paced : Served capacity jobs past → Paced capacity 1 spawner.report)
    : Allowed capacity jobs past (.exec job.program job.argv) := by
  refine ⟨⟨job, next, rfl, rfl⟩, fun served => ?_⟩
  have more : (started past).length < jobs.length := (List.getElem?_eq_some_iff.mp next).1
  obtain ⟨even, behind, ahead, -, -⟩ := paced served
  obtain ⟨spawned, retired, refused, -⟩ := tracks.counts
  have calls := tracks.calls
  unfold mostCalls
  omega

/-- A start that succeeds leaves no slack, as it was served only below the capacity. -/
theorem Tracks.issued_start (tracks : Tracks jobs past spawner)
    (next : jobs[(started past).length]? = some job)
    (paced : Served capacity jobs past → Paced capacity 1 spawner.report) (pid : Pid)
    : Issued capacity jobs ((started past).length + 1)
        (past ++ [⟨.exec job.program job.argv, .ok pid⟩])
        (.ok (), spawner.noteSpawned.enqueue ⟨pid, job.signature, spawner.nextOrder⟩) := by
  refine ⟨tracks.start next pid, by simp [Exchange.started?], fun served => ?_⟩
  obtain ⟨served, room⟩ := throughout_snoc.mp served
  have room : (unjoined past).length < capacity := room
  rw [length_unjoined] at room
  obtain ⟨even, behind, ahead, peak, -⟩ := paced served
  obtain ⟨spawned, retired, -, outstanding⟩ := tracks.counts
  constructor <;> simp only [enqueue, noteSpawned, List.length_append, List.length_singleton]
  · exact even
  · omega
  · omega
  · omega
  · omega

/-- A start that is refused while no child can be joined stops the spawner. -/
theorem Tracks.stopped_start (tracks : Tracks jobs past spawner)
    (next : jobs[(started past).length]? = some job) (idle : spawner.outstanding = [])
    (paced : Served capacity jobs past → Paced capacity 1 spawner.report) (error : Errno)
    (message : String)
    : Stopped capacity jobs (past ++ [⟨.exec job.program job.argv, .error error⟩])
        (.failure message) := by
  refine ⟨⟨message, rfl⟩, fun served => ?_⟩
  obtain ⟨served, full⟩ := throughout_snoc.mp served
  have full : (unjoined past).length = capacity := full
  rw [length_unjoined] at full
  obtain ⟨spawned, -, -, outstanding⟩ := tracks.counts
  rw [idle, List.length_nil] at outstanding
  have none : ¬0 < spawner.report.spawned := fun some => by
    have room := (paced served).room some
    omega
  have nothing : started past = [] := List.length_eq_zero_iff.mp (by omega)
  refine ⟨by omega, ?_, by simpa [Exchange.started?] using nothing⟩
  rintro rfl
  cases next

/-- A start that is refused while children are outstanding leaves room for more calls, and there is
slack after the next join.
-/
theorem Tracks.refused_start (tracks : Tracks jobs past spawner) (child : Child)
    (next : jobs[(started past).length]? = some job)
    (paced : Served capacity jobs past → Paced capacity 1 spawner.report) {error : Errno}
    (served : Served capacity jobs (past ++ [⟨.exec job.program job.argv, .error error⟩]))
    : past.length + 1 < mostCalls capacity jobs
      ∧ Paced capacity 1 (spawner.noteRefusal.noteRetired child).report := by
  have more : (started past).length < jobs.length := (List.getElem?_eq_some_iff.mp next).1
  obtain ⟨served, full⟩ := throughout_snoc.mp served
  have full : (unjoined past).length = capacity := full
  rw [length_unjoined] at full
  obtain ⟨even, behind, ahead, peak, room⟩ := paced served
  obtain ⟨spawned, retired, refused, -⟩ := tracks.counts
  have calls := tracks.calls
  have within := tracks.retired
  refine ⟨by unfold mostCalls; omega, ?_⟩
  constructor <;> simp only [noteRetired, noteRefusal]
  · exact congrArg (· + 1) even
  · omega
  · omega
  · exact peak
  · exact room

/-- A job is started after as many joins as it takes, by induction on the children that
can be joined.
-/
theorem upholds_issueFrom {queue : List Child} (tracks : Tracks jobs past spawner)
    (next : jobs[(started past).length]? = some job) (same : spawner.outstanding = queue)
    (paced : Served capacity jobs past → Paced capacity 1 spawner.report)
    : (issueFrom job queue spawner).Upholds (Allowed capacity jobs)
        (Issued capacity jobs ((started past).length + 1)) past := by
  induction queue generalizing past spawner with
  | nil =>
      rw [issueFrom]
      refine Prog.upholds_bind.mpr (upholds_tryStart (tracks.allowed_start next paced) ?_ ?_)
      · exact tracks.issued_start next paced
      · exact fun error => tracks.stopped_start next same paced error _
  | cons oldest rest ih =>
      rw [issueFrom]
      refine Prog.upholds_bind.mpr (upholds_tryStart (tracks.allowed_start next paced) ?_ ?_)
      · exact tracks.issued_start next paced
      · intro error
        have refused := tracks.refuse job.program job.argv error
        have queue : spawner.noteRefusal.outstanding = oldest :: rest := same
        obtain ⟨calls, answers⟩ := refused.join queue capacity
        refine Prog.upholds_bind.mpr (upholds_retire ⟨calls, fun served => ?_⟩ ?_ ?_)
        · rw [List.length_append]
          exact (tracks.refused_start oldest next paced served).1
        · have starts
              : started (past ++ [⟨.exec job.program job.argv, .error error⟩]
                  ++ [⟨.join oldest.pid, .ok (.exited oldest.signature)⟩])
                = started past := by
            simp only [started_snoc, Exchange.started?, Option.toList_none, List.append_nil]
          have again := ih (refused.retire queue) (starts ▸ next) rfl
            fun served => (tracks.refused_start oldest next paced (throughout_snoc.mp served).1).2
          rwa [starts] at again
        · intro reply message wrong
          refine ⟨⟨message, rfl⟩, fun served => absurd ?_ wrong⟩
          exact answers reply (throughout_snoc.mp served).2

theorem Paced.slack {report : Report} (paced : Paced capacity 0 report)
    : Paced capacity 1 report where
  even := paced.even
  behind := paced.behind
  ahead := by
    have ahead := paced.ahead
    omega
  peak := paced.peak
  room := paced.room

/-- All jobs are started unless the spawner is stopped, by induction on those that are left. -/
theorem upholds_issueAll {rest : List Job} (tracks : Tracks jobs past spawner)
    (left : jobs.drop (started past).length = rest)
    (paced : Served capacity jobs past → Paced capacity 0 spawner.report)
    : (issueAll rest spawner).Upholds (Allowed capacity jobs) (Issued capacity jobs jobs.length)
        past := by
  induction rest generalizing past spawner with
  | nil =>
      have issued := tracks.issued
      have none := List.drop_eq_nil_iff.mp left
      exact ⟨tracks, by omega, paced⟩
  | cons job rest ih =>
      have next : jobs[(started past).length]? = some job := by
        rw [← List.head?_drop, left]
        rfl
      have onward : jobs.drop ((started past).length + 1) = rest := by
        rw [← List.tail_drop, left]
        rfl
      refine Prog.upholds_bind.mpr (Prog.Upholds.mono
        (upholds_issueFrom tracks next rfl fun served => (paced served).slack) (fun _ _ => id) ?_)
      rintro past ⟨⟨violation⟩ | ⟨⟨⟩⟩, spawner⟩ issued
      · exact issued
      · obtain ⟨tracks, number, paced⟩ := issued
        exact ih tracks (number ▸ onward) paced

-----------------------------------------------------------------------------------------
-- Retiring the children
-----------------------------------------------------------------------------------------

/-- The counts of a spawner that has started all its jobs, if it is served. -/
structure Drained (capacity : Nat) (jobs : List Job) (report : Report) : Prop where
  refusals : report.refusals = jobs.length - capacity
  peak : report.peakOutstanding = min jobs.length capacity
  room : 0 < jobs.length → 0 < capacity

/-- What a spawner comes to that has joined all its children. -/
def Emptied (capacity : Nat) (jobs : List Job) (past : List Exchange)
    : Except Violation Unit × Spawner → Prop
  | (.ok (), spawner) =>
      Tracks jobs past spawner
      ∧ (started past).length = jobs.length
      ∧ (joined past).length = jobs.length
      ∧ (Served capacity jobs past → Drained capacity jobs spawner.report)
  | (.error violation, _) => Stopped capacity jobs past violation

/-- All children are joined unless the spawner is stopped, by induction on its queue. -/
theorem upholds_joinFrom {queue : List Child} (tracks : Tracks jobs past spawner)
    (whole : (started past).length = jobs.length) (same : spawner.outstanding = queue)
    (drained : Served capacity jobs past → Drained capacity jobs spawner.report)
    : (joinFrom queue spawner).Upholds (Allowed capacity jobs) (Emptied capacity jobs) past := by
  have outstanding := tracks.counts.2.2.2
  have within := tracks.retired
  induction queue generalizing past spawner with
  | nil =>
      rw [same, List.length_nil] at outstanding
      exact ⟨tracks, whole, by omega, drained⟩
  | cons oldest rest ih =>
      rw [same, List.length_cons] at outstanding
      obtain ⟨calls, answers⟩ := tracks.join same capacity
      rw [joinFrom]
      refine Prog.upholds_bind.mpr (upholds_retire ⟨calls, fun served => ?_⟩ ?_ ?_)
      · have refused := (drained served).refusals
        rw [tracks.counts.2.2.1] at refused
        have made := tracks.calls
        unfold mostCalls
        omega
      · have after := tracks.retire same
        refine ih after ?_ rfl ?_ after.counts.2.2.2 after.retired
        · simpa [Exchange.started?] using whole
        · intro served
          obtain ⟨refused, peak, room⟩ := drained (throughout_snoc.mp served).1
          exact ⟨refused, peak, room⟩
      · intro reply message wrong
        refine ⟨⟨message, rfl⟩, fun served => absurd ?_ wrong⟩
        exact answers reply (throughout_snoc.mp served).2

/-- The report of a spawner that was served, with room for a number of children. -/
def fullReport (capacity : Nat) (jobs : List Job) : Report :=
  ⟨jobs.length, jobs.length, jobs.length - capacity, min jobs.length capacity,
    List.range jobs.length⟩

/-- What a spawner has come to with a report: it has started and joined a child for each job, and
all have exited with their signatures.
-/
structure Concluded (capacity : Nat) (jobs : List Job) (past : List Exchange) (report : Report)
    : Prop where
  started : (started past).length = jobs.length
  joined : (joined past).length = jobs.length
  begun : Begun jobs past
  exited
    : ∀ child ∈ children (KernelConformance.started past) jobs,
        ⟨.join child.pid, .ok (.exited child.signature)⟩ ∈ past
  served
    : Served capacity jobs past
      → report = fullReport capacity jobs ∧ (0 < jobs.length → 0 < capacity)

/-- A spawner whose jobs are issued concludes with its report, or is stopped. -/
theorem upholds_conclude {issued : Prog (Except Violation Unit × Spawner)}
    (upholds : issued.Upholds (Allowed capacity jobs) (Issued capacity jobs jobs.length) [])
    : (conclude issued).Upholds (Allowed capacity jobs) (Concluded capacity jobs)
        (fun past stop => ∃ violation,
          stop = .violation violation ∧ Stopped capacity jobs past violation)
        [] := by
  refine Check.upholds_bind.mpr (Check.upholds_lift.mpr (upholds.mono (fun _ _ => id) ?_))
  rintro past ⟨⟨violation⟩ | ⟨⟨⟩⟩, spawner⟩ issued
  · exact ⟨violation, rfl, issued⟩
  · obtain ⟨tracks, whole, paced⟩ := issued
    refine Check.upholds_bind.mpr (Check.upholds_pure.mpr ?_)
    refine Check.upholds_bind.mpr (Check.upholds_lift.mpr (Prog.Upholds.mono
      (upholds_joinFrom tracks whole rfl ?_) (fun _ _ => id) ?_))
    · intro served
      obtain ⟨even, behind, ahead, peak, room⟩ := paced served
      rw [tracks.counts.1, whole] at behind ahead peak room
      exact ⟨by omega, peak, room⟩
    · rintro past ⟨⟨violation⟩ | ⟨⟨⟩⟩, spawner⟩ emptied
      · exact ⟨violation, rfl, emptied⟩
      · obtain ⟨tracks, starts, joins, drained⟩ := emptied
        refine ⟨starts, joins, tracks.begun, ?_, fun served => ?_⟩
        · intro child member
          have all : (children (started past) jobs).length = (joined past).length := by
            rw [length_children tracks.issued, starts, joins]
          apply tracks.exited
          rwa [List.take_of_length_le (Nat.le_of_eq all)]
        · obtain ⟨refused, peak, room⟩ := drained served
          refine ⟨?_, room⟩
          rw [tracks.counts.2.2.1] at refused
          rw [tracks.report, peak, refused, starts, joins, fullReport]

/-- What holds of a spawner that runs some jobs, whatever the replies are. -/
theorem upholds_runJobs (capacity : Nat) (jobs : List Job)
    : (runJobs jobs).Upholds (Allowed capacity jobs) (Concluded capacity jobs)
        (fun past stop => ∃ violation,
          stop = .violation violation ∧ Stopped capacity jobs past violation)
        [] := by
  refine upholds_conclude (upholds_issueAll (tracks_empty jobs) rfl fun _ => ?_)
  exact ⟨rfl, Nat.le_of_eq (Nat.zero_sub _), Nat.zero_le _, (Nat.zero_min _).symm,
    fun some => absurd some (Nat.lt_irrefl 0)⟩

end Spawner

end KernelConformance
