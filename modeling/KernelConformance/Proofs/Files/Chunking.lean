import KernelConformance.Proofs.Files.WriteLog
import Mathlib.Data.List.TakeDrop

/-! Files that are written and read in parts. However bytes are divided among the writes of a
descriptor, and whatever the reads of another one ask for, what is read is what was written, up to
where the reads have come.
-/

namespace KernelConformance

open Utf8 (Bytes)

-----------------------------------------------------------------------------------------
-- What is done through a descriptor
-----------------------------------------------------------------------------------------

namespace Deed

/-- Whether a deed is a read or a write of a descriptor. -/
def uses (pid : Pid) (fd : Fd) : Deed → Bool
  | call caller (.read through _) _ | call caller (.write through _) _ =>
      caller = pid && through = fd
  | _ => false

/-- The bytes that a deed writes through a descriptor. -/
def chunk? (pid : Pid) (fd : Fd) : Deed → Option Bytes
  | call caller (.write through bytes) _ => if caller = pid ∧ through = fd then some bytes else none
  | _ => none

/-- How many bytes a deed asks a descriptor for. -/
def room? (pid : Pid) (fd : Fd) : Deed → Option Nat
  | call caller (.read through room) _ => if caller = pid ∧ through = fd then some room else none
  | _ => none

/-- The bytes that a deed gets from a descriptor. -/
def delivered? (pid : Pid) (fd : Fd) : Deed → Option Bytes
  | call caller (.read through _) (some (.ok delivery)) =>
      if caller = pid ∧ through = fd then some delivery.bytes else none
  | _ => none

end Deed

/-- All bytes that some deeds write through a descriptor, in order. -/
def bytesSent (pid : Pid) (fd : Fd) (deeds : List Deed) : Bytes :=
  (deeds.filterMap (Deed.chunk? pid fd)).flatten

/-- How many bytes some deeds ask a descriptor for. -/
def bytesAsked (pid : Pid) (fd : Fd) : List Deed → Nat
  | [] => 0
  | deed :: deeds => (deed.room? pid fd).getD 0 + bytesAsked pid fd deeds

/-- All bytes that some deeds get from a descriptor, in order. -/
def bytesReceived (pid : Pid) (fd : Fd) (deeds : List Deed) : Bytes :=
  (deeds.filterMap (Deed.delivered? pid fd)).flatten

section

variable {pid : Pid} {fd : Fd} {deed : Deed}

theorem bytesSent_snoc (deeds : List Deed)
    : bytesSent pid fd (deeds ++ [deed])
      = bytesSent pid fd deeds ++ (deed.chunk? pid fd).getD [] := by
  rw [bytesSent, filterMap_snoc, List.flatten_append]
  cases deed.chunk? pid fd <;> simp [bytesSent]

theorem bytesAsked_snoc (deeds : List Deed)
    : bytesAsked pid fd (deeds ++ [deed])
      = bytesAsked pid fd deeds + (deed.room? pid fd).getD 0 := by
  induction deeds with
  | nil => exact Nat.add_comm _ _
  | cons first deeds ih => rw [List.cons_append, bytesAsked, ih, bytesAsked, Nat.add_assoc]

theorem bytesReceived_snoc (deeds : List Deed)
    : bytesReceived pid fd (deeds ++ [deed])
      = bytesReceived pid fd deeds ++ (deed.delivered? pid fd).getD [] := by
  rw [bytesReceived, filterMap_snoc, List.flatten_append]
  cases deed.delivered? pid fd <;> simp [bytesReceived]

/-- A deed that does not use a descriptor moves no bytes through it. -/
theorem Deed.idle_of_not_uses (unused : deed.uses pid fd = false)
    : deed.chunk? pid fd = none
      ∧ deed.room? pid fd = none
      ∧ deed.delivered? pid fd = none
      ∧ Kernel.distance pid fd deed.fdEvent? = 0 := by
  refine ⟨?_, ?_, ?_, ?_⟩
  · unfold chunk?
    split
    · exact if_neg (by simpa [uses] using unused)
    · rfl
  · unfold room?
    split
    · exact if_neg (by simpa [uses] using unused)
    · rfl
  · unfold delivered?
    split
    · exact if_neg (by simpa [uses] using unused)
    · rfl
  · unfold fdEvent?
    split <;> simp_all [Kernel.distance, uses]

end

/-- Bytes that are written at the end are put behind those that are there. -/
theorem overlay_end (bytes data : Bytes) : overlay data.length bytes data = data ++ bytes := by
  simp [overlay]

theorem length_slice (offset room : Nat) (data : Bytes)
    : (slice offset room data).length = min room (data.length - offset) := by
  rw [slice, List.length_take, List.length_drop]

/-- What is read from an offset goes on with what is before it. -/
theorem take_append_slice (offset room : Nat) (data : Bytes)
    : data.take offset ++ slice offset room data
      = data.take (offset + (slice offset room data).length) := by
  rw [List.take_add, length_slice, slice, List.append_cancel_left_eq, List.take_eq_take_iff,
    List.length_drop]
  omega

/-- A file that has been created is empty, whether it is new or not. -/
theorem FileSystem.Step.emptied {files after : FileSystem} {fds : Pid → Descriptors} {name : String}
    {inode : Inode} (step : files.Step fds (some (.created name)) after)
    (named : after.names.get? name = some inode)
    : after.data inode = [] := by
  cases step with
  | bind =>
      rw [names_bind, if_pos rfl] at named
      cases named
      rw [data_bind, if_pos rfl]
  | empty found =>
      cases found.symm.trans named
      rw [data_setData, if_pos rfl]

namespace Kernel

/-- Whether a deed touches the file with a name: it takes the name from it, or changes its bytes. -/
def Touches (kernel : Kernel) (name : String) (deed : Deed) : Prop :=
  FileSystem.Severs name deed.fileEvent?
  ∨ ∃ inode change,
      kernel.files.names.get? name = some inode
      ∧ kernel.change? deed = some (inode, change)

/-- Deeds one after the other of which only those of one kind touch the file with a name. -/
inductive TouchedBy (name : String) (own : Deed → Prop) : Kernel → List Deed → Kernel → Prop where
  | nil {kernel} : TouchedBy name own kernel [] kernel
  | cons {kernel deed middle deeds after} (step : kernel.Step deed middle)
    (alone : kernel.Touches name deed → own deed)
    (rest : TouchedBy name own middle deeds after)
    : TouchedBy name own kernel (deed :: deeds) after

variable {config : Config} {deeds since : List Deed} {kernel after : Kernel} {deed : Deed}
  {pid : Pid} {fd : Fd} {name : String} {inode : Inode} {own : Deed → Prop}

-----------------------------------------------------------------------------------------
-- What one deed does
-----------------------------------------------------------------------------------------

/-- A deed that reads or writes a descriptor of a file gets what there is at its offset, or puts all
its bytes.
-/
theorem Step.uses_cases {offset : Nat} (step : kernel.Step deed after)
    (held : (kernel.fds pid).get? fd = some (.file inode offset))
    : (∃ bytes, deed = .call pid (.write fd bytes) (some (.ok bytes.length)))
      ∨ (∃ room,
          deed = .call pid (.read fd room)
            (some (.ok (.of (slice offset room (kernel.files.data inode))))))
      ∨ deed.uses pid fd = false := by
  have elsewhere {caller : Pid} {through : Fd} (other : ¬(caller = pid ∧ through = fd))
      : (caller = pid && through = fd) = false := by
    simpa using other
  cases step with
  | @call caller c reply _ runs done =>
      cases c with
      | read through room =>
          by_cases here : caller = pid ∧ through = fd
          · obtain ⟨rfl, rfl⟩ := here
            obtain ⟨_, read⟩ := call_read held room
            cases done.symm.trans read
            exact .inr (.inl ⟨room, rfl⟩)
          · exact .inr (.inr (elsewhere here))
      | write through bytes =>
          by_cases here : caller = pid ∧ through = fd
          · obtain ⟨rfl, rfl⟩ := here
            obtain ⟨_, written, -⟩ := call_write held bytes
            cases done.symm.trans written
            exact .inl ⟨bytes, rfl⟩
          · exact .inr (.inr (elsewhere here))
      | _ => exact .inr (.inr rfl)
  | @callBlocked caller c runs blocked =>
      cases c with
      | read through room =>
          refine .inr (.inr (elsewhere fun here => ?_))
          obtain ⟨rfl, rfl⟩ := here
          obtain ⟨_, read⟩ := call_read held room
          cases blocked.symm.trans read
      | write through bytes =>
          refine .inr (.inr (elsewhere fun here => ?_))
          obtain ⟨rfl, rfl⟩ := here
          obtain ⟨_, written, -⟩ := call_write held bytes
          cases blocked.symm.trans written
      | _ => exact .inr (.inr rfl)
  | _ => exact .inr (.inr rfl)

theorem not_touches_of_silent (silent : deed.fileEvent? = none) : ¬kernel.Touches name deed := by
  simp [Touches, FileSystem.Severs, Kernel.change?, FileSystem.change?, silent]

/-- A file that a deed does not touch keeps its name and its bytes. -/
theorem Step.untouched (step : kernel.Step deed after)
    (named : kernel.files.names.get? name = some inode) (apart : ¬kernel.Touches name deed)
    : after.files.names.get? name = some inode
      ∧ after.files.data inode = kernel.files.data inode := by
  refine ⟨step.files.name_kept named fun severs => apart (.inl severs), ?_⟩
  by_contra differs
  obtain ⟨change, changed⟩ := step.files.changed differs
  exact apart (.inr ⟨inode, change, named, changed⟩)

/-- A write of a descriptor of a file is laid over the file at the offset of the descriptor. -/
theorem Step.data_of_write {offset count : Nat} {bytes : Bytes}
    (step : kernel.Step (.call pid (.write fd bytes) (some (.ok count))) after)
    (held : (kernel.fds pid).get? fd = some (.file inode offset))
    : after.files.data inode = overlay offset bytes (kernel.files.data inode) := by
  have patched
      : kernel.files.change? kernel.fds
          (Deed.call pid (.write fd bytes) (some (.ok count))).fileEvent?
        = some (inode, .patched ⟨offset, bytes⟩) := by
    simp [Deed.fileEvent?, FileSystem.change?, held]
  rw [step.files.data_eq, patched, Option.toList_some, changesOf_singleton, if_pos rfl]
  rfl

theorem distance_write (pid : Pid) (fd : Fd) (bytes : Bytes) (count : Nat)
    : distance pid fd (Deed.call pid (.write fd bytes) (some (.ok count))).fdEvent? = count :=
  if_pos ⟨rfl, rfl⟩

theorem distance_read (pid : Pid) (fd : Fd) (room : Nat) (bytes : Bytes)
    : distance pid fd (Deed.call pid (.read fd room) (some (.ok (.of bytes)))).fdEvent?
      = bytes.length :=
  if_pos ⟨rfl, rfl⟩

-----------------------------------------------------------------------------------------
-- Writes in parts
-----------------------------------------------------------------------------------------

/-- A descriptor since the creation of its file: the file has what was sent through it, and it
stands at the end.
-/
structure Sending (kernel : Kernel) (pid : Pid) (fd : Fd) (name : String) (since : List Deed)
    (inode : Inode)
    : Prop where
  leads : kernel.Leads pid fd name since inode
  named : kernel.files.names.get? name = some inode
  data : kernel.files.data inode = bytesSent pid fd since
  reached : travelled pid fd since = (bytesSent pid fd since).length

theorem sending_of_creat (run : Run config deeds kernel)
    (creates : kernel.Step (.call pid (.creat name) (some (.ok fd))) after)
    : ∃ inode, after.Sending pid fd name [] inode := by
  have opened
      : (Deed.call pid (.creat name) (some (.ok fd))).fdEvent? = some (pid, .opened fd name) :=
    rfl
  obtain ⟨inode, leads⟩ := leads_of_opened run.tidy run creates opened
  have named := leads.linked (by simp [Severed])
  exact ⟨inode, leads, named, creates.files.emptied named, rfl⟩

/-- What is sent next is put behind what was sent before, and nothing else changes the file. -/
theorem Sending.step (sending : kernel.Sending pid fd name since inode)
    (run : Run config deeds kernel) (step : kernel.Step deed after)
    (alone : kernel.Touches name deed → (deed.chunk? pid fd).isSome)
    (kept : ¬Releases pid fd deed.fdEvent?)
    : after.Sending pid fd name (since ++ [deed]) inode := by
  have leads := sending.leads.step run.tidy run step kept
  have untouched (silent : deed.chunk? pid fd = none) :=
    step.untouched sending.named fun touches => by simpa [silent] using alone touches
  rcases step.uses_cases sending.leads.held with ⟨bytes, rfl⟩ | ⟨room, rfl⟩ | unused
  · have chunk
        : (Deed.call pid (.write fd bytes) (some (.ok bytes.length))).chunk? pid fd = some bytes :=
      if_pos ⟨rfl, rfl⟩
    refine ⟨leads, step.files.name_kept sending.named nofun, ?_, ?_⟩
    · rw [step.data_of_write sending.leads.held, sending.data, sending.reached, overlay_end,
        bytesSent_snoc, chunk, Option.getD_some]
    · rw [travelled_snoc, distance_write, sending.reached, bytesSent_snoc, chunk, Option.getD_some,
        List.length_append]
  -- the descriptor stands at the end, where nothing is read
  · obtain ⟨named, data⟩ := untouched rfl
    have nothing : slice (travelled pid fd since) room (kernel.files.data inode) = [] := by
      rw [sending.data, sending.reached, slice, List.drop_length, List.take_nil]
    refine ⟨leads, named, ?_, ?_⟩
    · rw [data, sending.data, bytesSent_snoc]
      exact (List.append_nil _).symm
    · rw [travelled_snoc, distance_read, nothing, sending.reached, bytesSent_snoc]
      exact congrArg List.length (List.append_nil _).symm
  · obtain ⟨silent, -, -, still⟩ := Deed.idle_of_not_uses unused
    obtain ⟨named, data⟩ := untouched silent
    refine ⟨leads, named, ?_, ?_⟩
    · rw [data, sending.data, bytesSent_snoc, silent]
      simp
    · rw [travelled_snoc, still, sending.reached, bytesSent_snoc, silent]
      simp

/-- All that is sent is put in its order, by induction on the deeds. -/
theorem Sending.steps {created written : Kernel} {writes : List Deed}
    (sending : created.Sending pid fd name since inode) (run : Run config deeds created)
    (writing : TouchedBy name (fun deed => (deed.chunk? pid fd).isSome) created writes written)
    (kept : ∀ deed ∈ writes, ¬Releases pid fd deed.fdEvent?)
    : written.Sending pid fd name (since ++ writes) inode := by
  induction writing generalizing deeds since with
  | nil => simpa using sending
  | cons step alone _ ih =>
      obtain ⟨first, rest⟩ := List.forall_mem_cons.mp kept
      simpa using ih (sending.step run step alone first) (run.step step) rest

theorem Sending.reply {bytes : Bytes} {reply : Option (Except Errno Nat)}
    (sending : kernel.Sending pid fd name since inode)
    (step : kernel.Step (.call pid (.write fd bytes) reply) after)
    : reply = some (.ok bytes.length) := by
  rcases step.uses_cases sending.leads.held with ⟨same, written⟩ | ⟨room, same⟩ | unused
  · cases written
    rfl
  · cases same
  · simp [Deed.uses] at unused

-----------------------------------------------------------------------------------------
-- Reads in parts
-----------------------------------------------------------------------------------------

/-- A descriptor since the opening of its file, which has the same bytes all the time: it has got
those in front of where it stands.
-/
structure Receiving (kernel : Kernel) (pid : Pid) (fd : Fd) (name : String) (whole : Bytes)
    (since : List Deed) (inode : Inode)
    : Prop where
  leads : kernel.Leads pid fd name since inode
  named : kernel.files.names.get? name = some inode
  data : kernel.files.data inode = whole
  got : bytesReceived pid fd since = whole.take (travelled pid fd since)
  reached : travelled pid fd since = min (bytesAsked pid fd since) whole.length

theorem receiving_of_open {whole : Bytes} (run : Run config deeds kernel)
    (opens : kernel.Step (.call pid (.openFile name) (some (.ok fd))) after)
    (named : kernel.files.names.get? name = some inode) (data : kernel.files.data inode = whole)
    : after.Receiving pid fd name whole [] inode := by
  have opened
      : (Deed.call pid (.openFile name) (some (.ok fd))).fdEvent? = some (pid, .opened fd name) :=
    rfl
  obtain ⟨found, leads⟩ := leads_of_opened run.tidy run opens opened
  have still := opens.files.name_kept named nofun
  obtain rfl := Option.some.inj (still.symm.trans (leads.linked (by simp [Severed])))
  refine ⟨leads, still, ?_, rfl, (Nat.zero_min _).symm⟩
  rw [opens.files.data_eq, data]
  rfl

/-- What is read next goes on with what was read before, and nothing changes the file. -/
theorem Receiving.step {whole : Bytes} (receiving : kernel.Receiving pid fd name whole since inode)
    (run : Run config deeds kernel) (step : kernel.Step deed after)
    (apart : ¬kernel.Touches name deed) (kept : ¬Releases pid fd deed.fdEvent?)
    : after.Receiving pid fd name whole (since ++ [deed]) inode := by
  have leads := receiving.leads.step run.tidy run step kept
  obtain ⟨named, data⟩ := step.untouched receiving.named apart
  rw [receiving.data] at data
  rcases step.uses_cases receiving.leads.held with ⟨bytes, rfl⟩ | ⟨room, rfl⟩ | unused
  -- even an empty write would touch the file
  · exact absurd
      (.inr ⟨inode, _, receiving.named, receiving.leads.change? bytes bytes.length⟩) apart
  · rw [receiving.data] at leads ⊢
    generalize read : slice (travelled pid fd since) room whole = bytes at leads ⊢
    have moved := distance_read pid fd room bytes
    have delivered
        : (Deed.call pid (.read fd room) (some (.ok (.of bytes)))).delivered? pid fd = some bytes :=
      if_pos ⟨rfl, rfl⟩
    have asks
        : (Deed.call pid (.read fd room) (some (.ok (.of bytes)))).room? pid fd = some room :=
      if_pos ⟨rfl, rfl⟩
    have length := length_slice (travelled pid fd since) room whole
    rw [read] at length
    refine ⟨leads, named, data, ?_, ?_⟩
    · rw [bytesReceived_snoc, delivered, Option.getD_some, travelled_snoc, moved, receiving.got,
        ← read, take_append_slice]
    · have reached := receiving.reached
      rw [travelled_snoc, moved, bytesAsked_snoc, asks, Option.getD_some]
      omega
  · obtain ⟨-, roomless, silent, still⟩ := Deed.idle_of_not_uses unused
    refine ⟨leads, named, data, ?_, ?_⟩
    · rw [bytesReceived_snoc, silent, travelled_snoc, still, receiving.got]
      simp
    · rw [travelled_snoc, still, bytesAsked_snoc, roomless, receiving.reached]
      simp

/-- All that is read is got in its order, by induction on the deeds. -/
theorem Receiving.steps {opened after : Kernel} {whole : Bytes} {reads : List Deed}
    (receiving : opened.Receiving pid fd name whole since inode) (run : Run config deeds opened)
    (reading : TouchedBy name (fun _ => False) opened reads after)
    (kept : ∀ deed ∈ reads, ¬Releases pid fd deed.fdEvent?)
    : after.Receiving pid fd name whole (since ++ reads) inode := by
  induction reading generalizing deeds since with
  | nil => simpa using receiving
  | cons step alone _ ih =>
      obtain ⟨first, rest⟩ := List.forall_mem_cons.mp kept
      simpa using ih (receiving.step run step alone first) (run.step step) rest

/-- A read gets none of the bytes only if it asks for none or has got all before. -/
theorem Receiving.reply {whole : Bytes} {room : Nat} {reply : Option (Except Errno Delivery)}
    (receiving : kernel.Receiving pid fd name whole since inode)
    (step : kernel.Step (.call pid (.read fd room) reply) after)
    : ∃ bytes,
        reply = some (.ok (.of bytes))
        ∧ bytes.length ≤ room
        ∧ (0 < room → (bytes.length = 0 ↔ bytesReceived pid fd since = whole)) := by
  rcases step.uses_cases receiving.leads.held with ⟨bytes, same⟩ | ⟨_, same⟩ | unused
  · cases same
  · cases same
    have length := length_slice (travelled pid fd since) room whole
    have reached := receiving.reached
    rw [receiving.data]
    refine ⟨_, rfl, by omega, fun asks => ?_⟩
    rw [receiving.got, List.take_eq_self_iff]
    omega
  · simp [Deed.uses] at unused

-----------------------------------------------------------------------------------------
-- Files that are written and read
-----------------------------------------------------------------------------------------

theorem TouchedBy.steps (touched : TouchedBy name own kernel deeds after)
    : Steps kernel deeds after := by
  induction touched with
  | nil => exact .nil
  | cons step _ _ ih => exact .cons step ih

/-- Deeds before another one lead to where it is done, by induction on them. -/
theorem TouchedBy.split {front rest : List Deed}
    (touched : TouchedBy name own kernel (front ++ deed :: rest) after)
    : ∃ middle next, TouchedBy name own kernel front middle ∧ middle.Step deed next := by
  induction front generalizing kernel with
  | nil =>
      cases touched with
      | cons step _ _ => exact ⟨kernel, _, .nil, step⟩
  | cons first front ih =>
      cases touched with
      | cons step alone more =>
          obtain ⟨middle, next, before, last⟩ := ih more
          exact ⟨middle, next, .cons step alone before, last⟩

/-- A file that nothing touches keeps its contents, by induction on the deeds. -/
theorem TouchedBy.contents (touched : TouchedBy name (fun _ => False) kernel deeds after)
    (named : kernel.files.names.get? name = some inode)
    : after.files.names.get? name = some inode
      ∧ after.files.data inode = kernel.files.data inode := by
  induction touched with
  | nil => exact ⟨named, rfl⟩
  | cons step alone _ ih =>
      obtain ⟨still, data⟩ := step.untouched named alone
      rw [← data]
      exact ih still

/-- What comes of bytes that one descriptor writes in parts and another one reads in parts. Every
write and every read succeeds, and the next one would. The file has all the bytes, and those in
front are read. Only when all have been read does a read with room for some get none.
-/
structure Transfer (whole : Bytes) (name : String) (writer : Pid) (out : Fd) (writes : List Deed)
    (written : Kernel) (reader : Pid) (inp : Fd) (reads : List Deed) (after : Kernel)
    : Prop where
  wrote
    : ∀ bytes reply,
        .call writer (.write out bytes) reply ∈ writes → reply = some (.ok bytes.length)
  writable
    : ∀ bytes, ∃ next,
        written.Step (.call writer (.write out bytes) (some (.ok bytes.length))) next
  contents : written.files.contents? name = some whole
  kept : after.files.contents? name = some whole
  got : bytesReceived reader inp reads = whole.take (min (bytesAsked reader inp reads) whole.length)
  read
    : ∀ front room reply rest,
        reads = front ++ .call reader (.read inp room) reply :: rest
        → ∃ bytes,
            reply = some (.ok (.of bytes))
            ∧ bytes.length ≤ room
            ∧ (0 < room → (bytes.length = 0 ↔ bytesReceived reader inp front = whole))
  readable
    : ∀ room, ∃ bytes next,
        after.Step (.call reader (.read inp room) (some (.ok (.of bytes)))) next

/-- It does not matter in which parts a file is written and read. A process creates it, and what it
writes through its descriptor is all that touches the file from then on. Whoever opens the file
after that reads the same bytes, whatever else happens in between.
-/
theorem Run.chunks_immaterial {before writes idle reads : List Deed}
    {kernel created written ready opened after : Kernel} {writer reader : Pid} {out inp : Fd}
    {name : String} (run : Run config before kernel)
    (creates : kernel.Step (.call writer (.creat name) (some (.ok out))) created)
    (writing : TouchedBy name (fun deed => (deed.chunk? writer out).isSome) created writes written)
    (keeps : ∀ deed ∈ writes, ¬Releases writer out deed.fdEvent?)
    (idling : TouchedBy name (fun _ => False) written idle ready)
    (opens : ready.Step (.call reader (.openFile name) (some (.ok inp))) opened)
    (reading : TouchedBy name (fun _ => False) opened reads after)
    (holds : ∀ deed ∈ reads, ¬Releases reader inp deed.fdEvent?)
    : Transfer (bytesSent writer out writes) name writer out writes written reader
        inp reads after := by
  have start := run.step creates
  obtain ⟨inode, empty⟩ := sending_of_creat run creates
  have sending := empty.steps start writing keeps
  have stop := (start.extend writing.steps).extend idling.steps
  obtain ⟨named, data⟩ := idling.contents sending.named
  rw [sending.data, List.nil_append] at data
  have receiving := receiving_of_open stop opens named data
  have last := receiving.steps (stop.step opens) reading holds
  constructor
  · intro bytes reply member
    obtain ⟨front, rest, rfl⟩ := List.append_of_mem member
    obtain ⟨middle, next, already, step⟩ := writing.split
    have kept : ∀ deed ∈ front, ¬Releases writer out deed.fdEvent? :=
      fun deed member => keeps deed (List.mem_append_left _ member)
    exact (empty.steps start already kept).reply step
  · intro bytes
    obtain ⟨next, done, -⟩ := call_write sending.leads.held bytes
    exact ⟨next, .call sending.leads.runs done⟩
  · rw [FileSystem.contents?, sending.named, Option.map_some, sending.data, List.nil_append]
  · rw [FileSystem.contents?, last.named, Option.map_some, last.data]
  · have got := last.got
    rwa [last.reached, List.nil_append] at got
  · rintro front room reply rest rfl
    obtain ⟨middle, next, already, step⟩ := reading.split
    have kept : ∀ deed ∈ front, ¬Releases reader inp deed.fdEvent? :=
      fun deed member => holds deed (List.mem_append_left _ member)
    exact (receiving.steps (stop.step opens) already kept).reply step
  · intro room
    obtain ⟨next, done⟩ := call_read last.leads.held room
    exact ⟨_, next, .call last.leads.runs done⟩

/-- The deeds that start a process which will write a file and one which will read it. -/
def startingDeeds : List Deed :=
  [
    .register "p",
    .spawn "p" [] (.ok (.ofNat 1)),
    .spawn "p" [] (.ok (.ofNat 2))
  ]

/-- Three writes of a file, one of them empty, while the other process creates a file of its own. -/
def threeWrites : List Deed :=
  [
    .call (.ofNat 1) (.write ⟨2⟩ [1, 2]) (some (.ok 2)),
    .call (.ofNat 2) (.creat "b") (some (.ok ⟨2⟩)),
    .call (.ofNat 1) (.write ⟨2⟩ []) (some (.ok 0)),
    .call (.ofNat 1) (.write ⟨2⟩ [3]) (some (.ok 1))
  ]

/-- Four reads of the file: of nothing, of a part, of more than is left, and at its end. -/
def fourReads : List Deed :=
  [
    .call (.ofNat 2) (.read ⟨3⟩ 0) (some (.ok (.of []))),
    .call (.ofNat 2) (.read ⟨3⟩ 2) (some (.ok (.of [1, 2]))),
    .call (.ofNat 2) (.read ⟨3⟩ 5) (some (.ok (.of [3]))),
    .call (.ofNat 2) (.read ⟨3⟩ 1) (some (.ok (.of [])))
  ]

/-- A process writes a file in three parts and closes it, and another one reads all of it. -/
theorem chunks_immaterial_three
    : ∃ kernel created written ready opened after,
        Run .standard startingDeeds kernel
        ∧ kernel.Step (.call (.ofNat 1) (.creat "a") (some (.ok ⟨2⟩))) created
        ∧ TouchedBy "a" (fun deed => (deed.chunk? (.ofNat 1) ⟨2⟩).isSome) created
            threeWrites written
        ∧ TouchedBy "a" (fun _ => False) written
            [.call (.ofNat 1) (.close ⟨2⟩) (some (.ok ()))] ready
        ∧ ready.Step (.call (.ofNat 2) (.openFile "a") (some (.ok ⟨3⟩))) opened
        ∧ TouchedBy "a" (fun _ => False) opened fourReads after
        ∧ Transfer [1, 2, 3] "a" (.ofNat 1) ⟨2⟩ threeWrites written (.ofNat 2) ⟨3⟩
            fourReads after := by
  obtain ⟨kernel, created, written, ready, opened, after, run, creates, writing, idling, opens,
    reading⟩
      : ∃ kernel created written ready opened after,
          Run .standard startingDeeds kernel
          ∧ kernel.Step (.call (.ofNat 1) (.creat "a") (some (.ok ⟨2⟩))) created
          ∧ TouchedBy "a" (fun deed => (deed.chunk? (.ofNat 1) ⟨2⟩).isSome) created
              threeWrites written
          ∧ TouchedBy "a" (fun _ => False) written
              [.call (.ofNat 1) (.close ⟨2⟩) (some (.ok ()))] ready
          ∧ ready.Step (.call (.ofNat 2) (.openFile "a") (some (.ok ⟨3⟩))) opened
          ∧ TouchedBy "a" (fun _ => False) opened fourReads after :=
    ⟨_, _, _, _, _, _,
      .extend .boot (.cons (.register "p") <| .cons (.spawn rfl) <| .cons (.spawn rfl) .nil),
      .call rfl rfl,
      .cons (.call rfl rfl) (fun _ => rfl)
      <| .cons (.call rfl rfl) (by
        rintro ((severs | ⟨_, severs⟩) | ⟨_, _, named, changed⟩)
        · cases severs
        · cases severs
        · cases named
          cases changed)
      <| .cons (.call rfl rfl) (fun _ => rfl) <| .cons (.call rfl rfl) (fun _ => rfl) .nil,
      .cons (.call rfl rfl) (not_touches_of_silent rfl) .nil,
      .call rfl rfl,
      .cons (.call rfl rfl) (not_touches_of_silent rfl)
      <| .cons (.call rfl rfl) (not_touches_of_silent rfl)
      <| .cons (.call rfl rfl) (not_touches_of_silent rfl)
      <| .cons (.call rfl rfl) (not_touches_of_silent rfl) .nil⟩
  refine ⟨kernel, created, written, ready, opened, after, run, creates, writing, idling, opens,
    reading, ?_⟩
  refine run.chunks_immaterial creates writing ?_ idling opens reading ?_
  · simp [threeWrites, Releases, Deed.fdEvent?]
  · simp [fourReads, Releases, Deed.fdEvent?]

end Kernel

end KernelConformance
