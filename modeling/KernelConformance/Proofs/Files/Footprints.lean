import KernelConformance.Proofs.Files.OpenDescriptors
import KernelConformance.Proofs.Programs.SoloRuns

/-! What a process can get at: the inodes that it holds open, and those with a name that it uses. A
call on files changes nothing else, and adds to this only what it newly makes. So processes that are
apart stay apart, and none notices what the other one does.
-/

namespace KernelConformance

/-- The name that a call on files is about. -/
def Syscall.name? : Syscall → Option String
  | creat name | openFile name | unlink name => some name
  | _ => none

-----------------------------------------------------------------------------------------
-- Open files
-----------------------------------------------------------------------------------------

namespace Descriptors

variable {table after : Descriptors} {fd : Fd} {handle : Handle} {inode : Inode}

/-- Whether a file is open in a table. -/
def Opens (table : Descriptors) (inode : Inode) : Prop :=
  ∃ fd offset, table.get? fd = some (.file inode offset)

theorem opens_of_held {offset : Nat} (held : table.get? fd = some (.file inode offset))
    : table.Opens inode :=
  ⟨fd, offset, held⟩

theorem opens_iff_mem : table.Opens inode ↔ ∃ offset, some (.file inode offset) ∈ table.slots := by
  constructor
  · intro opens
    obtain ⟨fd, offset, held⟩ := opens
    exact ⟨offset, List.mem_of_getElem? (get?_eq_some.mp held)⟩
  · intro member
    obtain ⟨offset, member⟩ := member
    obtain ⟨index, slot⟩ := List.mem_iff_getElem?.mp member
    exact ⟨⟨index⟩, offset, get?_eq_some.mpr slot⟩

theorem Opens.of_set (opens : (table.set fd handle).Opens inode)
    : table.Opens inode ∨ ∃ offset, handle = .file inode offset := by
  obtain ⟨offset, member⟩ := opens_iff_mem.mp opens
  rcases List.mem_or_eq_of_mem_set member with earlier | new
  · exact .inl (opens_iff_mem.mpr ⟨offset, earlier⟩)
  · exact .inr ⟨offset, (Option.some.inj new).symm⟩

theorem Opens.of_erase (done : table.erase fd = .ok after) (opens : after.Opens inode)
    : table.Opens inode := by
  unfold erase at done
  split at done
  · cases done
  · cases done
    obtain ⟨offset, member⟩ := opens_iff_mem.mp opens
    rcases List.mem_or_eq_of_mem_set member with earlier | new
    · exact opens_iff_mem.mpr ⟨offset, earlier⟩
    · cases new

theorem Opens.of_insert (done : table.insert handle = .ok (fd, after)) (opens : after.Opens inode)
    : table.Opens inode ∨ ∃ offset, handle = .file inode offset := by
  obtain ⟨offset, member⟩ := opens_iff_mem.mp opens
  have split : some (.file inode offset) ∈ table.slots ∨ handle = .file inode offset := by
    simp only [insert] at done
    split at done
    · cases done
    · split at done
      · cases done
        rcases List.mem_or_eq_of_mem_set member with earlier | new
        · exact .inl earlier
        · exact .inr (Option.some.inj new).symm
      · cases done
        rcases List.mem_append.mp member with earlier | new
        · exact .inl earlier
        · exact .inr (Option.some.inj (List.mem_singleton.mp new)).symm
  rcases split with earlier | new
  · exact .inl (opens_iff_mem.mpr ⟨offset, earlier⟩)
  · exact .inr ⟨offset, new⟩

theorem not_opens_initial (limit : Nat) : ¬(initial limit).Opens inode := by
  intro opens
  obtain ⟨fd, offset, held⟩ := opens
  rcases get?_initial held with ⟨-, console⟩ | ⟨-, console⟩ <;> cases console

end Descriptors

/-- An inode that is open has been taken, by induction on the run. -/
theorem Kernel.Run.opens_taken {config : Config} {deeds : List Deed} {kernel : Kernel}
    (run : Run config deeds kernel) {pid : Pid} {inode : Inode}
    (opens : (kernel.fds pid).Opens inode)
    : inode.index < kernel.files.next.index := by
  induction run generalizing pid with
  | boot =>
      obtain ⟨fd, offset, held⟩ := opens
      simp [Kernel.fds, Kernel.context, Kernel.boot, Descriptors.get?] at held
  | @step deeds kernel deed after run step ih =>
      have older {other : Pid} (opens : (kernel.fds other).Opens inode)
          : inode.index < after.files.next.index :=
        Nat.lt_of_lt_of_le (ih opens) step.files.next_le
      have table := (step.fds run.rooted).table pid
      generalize deed.fdEvent? = event at table
      generalize after.fds pid = own at table opens
      cases table with
      | elsewhere | streamed => exact older opens
      | start => exact absurd opens (Descriptors.not_opens_initial _)
      | finish =>
          obtain ⟨offset, member⟩ := Descriptors.opens_iff_mem.mp opens
          cases member
      | opened _ named _ inserted =>
          rcases opens.of_insert inserted with earlier | ⟨offset, same⟩
          · exact older earlier
          · cases same
            exact (run.step step).tidy.names.taken named
      | moved _ held =>
          rcases opens.of_set with earlier | ⟨offset, same⟩
          · exact older earlier
          · cases same
            exact older (Descriptors.opens_of_held held)
      | closed _ erased => exact older (opens.of_erase erased)

-----------------------------------------------------------------------------------------
-- Footprints
-----------------------------------------------------------------------------------------

namespace FileSystem

variable {names : String → Prop} {table middle later : Descriptors}
  {files between after : FileSystem} {name : String} {inode : Inode}

/-- The inodes that a process can get at with its descriptors and some names. -/
def Footprint (files : FileSystem) (names : String → Prop) (table : Descriptors) (inode : Inode)
    : Prop :=
  table.Opens inode ∨ ∃ name, names name ∧ files.names.get? name = some inode

theorem footprint_of_named (table : Descriptors) (uses : names name)
    (named : files.names.get? name = some inode)
    : files.Footprint names table inode :=
  .inr ⟨name, uses, named⟩

/-- A change of a table and of files that a process can make with its descriptors and some
names: it spares all other names, and all inodes that are not in its footprint, to which it adds
only new ones.
-/
structure Confined (files : FileSystem) (names : String → Prop) (table later : Descriptors)
    (after : FileSystem)
    : Prop where
  accepts : after.acceptsName = files.acceptsName
  next_le : files.next.index ≤ after.next.index
  spared : ∀ name, ¬names name → after.names.get? name = files.names.get? name
  data
    : ∀ inode,
        inode.index < files.next.index
        → ¬files.Footprint names table inode
        → after.data inode = files.data inode
  footprint
    : ∀ inode,
        after.Footprint names later inode
        → files.Footprint names table inode
          ∨ files.next.index ≤ inode.index ∧ inode.index < after.next.index

theorem Confined.refl (files : FileSystem) (names : String → Prop) (table : Descriptors)
    : files.Confined names table table files :=
  ⟨rfl, Nat.le_refl _, fun _ _ => rfl, fun _ _ _ => rfl, fun _ => .inl⟩

theorem Confined.trans (first : files.Confined names table middle between)
    (second : between.Confined names middle later after)
    : files.Confined names table later after where
  accepts := second.accepts.trans first.accepts
  next_le := Nat.le_trans first.next_le second.next_le
  spared name unused := (second.spared name unused).trans (first.spared name unused)
  data inode old outside := by
    have stays : ¬between.Footprint names middle inode := fun inside =>
      (first.footprint inode inside).elim outside fun new =>
        Nat.lt_irrefl _ (Nat.lt_of_lt_of_le old new.1)
    rw [second.data inode (Nat.lt_of_lt_of_le old first.next_le) stays]
    exact first.data inode old outside
  footprint inode inside := by
    rcases second.footprint inode inside with before | new
    · rcases first.footprint inode before with start | new
      · exact .inl start
      · exact .inr ⟨new.1, Nat.lt_of_lt_of_le new.2 second.next_le⟩
    · exact .inr ⟨Nat.le_trans first.next_le new.1, new.2⟩

/-- A table that opens only what is in the footprint. -/
theorem confined_table (opens : ∀ inode, later.Opens inode → files.Footprint names table inode)
    : files.Confined names table later files where
  accepts := rfl
  next_le := Nat.le_refl _
  spared _ _ := rfl
  data _ _ _ := rfl
  footprint inode inside := .inl (inside.elim (opens inode) .inr)

theorem confined_setData (inside : files.Footprint names table inode) (bytes : Utf8.Bytes)
    : files.Confined names table table (files.setData inode bytes) where
  accepts := rfl
  next_le := Nat.le_refl _
  spared _ _ := rfl
  data other _ outside := by
    have different : other ≠ inode := fun same => outside (same ▸ inside)
    rw [data_setData, if_neg different]
  footprint _ := .inl

theorem confined_bind (uses : names name) (bytes : Utf8.Bytes)
    : files.Confined names table table (files.bind name bytes).2 where
  accepts := rfl
  next_le := Nat.le_succ _
  spared other unused := by
    have different : other ≠ name := fun same => unused (same ▸ uses)
    rw [names_bind, if_neg different]
  data other old _ := by
    have different : other ≠ files.next := fun same => Nat.ne_of_lt old (congrArg Inode.index same)
    rw [data_bind, if_neg different]
  footprint other inside := by
    rcases inside with opens | ⟨given, usesGiven, named⟩
    · exact .inl (.inl opens)
    · rw [names_bind] at named
      split at named
      · cases named
        exact .inr ⟨Nat.le_refl _, Nat.lt_succ_self _⟩
      · exact .inl (footprint_of_named _ usesGiven named)

theorem confined_erase (uses : names name)
    : files.Confined names table table { files with names := files.names.erase name } where
  accepts := rfl
  next_le := Nat.le_refl _
  spared other unused := by
    have different : other ≠ name := fun same => unused (same ▸ uses)
    rw [FiniteMap.get?_erase, if_neg different]
  data _ _ _ := rfl
  footprint other inside := by
    rcases inside with opens | ⟨given, usesGiven, named⟩
    · exact .inl (.inl opens)
    · rw [FiniteMap.get?_erase] at named
      split at named
      · cases named
      · exact .inl (footprint_of_named _ usesGiven named)

theorem confined_create (uses : names name) (created : files.create name = .ok (inode, after))
    : files.Confined names table table after := by
  obtain ⟨-, ⟨-, -, rfl⟩ | ⟨named, rfl⟩⟩ := create_cases created
  · exact confined_bind uses []
  · exact confined_setData (footprint_of_named _ uses named) []

/-- A table into which an inode of the footprint is put opens nothing else. -/
theorem footprint_of_insert {fd : Fd} (inside : files.Footprint names table inode)
    (inserted : table.insert (.file inode 0) = .ok (fd, later))
    : ∀ other, later.Opens other → files.Footprint names table other := by
  intro other opens
  rcases opens.of_insert inserted with earlier | ⟨offset, same⟩
  · exact .inl earlier
  · cases same
    exact inside

/-- A descriptor that moves on opens nothing else. -/
theorem footprint_of_set {fd : Fd} {offset : Nat}
    (held : table.get? fd = some (.file inode offset)) (next : Nat)
    : ∀ other,
        (table.set fd (.file inode next)).Opens other
        → files.Footprint names table other := by
  intro other opens
  rcases opens.of_set with earlier | ⟨moved, same⟩
  · exact .inl earlier
  · cases same
    exact .inl (Descriptors.opens_of_held held)

end FileSystem

namespace Kernel

variable {names others : String → Prop} {pid other : Pid} {kernel middle after : Kernel}
  {inode : Inode}

/-- The inodes that a process can get at with its descriptors and some names. -/
def Footprint (kernel : Kernel) (names : String → Prop) (pid : Pid) (inode : Inode) : Prop :=
  kernel.files.Footprint names (kernel.fds pid) inode

/-- A change that a process can make by calls on files with some names. -/
structure Confined (kernel : Kernel) (names : String → Prop) (pid : Pid) (after : Kernel)
    : Prop where
  elsewhere : kernel.Elsewhere pid after
  files : kernel.files.Confined names (kernel.fds pid) (after.fds pid) after.files

theorem Confined.refl (kernel : Kernel) (names : String → Prop) (pid : Pid)
    : kernel.Confined names pid kernel :=
  ⟨.refl kernel pid, .refl ..⟩

theorem Confined.trans (first : kernel.Confined names pid middle)
    (second : middle.Confined names pid after)
    : kernel.Confined names pid after :=
  ⟨first.elsewhere.trans second.elsewhere, first.files.trans second.files⟩

/-- A call on files is confined to the names that it is about, by cases on its effect. -/
theorem call_confined {c : Syscall} {reply : c.Reply} (onFiles : c.onFiles = true)
    (uses : ∀ name, c.name? = some name → names name)
    (replied : kernel.call pid c = some (reply, after))
    : kernel.Confined names pid after := by
  refine ⟨call_elsewhere onFiles replied, ?_⟩
  obtain ⟨middle, effect, rfl⟩ := call_effect replied
  rw [trace_files, fds_trace]
  cases effect with
  | failed => exact .refl ..
  | exec => cases onFiles
  | join => cases onFiles
  | creat created inserted =>
      rw [fds_setFds, Function.update_self]
      have named := FileSystem.named_of_create created
      have inside := FileSystem.footprint_of_named (kernel.fds pid) (uses _ rfl) named
      exact (FileSystem.confined_create (uses _ rfl) created).trans
        (FileSystem.confined_table (FileSystem.footprint_of_insert inside inserted))
  | openFile found inserted =>
      rw [fds_setFds pid _ kernel.files kernel, Function.update_self]
      have named := (FileSystem.find_cases found).2
      have inside := FileSystem.footprint_of_named (kernel.fds pid) (uses _ rfl) named
      exact FileSystem.confined_table (FileSystem.footprint_of_insert inside inserted)
  | readInput => exact .refl ..
  | read held =>
      rw [fds_setFds pid _ kernel.files kernel, Function.update_self]
      exact FileSystem.confined_table (FileSystem.footprint_of_set held _)
  | print => exact .refl ..
  | write held =>
      rw [fds_setFds, Function.update_self]
      have inside : kernel.files.Footprint names (kernel.fds pid) _ :=
        .inl (Descriptors.opens_of_held held)
      exact (FileSystem.confined_setData inside _).trans
        (FileSystem.confined_table (FileSystem.footprint_of_set held _))
  | close erased =>
      rw [fds_setFds pid _ kernel.files kernel, Function.update_self]
      exact FileSystem.confined_table fun inode opens => .inl (opens.of_erase erased)
  | unlink removed =>
      obtain rfl := FileSystem.remove_cases removed
      exact FileSystem.confined_erase (uses _ rfl)

-----------------------------------------------------------------------------------------
-- Processes apart from one another
-----------------------------------------------------------------------------------------

/-- A change that a process with some names does not notice: all that it can get at
stays as it is.
-/
structure Unnoticed (kernel : Kernel) (names : String → Prop) (pid : Pid) (after : Kernel)
    : Prop where
  fds : after.fds pid = kernel.fds pid
  accepts : after.files.acceptsName = kernel.files.acceptsName
  next_le : kernel.files.next.index ≤ after.files.next.index
  named : ∀ name, names name → after.files.names.get? name = kernel.files.names.get? name
  data
    : ∀ inode, kernel.Footprint names pid inode → after.files.data inode = kernel.files.data inode

theorem Unnoticed.footprint (unnoticed : kernel.Unnoticed names pid after) (inode : Inode)
    : after.Footprint names pid inode ↔ kernel.Footprint names pid inode := by
  unfold Footprint FileSystem.Footprint
  rw [unnoticed.fds]
  refine or_congr_right (exists_congr fun name => and_congr_right fun uses => ?_)
  rw [unnoticed.named name uses]

/-- Two processes that use different names and cannot get at a common inode. -/
structure Apart (kernel : Kernel) (names : String → Prop) (pid : Pid) (others : String → Prop)
    (other : Pid)
    : Prop where
  different : other ≠ pid
  disjoint : ∀ name, names name → ¬others name
  inodes : ∀ inode, kernel.Footprint names pid inode → ¬kernel.Footprint others other inode
  taken
    : ∀ inode, kernel.Footprint names pid inode → inode.index < kernel.files.next.index
  takenOther
    : ∀ inode, kernel.Footprint others other inode → inode.index < kernel.files.next.index

theorem Apart.symm (apart : kernel.Apart names pid others other)
    : kernel.Apart others other names pid where
  different := apart.different.symm
  disjoint name uses used := apart.disjoint name used uses
  inodes inode inside outside := apart.inodes inode outside inside
  taken := apart.takenOther
  takenOther := apart.taken

/-- What one process does, the other one does not notice. -/
theorem Apart.unnoticed (apart : kernel.Apart names pid others other)
    (confined : kernel.Confined names pid after)
    : kernel.Unnoticed others other after where
  fds := congrArg Context.fds (confined.elsewhere.contexts other apart.different)
  accepts := confined.files.accepts
  next_le := confined.files.next_le
  named name uses := confined.files.spared name fun used => apart.disjoint name used uses
  data inode inside :=
    confined.files.data inode (apart.takenOther inode inside) fun outside =>
      apart.inodes inode outside inside

/-- Processes stay apart whatever one of them does. -/
theorem Apart.confined (apart : kernel.Apart names pid others other)
    (confined : kernel.Confined names pid after)
    : after.Apart names pid others other := by
  have same := (apart.unnoticed confined).footprint
  have next_le := confined.files.next_le
  refine ⟨apart.different, apart.disjoint, fun inode mine yours => ?_, fun inode mine => ?_,
    fun inode yours => ?_⟩
  · have old := apart.takenOther inode ((same inode).mp yours)
    rcases confined.files.footprint inode mine with before | new
    · exact apart.inodes inode before ((same inode).mp yours)
    · exact Nat.lt_irrefl _ (Nat.lt_of_lt_of_le old new.1)
  · rcases confined.files.footprint inode mine with before | new
    · exact Nat.lt_of_lt_of_le (apart.taken inode before) next_le
    · exact new.2
  · exact Nat.lt_of_lt_of_le (apart.takenOther inode ((same inode).mp yours)) next_le

/-- Processes stay apart in a change that neither of them notices. -/
theorem Apart.unseen (apart : kernel.Apart names pid others other)
    (mine : kernel.Unnoticed names pid after) (yours : kernel.Unnoticed others other after)
    : after.Apart names pid others other where
  different := apart.different
  disjoint := apart.disjoint
  inodes inode inside outside :=
    apart.inodes inode ((mine.footprint inode).mp inside) ((yours.footprint inode).mp outside)
  taken inode inside :=
    Nat.lt_of_lt_of_le (apart.taken inode ((mine.footprint inode).mp inside)) mine.next_le
  takenOther inode inside :=
    Nat.lt_of_lt_of_le (apart.takenOther inode ((yours.footprint inode).mp inside)) mine.next_le

end Kernel

end KernelConformance
