import KernelConformance.Proofs.Files.Footprints

/-! Two kernels that a process cannot tell apart. Inodes are made in different orders in them, so
they agree up to a correspondence of inodes: it is one-to-one on what the process can get at, and it
keeps the inodes that there were at the start. Every call on files gets the same reply in both
kernels, and leaves them in agreement.
-/

namespace KernelConformance

open Function (update)
open Utf8 (Bytes)

-----------------------------------------------------------------------------------------
-- Descriptors with other inodes
-----------------------------------------------------------------------------------------

/-- A handle that stands for the corresponding inode. -/
def Handle.rename (twin : Inode → Inode) : Handle → Handle
  | file inode offset => file (twin inode) offset
  | stream => stream

namespace Descriptors

variable {table after : Descriptors} {twin other : Inode → Inode}

/-- A table that stands for the corresponding inodes. -/
def rename (twin : Inode → Inode) (table : Descriptors) : Descriptors :=
  { table with slots := table.slots.map (Option.map (Handle.rename twin)) }

@[simp] theorem get?_rename (twin : Inode → Inode) (table : Descriptors) (fd : Fd)
    : (table.rename twin).get? fd = (table.get? fd).map (Handle.rename twin) := by
  simp only [get?, Descriptors.rename, List.getElem?_map]
  rcases table.slots[fd.index]? with _ | _ | _ <;> rfl

@[simp] theorem size_rename (twin : Inode → Inode) (table : Descriptors)
    : (table.rename twin).size = table.size := by
  have kept : Option.isSome ∘ Option.map (Handle.rename twin) = Option.isSome := by
    funext slot
    exact Option.isSome_map
  simp only [size, Descriptors.rename, List.countP_map, kept]

@[simp] theorem isExhausted_rename (twin : Inode → Inode) (table : Descriptors)
    : (table.rename twin).isExhausted = table.isExhausted := by
  unfold isExhausted
  rw [size_rename]
  rfl

@[simp] theorem lowestFree_rename (twin : Inode → Inode) (table : Descriptors)
    : (table.rename twin).lowestFree = table.lowestFree := by
  have kept : Option.isNone ∘ Option.map (Handle.rename twin) = Option.isNone := by
    funext slot
    exact Option.isNone_map
  simp only [lowestFree, Descriptors.rename, ← List.map_drop, List.findIdx_map, kept]

theorem rename_set (twin : Inode → Inode) (fd : Fd) (handle : Handle) (table : Descriptors)
    : (table.set fd handle).rename twin = (table.rename twin).set fd (handle.rename twin) := by
  simp [set, Descriptors.rename, List.map_set]

/-- An insertion takes the same descriptor, whatever the inodes are called. -/
theorem insert_rename {handle : Handle} {fd : Fd} (done : table.insert handle = .ok (fd, after))
    (twin : Inode → Inode)
    : (table.rename twin).insert (handle.rename twin) = .ok (fd, after.rename twin) := by
  simp only [insert] at done ⊢
  rw [isExhausted_rename, lowestFree_rename]
  split at done
  · cases done
  · next room =>
      rw [if_neg room]
      split at done
      · next inside =>
          cases done
          simp [Descriptors.rename, inside, List.map_set]
      · next last =>
          cases done
          simp [Descriptors.rename, last]

theorem erase_rename {fd : Fd} (done : table.erase fd = .ok after) (twin : Inode → Inode)
    : (table.rename twin).erase fd = .ok (after.rename twin) := by
  unfold erase at done ⊢
  rw [get?_rename]
  split at done
  · cases done
  · next held =>
      cases done
      simp [held, Descriptors.rename, List.map_set]

theorem erase_rename_error {fd : Fd} {error : Errno} (failed : table.erase fd = .error error)
    (twin : Inode → Inode)
    : (table.rename twin).erase fd = .error error := by
  unfold erase at failed ⊢
  rw [get?_rename]
  split at failed
  · next free =>
      cases failed
      simp [free]
  · cases failed

/-- Correspondences that agree on what is open make the same table. -/
theorem rename_congr (agree : ∀ inode, table.Opens inode → twin inode = other inode)
    : table.rename twin = table.rename other := by
  have slots : table.slots.map (Option.map (Handle.rename twin))
      = table.slots.map (Option.map (Handle.rename other)) := by
    refine List.map_congr_left fun slot member => ?_
    rcases slot with _ | _ | _ | ⟨inode, offset⟩
    · rfl
    · rfl
    · rfl
    · have same := agree inode (opens_iff_mem.mpr ⟨offset, member⟩)
      simp [Handle.rename, same]
  simp only [Descriptors.rename, slots]

theorem rename_self (fixed : ∀ inode, table.Opens inode → twin inode = inode)
    : table.rename twin = table := by
  have kept : Handle.rename id = id := by
    funext handle
    cases handle <;> rfl
  have same : table.rename twin = table.rename id := rename_congr fixed
  rw [same, Descriptors.rename, kept, Option.map_id, List.map_id]

theorem Opens.rename {inode : Inode} (opens : table.Opens inode) (twin : Inode → Inode)
    : (table.rename twin).Opens (twin inode) := by
  obtain ⟨fd, offset, held⟩ := opens
  exact ⟨fd, offset, by simp [held, Handle.rename]⟩

end Descriptors

-----------------------------------------------------------------------------------------
-- Corresponding files
-----------------------------------------------------------------------------------------

namespace FileSystem

variable {names : String → Prop} {start inode : Inode} {twin : Inode → Inode}
  {table later : Descriptors} {files copy : FileSystem} {name : String}

/-- Whether files look the same as others to a process with a table and some names, which has the
corresponding table there.
-/
structure Mirrors (files : FileSystem) (names : String → Prop) (start : Inode)
    (twin : Inode → Inode) (table : Descriptors) (copy : FileSystem)
    : Prop where
  accepts : copy.acceptsName = files.acceptsName
  named : ∀ name, names name → copy.names.get? name = (files.names.get? name).map twin
  data
    : ∀ inode, files.Footprint names table inode → copy.data (twin inode) = files.data inode
  injective
    : ∀ left right,
        files.Footprint names table left
        → files.Footprint names table right
        → twin left = twin right
        → left = right
  taken
    : ∀ inode,
        files.Footprint names table inode
        → inode.index < files.next.index ∧ (twin inode).index < copy.next.index
  begun : start.index ≤ files.next.index ∧ start.index ≤ copy.next.index
  fixed : ∀ inode, inode.index < start.index → twin inode = inode
  fresh
    : ∀ inode,
        files.Footprint names table inode
        → start.index ≤ inode.index
        → start.index ≤ (twin inode).index

/-- Files look the same as themselves. -/
theorem mirrors_self (taken : ∀ inode, files.Footprint names table inode
      → inode.index < files.next.index)
    : files.Mirrors names files.next id table files where
  accepts := rfl
  named _ _ := Option.map_id.symm ▸ rfl
  data _ _ := rfl
  injective _ _ _ _ same := same
  taken inode inside := ⟨taken inode inside, taken inode inside⟩
  begun := ⟨Nat.le_refl _, Nat.le_refl _⟩
  fixed _ _ := rfl
  fresh _ _ new := new

/-- A name that is bound adds only the new inode to the footprint. -/
theorem footprint_bind {bytes : Bytes}
    (inside : (files.bind name bytes).2.Footprint names table inode)
    : inode = files.next ∨ files.Footprint names table inode := by
  rcases inside with opens | ⟨other, uses, named⟩
  · exact .inr (.inl opens)
  · rw [names_bind] at named
    split at named
    · cases named
      exact .inl rfl
    · exact .inr (footprint_of_named _ uses named)

namespace Mirrors

/-- Nothing is lost where the footprint becomes smaller. -/
theorem narrow (mirrors : files.Mirrors names start twin table copy)
    (smaller : ∀ inode, files.Footprint names later inode → files.Footprint names table inode)
    : files.Mirrors names start twin later copy where
  accepts := mirrors.accepts
  named := mirrors.named
  data inode inside := mirrors.data inode (smaller inode inside)
  injective left right inLeft inRight :=
    mirrors.injective left right (smaller left inLeft) (smaller right inRight)
  taken inode inside := mirrors.taken inode (smaller inode inside)
  begun := mirrors.begun
  fixed := mirrors.fixed
  fresh inode inside := mirrors.fresh inode (smaller inode inside)

theorem withTable (mirrors : files.Mirrors names start twin table copy)
    (opens : ∀ inode, later.Opens inode → files.Footprint names table inode)
    : files.Mirrors names start twin later copy :=
  mirrors.narrow fun inode inside => inside.elim (opens inode) .inr

theorem setData (mirrors : files.Mirrors names start twin table copy)
    (inside : files.Footprint names table inode) (bytes : Bytes)
    : (files.setData inode bytes).Mirrors names start twin table
        (copy.setData (twin inode) bytes) where
  accepts := mirrors.accepts
  named := mirrors.named
  data other within := by
    rw [data_setData, data_setData]
    by_cases same : other = inode
    · rw [if_pos same, if_pos (congrArg twin same)]
    · have different : twin other ≠ twin inode := fun images =>
        same (mirrors.injective other inode within inside images)
      rw [if_neg same, if_neg different]
      exact mirrors.data other within
  injective := mirrors.injective
  taken := mirrors.taken
  begun := mirrors.begun
  fixed := mirrors.fixed
  fresh := mirrors.fresh

theorem erase (mirrors : files.Mirrors names start twin table copy) (name : String)
    : { files with names := files.names.erase name }.Mirrors names start twin table
        { copy with names := copy.names.erase name } := by
  have smaller (inode : Inode)
      (inside : { files with names := files.names.erase name }.Footprint names table inode)
      : files.Footprint names table inode := by
    rcases inside with opens | ⟨other, uses, named⟩
    · exact .inl opens
    · rw [FiniteMap.get?_erase] at named
      split at named
      · cases named
      · exact footprint_of_named _ uses named
  refine {
    accepts := mirrors.accepts
    named := fun other uses => ?_
    data := fun inode inside => mirrors.data inode (smaller inode inside)
    injective := fun left right inLeft inRight =>
      mirrors.injective left right (smaller left inLeft) (smaller right inRight)
    taken := fun inode inside => mirrors.taken inode (smaller inode inside)
    begun := mirrors.begun
    fixed := mirrors.fixed
    fresh := fun inode inside => mirrors.fresh inode (smaller inode inside)
  }
  rw [FiniteMap.get?_erase, FiniteMap.get?_erase, mirrors.named other uses]
  split <;> rfl

/-- A correspondence that is extended by a new inode is what it was on the footprint. -/
theorem update_of_inside (mirrors : files.Mirrors names start twin table copy)
    (inside : files.Footprint names table inode)
    : update twin files.next copy.next inode = twin inode := by
  refine Function.update_of_ne (fun same => ?_) _ _
  exact Nat.ne_of_lt (mirrors.taken inode inside).1 (congrArg Inode.index same)

theorem rename_update (mirrors : files.Mirrors names start twin table copy)
    : table.rename (update twin files.next copy.next) = table.rename twin :=
  Descriptors.rename_congr fun _ opens => mirrors.update_of_inside (.inl opens)

/-- The next inode there corresponds to none of the footprint. -/
theorem ne_next (mirrors : files.Mirrors names start twin table copy)
    (inside : files.Footprint names table inode)
    : twin inode ≠ copy.next := fun same =>
  Nat.ne_of_lt (mirrors.taken inode inside).2 (congrArg Inode.index same)

/-- What corresponds to one inode after a name was bound, corresponds to no other one. -/
theorem injective_bind (mirrors : files.Mirrors names start twin table copy) {bytes : Bytes}
    {left right : Inode} (inLeft : (files.bind name bytes).2.Footprint names table left)
    (inRight : (files.bind name bytes).2.Footprint names table right)
    (same : update twin files.next copy.next left = update twin files.next copy.next right)
    : left = right := by
  have new : update twin files.next copy.next files.next = copy.next := Function.update_self ..
  rcases footprint_bind inLeft with rfl | leftBefore
    <;> rcases footprint_bind inRight with rfl | rightBefore
  · rfl
  · rw [new, mirrors.update_of_inside rightBefore] at same
    exact absurd same.symm (mirrors.ne_next rightBefore)
  · rw [new, mirrors.update_of_inside leftBefore] at same
    exact absurd same (mirrors.ne_next leftBefore)
  · rw [mirrors.update_of_inside leftBefore, mirrors.update_of_inside rightBefore] at same
    exact mirrors.injective left right leftBefore rightBefore same

/-- An inode that is new in both corresponds to the other one. -/
theorem bind (mirrors : files.Mirrors names start twin table copy) (name : String)
    (bytes : Bytes)
    : (files.bind name bytes).2.Mirrors names start (update twin files.next copy.next) table
        (copy.bind name bytes).2 := by
  have new : update twin files.next copy.next files.next = copy.next := Function.update_self ..
  constructor
  · exact mirrors.accepts
  · intro other uses
    rw [names_bind, names_bind]
    split
    · exact congrArg some new.symm
    · rw [mirrors.named other uses]
      exact Option.map_congr fun inode named =>
        (mirrors.update_of_inside (footprint_of_named _ uses named)).symm
  · intro inode inside
    rw [data_bind, data_bind]
    rcases footprint_bind inside with rfl | before
    · rw [new, if_pos rfl, if_pos rfl]
    · have old : inode ≠ files.next := fun same =>
        Nat.ne_of_lt (mirrors.taken inode before).1 (congrArg Inode.index same)
      rw [mirrors.update_of_inside before, if_neg (mirrors.ne_next before), if_neg old]
      exact mirrors.data inode before
  · exact fun left right inLeft inRight => mirrors.injective_bind inLeft inRight
  · intro inode inside
    rcases footprint_bind inside with rfl | before
    · rw [new]
      exact ⟨Nat.lt_succ_self _, Nat.lt_succ_self _⟩
    · rw [mirrors.update_of_inside before]
      obtain ⟨taken, image⟩ := mirrors.taken inode before
      exact ⟨Nat.lt_succ_of_lt taken, Nat.lt_succ_of_lt image⟩
  · exact ⟨Nat.le_succ_of_le mirrors.begun.1, Nat.le_succ_of_le mirrors.begun.2⟩
  · intro inode old
    have different : inode ≠ files.next := fun same =>
      Nat.ne_of_lt (Nat.lt_of_lt_of_le old mirrors.begun.1) (congrArg Inode.index same)
    rw [Function.update_of_ne different]
    exact mirrors.fixed inode old
  · intro inode inside later
    rcases footprint_bind inside with rfl | before
    · rw [new]
      exact mirrors.begun.2
    · rw [mirrors.update_of_inside before]
      exact mirrors.fresh inode before later

/-- A creation fails in both, or makes or empties corresponding files. -/
theorem create (mirrors : files.Mirrors names start twin table copy) (uses : names name)
    : (∃ error, files.create name = .error error ∧ copy.create name = .error error)
      ∨ ∃ inode after image next,
          files.create name = .ok (inode, after)
          ∧ copy.create name = .ok (next inode, image)
          ∧ after.Mirrors names start next table image
          ∧ table.rename next = table.rename twin := by
  cases accepted : files.acceptsName name with
  | false => exact .inl ⟨.badFileName, by simp [FileSystem.create, accepted],
      by simp [FileSystem.create, mirrors.accepts, accepted]⟩
  | true =>
      have matched := mirrors.named name uses
      rcases named : files.names.get? name with _ | inode
      · rw [named] at matched
        refine .inr ⟨files.next, (files.bind name []).2, (copy.bind name []).2, _, ?_, ?_,
          mirrors.bind name [], mirrors.rename_update⟩
        · simp [FileSystem.create, accepted, named, FileSystem.bind]
        · simp [FileSystem.create, mirrors.accepts, accepted, matched, FileSystem.bind]
      · rw [named] at matched
        have inside := footprint_of_named table uses named
        refine .inr ⟨inode, _, _, twin, ?_, ?_, mirrors.setData inside [], rfl⟩
        · simp [FileSystem.create, accepted, named]
        · simp [FileSystem.create, mirrors.accepts, accepted, matched]

/-- A name is found in both, or in neither. -/
theorem find (mirrors : files.Mirrors names start twin table copy) (uses : names name)
    : (∃ error, files.find name = .error error ∧ copy.find name = .error error)
      ∨ ∃ inode, files.find name = .ok inode ∧ copy.find name = .ok (twin inode) := by
  have matched := mirrors.named name uses
  cases accepted : files.acceptsName name with
  | false => exact .inl ⟨.badFileName, by simp [FileSystem.find, accepted],
      by simp [FileSystem.find, mirrors.accepts, accepted]⟩
  | true =>
      rcases named : files.names.get? name with _ | inode <;> rw [named] at matched
      · exact .inl ⟨.noSuchFile, by simp [FileSystem.find, accepted, named],
          by simp [FileSystem.find, mirrors.accepts, accepted, matched]⟩
      · exact .inr ⟨inode, by simp [FileSystem.find, accepted, named],
          by simp [FileSystem.find, mirrors.accepts, accepted, matched]⟩

/-- A name is removed from both, or from neither. -/
theorem remove (mirrors : files.Mirrors names start twin table copy) (uses : names name)
    : (∃ error, files.remove name = .error error ∧ copy.remove name = .error error)
      ∨ files.remove name = .ok { files with names := files.names.erase name }
        ∧ copy.remove name = .ok { copy with names := copy.names.erase name } := by
  have matched := mirrors.named name uses
  cases accepted : files.acceptsName name with
  | false => exact .inl ⟨.badFileName, by simp [FileSystem.remove, accepted],
      by simp [FileSystem.remove, mirrors.accepts, accepted]⟩
  | true =>
      rcases named : files.names.get? name with _ | inode <;> rw [named] at matched
      · exact .inl ⟨.noSuchFile, by simp [FileSystem.remove, accepted, named],
          by simp [FileSystem.remove, mirrors.accepts, accepted, matched]⟩
      · exact .inr ⟨by simp [FileSystem.remove, accepted, named],
          by simp [FileSystem.remove, mirrors.accepts, accepted, matched]⟩

end Mirrors

end FileSystem

-----------------------------------------------------------------------------------------
-- Corresponding kernels
-----------------------------------------------------------------------------------------

namespace Kernel

variable {names : String → Prop} {pid : Pid} {start : Inode} {twin : Inode → Inode}
  {left right leftAfter rightAfter kernel after : Kernel}

/-- Whether one kernel looks the same as another one to a process that uses some names. -/
structure Mirrors (left : Kernel) (names : String → Prop) (pid : Pid) (start : Inode)
    (twin : Inode → Inode) (right : Kernel)
    : Prop where
  fds : right.fds pid = (left.fds pid).rename twin
  files : left.files.Mirrors names start twin (left.fds pid) right.files

theorem mirrors_self
    (taken : ∀ inode, kernel.Footprint names pid inode → inode.index < kernel.files.next.index)
    : kernel.Mirrors names pid kernel.files.next id kernel where
  fds := (Descriptors.rename_self fun _ _ => rfl).symm
  files := FileSystem.mirrors_self taken

namespace Mirrors

/-- A process does not see what others do to the first kernel, as long as it does not notice it. -/
theorem unnoticed_left (mirrors : left.Mirrors names pid start twin right)
    (unnoticed : left.Unnoticed names pid leftAfter)
    : leftAfter.Mirrors names pid start twin right := by
  have same := unnoticed.footprint
  refine ⟨unnoticed.fds ▸ mirrors.fds, ?_⟩
  constructor
  · exact mirrors.files.accepts.trans unnoticed.accepts.symm
  · intro name uses
    rw [unnoticed.named name uses]
    exact mirrors.files.named name uses
  · intro inode inside
    have before := (same inode).mp inside
    rw [unnoticed.data inode before]
    exact mirrors.files.data inode before
  · intro first second inFirst inSecond
    exact mirrors.files.injective first second ((same first).mp inFirst) ((same second).mp inSecond)
  · intro inode inside
    obtain ⟨taken, image⟩ := mirrors.files.taken inode ((same inode).mp inside)
    exact ⟨Nat.lt_of_lt_of_le taken unnoticed.next_le, image⟩
  · exact ⟨Nat.le_trans mirrors.files.begun.1 unnoticed.next_le, mirrors.files.begun.2⟩
  · exact mirrors.files.fixed
  · exact fun inode inside => mirrors.files.fresh inode ((same inode).mp inside)

/-- The footprint in one kernel has the corresponding one in the other kernel. -/
theorem footprint_image (mirrors : left.Mirrors names pid start twin right) {inode : Inode}
    (inside : left.Footprint names pid inode)
    : right.Footprint names pid (twin inode) := by
  rcases inside with opens | ⟨name, uses, named⟩
  · refine .inl ?_
    rw [mirrors.fds]
    exact opens.rename twin
  · refine .inr ⟨name, uses, ?_⟩
    rw [mirrors.files.named name uses, named]
    rfl

/-- A process does not see what others do to the second kernel either. -/
theorem unnoticed_right (mirrors : left.Mirrors names pid start twin right)
    (unnoticed : right.Unnoticed names pid rightAfter)
    : left.Mirrors names pid start twin rightAfter where
  fds := unnoticed.fds.trans mirrors.fds
  files := {
    accepts := unnoticed.accepts.trans mirrors.files.accepts
    named := fun name uses => (unnoticed.named name uses).trans (mirrors.files.named name uses)
    data := fun inode inside =>
      (unnoticed.data _ (mirrors.footprint_image inside)).trans (mirrors.files.data inode inside)
    injective := mirrors.files.injective
    taken := fun inode inside =>
      ⟨(mirrors.files.taken inode inside).1,
        Nat.lt_of_lt_of_le (mirrors.files.taken inode inside).2 unnoticed.next_le⟩
    begun :=
      ⟨mirrors.files.begun.1, Nat.le_trans mirrors.files.begun.2 unnoticed.next_le⟩
    fixed := mirrors.files.fixed
    fresh := mirrors.files.fresh
  }

/-- The tables of both kernels are full together. -/
theorem isExhausted (mirrors : left.Mirrors names pid start twin right)
    : (right.fds pid).isExhausted = (left.fds pid).isExhausted := by
  rw [mirrors.fds, Descriptors.isExhausted_rename]

/-- What a descriptor stands for in one kernel corresponds to what it stands for in the other. -/
theorem get? (mirrors : left.Mirrors names pid start twin right) (fd : Fd)
    : (right.fds pid).get? fd = ((left.fds pid).get? fd).map (Handle.rename twin) := by
  rw [mirrors.fds, Descriptors.get?_rename]

/-- What a call comes to in both kernels: one reply, and kernels that correspond again. -/
def Answered (left : Kernel) (names : String → Prop) (pid : Pid) (start : Inode) (right : Kernel)
    (c : Syscall)
    : Prop :=
  ∃ reply leftAfter rightAfter twin,
    left.perform pid c = some (reply, leftAfter)
    ∧ right.perform pid c = some (reply, rightAfter)
    ∧ leftAfter.Mirrors names pid start twin rightAfter

/-- A call that does the same to the files and the table in both kernels. -/
theorem changed (files copy : FileSystem) {table : Descriptors} {c : Syscall} (reply : c.Reply)
    (leftDone : left.perform pid c = some (reply, { left with files }.setFds pid table))
    (rightDone : right.perform pid c
      = some (reply, { right with files := copy }.setFds pid (table.rename twin)))
    (mirrors : files.Mirrors names start twin table copy)
    : Answered left names pid start right c := by
  refine ⟨reply, _, _, twin, leftDone, rightDone, ?_⟩
  have leftTable : ({ left with files }.setFds pid table).fds pid = table := by
    rw [fds_setFds, Function.update_self]
  have rightTable : ({ right with files := copy }.setFds pid (table.rename twin)).fds pid
      = table.rename twin := by
    rw [fds_setFds, Function.update_self]
  constructor
  · rw [leftTable, rightTable]
  · rw [leftTable]
    exact mirrors

/-- A call that does nothing in both kernels. -/
theorem idle (mirrors : left.Mirrors names pid start twin right) {c : Syscall} (reply : c.Reply)
    (leftDone : left.perform pid c = some (reply, left))
    (rightDone : right.perform pid c = some (reply, right))
    : Answered left names pid start right c :=
  ⟨reply, left, right, twin, leftDone, rightDone, mirrors⟩

/-- A file of the footprint that is opened in both gets the same descriptor. -/
theorem opened (files copy : FileSystem) {next : Inode → Inode} {inode : Inode} {fd fdToo : Fd}
    {table tableToo : Descriptors} {c : Syscall} (replyOf : Fd → c.Reply)
    (mirrors : left.Mirrors names pid start twin right)
    (matched : files.Mirrors names start next (left.fds pid) copy)
    (same : (left.fds pid).rename next = (left.fds pid).rename twin)
    (inside : files.Footprint names (left.fds pid) inode)
    (inserted : (left.fds pid).insert (.file inode 0) = .ok (fd, table))
    (insertedToo : (right.fds pid).insert (.file (next inode) 0) = .ok (fdToo, tableToo))
    (done : left.perform pid c = some (replyOf fd, { left with files }.setFds pid table))
    (doneToo : right.perform pid c
      = some (replyOf fdToo, { right with files := copy }.setFds pid tableToo))
    : Answered left names pid start right c := by
  rw [mirrors.fds, ← same] at insertedToo
  have renamed := insertedToo.symm.trans (Descriptors.insert_rename inserted next)
  cases renamed
  exact changed files copy _ done doneToo
    (matched.withTable (FileSystem.footprint_of_insert inside inserted))

theorem creat {name : String} (mirrors : left.Mirrors names pid start twin right)
    (uses : names name)
    : Answered left names pid start right (.creat name) := by
  have full := mirrors.isExhausted
  cases room : (left.fds pid).isExhausted with
  | true =>
      rw [room] at full
      exact mirrors.idle _ (congrArg some (creat_of_exhausted room name))
        (congrArg some (creat_of_exhausted full name))
  | false =>
      rw [room] at full
      rcases mirrors.files.create uses with
        ⟨error, failed, failedToo⟩ | ⟨inode, files, copy, next, created, copied, matched, same⟩
      · exact mirrors.idle _ (congrArg some (creat_of_refused room failed))
          (congrArg some (creat_of_refused full failedToo))
      · obtain ⟨fd, table, inserted, done⟩ := creat_of_room room created
        obtain ⟨fdToo, tableToo, insertedToo, doneToo⟩ := creat_of_room full copied
        have inside := FileSystem.footprint_of_named (left.fds pid) uses
          (FileSystem.named_of_create created)
        exact mirrors.opened files copy .ok matched same inside inserted insertedToo
          (congrArg some done) (congrArg some doneToo)

theorem openFile {name : String} (mirrors : left.Mirrors names pid start twin right)
    (uses : names name)
    : Answered left names pid start right (.openFile name) := by
  have full := mirrors.isExhausted
  cases room : (left.fds pid).isExhausted with
  | true =>
      rw [room] at full
      exact mirrors.idle _ (congrArg some (openFile_of_exhausted room name))
        (congrArg some (openFile_of_exhausted full name))
  | false =>
      rw [room] at full
      rcases mirrors.files.find uses with ⟨error, failed, failedToo⟩ | ⟨inode, found, foundToo⟩
      · exact mirrors.idle _ (congrArg some (openFile_of_missing room failed))
          (congrArg some (openFile_of_missing full failedToo))
      · obtain ⟨fd, table, inserted, done⟩ := openFile_of_room room found
        obtain ⟨fdToo, tableToo, insertedToo, doneToo⟩ := openFile_of_room full foundToo
        have inside := FileSystem.footprint_of_named (left.fds pid) uses
          (FileSystem.find_cases found).2
        exact mirrors.opened left.files right.files .ok mirrors.files rfl inside inserted
          insertedToo (congrArg some done) (congrArg some doneToo)

theorem read (mirrors : left.Mirrors names pid start twin right) (fd : Fd) (room : Nat)
    : Answered left names pid start right (.read fd room) := by
  have heldToo := mirrors.get? fd
  rcases held : (left.fds pid).get? fd with _ | _ | _ | ⟨inode, offset⟩ <;> rw [held] at heldToo
  · exact mirrors.idle _ (congrArg some (read_of_unreadable (.inl held) room))
      (congrArg some (read_of_unreadable (.inl heldToo) room))
  · exact mirrors.idle _ (congrArg some (read_of_stdin held room))
      (congrArg some (read_of_stdin heldToo room))
  · exact mirrors.idle _ (congrArg some (read_of_unreadable (.inr held) room))
      (congrArg some (read_of_unreadable (.inr heldToo) room))
  · have inside : left.files.Footprint names (left.fds pid) inode :=
      .inl (Descriptors.opens_of_held held)
    have data := mirrors.files.data inode inside
    have read := mirrors.files.withTable (FileSystem.footprint_of_set held
      (offset + (slice offset room (left.files.data inode)).length))
    refine changed left.files right.files _ (congrArg some (read_of_file held room)) ?_ read
    rw [Descriptors.rename_set, ← mirrors.fds, ← data]
    exact congrArg some (read_of_file heldToo room)

theorem write (mirrors : left.Mirrors names pid start twin right) (fd : Fd) (bytes : Bytes)
    : Answered left names pid start right (.write fd bytes) := by
  have heldToo := mirrors.get? fd
  rcases held : (left.fds pid).get? fd with _ | _ | _ | ⟨inode, offset⟩ <;> rw [held] at heldToo
  · exact mirrors.idle _ (congrArg some (write_of_unwritable (.inl held) bytes))
      (congrArg some (write_of_unwritable (.inl heldToo) bytes))
  · exact mirrors.idle _ (congrArg some (write_of_unwritable (.inr held) bytes))
      (congrArg some (write_of_unwritable (.inr heldToo) bytes))
  · exact ⟨_, _, _, twin, congrArg some (write_of_stdout held bytes),
      congrArg some (write_of_stdout heldToo bytes), mirrors.fds, mirrors.files⟩
  · have inside : left.files.Footprint names (left.fds pid) inode :=
      .inl (Descriptors.opens_of_held held)
    have data := mirrors.files.data inode inside
    have written := mirrors.files.setData inside (overlay offset bytes (left.files.data inode))
    have moved := written.withTable (FileSystem.footprint_of_set held (offset + bytes.length))
    refine changed _ _ _ (congrArg some (write_of_file held bytes)) ?_ moved
    rw [Descriptors.rename_set, ← mirrors.fds, ← data]
    exact congrArg some (write_of_file heldToo bytes)

theorem close (mirrors : left.Mirrors names pid start twin right) (fd : Fd)
    : Answered left names pid start right (.close fd) := by
  rcases erased : (left.fds pid).erase fd with error | table
  · have erasedToo := Descriptors.erase_rename_error erased twin
    rw [← mirrors.fds] at erasedToo
    exact mirrors.idle _ (congrArg some (close_of_unused erased))
      (congrArg some (close_of_unused erasedToo))
  · have erasedToo := Descriptors.erase_rename erased twin
    rw [← mirrors.fds] at erasedToo
    exact changed left.files right.files _ (congrArg some (close_of_erased erased))
      (congrArg some (close_of_erased erasedToo))
      (mirrors.files.withTable fun inode opens => .inl (opens.of_erase erased))

theorem unlink {name : String} (mirrors : left.Mirrors names pid start twin right)
    (uses : names name)
    : Answered left names pid start right (.unlink name) := by
  rcases mirrors.files.remove uses with ⟨error, failed, failedToo⟩ | ⟨removed, removedToo⟩
  · exact mirrors.idle _ (congrArg some (unlink_of_missing failed))
      (congrArg some (unlink_of_missing failedToo))
  · exact ⟨_, _, _, twin, congrArg some (unlink_of_removed removed),
      congrArg some (unlink_of_removed removedToo), mirrors.fds, mirrors.files.erase name⟩

/-- A trace is not seen by processes. -/
theorem traced (mirrors : left.Mirrors names pid start twin right) (kind : SyscallKind)
    (arguments outcome : String)
    : (left.trace pid kind arguments outcome).Mirrors names pid start twin
        (right.trace pid kind arguments outcome) := by
  constructor
  · rw [fds_trace, fds_trace]
    exact mirrors.fds
  · rw [trace_files, trace_files, fds_trace]
    exact mirrors.files

/-- A call on files gets the same reply in both kernels, which correspond after it too. -/
theorem call (mirrors : left.Mirrors names pid start twin right) {c : Syscall}
    (onFiles : c.onFiles = true) (uses : ∀ name, c.name? = some name → names name)
    : ∃ reply leftAfter rightAfter next,
        left.call pid c = some (reply, leftAfter)
        ∧ right.call pid c = some (reply, rightAfter)
        ∧ leftAfter.Mirrors names pid start next rightAfter := by
  have answered : Answered left names pid start right c := by
    cases c with
    | exec => cases onFiles
    | join => cases onFiles
    | creat name => exact mirrors.creat (uses name rfl)
    | openFile name => exact mirrors.openFile (uses name rfl)
    | read fd room => exact mirrors.read fd room
    | write fd bytes => exact mirrors.write fd bytes
    | close fd => exact mirrors.close fd
    | unlink name => exact mirrors.unlink (uses name rfl)
  obtain ⟨reply, leftAfter, rightAfter, next, leftDone, rightDone, after⟩ := answered
  exact ⟨reply, _, _, next, call_of_perform leftDone, call_of_perform rightDone, after.traced ..⟩

end Mirrors

end Kernel

end KernelConformance
