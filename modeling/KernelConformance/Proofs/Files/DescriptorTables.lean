import KernelConformance.Kernel.Descriptors

/-! Descriptor tables, seen through their look-ups. A file gets the lowest number from two on that
is free, so the numbers given out are bounded by how many are in use.
-/

namespace KernelConformance

namespace Descriptors

variable {table after : Descriptors} {fd other : Fd} {handle : Handle}

-----------------------------------------------------------------------------------------
-- One slot
-----------------------------------------------------------------------------------------

theorem get?_eq_some
    : table.get? fd = some handle ↔ table.slots[fd.index]? = some (some handle) := by
  simp [get?, Option.join_eq_some_iff]

theorem index_lt_of_get? (held : table.get? fd = some handle)
    : fd.index < table.slots.length :=
  (List.getElem?_eq_some_iff.mp (get?_eq_some.mp held)).1

/-- A slot that changes is seen at its own number alone. -/
theorem get?_slot (inside : fd.index < table.slots.length) (slot : Option Handle) (other : Fd)
    : ({ table with slots := table.slots.set fd.index slot } : Descriptors).get? other
      = if other = fd then slot else table.get? other := by
  simp only [get?, List.getElem?_set]
  by_cases same : other = fd
  · subst same
    simp [inside]
  · have different : fd.index ≠ other.index := fun index => by
      cases fd
      cases other
      exact same (congrArg Fd.mk index.symm)
    simp [same, different]

/-- A slot that changes is no longer counted for what it was, but for what it is now. -/
theorem size_slot (inside : fd.index < table.slots.length) (slot : Option Handle)
    : ({ table with slots := table.slots.set fd.index slot } : Descriptors).size
      = table.size - (if (table.get? fd).isSome then 1 else 0) + if slot.isSome then 1 else 0 := by
  have found : table.get? fd = table.slots[fd.index] := by
    rw [get?, List.getElem?_eq_getElem inside, Option.join_some]
  rw [found]
  exact List.countP_set inside

theorem size_pos (held : table.get? fd = some handle) : 0 < table.size :=
  List.countP_pos_iff.mpr ⟨some handle, List.mem_of_getElem? (get?_eq_some.mp held), rfl⟩

-----------------------------------------------------------------------------------------
-- Descriptors in use
-----------------------------------------------------------------------------------------

@[simp] theorem limit_set (fd : Fd) (handle : Handle) (table : Descriptors)
    : (table.set fd handle).limit = table.limit :=
  rfl

@[simp] theorem length_set (fd : Fd) (handle : Handle) (table : Descriptors)
    : (table.set fd handle).slots.length = table.slots.length :=
  List.length_set

theorem get?_set (held : table.get? fd = some handle) (moved : Handle) (other : Fd)
    : (table.set fd moved).get? other = if other = fd then some moved else table.get? other :=
  get?_slot (index_lt_of_get? held) _ other

theorem size_set (held : table.get? fd = some handle) (moved : Handle)
    : (table.set fd moved).size = table.size := by
  have counted := size_slot (index_lt_of_get? held) (some moved)
  have positive := size_pos held
  rw [held] at counted
  exact counted.trans (Nat.sub_add_cancel positive)

/-- What it takes to free a descriptor, and what that leaves. -/
structure Erased (table : Descriptors) (fd : Fd) (after : Descriptors) : Prop where
  held : (table.get? fd).isSome = true
  get? : ∀ other, after.get? other = if other = fd then none else table.get? other
  size : after.size + 1 = table.size
  length : after.slots.length = table.slots.length
  limit : after.limit = table.limit

theorem erased_of_erase (done : table.erase fd = .ok after) : table.Erased fd after := by
  unfold erase at done
  split at done
  · cases done
  · next handle held =>
      cases done
      have inside := index_lt_of_get? held
      have counted := size_slot inside none
      have positive := size_pos held
      rw [held] at counted
      exact {
        held := by rw [held]; rfl
        get? := get?_slot inside none
        size := counted ▸ Nat.sub_add_cancel positive
        length := List.length_set
        limit := rfl
      }

theorem get?_initial {limit : Nat} (held : (initial limit).get? fd = some handle)
    : fd = .stdin ∧ handle = .stdin ∨ fd = .stdout ∧ handle = .stdout := by
  obtain ⟨index⟩ := fd
  match index with
  | 0 =>
      cases held
      exact .inl ⟨rfl, rfl⟩
  | 1 =>
      cases held
      exact .inr ⟨rfl, rfl⟩
  | index + 2 => simp [get?, initial] at held

-----------------------------------------------------------------------------------------
-- The lowest free descriptor
-----------------------------------------------------------------------------------------

theorem lowestFree_le (streams : firstFile ≤ table.slots.length)
    : table.lowestFree ≤ table.slots.length := by
  have inside : (table.slots.drop firstFile).findIdx Option.isNone
      ≤ (table.slots.drop firstFile).length := List.findIdx_le_length
  rw [List.length_drop] at inside
  unfold lowestFree
  omega

theorem get?_lowestFree (table : Descriptors) : table.get? ⟨table.lowestFree⟩ = none := by
  have slot : table.slots[table.lowestFree]?
      = (table.slots.drop firstFile)[(table.slots.drop firstFile).findIdx Option.isNone]? := by
    rw [List.getElem?_drop]
    rfl
  unfold get?
  rw [slot]
  by_cases inside : (table.slots.drop firstFile).findIdx Option.isNone
      < (table.slots.drop firstFile).length
  · have free : (table.slots.drop firstFile)[(table.slots.drop firstFile).findIdx
        Option.isNone].isNone = true := List.findIdx_getElem
    rw [List.getElem?_eq_getElem inside, Option.isNone_iff_eq_none.mp free]
    rfl
  · rw [List.getElem?_eq_none (Nat.le_of_not_lt inside)]
    rfl

/-- The descriptors below the lowest free one are in use. -/
theorem get?_of_lt_lowestFree (file : firstFile ≤ fd.index) (lower : fd.index < table.lowestFree)
    : (table.get? fd).isSome = true := by
  unfold lowestFree at lower
  have before : fd.index - firstFile
      < (table.slots.drop firstFile).findIdx Option.isNone := by omega
  have inside := Nat.lt_of_lt_of_le before List.findIdx_le_length
  have used := List.not_of_lt_findIdx before
  have slot : table.slots[fd.index]? = some (table.slots.drop firstFile)[fd.index - firstFile] := by
    rw [← List.getElem?_eq_getElem inside, List.getElem?_drop]
    congr 1
    omega
  rw [get?, slot]
  simpa using used

/-- The number of console streams that are closed. -/
def closedStreams (table : Descriptors) : Nat :=
  [Fd.stdin, Fd.stdout].countP fun fd => (table.get? fd).isNone

theorem closedStreams_le (table : Descriptors) : table.closedStreams ≤ 2 := List.countP_le_length

/-- Slots that are in use up to the first free one are counted, by induction on the slots. -/
theorem findIdx_isNone_le (slots : List (Option Handle))
    : slots.findIdx Option.isNone ≤ slots.countP Option.isSome := by
  induction slots with
  | nil => exact Nat.le_refl _
  | cons slot rest ih =>
      cases slot with
      | none => simp [List.findIdx_cons]
      | some handle =>
          simp only [List.findIdx_cons, Option.isNone_some, cond_false, List.countP_cons,
            Option.isSome_some, if_true]
          omega

/-- The lowest free descriptor follows those in use, as if the streams that are closed were too. -/
theorem lowestFree_le_size (streams : firstFile ≤ table.slots.length)
    : table.lowestFree ≤ table.size + table.closedStreams := by
  obtain ⟨slots, limit⟩ := table
  match slots, streams with
  | input :: output :: rest, _ =>
      have files := findIdx_isNone_le rest
      have both : (input :: output :: rest).countP Option.isSome
          + (Descriptors.mk (input :: output :: rest) limit).closedStreams
          = firstFile + rest.countP Option.isSome := by
        cases input <;> cases output <;>
          simp [closedStreams, get?, Fd.stdin, Fd.stdout, firstFile] <;> omega
      simp only [lowestFree, size, List.drop_succ_cons, List.drop_zero, firstFile] at both ⊢
      omega

/-- What it takes to put a handle into a table, and what that leaves. -/
structure Inserted (table : Descriptors) (handle : Handle) (fd : Fd) (after : Descriptors)
    : Prop where
  room : table.size < table.limit
  file : firstFile ≤ fd.index
  free : table.get? fd = none
  lower
    : ∀ other,
        firstFile ≤ other.index → other.index < fd.index → (table.get? other).isSome = true
  bound : fd.index < table.limit + table.closedStreams
  get? : ∀ other, after.get? other = if other = fd then some handle else table.get? other
  size : after.size = table.size + 1
  length : after.slots.length = max table.slots.length (fd.index + 1)
  limit : after.limit = table.limit

theorem Inserted.held (inserted : table.Inserted handle fd after)
    : after.get? fd = some handle := by
  rw [inserted.get?, if_pos rfl]

/-- A slot behind the last one is the next that can be taken. -/
theorem get?_append (handle : Handle) (other : Fd)
    : ({ table with slots := table.slots ++ [some handle] } : Descriptors).get? other
      = if other = ⟨table.slots.length⟩ then some handle else table.get? other := by
  obtain ⟨index⟩ := other
  simp only [get?, Fd.mk.injEq, List.getElem?_append]
  rcases Nat.lt_trichotomy index table.slots.length with inside | rfl | outside
  · simp [inside, Nat.ne_of_lt inside]
  · simp
  · have beyond : index - table.slots.length ≠ 0 := by omega
    have absent : ¬index < table.slots.length := by omega
    simp [absent, Nat.ne_of_gt outside, beyond]

/-- An insertion has found room, and takes the lowest free slot: one that there is, or one behind
the last.
-/
theorem insert_cases (streams : firstFile ≤ table.slots.length)
    (done : table.insert handle = .ok (fd, after))
    : table.size < table.limit
      ∧ fd = ⟨table.lowestFree⟩
      ∧ (fd.index < table.slots.length
          ∧ after = { table with slots := table.slots.set fd.index (some handle) }
        ∨ fd.index = table.slots.length
          ∧ after = { table with slots := table.slots ++ [some handle] }) := by
  simp only [insert] at done
  split at done
  · cases done
  · next free =>
      have room : table.size < table.limit := by simpa [isExhausted] using free
      have within := lowestFree_le streams
      split at done
      · next inside =>
          cases done
          exact ⟨room, rfl, .inl ⟨inside, rfl⟩⟩
      · next outside =>
          cases done
          exact ⟨room, rfl, .inr ⟨Nat.le_antisymm within (Nat.le_of_not_lt outside), rfl⟩⟩

theorem inserted_of_insert (streams : firstFile ≤ table.slots.length)
    (done : table.insert handle = .ok (fd, after))
    : table.Inserted handle fd after := by
  obtain ⟨room, rfl, change⟩ := insert_cases streams done
  have free := get?_lowestFree table
  have counted := lowestFree_le_size streams
  have effect
      : (∀ other, after.get? other
          = if other = ⟨table.lowestFree⟩ then some handle else table.get? other)
        ∧ after.size = table.size + 1
        ∧ after.slots.length = max table.slots.length (table.lowestFree + 1)
        ∧ after.limit = table.limit := by
    rcases change with ⟨inside, rfl⟩ | ⟨last, rfl⟩
    · refine ⟨get?_slot inside _, ?_, ?_, rfl⟩
      · rw [size_slot inside, free]
        rfl
      · have grown : max table.slots.length (table.lowestFree + 1) = table.slots.length :=
          Nat.max_eq_left inside
        rw [grown]
        exact List.length_set
    · dsimp only at last
      refine ⟨last ▸ get?_append handle, ?_, ?_, rfl⟩
      · simp [size]
      · simp [last]
  obtain ⟨found, size, length, limit⟩ := effect
  exact {
    room
    file := Nat.le_add_right _ _
    free
    lower := fun other file lower => get?_of_lt_lowestFree file lower
    bound := by dsimp only; omega
    get? := found
    size
    length
    limit
  }

-----------------------------------------------------------------------------------------
-- Tables within their limit
-----------------------------------------------------------------------------------------

/-- A table has the slots of the console, and neither more in use nor more slots than its limit
allows.
-/
structure WithinLimit (table : Descriptors) : Prop where
  streams : firstFile ≤ table.slots.length
  size : table.size ≤ max table.limit 2
  length : table.slots.length ≤ table.limit + 2

theorem withinLimit_initial (limit : Nat) : (initial limit).WithinLimit where
  streams := Nat.le_refl _
  size := Nat.le_max_right _ _
  length := Nat.le_add_left _ _

theorem WithinLimit.inserted (within : table.WithinLimit)
    (inserted : table.Inserted handle fd after)
    : after.WithinLimit := by
  have closed := closedStreams_le table
  constructor
  · rw [inserted.length]
    exact Nat.le_trans within.streams (Nat.le_max_left _ _)
  · rw [inserted.size, inserted.limit]
    exact Nat.le_trans inserted.room (Nat.le_max_left _ _)
  · have bound := inserted.bound
    have before := within.length
    rw [inserted.length, inserted.limit]
    omega

theorem WithinLimit.erased (within : table.WithinLimit) (erased : table.Erased fd after)
    : after.WithinLimit := by
  constructor
  · rw [erased.length]
    exact within.streams
  · have freed := erased.size
    have before := within.size
    rw [erased.limit]
    omega
  · rw [erased.length, erased.limit]
    exact within.length

theorem WithinLimit.set (within : table.WithinLimit) (held : table.get? fd = some handle)
    (moved : Handle)
    : (table.set fd moved).WithinLimit := by
  constructor
  · rw [length_set]
    exact within.streams
  · rw [size_set held]
    exact within.size
  · rw [length_set]
    exact within.length

/-- The descriptors in use, each once. -/
def inUse (table : Descriptors) : List Fd :=
  ((List.range table.slots.length).map Fd.mk).filter fun fd => (table.get? fd).isSome

theorem mem_inUse : fd ∈ table.inUse ↔ (table.get? fd).isSome = true := by
  have inside (used : (table.get? fd).isSome = true) : fd.index < table.slots.length := by
    obtain ⟨handle, held⟩ := Option.isSome_iff_exists.mp used
    exact index_lt_of_get? held
  simp only [inUse, List.mem_filter, List.mem_map, List.mem_range]
  constructor
  · exact fun member => member.2
  · exact fun used => ⟨⟨fd.index, inside used, rfl⟩, used⟩

theorem nodup_inUse (table : Descriptors) : table.inUse.Nodup := by
  have distinct : ((List.range table.slots.length).map Fd.mk).Nodup :=
    List.Pairwise.map Fd.mk (fun _ _ different same => different (congrArg Fd.index same))
      List.nodup_range
  exact distinct.filter _

theorem length_inUse (table : Descriptors) : table.inUse.length = table.size := by
  have slots : (List.range table.slots.length).map (fun index => table.slots[index]?.join)
      = table.slots := by
    apply List.ext_getElem
    · simp
    · intro index inside _
      simp at inside
      simp [inside]
  calc table.inUse.length
      = ((List.range table.slots.length).map fun index => table.slots[index]?.join).countP
          Option.isSome := by
        simp only [inUse, ← List.countP_eq_length_filter, List.countP_map]
        rfl
    _ = table.size := by rw [slots, size]

end Descriptors

end KernelConformance
