/-! Finite maps as association lists in which every key occurs once, the newest key first. -/

namespace KernelConformance

/-- A finite map from keys to values; no key has two entries. -/
structure FiniteMap (κ ν : Type) where
  entries : List (κ × ν)
  keysUnique : (entries.map Prod.fst).Nodup

namespace FiniteMap

variable {κ ν : Type}

/-- The map without entries. -/
def empty : FiniteMap κ ν := ⟨[], List.nodup_nil⟩

instance : Inhabited (FiniteMap κ ν) := ⟨empty⟩

instance [DecidableEq κ] [DecidableEq ν] : DecidableEq (FiniteMap κ ν) := fun left right =>
  decidable_of_iff (left.entries = right.entries)
    ⟨fun h => by cases left; cases right; cases h; rfl, fun h => h ▸ rfl⟩

/-- The keys, newest first. -/
def keys (map : FiniteMap κ ν) : List κ := map.entries.map Prod.fst

/-- The number of keys. -/
def size (map : FiniteMap κ ν) : Nat := map.entries.length

/-- Keeps the entries that pass `keep`. -/
def filter (keep : κ → ν → Bool) (map : FiniteMap κ ν) : FiniteMap κ ν where
  entries := map.entries.filter fun entry => keep entry.1 entry.2
  keysUnique := map.keysUnique.sublist (List.filter_sublist.map Prod.fst)

/-- Replaces every value by what `f` makes of it. -/
def mapValues (f : κ → ν → ν) (map : FiniteMap κ ν) : FiniteMap κ ν where
  entries := map.entries.map fun entry => (entry.1, f entry.1 entry.2)
  keysUnique := by simpa [Function.comp_def] using map.keysUnique

@[simp] theorem size_empty : (empty : FiniteMap κ ν).size = 0 := rfl

@[simp] theorem size_mapValues (f : κ → ν → ν) (map : FiniteMap κ ν)
    : (map.mapValues f).size = map.size := by
  simp [size, mapValues]

/-- Filtering adds no entries. -/
theorem size_filter_le (keep : κ → ν → Bool) (map : FiniteMap κ ν)
    : (map.filter keep).size ≤ map.size :=
  List.length_filter_le _ _

variable [DecidableEq κ]

/-- The value at `key`, if it has one. -/
def get? (map : FiniteMap κ ν) (key : κ) : Option ν :=
  (map.entries.find? fun entry => entry.1 = key).map Prod.snd

/-- Whether `key` has a value. -/
def contains (map : FiniteMap κ ν) (key : κ) : Bool := (map.get? key).isSome

/-- Replaces the value in the first entry for `key`. -/
def replaceFirst (key : κ) (value : ν) : List (κ × ν) → List (κ × ν)
  | [] => []
  | entry :: rest =>
      if entry.1 = key then (key, value) :: rest else entry :: replaceFirst key value rest

/-- A replacement leaves the keys as they are, by induction on the entries. -/
theorem map_fst_replaceFirst (key : κ) (value : ν) (entries : List (κ × ν))
    : (replaceFirst key value entries).map Prod.fst = entries.map Prod.fst := by
  induction entries with
  | nil => rfl
  | cons entry rest ih =>
      by_cases same : entry.1 = key
      · simp [replaceFirst, same]
      · simp [replaceFirst, same, ih]

/-- A key has a value exactly if it is among the keys. -/
theorem contains_iff {map : FiniteMap κ ν} {key : κ}
    : map.contains key = true ↔ key ∈ map.keys := by
  simp [contains, get?, keys]

/-- Gives `key` the value `value`: in its place if it has one already, in front otherwise. -/
def insert (key : κ) (value : ν) (map : FiniteMap κ ν) : FiniteMap κ ν :=
  if h : map.contains key then
    ⟨replaceFirst key value map.entries, by
      simpa only [map_fst_replaceFirst] using map.keysUnique⟩
  else
    ⟨(key, value) :: map.entries, List.nodup_cons.mpr ⟨mt contains_iff.mpr h, map.keysUnique⟩⟩

/-- Removes `key` and its value. -/
def erase (key : κ) (map : FiniteMap κ ν) : FiniteMap κ ν :=
  map.filter fun other _ => other ≠ key

@[simp] theorem get?_empty (key : κ) : (empty : FiniteMap κ ν).get? key = none := rfl

/-- A look-up finds exactly the values that are listed with the key, as no key is listed twice. -/
theorem get?_eq_some {map : FiniteMap κ ν} {key : κ} {value : ν}
    : map.get? key = some value ↔ (key, value) ∈ map.entries := by
  obtain ⟨entries, unique⟩ := map
  simp only [get?]
  induction entries with
  | nil => simp
  | cons head tail ih =>
      obtain ⟨other, old⟩ := head
      simp only [List.map_cons, List.nodup_cons] at unique
      by_cases same : other = key
      · subst same
        have absent : (other, value) ∉ tail := fun member =>
          unique.1 (List.mem_map.mpr ⟨_, member, rfl⟩)
        simp [absent, eq_comm]
      · have different : ¬key = other := fun h => same h.symm
        simp [same, different, ih unique.2]

/-- Mapping the values maps what a look-up finds. -/
@[simp] theorem get?_mapValues (f : κ → ν → ν) (map : FiniteMap κ ν) (key : κ)
    : (map.mapValues f).get? key = (map.get? key).map (f key) := by
  obtain ⟨entries, unique⟩ := map
  simp only [get?, mapValues]
  clear unique
  induction entries with
  | nil => rfl
  | cons head tail ih =>
      by_cases same : head.1 = key
      · simp [same]
      · simpa [same] using ih

/-- A replacement in a list changes what is found for its key, if anything is, by induction on the
entries.
-/
theorem find?_replaceFirst (key : κ) (value : ν) (entries : List (κ × ν)) (other : κ)
    : ((replaceFirst key value entries).find? fun entry => entry.1 = other).map Prod.snd
      = if other = key then ((entries.find? fun entry => entry.1 = key).map fun _ => value)
        else (entries.find? fun entry => entry.1 = other).map Prod.snd := by
  induction entries with
  | nil => simp [replaceFirst]
  | cons entry rest ih => grind [replaceFirst]

/-- After an insertion the key has its new value and every other key what it had. -/
theorem get?_insert (key : κ) (value : ν) (map : FiniteMap κ ν) (other : κ)
    : (map.insert key value).get? other = if other = key then some value else map.get? other := by
  simp only [insert]
  split
  · next member =>
      obtain ⟨old, found⟩ := Option.isSome_iff_exists.mp member
      simp only [get?] at found ⊢
      rw [find?_replaceFirst]
      split
      · obtain ⟨entry, present, _⟩ := Option.map_eq_some_iff.mp found
        simp [present]
      · rfl
  · next absent =>
      by_cases same : other = key
      · simp [get?, same]
      · have different : ¬key = other := fun h => same h.symm
        simp [get?, same, different]

/-- A filtered map holds the values that pass. -/
theorem get?_filter (keep : κ → ν → Bool) (map : FiniteMap κ ν) (key : κ)
    : (map.filter keep).get? key = (map.get? key).filter (keep key) := by
  ext value
  simp [get?_eq_some, filter, Option.filter_eq_some_iff]

/-- After a removal the key has no value and every other key what it had. -/
theorem get?_erase (key : κ) (map : FiniteMap κ ν) (other : κ)
    : (map.erase key).get? other = if other = key then none else map.get? other := by
  rw [erase, get?_filter]
  by_cases same : other = key
  · subst same; cases map.get? other <;> simp [Option.filter]
  · cases map.get? other <;> simp [Option.filter, same]

/-- A map in which nothing is found has no entries. -/
theorem size_eq_zero {map : FiniteMap κ ν} (absent : ∀ key, map.get? key = none)
    : map.size = 0 := by
  apply List.length_eq_zero_iff.mpr
  apply List.eq_nil_iff_forall_not_mem.mpr
  intro entry member
  have found := get?_eq_some.mpr member
  simp [absent] at found

/-- A removal adds no entries. -/
theorem size_erase_le (key : κ) (map : FiniteMap κ ν) : (map.erase key).size ≤ map.size :=
  size_filter_le _ map

/-- An insertion adds an entry exactly if the key is new. -/
theorem size_insert (key : κ) (value : ν) (map : FiniteMap κ ν)
    : (map.insert key value).size = if map.contains key then map.size else map.size + 1 := by
  simp only [insert]
  split
  · simpa [size] using congrArg List.length (map_fst_replaceFirst key value map.entries)
  · rfl

end FiniteMap

end KernelConformance
