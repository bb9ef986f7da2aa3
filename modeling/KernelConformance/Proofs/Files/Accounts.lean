import KernelConformance.Proofs.Files.ContentSteps
import Mathlib.Data.List.GetD
import Mathlib.Data.List.Induction

/-! The account of a file: the bytes that it was made of, and what was written since. It
says what the file contains without replaying the writes: every byte is that of the last
write which covers it.
-/

namespace KernelConformance

open Utf8 (Bytes)

-----------------------------------------------------------------------------------------
-- One write
-----------------------------------------------------------------------------------------

/-- Zeros behind the end read as what is not there. -/
theorem getD_zeroFilled (data : Bytes) (count index : Nat)
    : (data ++ List.replicate count 0).getD index 0 = data.getD index 0 := by
  rcases Nat.lt_or_ge index data.length with inside | outside
  · exact List.getD_append _ _ _ _ inside
  · rw [List.getD_append_right _ _ _ _ outside, List.getD_eq_default _ _ outside]
    simp [List.getD_eq_getElem?_getD, List.getElem?_replicate]
    split <;> rfl

theorem length_overlay (offset : Nat) (bytes data : Bytes)
    : (overlay offset bytes data).length = max data.length (offset + bytes.length) := by
  simp only [overlay, List.length_append, List.length_take, List.length_drop,
    List.length_replicate]
  omega

/-- Bytes that are put into a list which reaches to their end are found where they are put. -/
theorem getD_splice (bytes filled : Bytes) (offset index : Nat)
    (reaches : offset + bytes.length ≤ filled.length)
    : (filled.take offset ++ bytes ++ filled.drop (offset + bytes.length)).getD index 0
      = if offset ≤ index ∧ index < offset + bytes.length then bytes.getD (index - offset) 0
        else filled.getD index 0 := by
  have front : (filled.take offset).length = offset := by
    rw [List.length_take]
    omega
  have both : (filled.take offset ++ bytes).length = offset + bytes.length := by
    rw [List.length_append, front]
  rcases Nat.lt_or_ge index offset with before | within
  · have uncovered : ¬(offset ≤ index ∧ index < offset + bytes.length) := by omega
    rw [if_neg uncovered, List.getD_append _ _ _ _ (by omega),
      List.getD_append _ _ _ _ (by omega)]
    simp [List.getD_eq_getElem?_getD, before]
  · rcases Nat.lt_or_ge index (offset + bytes.length) with covered | behind
    · rw [if_pos ⟨within, covered⟩, List.getD_append _ _ _ _ (by omega),
        List.getD_append_right _ _ _ _ (by omega), front]
    · have uncovered : ¬(offset ≤ index ∧ index < offset + bytes.length) := by omega
      have position : offset + bytes.length + (index - (offset + bytes.length)) = index := by
        omega
      rw [if_neg uncovered, List.getD_append_right _ _ _ _ (by omega), both]
      simp [List.getD_eq_getElem?_getD, position]

/-- A write is found where it was put, and leaves every other byte as it was; what it leaves between
the end and its offset is zero.
-/
theorem getD_overlay (offset : Nat) (bytes data : Bytes) (index : Nat)
    : (overlay offset bytes data).getD index 0
      = if offset ≤ index ∧ index < offset + bytes.length then bytes.getD (index - offset) 0
        else data.getD index 0 := by
  have reaches : offset + bytes.length
      ≤ (data ++ List.replicate (offset + bytes.length - data.length) 0).length := by
    rw [List.length_append, List.length_replicate]
    omega
  exact (getD_splice bytes _ offset index reaches).trans (by rw [getD_zeroFilled])

-----------------------------------------------------------------------------------------
-- Accounts
-----------------------------------------------------------------------------------------

namespace Patch

/-- The end of the bytes that a write covers. -/
def last (patch : Patch) : Nat := patch.offset + patch.bytes.length

/-- Whether a write puts a byte at an index. -/
def covers (index : Nat) (patch : Patch) : Bool := patch.offset ≤ index ∧ index < patch.last

theorem covers_iff {index : Nat} {patch : Patch}
    : patch.covers index = true
      ↔ patch.offset ≤ index ∧ index < patch.offset + patch.bytes.length :=
  decide_eq_true_iff

end Patch

/-- The bytes that a file was made of and the writes since, oldest first. -/
structure Account where
  base : Bytes
  patches : List Patch
  deriving DecidableEq

namespace Account

/-- The account of a file that nothing was done to. -/
def blank : Account := ⟨[], []⟩

/-- An account after a change. A file that is emptied or filled is made anew. -/
def record (account : Account) : Change → Account
  | .emptied => blank
  | .filled bytes => ⟨bytes, []⟩
  | .patched patch => ⟨account.base, account.patches ++ [patch]⟩

/-- The greatest end among the base and the writes. -/
def size (account : Account) : Nat :=
  (account.patches.map Patch.last).foldl max account.base.length

/-- The byte at an index: that of the last write which covers it, else that of the base, and zero
where the base has none.
-/
def byte (account : Account) (index : Nat) : UInt8 :=
  match account.patches.reverse.find? (Patch.covers index) with
  | some patch => patch.bytes.getD (index - patch.offset) 0
  | none => account.base.getD index 0

/-- The bytes that come of replaying an account. -/
def contents (account : Account) : Bytes :=
  account.patches.foldl (fun data patch => overlay patch.offset patch.bytes data) account.base

variable {account : Account}

theorem contents_record (account : Account) (change : Change)
    : (account.record change).contents = change.apply account.contents := by
  cases change with
  | emptied => rfl
  | filled bytes => rfl
  | patched patch => simp [record, contents, Change.apply]

/-- Changes that are recorded one after the other are made, by induction on them. -/
theorem contents_records (changes : List Change) (account : Account)
    : (changes.foldl record account).contents
      = changes.foldl Change.apply account.contents := by
  induction changes generalizing account with
  | nil => rfl
  | cons change rest ih => rw [List.foldl_cons, List.foldl_cons, ih, contents_record]

theorem size_patched (account : Account) (patch : Patch)
    : (account.record (.patched patch)).size = max account.size patch.last := by
  simp [record, size]

/-- One more write decides the bytes that it covers. -/
theorem byte_patched (account : Account) (patch : Patch) (index : Nat)
    : (account.record (.patched patch)).byte index
      = if patch.covers index = true then patch.bytes.getD (index - patch.offset) 0
        else account.byte index := by
  simp only [record, byte, List.reverse_append, List.reverse_singleton, List.singleton_append,
    List.find?_cons]
  cases patch.covers index <;> rfl

/-- Replaying an account gives a file of its size and its bytes, by induction on the writes from the
last one on.
-/
theorem contents_eq (account : Account)
    : account.contents.length = account.size
      ∧ ∀ index, account.contents.getD index 0 = account.byte index := by
  obtain ⟨base, patches⟩ := account
  induction patches using List.reverseRecOn with
  | nil => exact ⟨rfl, fun _ => rfl⟩
  | append_singleton patches patch ih =>
      obtain ⟨length, bytes⟩ := ih
      have grown := contents_record ⟨base, patches⟩ (.patched patch)
      have size := size_patched ⟨base, patches⟩ patch
      have byte := byte_patched ⟨base, patches⟩ patch
      simp only [record, Change.apply] at grown size byte
      rw [grown]
      constructor
      · rw [length_overlay, length, size, Patch.last]
      · intro index
        rw [getD_overlay, bytes, byte]
        simp only [Patch.covers_iff]

end Account

/-- The account of an inode, by the log of all changes. -/
def accountOf (inode : Inode) (log : List (Inode × Change)) : Account :=
  (changesOf inode log).foldl Account.record .blank

end KernelConformance
