import KernelConformance.Proofs.Text.Decoding
import KernelConformance.Proofs.Text.Numerals
import KernelConformance.Suite.Record

/-! Records hold their integers: every record has the same width and is read back as the integer
that it was made of.
-/

namespace KernelConformance

open Utf8 (Bytes)

namespace Utf8

-----------------------------------------------------------------------------------------
-- Texts of one byte per character
-----------------------------------------------------------------------------------------

/-- The byte of a character that has only one. -/
def asciiByte (c : Char) : UInt8 := UInt8.ofNat c.toNat

theorem utf8EncodeChar_of_ascii {c : Char} (ascii : c.toNat ≤ 127)
    : String.utf8EncodeChar c = [asciiByte c] := by
  unfold String.utf8EncodeChar
  exact if_pos ascii

/-- ASCII characters have one byte each, by induction on them. -/
theorem flatMap_of_ascii {chars : List Char} (ascii : ∀ c ∈ chars, c.toNat ≤ 127)
    : chars.flatMap String.utf8EncodeChar = chars.map asciiByte := by
  induction chars with
  | nil => rfl
  | cons c rest ih =>
      rw [List.flatMap_cons, utf8EncodeChar_of_ascii (ascii c List.mem_cons_self),
        ih fun other member => ascii other (List.mem_cons_of_mem _ member)]
      rfl

theorem encode_of_ascii {text : String} (ascii : ∀ c ∈ text.toList, c.toNat ≤ 127)
    : encode text = text.toList.map asciiByte :=
  flatMap_of_ascii ascii

theorem toNat_asciiByte {c : Char} (ascii : c.toNat ≤ 127) : (asciiByte c).toNat = c.toNat := by
  rw [asciiByte, UInt8.toNat_ofNat']
  exact Nat.mod_eq_of_lt (by omega)

theorem decode_of_ascii {chars : List Char} (ascii : ∀ c ∈ chars, c.toNat ≤ 127)
    : decode (chars.map asciiByte) = .ok chars := by
  rw [← flatMap_of_ascii ascii]
  exact decode_flatMap chars

/-- A text of ASCII characters has as many bytes as characters, by induction on them. -/
theorem byteSize_of_ascii {text : String} (ascii : ∀ c ∈ text.toList, c.toNat ≤ 127)
    : text.utf8ByteSize = text.toList.length := by
  obtain ⟨chars, rfl⟩ : ∃ chars, text = String.ofList chars :=
    ⟨text.toList, String.ofList_toList.symm⟩
  rw [String.toList_ofList] at ascii ⊢
  induction chars with
  | nil => rfl
  | cons c rest ih =>
      obtain ⟨first, others⟩ := List.forall_mem_cons.mp ascii
      have one : c.utf8Size = 1 := Char.utf8Size_eq_one_iff.mpr first
      rw [String.ofList_cons, String.utf8ByteSize_append, String.utf8ByteSize_singleton, one,
        ih others, List.length_cons, Nat.add_comm]

end Utf8

namespace Decimal

/-- The text of an integer is a sign, if any, and digits. -/
theorem mem_write {value : Int32} {c : Char} (member : c ∈ (write value).toList)
    : c = '-' ∨ c.isDigit = true := by
  have digits {n : Nat} (member : c ∈ Nat.toDigits 10 n) : c.isDigit = true :=
    Nat.isDigit_of_mem_toDigits (by decide) (by decide) member
  rcases toList_write value with ⟨n, -, text⟩ | ⟨n, -, text⟩
  · exact .inr (digits (text ▸ member))
  · rw [text, List.mem_cons] at member
    exact member.imp_right digits

theorem toNat_of_mem_write {value : Int32} {c : Char} (member : c ∈ (write value).toList)
    : 0 < c.toNat ∧ c.toNat ≤ 127 := by
  rcases mem_write member with rfl | digit
  · decide
  · have bounds : 48 ≤ c.toNat ∧ c.toNat ≤ 57 := by
      simpa [Char.isDigit, UInt32.le_iff_toNat_le] using digit
    omega

theorem ascii_write (value : Int32) : ∀ c ∈ (write value).toList, c.toNat ≤ 127 :=
  fun _ member => (toNat_of_mem_write member).2

/-- An integer of 32 bits has at most ten digits and a sign. -/
theorem length_write_le (value : Int32) : (write value).toList.length ≤ 11 := by
  have lower := value.le_toInt
  have upper := value.toInt_lt
  have digits {n : Nat} (small : n < 10 ^ 10) : (Nat.toDigits 10 n).length ≤ 10 :=
    (Nat.length_toDigits_le_iff (by decide) (by decide)).mpr small
  rcases toList_write value with ⟨n, whole, text⟩ | ⟨n, whole, text⟩ <;> rw [text]
  · exact Nat.le_succ_of_le (digits (by omega))
  · exact Nat.succ_le_succ (digits (by omega))

theorem byteSize_write_le (value : Int32) : (write value).utf8ByteSize ≤ 11 := by
  rw [Utf8.byteSize_of_ascii (ascii_write value)]
  exact length_write_le value

end Decimal

namespace Record

theorem encode_eq (value : Int32)
    : encode value
      = (Decimal.write value).toList.map Utf8.asciiByte
        ++ List.replicate (width - (Decimal.write value).toList.length) 0 := by
  rw [encode, Utf8.encode_of_ascii (Decimal.ascii_write value), List.length_map]

@[simp] theorem length_encode (value : Int32) : (encode value).length = width := by
  have short := Decimal.length_write_le value
  rw [encode_eq]
  simp only [List.length_append, List.length_map, List.length_replicate, width]
  omega

/-- The NULs behind a text are not part of what is read. -/
theorem payload_encode (value : Int32)
    : payload (encode value) = (Decimal.write value).toList.map Utf8.asciiByte := by
  have text : ∀ byte
    ∈ (Decimal.write value).toList.map Utf8.asciiByte, decide (byte ≠ 0) = true := by
    intro byte member
    obtain ⟨c, written, rfl⟩ := List.mem_map.mp member
    obtain ⟨positive, ascii⟩ := Decimal.toNat_of_mem_write written
    rw [decide_eq_true_eq]
    intro zero
    rw [← Utf8.toNat_asciiByte ascii, zero] at positive
    cases positive
  rw [payload, encode_eq, List.takeWhile_append_of_pos text]
  cases width - (Decimal.write value).toList.length <;> simp [List.replicate_succ]

/-- A record is read back as the integer that it was made of. -/
@[simp] theorem decode_encode (value : Int32) : decode (encode value) = .ok value := by
  have read := Decimal.readChars_write value
  rw [decode, payload_encode, Utf8.decode_of_ascii (Decimal.ascii_write value)]
  cases chars : (Decimal.write value).toList with
  | nil =>
      rw [chars] at read
      cases read
  | cons c rest =>
      rw [chars] at read
      simp [read]

end Record

end KernelConformance
