import Mathlib.Algebra.Group.Int.Defs
import KernelConformance.Proofs.Text.NumeralGrammar
import KernelConformance.Proofs.Text.Records

/-! The records as a code: every integer is kept by its record whatever follows the first NUL, and
every list of bytes is read as the integer that its text denotes, or refused for the one reason that
applies to it.
-/

namespace KernelConformance.Record

open Utf8 (Bytes)

-----------------------------------------------------------------------------------------
-- Bytes in front of the first NUL
-----------------------------------------------------------------------------------------

/-- No byte in front of the first NUL is a NUL. -/
theorem ne_zero_of_mem_payload {record : Bytes} {byte : UInt8} (member : byte ∈ payload record)
    : byte ≠ 0 := by
  have text := List.all_takeWhile (p := fun byte : UInt8 => decide (byte ≠ 0)) (l := record)
  simpa using List.all_eq_true.mp text byte member

/-- What follows a NUL is not part of what is read. -/
theorem payload_append_zero {front : Bytes} (text : ∀ byte ∈ front, byte ≠ 0) (more : Bytes)
    : payload (front ++ 0 :: more) = front := by
  rw [payload, List.takeWhile_append_of_pos (by simpa using text)]
  simp

theorem payload_payload_append_zero (record more : Bytes)
    : payload (payload record ++ 0 :: more) = payload record :=
  payload_append_zero (fun _ member => ne_zero_of_mem_payload member) more

/-- What is in front of the first NUL of a record is the text of its integer. -/
theorem payload_encode_eq (value : Int32)
    : payload (encode value) = Utf8.encode (Decimal.write value) := by
  rw [payload_encode, Utf8.encode_of_ascii (Decimal.ascii_write value)]

theorem length_payload_encode_le (value : Int32) : (payload (encode value)).length ≤ 11 := by
  rw [payload_encode, List.length_map]
  exact Decimal.length_write_le value

/-- A record is a text and at least one NUL. -/
theorem encode_eq_append (value : Int32)
    : encode value
      = payload (encode value) ++ 0 :: List.replicate (19 - (payload (encode value)).length) 0 := by
  have short := length_payload_encode_le value
  have room : 20 - (payload (encode value)).length
      = 19 - (payload (encode value)).length + 1 := by
    omega
  rw [← List.replicate_succ, ← room, payload_encode_eq]
  rfl

/-- Bytes are read by what is in front of their first NUL. -/
theorem decode_congr {record other : Bytes} (same : payload record = payload other)
    : decode record = decode other := by
  rw [decode, decode, same]

-----------------------------------------------------------------------------------------
-- Writing
-----------------------------------------------------------------------------------------

/-- What the record of an integer keeps. -/
structure Keeps (value : Int32) : Prop where
  fits : (Utf8.encode (Decimal.write value)).length ≤ 20
  width : (encode value).length = 20
  read : decode (encode value) = .ok value
  followed : ∀ more, decode (encode value ++ more) = .ok value
  padded : ∀ padding, decode (payload (encode value) ++ 0 :: padding) = .ok value
  apart : ∀ other, encode value = encode other ↔ value = other

/-- The record of an integer keeps it. -/
theorem keeps (value : Int32) : Keeps value := by
  have padded (padding : Bytes)
      : decode (payload (encode value) ++ 0 :: padding) = .ok value := by
    rw [← decode_encode value]
    exact decode_congr (payload_payload_append_zero (encode value) padding)
  refine ⟨?_, length_encode value, decode_encode value, ?_, padded, ?_⟩
  · rw [← payload_encode_eq]
    exact Nat.le_trans (length_payload_encode_le value) (by decide)
  · intro more
    rw [encode_eq_append, List.append_assoc]
    exact padded _
  · intro other
    constructor
    · intro same
      have read := decode_encode value
      rw [same, decode_encode] at read
      exact (Except.ok.inj read).symm
    · intro same
      rw [same]

-----------------------------------------------------------------------------------------
-- Numerals as bytes
-----------------------------------------------------------------------------------------

/-- Whether the bytes are a numeral of this number. -/
def Numeral (bytes : Bytes) (value : Int) : Prop :=
  ∃ text : String, Utf8.encode text = bytes ∧ Decimal.Denotes text.toList value

/-- Whether the bytes are the canonical numeral of this number. -/
def CanonicalNumeral (bytes : Bytes) (value : Int) : Prop :=
  ∃ text : String, Utf8.encode text = bytes ∧ Decimal.Canonical text.toList value

/-- A text is a numeral exactly if its characters are, since no other text has its bytes. -/
theorem numeral_iff {bytes : Bytes} {chars : List Char} (text : Utf8.decode bytes = .ok chars)
    {value : Int}
    : Numeral bytes value ↔ Decimal.Denotes chars value := by
  constructor
  · intro ⟨other, same, denotes⟩
    have read : Utf8.decode bytes = .ok other.toList := Utf8.decode_eq_ok_iff.mpr same
    rw [text] at read
    rw [Except.ok.inj read]
    exact denotes
  · intro denotes
    refine ⟨String.ofList chars, ?_, ?_⟩
    · rw [Utf8.encode, String.toList_ofList]
      exact Utf8.decode_eq_ok_iff.mp text
    · rw [String.toList_ofList]
      exact denotes

/-- The canonical numeral of a number is the text that is written for it. -/
theorem canonicalNumeral_iff {bytes : Bytes} {value : Int32}
    : CanonicalNumeral bytes value.toInt ↔ Utf8.encode (Decimal.write value) = bytes := by
  constructor
  · intro ⟨text, same, canonical⟩
    have written : text = Decimal.write value :=
      String.toList_inj.mp (Decimal.canonical_iff.mp canonical)
    rw [← written]
    exact same
  · intro same
    exact ⟨Decimal.write value, same, Decimal.canonical_iff.mpr rfl⟩

theorem Numeral.valid {bytes : Bytes} {value : Int} (numeral : Numeral bytes value)
    : bytes.toByteArray.IsValidUTF8 := by
  obtain ⟨text, same, -⟩ := numeral
  rw [Utf8.isValidUTF8_iff]
  exact ⟨text.toList, Utf8.decode_eq_ok_iff.mpr same⟩

theorem Numeral.unique {bytes : Bytes} {value other : Int} (numeral : Numeral bytes value)
    (again : Numeral bytes other)
    : value = other := by
  obtain ⟨chars, text⟩ := Utf8.isValidUTF8_iff.mp numeral.valid
  rw [numeral_iff text] at numeral again
  exact numeral.unique again

theorem valid_nil : ([] : Bytes).toByteArray.IsValidUTF8 :=
  Utf8.isValidUTF8_iff.mpr ⟨[], Utf8.decode_eq_ok_iff.mpr List.flatMap_nil⟩

theorem not_numeral_nil {value : Int} : ¬ Numeral [] value := by
  rw [numeral_iff (Utf8.decode_eq_ok_iff.mpr List.flatMap_nil)]
  intro denotes
  cases denotes with
  | unsigned numeral => exact numeral.1 rfl

/-- A text is read as an integer of 32 bits exactly if it is a numeral of one. -/
theorem readChars_signed32_iff {bytes : Bytes} {chars : List Char}
    (text : Utf8.decode bytes = .ok chars) {value : Int}
    : Decimal.readChars Decimal.signed32 chars = .ok value
      ↔ Numeral bytes value ∧ -2 ^ 31 ≤ value ∧ value ≤ 2 ^ 31 - 1 := by
  rw [Decimal.readChars_eq_ok_iff (by decide) (by decide), numeral_iff text]
  simp [Decimal.signed32]

/-- A list of bytes is the record of an integer exactly if it has the width of one, begins with the
canonical numeral of the integer, and has NULs behind it.
-/
theorem encode_eq_iff {record : Bytes} {value : Int32}
    : encode value = record
      ↔ record.length = 20
        ∧ CanonicalNumeral (payload record) value.toInt
        ∧ ∀ byte ∈ record.drop (payload record).length, byte = 0 := by
  rw [canonicalNumeral_iff]
  constructor
  · intro same
    subst same
    refine ⟨length_encode value, (payload_encode_eq value).symm, ?_⟩
    intro byte member
    rw [payload_encode_eq, encode, List.drop_left] at member
    exact List.eq_of_mem_replicate member
  · intro known
    obtain ⟨width, text, zeros⟩ := known
    have rest : record.drop (payload record).length
        = List.replicate (20 - (payload record).length) 0 := by
      rw [List.eq_replicate_iff, List.length_drop, width]
      exact ⟨rfl, zeros⟩
    have front : record.take (payload record).length = payload record :=
      (List.prefix_iff_eq_take.mp (List.takeWhile_prefix _)).symm
    calc encode value
        = payload record ++ List.replicate (20 - (payload record).length) 0 := by
          rw [encode, text]
          rfl
      _ = record.take (payload record).length ++ record.drop (payload record).length := by
          rw [rest, front]
      _ = record := List.take_append_drop _ _

-----------------------------------------------------------------------------------------
-- Reading
-----------------------------------------------------------------------------------------

/-- A text that is not empty and is no numeral of an integer of 32 bits. -/
structure OtherText (bytes : Bytes) : Prop where
  some : bytes ≠ []
  valid : bytes.toByteArray.IsValidUTF8
  outside : ∀ value : Int, Numeral bytes value → value < -2 ^ 31 ∨ 2 ^ 31 - 1 < value

/-- The results of reading bytes, by the kind of these. -/
inductive Outcome (bytes : Bytes) : Except DecodeError Int32 → Prop
  | number {value} (numeral : Numeral bytes value.toInt) : Outcome bytes (.ok value)
  | empty (none : bytes = []) : Outcome bytes (.error .empty)
  | notText {failure} (invalid : ¬ bytes.toByteArray.IsValidUTF8)
    : Outcome bytes (.error (.notText failure))
  | notNumber {failure} (other : OtherText bytes) : Outcome bytes (.error (.notNumber failure))

/-- A text that is not empty is read as the number that it is a numeral of, or as none. -/
theorem outcome_of_text {bytes : Bytes} {chars : List Char} (text : Utf8.decode bytes = .ok chars)
    (some : bytes ≠ [])
    : Outcome bytes
        (match Decimal.readChars Decimal.signed32 chars with
        | .error error => .error (.notNumber error)
        | .ok value => .ok (Int32.ofInt value)) := by
  cases read : Decimal.readChars Decimal.signed32 chars with
  | error failure =>
      refine .notNumber ⟨some, Utf8.isValidUTF8_iff.mpr ⟨chars, text⟩, ?_⟩
      intro value numeral
      have missed : ¬ (-2 ^ 31 ≤ value ∧ value ≤ 2 ^ 31 - 1) := by
        intro inside
        rw [(readChars_signed32_iff text).mpr ⟨numeral, inside⟩] at read
        cases read
      omega
  | ok value =>
      obtain ⟨numeral, low, high⟩ := (readChars_signed32_iff text).mp read
      refine .number ?_
      rw [Int32.toInt_ofInt_of_le low (by omega)]
      exact numeral

/-- Every list of bytes is read as its text says, by cases on the text. -/
theorem outcome (record : Bytes) : Outcome (payload record) (decode record) := by
  rw [decode]
  cases text : Utf8.decode (payload record) with
  | error failure =>
      refine .notText ?_
      rw [Utf8.isValidUTF8_iff, text]
      intro known
      obtain ⟨_, impossible⟩ := known
      cases impossible
  | ok chars =>
      have same := Utf8.decode_eq_ok_iff.mp text
      cases chars with
      | nil => exact .empty same.symm
      | cons c rest =>
          have some : payload record ≠ [] := by
            intro none
            rw [none, Utf8.decode_eq_ok_iff.mpr List.flatMap_nil] at text
            cases text
          exact outcome_of_text text some

section Kinds

variable {bytes : Bytes} {result : Except DecodeError Int32} (known : Outcome bytes result)
include known

/-- The kinds of bytes exclude each other: no other kind is a numeral of the integer. -/
theorem Outcome.number_iff {value : Int32} : result = .ok value ↔ Numeral bytes value.toInt := by
  constructor
  · intro same
    subst same
    cases known with
    | number numeral => exact numeral
  · intro numeral
    cases known with
    | number again => rw [Int32.toInt_inj.mp (again.unique numeral)]
    | empty none => exact absurd (none ▸ numeral) not_numeral_nil
    | notText invalid => exact absurd numeral.valid invalid
    | notNumber other =>
        have lower := value.le_toInt
        have upper := value.toInt_lt
        have missed := other.outside _ numeral
        omega

theorem Outcome.empty_iff : result = .error .empty ↔ bytes = [] := by
  constructor
  · intro same
    subst same
    cases known with
    | empty none => exact none
  · intro none
    cases known with
    | number numeral => exact absurd (none ▸ numeral) not_numeral_nil
    | empty _ => rfl
    | notText invalid => exact absurd (none ▸ valid_nil) invalid
    | notNumber other => exact absurd none other.some

theorem Outcome.notText_iff
    : (∃ failure, result = .error (.notText failure)) ↔ ¬ bytes.toByteArray.IsValidUTF8 := by
  constructor
  · intro ⟨failure, same⟩
    subst same
    cases known with
    | notText invalid => exact invalid
  · intro invalid
    cases known with
    | number numeral => exact absurd numeral.valid invalid
    | empty none => exact absurd (none ▸ valid_nil) invalid
    | notText _ => exact ⟨_, rfl⟩
    | notNumber other => exact absurd other.valid invalid

theorem Outcome.notNumber_iff
    : (∃ failure, result = .error (.notNumber failure)) ↔ OtherText bytes := by
  constructor
  · intro ⟨failure, same⟩
    subst same
    cases known with
    | notNumber other => exact other
  · intro other
    cases known with
    | @number value numeral =>
        have lower := value.le_toInt
        have upper := value.toInt_lt
        have missed := other.outside _ numeral
        omega
    | empty none => exact absurd none other.some
    | notText invalid => exact absurd other.valid invalid
    | notNumber _ => exact ⟨_, rfl⟩

end Kinds

-----------------------------------------------------------------------------------------
-- The code
-----------------------------------------------------------------------------------------

/-- What a list of bytes is read as, by the bytes in front of its first NUL, and when it is the
record of an integer.
-/
structure Reading (record : Bytes) : Prop where
  number : ∀ value : Int32, decode record = .ok value ↔ Numeral (payload record) value.toInt
  empty : decode record = .error .empty ↔ payload record = []
  notText
    : (∃ failure, decode record = .error (.notText failure))
      ↔ ¬ (payload record).toByteArray.IsValidUTF8
  notNumber
    : (∃ failure, decode record = .error (.notNumber failure)) ↔ OtherText (payload record)
  whole
    : ∀ value : Int32,
        decode record = .ok value ∧ encode value = record
        ↔ record.length = 20
          ∧ CanonicalNumeral (payload record) value.toInt
          ∧ ∀ byte ∈ record.drop (payload record).length, byte = 0

theorem reading (record : Bytes) : Reading record := by
  have known := outcome record
  refine ⟨fun _ => known.number_iff, known.empty_iff, known.notText_iff, known.notNumber_iff, ?_⟩
  intro value
  rw [← encode_eq_iff]
  constructor
  · exact And.right
  · intro same
    exact ⟨same ▸ decode_encode value, same⟩

/-- Records keep every integer, and everything else that is read is told apart by its text. -/
theorem codec_exact (value : Int32) (record : Bytes) : Keeps value ∧ Reading record :=
  ⟨keeps value, reading record⟩

example : decode (Utf8.encode "+007" ++ [0, 0xff]) = .ok 7 := by decide

end KernelConformance.Record
