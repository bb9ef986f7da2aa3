import KernelConformance.Text.Decimal
import KernelConformance.Text.Utf8

/-! Integers as records of fixed width: the decimal text, filled up with NUL. -/

namespace KernelConformance.Record

open Utf8 (Bytes)

/-- The number of bytes of a record. -/
def width : Nat := 20

/-- The record of an integer. -/
def encode (value : Int32) : Bytes :=
  let text := Utf8.encode (Decimal.write value)
  text ++ List.replicate (width - text.length) 0

/-- Why bytes are not a record. -/
inductive DecodeError where
  | empty
  | notText (error : Utf8.DecodeError)
  | notNumber (error : Decimal.ReadError)
  deriving DecidableEq

/-- The wording of a failure. -/
def DecodeError.message : DecodeError → String
  | .empty => "empty record"
  | .notText error => "record is not text: " ++ error.message
  | .notNumber error => "record is not a number: " ++ error.message

/-- The bytes in front of the first NUL. -/
def payload (record : Bytes) : Bytes := record.takeWhile (· ≠ 0)

/-- The integer of a record. What follows the first NUL does not matter. -/
def decode (record : Bytes) : Except DecodeError Int32 :=
  match Utf8.decode (payload record) with
  | .error error => .error (.notText error)
  | .ok [] => .error .empty
  | .ok chars =>
      match Decimal.readChars Decimal.signed32 chars with
      | .error error => .error (.notNumber error)
      | .ok value => .ok (Int32.ofInt value)

end KernelConformance.Record
