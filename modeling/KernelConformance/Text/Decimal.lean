/-! Decimal integers as text. A number is written with the fewest digits and a minus sign if it is
negative; a reader also takes a plus sign and leading zeros, and says why it refuses a text.
-/

namespace KernelConformance.Decimal

/-- Why a text is not a number of the wanted kind. -/
inductive ReadError where
  | empty
  | invalidDigit
  | tooLarge
  | tooSmall
  | zero
  deriving DecidableEq

/-- The wording of a refusal. -/
def ReadError.message : ReadError → String
  | .empty => "cannot parse integer from empty string"
  | .invalidDigit => "invalid digit found in string"
  | .tooLarge => "number too large to fit in target type"
  | .tooSmall => "number too small to fit in target type"
  | .zero => "number would be zero for non-zero type"

/-- A kind of integer: those from `low` to `high`. A minus sign is read only if some
are negative.
-/
structure Kind where
  low : Int
  high : Int
  deriving DecidableEq

/-- The signed integers of 32 bits. -/
def signed32 : Kind := ⟨-2147483648, 2147483647⟩

/-- The unsigned integers of 32 bits. -/
def unsigned32 : Kind := ⟨0, 4294967295⟩

/-- The unsigned integers of 64 bits. -/
def unsigned64 : Kind := ⟨0, 18446744073709551615⟩

/-- The value of an ASCII digit. -/
def digit? (c : Char) : Option Nat :=
  if '0' ≤ c ∧ c ≤ '9' then some (c.toNat - '0'.toNat) else none

/-- Reads the rest of a number whose digits so far have the value `value`. Each character is first
taken as a digit and then checked against the bound, so what comes first decides the error.
-/
def readDigits (kind : Kind) (negative : Bool) : Int → List Char → Except ReadError Int
  | value, [] => .ok value
  | value, c :: rest =>
      match digit? c with
      | none => .error .invalidDigit
      | some digit =>
          if negative then
            let next := value * 10 - digit
            if next < kind.low then .error .tooSmall else readDigits kind negative next rest
          else
            let next := value * 10 + digit
            if kind.high < next then .error .tooLarge else readDigits kind negative next rest

/-- Reads the characters of a number: an optional sign and at least one digit. -/
def readChars (kind : Kind) : List Char → Except ReadError Int
  | [] => .error .empty
  | ['+'] | ['-'] => .error .invalidDigit
  | '+' :: digits => readDigits kind false 0 digits
  | '-' :: digits =>
      if kind.low < 0 then readDigits kind true 0 digits else .error .invalidDigit
  | digits => readDigits kind false 0 digits

/-- Reads a text as a number of the given kind. -/
def read (kind : Kind) (text : String) : Except ReadError Int := readChars kind text.toList

/-- Reads a signed integer of 32 bits. -/
def readInt32 (text : String) : Except ReadError Int32 := (read signed32 text).map Int32.ofInt

/-- Reads an unsigned integer of 64 bits. -/
def readNat64 (text : String) : Except ReadError Nat := (read unsigned64 text).map Int.toNat

/-- Reads a positive integer of 32 bits. -/
def readPositive32 (text : String) : Except ReadError { n : Nat // 0 < n } := do
  let value ← read unsigned32 text
  if h : 0 < value.toNat then .ok ⟨value.toNat, h⟩ else .error .zero

/-- The text of a 32-bit integer. -/
def write (value : Int32) : String := toString value.toInt

end KernelConformance.Decimal
