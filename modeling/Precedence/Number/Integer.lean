/-!
# Integers of 64 bits

Integers are `Int`s between the least and the greatest signed 64-bit integer. `narrow` is the one
gate through which a result has to pass; `readInteger` reads decimal digits with an optional sign
and stops at the first character that makes the text no such integer.
-/

namespace Precedence.Number

/-- The least integer of 64 bits. -/
def leastInteger : Int := -9223372036854775808

/-- The greatest integer of 64 bits. -/
def greatestInteger : Int := 9223372036854775807

/-- Whether an integer has 64 bits. -/
def Fits (n : Int) : Prop :=
  leastInteger ≤ n ∧ n ≤ greatestInteger

instance (n : Int) : Decidable (Fits n) :=
  inferInstanceAs (Decidable (_ ∧ _))

/-- The integer itself if it has 64 bits. -/
def narrow? (n : Int) : Option Int :=
  if Fits n then some n else none

theorem narrow?_eq_some_iff {n m : Int} : narrow? n = some m ↔ Fits n ∧ m = n := by
  unfold narrow?
  split <;> simp_all [eq_comm]

theorem narrow?_of_fits {n : Int} (h : Fits n) : narrow? n = some n := by
  simp [narrow?, h]

/-- Why a text is no integer. -/
inductive IntegerError where
  | empty
  | invalidDigit
  | tooLarge
  | tooSmall
deriving DecidableEq

namespace IntegerError

/-- The error in words. -/
def message : IntegerError → String
  | empty => "cannot parse integer from empty string"
  | invalidDigit => "invalid digit found in string"
  | tooLarge => "number too large to fit in target type"
  | tooSmall => "number too small to fit in target type"

end IntegerError

/-- The value of an ASCII digit. -/
def digitValue? (c : Char) : Option Nat :=
  if c.isDigit then some (c.toNat - '0'.toNat) else none

/-- Reads digits behind those that make up `sofar`, for a positive number. -/
def readPositive (sofar : Int) : List Char → Except IntegerError Int
  | [] => .ok sofar
  | c :: rest =>
    match digitValue? c with
    | none => .error .invalidDigit
    | some d =>
      let next := 10 * sofar + d
      if next ≤ greatestInteger then readPositive next rest else .error .tooLarge

/-- Reads digits behind those that make up `sofar`, for a negative number. -/
def readNegative (sofar : Int) : List Char → Except IntegerError Int
  | [] => .ok sofar
  | c :: rest =>
    match digitValue? c with
    | none => .error .invalidDigit
    | some d =>
      let next := 10 * sofar - d
      if leastInteger ≤ next then readNegative next rest else .error .tooSmall

/-- Reads an optional sign and at least one digit. -/
def readIntegerChars : List Char → Except IntegerError Int
  | [] => .error .empty
  | ['+'] | ['-'] => .error .invalidDigit
  | '+' :: digits => readPositive 0 digits
  | '-' :: digits => readNegative 0 digits
  | digits => readPositive 0 digits

/-- Reads an integer of 64 bits. -/
def readInteger (text : String) : Except IntegerError Int :=
  readIntegerChars text.toList

end Precedence.Number
