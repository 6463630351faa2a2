import Precedence.Number.Real

/-!
# Numbers in JSON

A number without point and exponent that has 64 bits is an integer, any other one is real. A real is
the significand scaled by a power of ten; digits beyond 64 bits of significand only count.
-/

namespace Precedence

open Precedence.Number

namespace Json

/-- A number in a text. -/
inductive Numeral where
  | natural (n : Nat)
  | negative (n : Int)
  | real (x : Float)

/-- The greatest significand. -/
def greatestSignificand : Nat := 1 <<< 64 - 1

/-- The largest exponent, in amount. -/
def greatestExponent : Nat := 1 <<< 31 - 1

/-- The digits of a whole part added to a significand as long as it has 64 bits; behind that digits
only count. -/
def addWhole (significand : Nat) (dropped : Nat) : List Char → Nat × Nat
  | [] => (significand, dropped)
  | c :: rest =>
    let next := 10 * significand + (c.toNat - '0'.toNat)
    if dropped = 0 && next ≤ greatestSignificand then addWhole next 0 rest
    else addWhole significand (dropped + 1) rest

/-- The digits of a fraction added to a significand as long as it has 64 bits; the digits behind
that do not count. -/
def addFraction (significand places : Nat) : List Char → Nat × Nat
  | [] => (significand, places)
  | c :: rest =>
    let next := 10 * significand + (c.toNat - '0'.toNat)
    if next ≤ greatestSignificand then addFraction next (places + 1) rest
    else (significand, places)

/-- The significand scaled by a power of ten, in steps that a real can hold. There is none beyond
the reals. -/
def scale (x : Float) (exponent : Int) : Nat → Option Float
  | 0 => some 0.0
  | steps + 1 =>
    if exponent.natAbs ≤ 308 then
      let power := Float.ofScientific 1 false exponent.natAbs
      if 0 ≤ exponent then
        if (x * power).isInf then none else some (x * power)
      else some (x / power)
    else if x == 0.0 then some x
    else if 0 ≤ exponent then none
    else scale (x / 1e308) (exponent + 308) steps

/-- The exponent behind its mark: an optional sign and at least one digit. -/
def readExponent (text : List Char) : Option (Bool × Nat × List Char) :=
  let (negative, text) := match text with
    | '+' :: rest => (false, rest)
    | '-' :: rest => (true, rest)
    | text => (false, text)
  let digits := text.takeWhile (·.isDigit)
  if digits.isEmpty then none
  else some (negative, digitsValue digits, text.drop digits.length)

/-- The real number with these parts. An exponent out of all bounds makes zero, unless it is
positive and the significand is not zero: then there is no number. -/
def realOfParts (negative : Bool) (significand : Nat) (exponent : Int)
    (explicit : Option (Bool × Nat)) : Option Float :=
  let sign (x : Float) : Float := if negative then -x else x
  match explicit with
  | none => (scale (Float.ofNat significand) exponent 8).map sign
  | some (down, amount) =>
    if greatestExponent < amount then
      if significand ≠ 0 && !down then none else some (sign 0.0)
    else
      let total := if down then exponent - Int.ofNat amount else exponent + Int.ofNat amount
      (scale (Float.ofNat significand) total 8).map sign

/-- A number whose minus sign, if it has one, has been taken. -/
def readNumeral (negative : Bool) (text : List Char) : Option (Numeral × List Char) :=
  let digits := text.takeWhile (·.isDigit)
  let rest := text.drop digits.length
  let leadingZero := digits.head? == some '0' && 1 < digits.length
  if digits.isEmpty || leadingZero then none
  else
    let (significand, dropped) := addWhole 0 0 digits
    let finish (significand : Nat) (exponent : Int) (rest : List Char) :
        Option (Numeral × List Char) :=
      match rest with
      | c :: behind =>
        if c == 'e' || c == 'E' then
          match readExponent behind with
          | none => none
          | some (down, amount, rest) =>
            (realOfParts negative significand exponent (some (down, amount))).map
              fun x => (.real x, rest)
        else (realOfParts negative significand exponent none).map fun x => (.real x, rest)
      | [] => (realOfParts negative significand exponent none).map fun x => (.real x, [])
    match rest with
    | '.' :: behind =>
      let places := behind.takeWhile (·.isDigit)
      if places.isEmpty then none
      else
        let (significand, counted) := addFraction significand 0 places
        finish significand (Int.ofNat dropped - Int.ofNat counted) (behind.drop places.length)
    | 'e' :: _ | 'E' :: _ => finish significand (Int.ofNat dropped) rest
    | rest =>
      if dropped ≠ 0 then finish significand (Int.ofNat dropped) rest
      else if !negative then some (.natural significand, rest)
      else if significand = 0 || 1 <<< 63 < significand then
        some (.real (-(Float.ofNat significand)), rest)
      else some (.negative (-(Int.ofNat significand)), rest)

end Json

end Precedence
