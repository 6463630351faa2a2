import Precedence.Number.Integer
import Precedence.Number.Shortest

/-!
# Real numbers as text

Real numbers are binary floating point numbers of 64 bits. `readReal` takes decimals with an
optional fraction and exponent, and the names of infinity and of no number; the value is the
nearest real. `writeReal` writes the shortest decimal that reads back, laid out as a `Layout`
says: `plain` never uses an exponent, `data` does outside of a range of magnitudes.
-/

namespace Precedence.Number

/-- Why a text is no real number. -/
inductive RealError where
  | empty
  | invalid
deriving DecidableEq

namespace RealError

/-- The error in words. -/
def message : RealError → String
  | empty => "cannot parse float from empty string"
  | invalid => "invalid float literal"

end RealError

/-- The number that a list of digits writes. -/
def digitsValue (digits : List Char) : Nat :=
  digits.foldl (fun n c => 10 * n + (c.toNat - '0'.toNat)) 0

/-- The real nearest to `digits · 10 ^ exponent`, where `count` bounds the number of digits.
Exponents that are out of all proportion end at infinity or at zero at once. -/
def nearestReal (digits count : Nat) (exponent : Int) : Float :=
  if digits = 0 then 0.0
  else if exponent + Int.ofNat count < -400 then 0.0
  else if exponent > 400 then 1.0 / 0.0
  else Float.ofScientific digits (decide (exponent < 0)) exponent.natAbs

/-- The exponent part of a decimal: nothing, or a mark, an optional sign and digits. -/
def readExponent : List Char → Except RealError Int
  | [] => .ok 0
  | c :: rest =>
    let (negative, digits) := match rest with
      | '-' :: digits => (true, digits)
      | '+' :: digits => (false, digits)
      | digits => (false, digits)
    if (c == 'e' || c == 'E') && !digits.isEmpty && digits.all (·.isDigit) then
      .ok (if negative then - Int.ofNat (digitsValue digits) else Int.ofNat (digitsValue digits))
    else .error .invalid

/-- A decimal without sign: digits before and behind an optional point, at least one in all, and
an optional exponent. -/
def readDecimal (text : List Char) : Except RealError Float := do
  let whole := text.takeWhile (·.isDigit)
  let rest := text.dropWhile (·.isDigit)
  let fraction := match rest with
    | '.' :: rest => rest.takeWhile (·.isDigit)
    | _ => []
  let rest := match rest with
    | '.' :: rest => rest.dropWhile (·.isDigit)
    | _ => rest
  if whole.isEmpty && fraction.isEmpty then throw .invalid
  let exponent ← readExponent rest
  let digits := whole ++ fraction
  return nearestReal (digitsValue digits) digits.length (exponent - Int.ofNat fraction.length)

/-- The real without sign that a text names or writes. -/
def readUnsigned (text : List Char) : Except RealError Float :=
  let lower := text.map Char.toLower
  if lower = ['i', 'n', 'f'] || lower = ['i', 'n', 'f', 'i', 'n', 'i', 't', 'y'] then
    .ok (1.0 / 0.0)
  else if lower = ['n', 'a', 'n'] then .ok (0.0 / 0.0)
  else readDecimal text

/-- Reads a real with an optional sign. -/
def readRealChars : List Char → Except RealError Float
  | [] => .error .empty
  | '+' :: rest => readUnsigned rest
  | '-' :: rest => (readUnsigned rest).map (- ·)
  | text => readUnsigned text

/-- Reads a real number. -/
def readReal (text : String) : Except RealError Float :=
  readRealChars text.toList

/-- How real numbers are laid out. -/
structure Layout where
  /-- The decimal exponents that are written with a point and no exponent; all if there is no
  range. -/
  positional : Option (Int × Int)
  /-- What stands behind the digits of a whole number. -/
  wholeEnd : String
  /-- What is written for numbers that are not finite. -/
  notFinite : Option String
  /-- The choice between two shortest decimals that are equally near. -/
  tie : Tie

namespace Layout

/-- Never an exponent, and no point in a whole number. -/
def plain : Layout where
  positional := none
  wholeEnd := ""
  notFinite := none
  tie := .up

/-- A point in every number, and an exponent from sixteen digits on and below five places. -/
def data : Layout where
  positional := some (-5, 15)
  wholeEnd := ".0"
  notFinite := some "null"
  tie := .even

end Layout

/-- Whether the sign bit of a real is set. Not a number has no sign. -/
def signBit (x : Float) : Bool :=
  1 <<< 63 ≤ x.toBits.toNat

/-- A decimal with a point among its digits, or zeros around them. -/
def writePositional (layout : Layout) (digits : List Char) (exponent : Int) : String :=
  if 0 ≤ exponent then
    String.ofList (digits ++ List.replicate exponent.toNat '0') ++ layout.wholeEnd
  else
    let places := exponent.natAbs
    if places < digits.length then
      let cut := digits.length - places
      String.ofList (digits.take cut ++ '.' :: digits.drop cut)
    else String.ofList ('0' :: '.' :: List.replicate (places - digits.length) '0' ++ digits)

/-- A decimal as one digit, a point and more digits where there are any, and an exponent. -/
def writeScientific (digits : List Char) (exponent : Int) : String :=
  let point := if 1 < digits.length then ['.'] else []
  let sign := if exponent < 0 then "e-" else "e+"
  String.ofList (digits.take 1 ++ point ++ digits.drop 1) ++ sign ++ toString exponent.natAbs

/-- The shortest decimal for a positive finite real. -/
def writePositive (layout : Layout) (bits : Nat) : String :=
  let d := (Binary.ofBits bits).shortest layout.tie
  let digits := Nat.toDigits 10 d.digits
  let magnitude := d.exponent + Int.ofNat digits.length - 1
  match layout.positional with
  | none => writePositional layout digits d.exponent
  | some (least, greatest) =>
    if least ≤ magnitude && magnitude ≤ greatest then writePositional layout digits d.exponent
    else writeScientific digits magnitude

/-- Writes a real number. -/
def writeReal (layout : Layout) (x : Float) : String :=
  let bits := x.toBits.toNat
  let magnitude := bits % (1 <<< 63)
  let sign := if 1 <<< 63 ≤ bits then "-" else ""
  if 0x7FF <<< 52 < magnitude then layout.notFinite.getD "NaN"
  else if magnitude = 0x7FF <<< 52 then layout.notFinite.getD (sign ++ "inf")
  else if magnitude = 0 then sign ++ "0" ++ layout.wholeEnd
  else sign ++ writePositive layout magnitude

end Precedence.Number
