import Precedence.Text.Digit

/-!
# Strings in JSON

Strings stand in quotes, with escapes for quotes, controls and numbered UTF-16 units. Of two halves
of a pair the second follows the first.
-/

namespace Precedence

open Precedence.Text

namespace Json

/-- The number of four hexadecimal digits. -/
def hexFour? (a b c d : Char) : Option Nat := do
  return ((← hexValue? a) * 16 + (← hexValue? b)) * 256 + (← hexValue? c) * 16 + (← hexValue? d)

/-- The character of an escape of one letter. -/
def escaped? (c : Char) : Option Char :=
  match c with
  | '"' => some '"'
  | '\\' => some '\\'
  | '/' => some '/'
  | 'b' => some '\x08'
  | 'f' => some '\x0c'
  | 'n' => some '\n'
  | 'r' => some '\r'
  | 't' => some '\t'
  | _ => none

/-- The text of a string behind its opening quote, and what stands behind its closing quote. -/
def readString (sofar : List Char) : List Char → Option (List Char × List Char)
  | [] => none
  | '"' :: rest => some (sofar.reverse, rest)
  | '\\' :: 'u' :: a :: b :: c :: d :: rest =>
    match hexFour? a b c d with
    | none => none
    | some n =>
      if 0xD800 ≤ n ∧ n ≤ 0xDBFF then
        -- The first half of a pair; the second one has to follow.
        match rest with
        | '\\' :: 'u' :: a :: b :: c :: d :: rest =>
          match hexFour? a b c d with
          | none => none
          | some m =>
            if 0xDC00 ≤ m ∧ m ≤ 0xDFFF then
              readString
                (Char.ofNat ((n - 0xD800) * 0x400 + (m - 0xDC00) + 0x10000) :: sofar) rest
            else none
        | _ => none
      else if 0xDC00 ≤ n ∧ n ≤ 0xDFFF then none
      else readString (Char.ofNat n :: sofar) rest
  | '\\' :: c :: rest =>
    match escaped? c with
    | none => none
    | some c => readString (c :: sofar) rest
  | c :: rest => if c.toNat < 0x20 then none else readString (c :: sofar) rest

/-- What stands behind a string whose opening quote has been taken. The halves of a pair need not
match in a string that is not wanted. -/
def skipString : List Char → Option (List Char)
  | [] => none
  | '"' :: rest => some rest
  | '\\' :: 'u' :: a :: b :: c :: d :: rest =>
    if (hexFour? a b c d).isSome then skipString rest else none
  | '\\' :: c :: rest => if (escaped? c).isSome then skipString rest else none
  | c :: rest => if c.toNat < 0x20 then none else skipString rest

end Json

end Precedence
