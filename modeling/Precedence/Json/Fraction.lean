import Precedence.Exact.Rational
import Precedence.Json.Skipping
import Precedence.Text.Quoted

/-!
# Reading fractions from JSON

A fraction is saved as a list of the tag `/`, a numerator and a denominator. `Rational.ofJson` reads
the text once from the beginning, so that the first thing that is wrong decides: whether the text
is no JSON there, or JSON of another kind than is wanted there. The fraction is reduced.
-/

namespace Precedence

open Precedence.Number Precedence.Text

/-- What stands in a text where something else is wanted. -/
inductive Found where
  | integer (n : Int)
  | real (x : Float)
  | bool (b : Bool)
  | string (text : String)
  | null
  | sequence
  | map

/-- What is wanted. -/
inductive Wanted where
  | fraction
  | string
  | integer
deriving DecidableEq

/-- Why a text holds no fraction. -/
inductive JsonError where
  /-- The text is no JSON. -/
  | malformed
  /-- A list has the wrong number of elements. -/
  | length (n : Nat)
  /-- The tag is another one. -/
  | tag (text : String)
  /-- An integer has more than 64 bits. -/
  | range (n : Nat)
  /-- A value is of another kind. -/
  | type (found : Found) (wanted : Wanted)
  /-- The numbers make no fraction. -/
  | arithmetic (cause : ArithmeticError)

namespace Found

/-- What was found, in words. -/
def describe : Found → String
  | integer n => "integer \x60" ++ toString n ++ "\x60"
  | real x => "floating point \x60" ++ writeReal .data x ++ "\x60"
  | bool b => "boolean \x60" ++ toString b ++ "\x60"
  | string text => "string " ++ quoted text
  | null => "null"
  | sequence => "sequence"
  | map => "map"

end Found

namespace Wanted

/-- What is wanted, in words. -/
def describe : Wanted → String
  | fraction => "a tagged rational [\"/\", numerator, denominator]"
  | string => "a string"
  | integer => "i64"

end Wanted

namespace JsonError

/-- The error in words. -/
def message : JsonError → String
  | malformed => "malformed data"
  | length n => "invalid length " ++ toString n ++ ", expected " ++ Wanted.fraction.describe
  | tag text =>
    "invalid value: " ++ (Found.string text).describe ++ ", expected " ++ Wanted.fraction.describe
  | range n =>
    "invalid value: " ++ (Found.integer (Int.ofNat n)).describe ++ ", expected " ++
      Wanted.integer.describe
  | type found wanted =>
    "invalid type: " ++ found.describe ++ ", expected " ++ wanted.describe
  | arithmetic cause => cause.message

end JsonError

/-- A number as something found. -/
def Json.Numeral.found : Json.Numeral → Found
  | .natural n => .integer (Int.ofNat n)
  | .negative n => .integer n
  | .real x => .real x

namespace Json

/-- The error for a text where something else is wanted: what stands there, or that it is no
JSON. -/
def unexpected (wanted : Wanted) (text : List Char) : JsonError :=
  let ofWord (word rest : List Char) (found : Found) : JsonError :=
    if (skipWord word rest).isSome then .type found wanted else .malformed
  let ofNumeral (r : Option (Numeral × List Char)) : JsonError :=
    match r with
    | some (n, _) => .type n.found wanted
    | none => .malformed
  match text with
  | 'n' :: rest => ofWord ['u', 'l', 'l'] rest .null
  | 't' :: rest => ofWord ['r', 'u', 'e'] rest (.bool true)
  | 'f' :: rest => ofWord ['a', 'l', 's', 'e'] rest (.bool false)
  | '-' :: rest => ofNumeral (readNumeral true rest)
  | '"' :: rest =>
    match readString [] rest with
    | some (chars, _) => .type (.string (String.ofList chars)) wanted
    | none => .malformed
  | '[' :: _ => .type .sequence wanted
  | '\x7b' :: _ => .type .map wanted
  | text => ofNumeral (readNumeral false text)

/-- A string, and what stands behind it. -/
def wantString (text : List Char) : Except JsonError (List Char × List Char) :=
  match skipBlanks text with
  | '"' :: rest =>
    match readString [] rest with
    | some r => .ok r
    | none => .error .malformed
  | text => .error (unexpected .string text)

/-- An integer of 64 bits, and what stands behind it. -/
def wantInteger (text : List Char) : Except JsonError (Int × List Char) :=
  let text := skipBlanks text
  let read (negative : Bool) (digits : List Char) : Except JsonError (Int × List Char) :=
    match readNumeral negative digits with
    | none => .error .malformed
    | some (.negative n, rest) => .ok (n, rest)
    | some (.real x, _) => .error (.type (.real x) .integer)
    | some (.natural n, rest) =>
      if Int.ofNat n ≤ greatestInteger then .ok (Int.ofNat n, rest) else .error (.range n)
  match text with
  | '-' :: rest => read true rest
  | text =>
    if text.head?.any (·.isDigit) then read false text else .error (unexpected .integer text)

/-- Goes to the next element of a list, or finds that there is none. -/
def nextElement (first : Bool) (text : List Char) : Except JsonError (Option (List Char)) :=
  match skipBlanks text with
  | [] => .error .malformed
  | ']' :: _ => .ok none
  | c :: rest =>
    if first then .ok (some (c :: rest))
    else if c != ',' then .error .malformed
    else
      match skipBlanks rest with
      | [] | ']' :: _ => .error .malformed
      | rest => .ok (some rest)

/-- The elements of a fraction behind its opening bracket, and what stands at its closing one. -/
def readFraction (text : List Char) : Except JsonError (Rational × List Char) := do
  let some text ← nextElement true text | throw (.length 0)
  let (tag, text) ← wantString text
  if tag ≠ ['/'] then throw (.tag (String.ofList tag))
  let some text ← nextElement false text | throw (.length 1)
  let (numer, text) ← wantInteger text
  let some text ← nextElement false text | throw (.length 2)
  let (denom, text) ← wantInteger text
  match ← nextElement false text with
  | some text =>
    if (skipValue (text.length + 1) text).isSome then throw (.length 4) else throw .malformed
  | none =>
    match Rational.reduce numer denom with
    | .ok q => return (q, text)
    | .error e => throw (.arithmetic e)

/-- A fraction, with nothing but blanks around it. -/
def readWhole (text : List Char) : Except JsonError Rational :=
  match skipBlanks text with
  | [] => .error .malformed
  | '[' :: rest =>
    match readFraction rest with
    | .error e => .error e
    | .ok (q, rest) =>
      match skipBlanks rest with
      | ']' :: rest => if (skipBlanks rest).isEmpty then .ok q else .error .malformed
      | _ => .error .malformed
  | text => .error (unexpected .fraction text)

end Json

namespace Rational

/-- The fraction that a JSON text holds. -/
def ofJson (text : String) : Except JsonError Rational :=
  Json.readWhole text.toList

end Rational

end Precedence
