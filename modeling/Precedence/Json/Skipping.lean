import Precedence.Json.Numeral
import Precedence.Json.Quotation

/-!
# Values that are not wanted

What stands behind a value of any kind, of which nothing is kept.
-/

namespace Precedence

open Precedence.Number Precedence.Text

namespace Json

/-- The text without blanks at its beginning. -/
def skipBlanks : List Char → List Char
  | [] => []
  | c :: rest =>
    if c == ' ' || c == '\n' || c == '\t' || c == '\r' then skipBlanks rest else c :: rest

/-- What stands behind a number whose minus sign, if it has one, has been taken. -/
def skipNumeral (text : List Char) : Option (List Char) :=
  let digits := text.takeWhile (·.isDigit)
  let rest := text.drop digits.length
  if digits.isEmpty || (digits.head? == some '0' && 1 < digits.length) then none
  else
    let skipExponent (rest : List Char) : Option (List Char) :=
      match rest with
      | c :: behind =>
        if c == 'e' || c == 'E' then (readExponent behind).map (·.2.2) else some rest
      | [] => some []
    match rest with
    | '.' :: behind =>
      let places := behind.takeWhile (·.isDigit)
      if places.isEmpty then none else skipExponent (behind.drop places.length)
    | rest => skipExponent rest

/-- What stands behind a word if the text begins with it. -/
def skipWord (word text : List Char) : Option (List Char) :=
  if word.isPrefixOf text then some (text.drop word.length) else none

mutual

/-- What stands behind a value of any kind. Each step takes a character. -/
def skipValue : Nat → List Char → Option (List Char)
  | 0, _ => none
  | steps + 1, text =>
    match skipBlanks text with
    | 'n' :: rest => skipWord ['u', 'l', 'l'] rest
    | 't' :: rest => skipWord ['r', 'u', 'e'] rest
    | 'f' :: rest => skipWord ['a', 'l', 's', 'e'] rest
    | '-' :: rest => skipNumeral rest
    | '"' :: rest => skipString rest
    | '[' :: rest =>
      match skipBlanks rest with
      | ']' :: rest => some rest
      | rest => skipItems steps rest
    | '\x7b' :: rest =>
      match skipBlanks rest with
      | '\x7d' :: rest => some rest
      | rest => skipFields steps rest
    | rest => skipNumeral rest

/-- What stands behind the items of a list and its closing bracket. -/
def skipItems : Nat → List Char → Option (List Char)
  | 0, _ => none
  | steps + 1, text =>
    match skipValue steps text with
    | none => none
    | some rest =>
      match skipBlanks rest with
      | ',' :: rest => skipItems steps rest
      | ']' :: rest => some rest
      | _ => none

/-- What stands behind the fields of a map and its closing brace. -/
def skipFields : Nat → List Char → Option (List Char)
  | 0, _ => none
  | steps + 1, text =>
    match skipBlanks text with
    | '"' :: rest =>
      match (skipString rest).map skipBlanks with
      | some (':' :: rest) =>
        match skipValue steps rest with
        | none => none
        | some rest =>
          match skipBlanks rest with
          | ',' :: rest => skipFields steps rest
          | '\x7d' :: rest => some rest
          | _ => none
      | _ => none
    | _ => none

end

end Json

end Precedence
