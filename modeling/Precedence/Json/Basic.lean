import Precedence.Number.Real

/-!
# JSON data

The data that values are saved as: numbers, strings and lists, written without any blanks. A
string escapes quotes, backslashes and controls and keeps every other character as it is.
-/

namespace Precedence

open Precedence.Number

/-- Data made of numbers, strings and lists. -/
inductive Json where
  | integer (n : Int)
  | real (x : Float)
  | string (text : String)
  | list (items : List Json)
deriving Inhabited

namespace Json

/-- One character inside a string. -/
def escape (c : Char) : List Char :=
  match c with
  | '"' => ['\\', '"']
  | '\\' => ['\\', '\\']
  | '\x08' => ['\\', 'b']
  | '\x0c' => ['\\', 'f']
  | '\n' => ['\\', 'n']
  | '\r' => ['\\', 'r']
  | '\t' => ['\\', 't']
  | c =>
    if c.toNat < 0x20 then
      ['\\', 'u', '0', '0', Nat.digitChar (c.toNat / 16), Nat.digitChar (c.toNat % 16)]
    else [c]

/-- A string between quotes. -/
def writeString (text : List Char) : List Char :=
  '"' :: text.flatMap escape ++ ['"']

mutual

/-- The text of a datum. -/
def write : Json → List Char
  | integer n => (toString n).toList
  | real x => (writeReal .data x).toList
  | string text => writeString text.toList
  | list items => '[' :: writeItems items ++ [']']

/-- The items of a list with commas between them. -/
def writeItems : List Json → List Char
  | [] => []
  | [item] => write item
  | item :: rest => write item ++ ',' :: writeItems rest

end

/-- The datum as text. -/
def text (data : Json) : String :=
  String.ofList data.write

end Json

end Precedence
