import Precedence.Pattern.Pending
import Precedence.Text.Blank
import Precedence.Text.Category
import Precedence.Text.CharSet
import Precedence.Text.Digit
import Precedence.Text.Fold
import Precedence.Text.Word

/-!
# Named sets of characters

The sets that a pattern can name: by a letter behind a backslash, by a word in brackets and colons,
or as a property of characters. Under the flag against case a set holds both cases of its letters.
Where sets hold bytes they are ASCII and have no complement, so that a match ends between
characters.
-/

namespace Precedence.Pattern

open Precedence.Text

/-- The ASCII characters. -/
def asciiSet : CharSet :=
  CharSet.range 0 0x7F

/-- The sets that are named in brackets and colons. All of them are ASCII. -/
def bracketSet? (name : List Char) : Option CharSet :=
  match String.ofList name with
  | "alnum" => some (CharSet.ofRuns [(0x30, 0x39), (0x41, 0x5A), (0x61, 0x7A)])
  | "alpha" => some (CharSet.ofRuns [(0x41, 0x5A), (0x61, 0x7A)])
  | "ascii" => some asciiSet
  | "blank" => some (CharSet.ofRuns [(0x9, 0x9), (0x20, 0x20)])
  | "cntrl" => some (CharSet.ofRuns [(0x0, 0x1F), (0x7F, 0x7F)])
  | "digit" => some (CharSet.range 0x30 0x39)
  | "graph" => some (CharSet.range 0x21 0x7E)
  | "lower" => some (CharSet.range 0x61 0x7A)
  | "print" => some (CharSet.range 0x20 0x7E)
  | "punct" =>
    some (CharSet.ofRuns [(0x21, 0x2F), (0x3A, 0x40), (0x5B, 0x60), (0x7B, 0x7E)])
  | "space" => some (CharSet.ofRuns [(0x9, 0xD), (0x20, 0x20)])
  | "upper" => some (CharSet.range 0x41 0x5A)
  | "word" => some (CharSet.ofRuns [(0x30, 0x39), (0x41, 0x5A), (0x5F, 0x5F), (0x61, 0x7A)])
  | "xdigit" => some (CharSet.ofRuns [(0x30, 0x39), (0x41, 0x46), (0x61, 0x66)])
  | _ => none

/-- The set of one of the letters `d`, `s` and `w`. -/
def letterSet (unicode : Bool) (letter : Char) : CharSet :=
  match letter with
  | 'd' => if unicode then decimalDigits else CharSet.range 0x30 0x39
  | 's' => if unicode then blanks else CharSet.ofRuns [(0x9, 0xD), (0x20, 0x20)]
  | _ =>
    if unicode then wordCharacters
    else CharSet.ofRuns [(0x30, 0x39), (0x41, 0x5A), (0x5F, 0x5F), (0x61, 0x7A)]

/-- A property name without case, blanks, underscores, hyphens and a leading `is`. -/
def plainName (name : List Char) : String :=
  let lower := (name.filter fun c => !(c == ' ' || c == '_' || c == '-')).map Char.toLower
  String.ofList (match lower with
    | 'i' :: 's' :: rest => rest
    | lower => lower)

/-- The set of a general category or of another property. -/
def categorySet? (name : String) : Option CharSet :=
  match name with
  | "l" | "letter" => some letters
  | "n" | "number" => some numbers
  | "nd" | "decimalnumber" | "digit" => some decimalDigits
  | "any" => some CharSet.all
  | "ascii" => some asciiSet
  | "whitespace" | "wspace" | "space" => some blanks
  | _ => none

/-- The set of a script. -/
def scriptSet? (name : String) : Option CharSet :=
  match name with
  | "greek" | "grek" => some greek
  | "han" | "hani" => some han
  | _ => none

/-- The set of a property, and whether the complement is meant. -/
def propertySet? (text : List Char) : Option (CharSet × Bool) :=
  let key := text.takeWhile fun c => !(c == '=' || c == ':' || c == '!')
  match text.drop key.length with
  | [] =>
    let name := plainName text
    ((categorySet? name).or (scriptSet? name)).map fun s => (s, false)
  | mark :: value =>
    let (negated, value) := match mark, value with
      | '!', '=' :: value => (true, value)
      | _, value => (false, value)
    let value := plainName value
    match plainName key with
    | "gc" | "generalcategory" => (categorySet? value).map fun s => (s, negated)
    | "sc" | "script" => (scriptSet? value).map fun s => (s, negated)
    | _ => none

/-- The scalar values that are not in the set. Where sets hold bytes there is no complement: it
would hold bytes that are no characters. -/
def complement (f : Flags) (s : CharSet) : Reader CharSet :=
  if f.unicode then return s.compl else failure

/-- The set with both cases of its letters where case does not matter. -/
def closeCase (f : Flags) (s : CharSet) : CharSet :=
  if !f.caseless then s
  else if f.unicode then s.closeCase
  else s.union (s.closeCase.inter asciiSet)

/-- The set, or its complement, after adding both cases. -/
def closed (f : Flags) (negated : Bool) (s : CharSet) : Reader CharSet :=
  let s := closeCase f s
  if negated then complement f s else return s

end Precedence.Pattern
