import Precedence.Pattern.Named
import Precedence.Pattern.Regex

/-!
# Atoms

The parts of a pattern that have no parts themselves: characters, named sets and edges. All but
plain characters are written with a backslash.
-/

namespace Precedence.Pattern

open Precedence.Text Reader

/-- What a part of a pattern without any structure stands for. -/
inductive Atom where
  /-- A character; `byte` if it was given by the number of a byte. -/
  | literal (c : Char) (byte : Bool)
  | set (s : CharSet)
  | edge (e : Edge)

/-- The character with a code point that is written in hexadecimal. -/
def hexChar (digits : List Char) (byte : Bool) : Reader Atom := do
  let value ← digits.foldlM (fun n c => (hexValue? c).map (16 * n + ·)) 0
  if h : value.isValidChar then return .literal (Char.ofNatAux value h) byte else failure

/-- A given number of characters, without blanks between them where those mean nothing. -/
def takeCount : Nat → Reader (List Char)
  | 0 => return []
  | n + 1 => do
    skipBlanks
    let c ← next
    return c :: (← takeCount n)

/-- A code point: so many digits, or any number of them between braces. -/
def readHex (count : Nat) : Reader Atom := do
  skipBlanks
  if (← peek?) = some '\x7b' then
    expect '\x7b'
    let digits ← takeWhile (· != '\x7d')
    expect '\x7d'
    let digits := if (← flags).spaced then digits.filter (!isBlank ·) else digits
    if digits.isEmpty then failure
    hexChar digits false
  else hexChar (← takeCount count) (count == 2)

/-- A property: one letter, or a name between braces. -/
def readProperty (negated : Bool) : Reader Atom := do
  let f ← flags
  if !f.unicode then failure
  skipBlanks
  let c ← next
  let name ←
    if c == '\x7b' then do
      let name ← takeWhile (· != '\x7d')
      expect '\x7d'
      pure name
    else if c == '\\' then failure
    else pure [c]
  let (s, inverse) ← propertySet? name
  return .set (← closed f (negated != inverse) s)

/-- A word boundary, which may be told apart by a name between braces. -/
def readBoundary : Reader Atom := do
  let ascii := !(← flags).unicode
  let special : List (String × Edge) :=
    [("\x7bstart\x7d", .wordStart ascii), ("\x7bend\x7d", .wordEnd ascii),
      ("\x7bstart-half\x7d", .wordStartHalf ascii), ("\x7bend-half\x7d", .wordEndHalf ascii)]
  let text ← rest
  match special.find? fun e => e.1.toList.isPrefixOf text with
  | some (name, e) =>
    let _ ← take? name.toList
    return .edge e
  | none =>
    -- An open brace with a letter behind it can only be a misspelt name.
    match text with
    | '\x7b' :: c :: _ => if c.isAlpha || c == '-' then failure
    | _ => pure ()
    return .edge (.boundary ascii)

/-- What an escape stands for; the backslash has been taken. -/
def readEscape : Reader Atom := do
  let f ← flags
  let c ← next
  match c with
  | 'x' => readHex 2
  | 'u' => readHex 4
  | 'U' => readHex 8
  | 'p' => readProperty false
  | 'P' => readProperty true
  | 'd' | 's' | 'w' => return .set (letterSet f.unicode c)
  | 'D' | 'S' | 'W' => return .set (← complement f (letterSet f.unicode c.toLower))
  | 'a' => return .literal '\x07' false
  | 'f' => return .literal '\x0c' false
  | 't' => return .literal '\t' false
  | 'n' => return .literal '\n' false
  | 'r' => return .literal '\r' false
  | 'v' => return .literal '\x0b' false
  | 'A' => return .edge .textStart
  | 'z' => return .edge .textEnd
  | 'b' => readBoundary
  | 'B' => return .edge (.noBoundary (!f.unicode))
  | '<' => return .edge (.wordStart (!f.unicode))
  | '>' => return .edge (.wordEnd (!f.unicode))
  | c => if c.isAlphanum || 0x7F < c.toNat then failure else return .literal c false

/-- A character as a pattern. A byte that is no ASCII character is none. -/
def literalRegex (c : Char) (byte : Bool) : Reader Regex := do
  let f ← flags
  if byte && !f.unicode && 0x7F < c.toNat then failure
  if f.caseless && (f.unicode || c.toNat ≤ 0x7F) then
    return .chars (closeCase f (CharSet.single c))
  else return .char c

/-- An atom as a pattern. -/
def atomRegex : Atom → Reader Regex
  | .literal c byte => literalRegex c byte
  | .set s => return .chars s
  | .edge e => return .edge e

end Precedence.Pattern
