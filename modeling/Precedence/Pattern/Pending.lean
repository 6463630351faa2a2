import Precedence.Pattern.Flags
import Precedence.Text.Blank

/-!
# Patterns being read

A `Reader` takes characters from the front of what is left of a pattern. It knows the flags in force
there and the names of the groups so far, and fails on what is no pattern.
-/

namespace Precedence.Pattern

open Precedence.Text

/-- What is left to read, the flags in force and the names of groups met so far. -/
structure Pending where
  rest : List Char
  flags : Flags
  names : List (List Char)

/-- A reader of a part of a pattern. It fails on what is no pattern. -/
abbrev Reader (α : Type) : Type :=
  StateT Pending Option α

namespace Reader

/-- What is left without its blanks and comments. -/
def dropBlanks : Bool → List Char → List Char
  | _, [] => []
  | true, c :: rest => dropBlanks (c != '\n') rest
  | false, c :: rest =>
    if isBlank c then dropBlanks false rest
    else if c == '#' then dropBlanks true rest
    else c :: rest

/-- Skips blanks and comments where they mean nothing. -/
def skipBlanks : Reader Unit :=
  modify fun s => if s.flags.spaced then { s with rest := dropBlanks false s.rest } else s

/-- What is left. -/
def rest : Reader (List Char) := do
  return (← get).rest

/-- The flags in force. -/
def flags : Reader Flags := do
  return (← get).flags

/-- The next character, which stays. -/
def peek? : Reader (Option Char) := do
  return (← get).rest.head?

/-- The next character, which is taken. -/
def next : Reader Char := do
  match (← get).rest with
  | [] => failure
  | c :: rest =>
    modify fun s => { s with rest := rest }
    return c

/-- Takes a certain character. -/
def expect (c : Char) : Reader Unit := do
  if (← next) != c then failure

/-- Takes a text if it comes next. -/
def take? (text : List Char) : Reader Bool := do
  if text.isPrefixOf (← rest) then
    modify fun s => { s with rest := s.rest.drop text.length }
    return true
  else return false

/-- Takes characters as long as they satisfy a condition. -/
def takeWhile (p : Char → Bool) : Reader (List Char) := do
  let text := (← rest).takeWhile p
  modify fun s => { s with rest := s.rest.drop text.length }
  return text

/-- Reads a part of a pattern and restores the flags behind it. -/
def withOwnFlags {α : Type} (r : Reader α) : Reader α := do
  let f ← flags
  let a ← r
  modify fun s => { s with flags := f }
  return a

end Reader

end Precedence.Pattern
