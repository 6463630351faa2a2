import Precedence.Pattern.Bracket
import Precedence.Text.Alphanumeric

/-!
# The notation of patterns

Patterns are written in the usual notation: atoms, sets in brackets, groups, alternatives,
repetitions, and flags that hold to the end of the group in which they are set. There are no back
references, and nothing looks ahead or behind. What is no pattern has no tree; the reader does not
say why.

The functions that call each other take a bound on their steps. Each step takes at least one
character, so the length of the pattern bounds them.
-/

namespace Precedence.Pattern

open Precedence.Text Reader

/-- A number of rounds, with blanks around it. -/
def readCount : Reader Nat := do
  let _ ← takeWhile isBlank
  let digits ← takeWhile (·.isDigit)
  let _ ← takeWhile isBlank
  let value := digits.foldl (fun n c => 10 * n + (c.toNat - '0'.toNat)) 0
  if digits.isEmpty || 1 <<< 32 ≤ value then failure
  return value

/-- The least and the greatest number of rounds between braces. -/
def readCounts : Reader (Nat × Option Nat) := do
  expect '\x7b'
  skipBlanks
  let least ← readCount
  if (← peek?) = some ',' then
    expect ','
    skipBlanks
    if (← peek?) = some '\x7d' then
      expect '\x7d'
      return (least, none)
    else
      let most ← readCount
      expect '\x7d'
      if least ≤ most then return (least, some most) else failure
  else
    expect '\x7d'
    return (least, some least)

/-- What was read of a sequence: patterns, and flags set between them, the last one first. -/
abbrev Parts : Type :=
  List (Option Regex)

/-- Repeats the last pattern of a sequence. -/
def repeatLast (parts : Parts) (least : Nat) (most : Option Nat) (reluctant : Bool) :
    Reader Parts := do
  match parts with
  | some r :: before =>
    let greedy := reluctant == (← flags).reluctant
    return some (r.repeated least most greedy) :: before
  | _ => failure

/-- The patterns of a sequence, one after the other. -/
def sequence (parts : Parts) : Regex :=
  Regex.seqAll (parts.reverse.filterMap id)

/-- Flags up to a colon or a closing parenthesis, with a hyphen before those that are cleared;
`seen` are the letters met so far. -/
def readFlags : Nat → List Char → Bool → Flags → Reader Flags
  | 0, _, _, _ => failure
  | steps + 1, seen, value, f => do
    match ← rest with
    | [] => failure
    | c :: behind =>
      if c == ':' || c == ')' then return f
      else
        let _ ← next
        if c == '-' then
          let dangling := behind.head? == some ':' || behind.head? == some ')'
          if !value || dangling then failure else readFlags steps seen false f
        else if seen.contains c then failure
        else
          let f ← f.assign c value
          readFlags steps (c :: seen) value f

/-- The name of a group up to the closing angle bracket. No two groups share a name. -/
def readName : Reader Unit := do
  let name ← takeWhile (· != '>')
  expect '>'
  match name with
  | [] => failure
  | first :: others =>
    let starts := first == '_' || (isAlphanumeric first && !numbers.contains first)
    let goesOn (c : Char) : Bool :=
      c == '_' || c == '.' || c == '[' || c == ']' || isAlphanumeric c
    if !starts || !others.all goesOn || (← get).names.contains name then failure
    modify fun s => { s with names := name :: s.names }

/-- What an opening parenthesis begins. -/
inductive Opening where
  /-- A group, in which these flags hold. -/
  | group (f : Flags)
  /-- Nothing but flags for what follows. -/
  | flags (f : Flags)

/-- What stands between an opening parenthesis and the pattern of its group. -/
def readOpening : Reader Opening := do
  expect '('
  skipBlanks
  let f ← flags
  let text ← rest
  let looks := [['?', '='], ['?', '!'], ['?', '<', '='], ['?', '<', '!']]
  if looks.any (·.isPrefixOf text) then failure
  if (← take? ['?', 'P', '<']) || (← take? ['?', '<']) then
    readName
    return .group f
  else if ← take? ['?'] then
    let none? := (← peek?) = some ')'
    let f ← readFlags ((← rest).length + 1) [] true f
    if (← next) == ')' then
      if none? then failure
      return .flags f
    else return .group f
  else return .group f

/-- The dot: any character, or any but those that end lines. -/
def dotSet (f : Flags) : CharSet :=
  if f.dotAll then CharSet.all
  else if f.returns then (CharSet.ofRuns [(0xA, 0xA), (0xD, 0xD)]).compl
  else (CharSet.single '\n').compl

mutual

/-- Alternatives up to a closing parenthesis or the end, the first of which has begun with `parts`;
`branches` are those before it, the last one first. -/
def readBranches : Nat → List Regex → Parts → Reader Regex
  | 0, _, _ => failure
  | steps + 1, branches, parts => do
    skipBlanks
    let f ← flags
    match ← rest with
    | [] | ')' :: _ => return Regex.altAll (sequence parts :: branches).reverse
    | '|' :: _ =>
      expect '|'
      readBranches steps (sequence parts :: branches) []
    | '(' :: _ =>
      match ← readOpening with
      | .flags f =>
        modify fun s => { s with flags := f }
        readBranches steps branches (none :: parts)
      | .group f =>
        let r ← readGroup steps f
        readBranches steps branches (some r :: parts)
    | '[' :: _ =>
      let s ← readSet steps
      readBranches steps branches (some (.chars s) :: parts)
    | '?' :: _ =>
      expect '?'
      let reluctant ← take? ['?']
      readBranches steps branches (← repeatLast parts 0 (some 1) reluctant)
    | '*' :: _ =>
      expect '*'
      let reluctant ← take? ['?']
      readBranches steps branches (← repeatLast parts 0 none reluctant)
    | '+' :: _ =>
      expect '+'
      let reluctant ← take? ['?']
      readBranches steps branches (← repeatLast parts 1 none reluctant)
    | '\x7b' :: _ =>
      let (least, most) ← readCounts
      skipBlanks
      let reluctant ← take? ['?']
      readBranches steps branches (← repeatLast parts least most reluctant)
    | '.' :: _ =>
      expect '.'
      if !f.unicode then failure
      readBranches steps branches (some (.chars (dotSet f)) :: parts)
    | '^' :: _ =>
      expect '^'
      let e : Edge :=
        if !f.lines then .textStart else if f.returns then .returnLineStart else .lineStart
      readBranches steps branches (some (.edge e) :: parts)
    | '$' :: _ =>
      expect '$'
      let e : Edge :=
        if !f.lines then .textEnd else if f.returns then .returnLineEnd else .lineEnd
      readBranches steps branches (some (.edge e) :: parts)
    | '\\' :: _ =>
      expect '\\'
      let r ← atomRegex (← readEscape)
      readBranches steps branches (some r :: parts)
    | c :: _ =>
      expect c
      let r ← literalRegex c false
      readBranches steps branches (some r :: parts)

/-- The pattern of a group with its closing parenthesis; flags set in it end with it. -/
def readGroup : Nat → Flags → Reader Regex
  | 0, _ => failure
  | steps + 1, f =>
    withOwnFlags do
      modify fun s => { s with flags := f }
      let r ← readBranches steps [] []
      expect ')'
      return r

end

/-- The tree of a pattern, if the text is one. -/
def Regex.ofText? (text : String) : Option Regex :=
  let chars := text.toList
  match readBranches (2 * chars.length + 2) [] [] |>.run ⟨chars, Flags.initial, []⟩ with
  | some (r, pending) => if pending.rest.isEmpty then some r else none
  | none => none

end Precedence.Pattern
