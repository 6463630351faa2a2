import Precedence.Pattern.Atom

/-!
# Sets in brackets

A set in brackets lists its members: characters, ranges, named sets and further sets in brackets. It
may be negated by a caret, and two lists may be joined by a set operation; operations group from the
left.

The functions that call each other take a bound on their steps. Each step takes at least one
character, so the length of the pattern bounds them.
-/

namespace Precedence.Pattern

open Precedence.Text Reader

/-- One end of a range, or a set: an escape or a character as it stands. -/
def readMember : Reader Atom := do
  let c ← next
  if c == '\\' then readEscape else return .literal c false

/-- The set of one member. Sets of bytes have ASCII members only, so that a match ends between
characters. -/
def memberSet : Atom → Reader CharSet
  | .literal c _ => do
    if !(← flags).unicode && 0x7F < c.toNat then failure
    return CharSet.single c
  | .set s => return s
  | .edge _ => failure

/-- A member, or the range from it to a second one. A hyphen before the closing bracket or before a
second hyphen makes no range. -/
def readRange : Reader CharSet := do
  let first ← readMember
  skipBlanks
  let text ← rest
  let behind := if (← flags).spaced then dropBlanks false (text.drop 1) else text.drop 1
  if text.isEmpty then failure
  if text.head? != some '-' || behind.head? == some ']' || behind.head? == some '-' then
    memberSet first
  else
    expect '-'
    skipBlanks
    let last ← readMember
    match first, last with
    | .literal a byteA, .literal b byteB =>
      let _ ← memberSet (.literal a byteA)
      let _ ← memberSet (.literal b byteB)
      if a.toNat ≤ b.toNat then return CharSet.range a.toNat b.toNat else failure
    | _, _ => failure

/-- A set that is named in brackets and colons, if one comes next. -/
def readNamedSet? : Reader (Option CharSet) := do
  let f ← flags
  match ← rest with
  | '[' :: ':' :: text =>
    let (negated, text) := match text with
      | '^' :: text => (true, text)
      | text => (false, text)
    let name := text.takeWhile (· != ':')
    match text.drop name.length, bracketSet? name with
    | ':' :: ']' :: text, some s =>
      modify fun p => { p with rest := text }
      return some (← closed f negated s)
    | _, _ => return none
  | _ => return none

/-- An operation on sets. -/
inductive SetOperation where
  | intersection
  | difference
  | symmetricDifference

/-- The operation applied to the set in front of it, if there is one, and the set behind it. -/
def applyPending (f : Flags) (pending : Option (SetOperation × CharSet)) (s : CharSet) :
    CharSet :=
  match pending with
  | none => s
  | some (.intersection, left) => (closeCase f left).inter (closeCase f s)
  | some (.difference, left) => (closeCase f left).diff (closeCase f s)
  | some (.symmetricDifference, left) => (closeCase f left).symmDiff (closeCase f s)

/-- Hyphens at the beginning of a set stand for themselves. -/
def readHyphens : Nat → CharSet → Reader CharSet
  | 0, _ => failure
  | steps + 1, s => do
    if (← peek?) = some '-' then
      expect '-'
      skipBlanks
      readHyphens steps (s.union (CharSet.single '-'))
    else return s

mutual

/-- A set in brackets, the opening bracket included. -/
def readSet : Nat → Reader CharSet
  | 0 => failure
  | steps + 1 => do
    expect '['
    skipBlanks
    let negated ← take? ['^']
    skipBlanks
    let start ← readHyphens steps CharSet.empty
    let first ← (do
      if start.isEmpty && (← peek?) = some ']' then
        expect ']'
        skipBlanks
        return CharSet.single ']'
      else return start)
    if (← rest).isEmpty then failure
    let s ← readMembers steps none first
    closed (← flags) negated s

/-- The members of a set up to the closing bracket. `pending` is an operation whose left side has
been read, `sofar` holds the members behind it. -/
def readMembers : Nat → Option (SetOperation × CharSet) → CharSet → Reader CharSet
  | 0, _, _ => failure
  | steps + 1, pending, sofar => do
    skipBlanks
    let f ← flags
    match ← rest with
    | [] => failure
    | ']' :: _ =>
      expect ']'
      return applyPending f pending sofar
    | '[' :: _ =>
      match ← readNamedSet? with
      | some s => readMembers steps pending (sofar.union s)
      | none =>
        let s ← readSet steps
        readMembers steps pending (sofar.union s)
    | '&' :: '&' :: _ =>
      let _ ← take? ['&', '&']
      readMembers steps (some (.intersection, applyPending f pending sofar)) CharSet.empty
    | '-' :: '-' :: _ =>
      let _ ← take? ['-', '-']
      readMembers steps (some (.difference, applyPending f pending sofar)) CharSet.empty
    | '~' :: '~' :: _ =>
      let _ ← take? ['~', '~']
      readMembers steps (some (.symmetricDifference, applyPending f pending sofar)) CharSet.empty
    | _ =>
      let s ← readRange
      readMembers steps pending (sofar.union s)

end

end Precedence.Pattern
