import Precedence.Text.CharSet
import Precedence.Text.Word

/-!
# Regular expressions

The syntax tree of token patterns, with ordered alternatives and greedy or reluctant repetitions:
where more than one text matches, the order decides. `minLength` is what a pattern promises about
the length of the texts that it matches, `weight` estimates the memory of an automaton for it.
-/

namespace Precedence.Pattern

open Precedence.Text

/-- A condition on the place between two characters. -/
inductive Edge where
  /-- The beginning of the text. -/
  | textStart
  /-- The end of the text. -/
  | textEnd
  /-- The beginning of a line. -/
  | lineStart
  /-- The end of a line. -/
  | lineEnd
  /-- The beginning of a line where carriage returns end lines, too. -/
  | returnLineStart
  /-- The end of a line where carriage returns end lines, too. -/
  | returnLineEnd
  /-- A word on one side only. -/
  | boundary (ascii : Bool)
  /-- A word on both sides or on none. -/
  | noBoundary (ascii : Bool)
  /-- A word behind, none before. -/
  | wordStart (ascii : Bool)
  /-- A word before, none behind. -/
  | wordEnd (ascii : Bool)
  /-- No word before. -/
  | wordStartHalf (ascii : Bool)
  /-- No word behind. -/
  | wordEndHalf (ascii : Bool)
deriving DecidableEq

/-- The characters on both sides of a place in a text. -/
structure Place where
  before : Option Char
  after : Option Char

/-- Whether a character belongs to a word; `ascii` leaves out all but the ASCII characters. -/
def inWord (ascii : Bool) (c : Char) : Bool :=
  if ascii then c.isAlphanum || c == '_' else isWord c

namespace Edge

/-- Whether the condition holds at a place. -/
def holds (p : Place) : Edge → Bool
  | textStart => p.before.isNone
  | textEnd => p.after.isNone
  | lineStart => p.before.all (· == '\n')
  | lineEnd => p.after.all (· == '\n')
  | returnLineStart =>
    p.before.all fun c => c == '\n' || (c == '\r' && p.after != some '\n')
  | returnLineEnd =>
    p.after.all fun c => c == '\r' || (c == '\n' && p.before != some '\r')
  | boundary ascii => p.before.any (inWord ascii) != p.after.any (inWord ascii)
  | noBoundary ascii => p.before.any (inWord ascii) == p.after.any (inWord ascii)
  | wordStart ascii => !p.before.any (inWord ascii) && p.after.any (inWord ascii)
  | wordEnd ascii => p.before.any (inWord ascii) && !p.after.any (inWord ascii)
  | wordStartHalf ascii => !p.before.any (inWord ascii)
  | wordEndHalf ascii => !p.after.any (inWord ascii)

end Edge

/-- A regular expression. -/
inductive Regex where
  /-- The empty text. -/
  | empty
  /-- One character of a set. -/
  | chars (set : CharSet)
  /-- The empty text at certain places. -/
  | edge (e : Edge)
  /-- One pattern, then another one. -/
  | seq (first second : Regex)
  /-- Either pattern, the first one preferred. -/
  | alt (first second : Regex)
  /-- A pattern `least` times, and up to `more` times more; any number of times more if there is no
  bound. Greedy repetitions prefer to go on, reluctant ones to stop. -/
  | rep (r : Regex) (least : Nat) (more : Option Nat) (greedy : Bool)
deriving DecidableEq, Inhabited

namespace Regex

/-- The text of one character. -/
def char (c : Char) : Regex :=
  chars (CharSet.single c)

/-- One pattern after the other. -/
def seqAll : List Regex → Regex
  | [] => empty
  | [r] => r
  | r :: rest => seq r (seqAll rest)

/-- Whether a set holds exactly one character. -/
def isSingle (s : CharSet) : Bool :=
  match s.runs with
  | [(first, last)] => first == last
  | _ => false

/-- The set that patterns make up which are all single characters, or all sets of other sizes. -/
def sets? (single : Bool) : List Regex → Option CharSet
  | [] => some CharSet.empty
  | chars s :: rest => if isSingle s == single then (sets? single rest).map s.union else none
  | _ :: _ => none

/-- One pattern after the other as alternatives, without regard to their number. -/
def altChain : List Regex → Regex
  | [] => empty
  | [r] => r
  | r :: rest => alt r (altChain rest)

/-- Alternatives, in order of preference. Characters make up one set, and so do sets. -/
def altAll (branches : List Regex) : Regex :=
  match branches with
  | [r] => r
  | branches =>
    match (sets? true branches).or (sets? false branches) with
    | some s => chars s
    | none => altChain branches

/-- Whether a pattern is made of parts that take no character. -/
def matchesOnlyEmpty : Regex → Bool
  | empty => true
  | chars _ => false
  | edge _ => true
  | seq a b => a.matchesOnlyEmpty && b.matchesOnlyEmpty
  | alt a b => a.matchesOnlyEmpty && b.matchesOnlyEmpty
  | rep r least more _ => r.matchesOnlyEmpty || (least == 0 && more == some 0)

/-- A repetition. What matches nothing but the empty text need not be tried twice. -/
def repeated (r : Regex) (least : Nat) (most : Option Nat) (greedy : Bool) : Regex :=
  let (least, most) :=
    if r.matchesOnlyEmpty then (min least 1, some (min (most.getD 1) 1)) else (least, most)
  if most = some 0 then empty
  else if least = 1 ∧ most = some 1 then r
  else rep r least (most.map (· - least)) greedy

/-- The bytes of a code point in UTF-8. -/
def utf8Length (n : Nat) : Nat :=
  if n < 0x80 then 1 else if n < 0x800 then 2 else if n < 0x10000 then 3 else 4

/-- A lower bound for the bytes of a match. There is none where a part can never match, be it only
one of several alternatives. -/
def minLength : Regex → Option Nat
  | empty => some 0
  | chars s => s.least?.map utf8Length
  | edge _ => some 0
  | seq a b =>
    match a.minLength, b.minLength with
    | some m, some n => some (m + n)
    | _, _ => none
  | alt a b =>
    match a.minLength, b.minLength with
    | some m, some n => some (min m n)
    | _, _ => none
  | rep r least _ _ => r.minLength.map (· * least)

/-- The memory of one state of an automaton. -/
def stateWeight : Nat := 32

/-- An estimate of the memory that an automaton for the pattern takes, in bytes: every repetition
is spelled out. -/
def weight : Regex → Nat
  | empty => stateWeight
  | edge _ => stateWeight
  | chars s =>
    match s.runs with
    | [(first, last)] => if first = last then stateWeight * utf8Length first else 72
    | runs => 2 * stateWeight + 8 * runs.length
  | seq a b => a.weight + b.weight
  | alt a b => stateWeight + a.weight + b.weight
  | rep r least more _ =>
    match more with
    | none => (max 1 least) * r.weight + 2 * stateWeight
    | some more => least * r.weight + more * (r.weight + stateWeight) + stateWeight

/-- The most memory that automata may take. -/
def greatestWeight : Nat := 10485760

end Regex

end Precedence.Pattern
