import Precedence.Pattern.Regex

/-!
# Matching

A pattern matches a text from its beginning. Of several matches the preferred one counts: an
earlier alternative before a later one, one more round before stopping for greedy repetitions and
the other way round for reluctant ones. `paths` lists what a pattern can do next, in that order;
`advance` follows all paths at once through the text, so that its time does not depend on the
number of ways to match.
-/

namespace Precedence.Pattern

open Precedence.Text

/-- What a pattern can do at a place: stop, or take a character and go on. -/
inductive Path where
  | stop
  | take (set : CharSet) (rest : Regex)
deriving DecidableEq

namespace Path

/-- The path followed by a second pattern, whose own paths are `after` where the path stops. -/
def andThen (second : Regex) (after : List Path) : Path → List Path
  | stop => after
  | take s .empty => [take s second]
  | take s rest => [take s (.seq rest second)]

end Path

/-- The paths of `more` further rounds of `r`, whose own paths are `round`. -/
def upTo (r : Regex) (round : List Path) (greedy : Bool) : Nat → List Path
  | 0 => [.stop]
  | more + 1 =>
    let on := (round.flatMap
      (Path.andThen (.rep r 0 (some more) greedy) (upTo r round greedy more))).eraseDups
    if greedy then on ++ [.stop] else .stop :: on

/-- The paths of any number of rounds of `r`. A round that takes nothing ends the repetition. -/
def anyTimes (r : Regex) (round : List Path) (greedy : Bool) : List Path :=
  let on := round.flatMap (Path.andThen (.rep r 0 none greedy) [.stop])
  if greedy then on ++ [.stop] else .stop :: on

/-- The paths of `least` rounds of `r`, and up to `more` further ones. -/
def atLeast (r : Regex) (round : List Path) (more : Option Nat) (greedy : Bool) : Nat → List Path
  | 0 =>
    match more with
    | some more => upTo r round greedy more
    | none => anyTimes r round greedy
  | least + 1 =>
    (round.flatMap
      (Path.andThen (.rep r least more greedy) (atLeast r round more greedy least))).eraseDups

namespace Regex

/-- What the pattern can do next, the preferred path first. -/
def paths (p : Place) : Regex → List Path
  | empty => [.stop]
  | chars s => [.take s .empty]
  | edge e => if e.holds p then [.stop] else []
  | seq a b => (a.paths p).flatMap (Path.andThen b (b.paths p))
  | alt a b => a.paths p ++ b.paths p
  | rep r least more greedy => atLeast r (r.paths p) more greedy least

/-- The patterns that are left of those paths that take `c`. -/
def afterChar (c : Char) (paths : List Path) : List Regex :=
  (paths.filterMap fun
    | .take s rest => if s.contains c then some rest else none
    | .stop => none).eraseDups

/-- Follows all of the patterns through the text, the preferred ones first. `taken` characters were
taken so far and `best` is the length of the preferred match so far. A path that stops beats all
those behind it. -/
def advance (patterns : List Regex) (before : Option Char) (taken : Nat) (best : Option Nat) :
    List Char → Option Nat
  | [] =>
    if (patterns.flatMap (paths ⟨before, none⟩)).contains .stop then some taken else best
  | c :: rest =>
    let all := (patterns.flatMap (paths ⟨before, some c⟩)).eraseDups
    let best := if all.contains .stop then some taken else best
    match afterChar c (all.takeWhile (· != .stop)) with
    | [] => best
    | patterns => advance patterns (some c) (taken + 1) best rest

/-- The number of characters of the preferred match at the beginning of the text; `before` is the
character in front of it. -/
def matchLength? (r : Regex) (before : Option Char) (text : List Char) : Option Nat :=
  advance [r] before 0 none text

end Regex

end Precedence.Pattern
