/-!
# Sets of characters

A `CharSet` holds code points as runs `[first, last]` in increasing order, with a gap between any
two. `contains` stops at the first run beyond the code point, `insertRun` merges the runs it
touches, and the complement is taken among the scalar values, so that no set built here holds a
surrogate because of a negation.
-/

namespace Precedence.Text

/-- The last code point. -/
def lastCodePoint : Nat := 0x10FFFF

/-- A set of code points as runs `[first, last]`, in increasing order and apart from each other. -/
structure CharSet where
  runs : List (Nat × Nat)
deriving DecidableEq, Inhabited

namespace CharSet

/-- Whether `n` lies in one of the runs, which are in increasing order. -/
def holds (n : Nat) : List (Nat × Nat) → Bool
  | [] => false
  | (first, last) :: rest => if n < first then false else n ≤ last || holds n rest

/-- Membership of a character. -/
def contains (s : CharSet) (c : Char) : Bool :=
  holds c.toNat s.runs

/-- No character at all. -/
def empty : CharSet where
  runs := []

/-- The characters of one run. -/
def range (first last : Nat) : CharSet where
  runs := if first ≤ last then [(first, last)] else []

/-- One character. -/
def single (c : Char) : CharSet :=
  range c.toNat c.toNat

/-- Adds a run, merging it with those that it overlaps or touches. -/
def insertRun (first last : Nat) : List (Nat × Nat) → List (Nat × Nat)
  | [] => [(first, last)]
  | (a, b) :: rest =>
    if last + 1 < a then (first, last) :: (a, b) :: rest
    else if b + 1 < first then (a, b) :: insertRun first last rest
    else insertRun (min first a) (max last b) rest

/-- Takes a run away, which may shorten or split the runs that it overlaps. -/
def removeRun (first last : Nat) : List (Nat × Nat) → List (Nat × Nat)
  | [] => []
  | (a, b) :: rest =>
    if last < a then (a, b) :: rest
    else if b < first then (a, b) :: removeRun first last rest
    else
      (if a < first then [(a, first - 1)] else []) ++
      (if last < b then (last + 1, b) :: rest else removeRun first last rest)

/-- The gaps between the runs, from the code point `start` to the last one. -/
def gaps (start : Nat) : List (Nat × Nat) → List (Nat × Nat)
  | [] => if start ≤ lastCodePoint then [(start, lastCodePoint)] else []
  | (a, b) :: rest => (if start < a then [(start, a - 1)] else []) ++ gaps (b + 1) rest

/-- The characters of either set. -/
def union (s t : CharSet) : CharSet where
  runs := t.runs.foldl (fun runs r => insertRun r.1 r.2 runs) s.runs

/-- The characters of the first set that are not in the second. -/
def diff (s t : CharSet) : CharSet where
  runs := t.runs.foldl (fun runs r => removeRun r.1 r.2 runs) s.runs

/-- The scalar values that are not in the set. -/
def compl (s : CharSet) : CharSet where
  runs := removeRun 0xD800 0xDFFF (gaps 0 s.runs)

/-- The characters of both sets. -/
def inter (s t : CharSet) : CharSet :=
  s.diff t.compl

/-- The characters of exactly one of the sets. -/
def symmDiff (s t : CharSet) : CharSet :=
  (s.diff t).union (t.diff s)

/-- The set that one of the listed runs makes up, in any order. -/
def ofRuns (runs : List (Nat × Nat)) : CharSet where
  runs := runs.foldl (fun acc r => insertRun r.1 r.2 acc) []

/-- Every scalar value. -/
def all : CharSet :=
  empty.compl

/-- Whether no run is left. -/
def isEmpty (s : CharSet) : Bool :=
  s.runs.isEmpty

/-- The smallest code point of the set. -/
def least? (s : CharSet) : Option Nat :=
  s.runs.head?.map (·.1)

@[simp] theorem contains_empty (c : Char) : empty.contains c = false := rfl

theorem contains_single (a c : Char) : (single a).contains c = decide (c = a) := by
  simp only [contains, single, range, Nat.le_refl, if_true, holds, Bool.or_false]
  by_cases h : c = a
  · simp [h]
  · have : c.toNat ≠ a.toNat := fun e => h (Char.toNat_inj.mp e)
    rcases Nat.lt_or_ge c.toNat a.toNat with hl | hg
    · simp [hl, h]
    · have hn : ¬ c.toNat ≤ a.toNat := fun hle => this (Nat.le_antisymm hle hg)
      simp [Nat.not_lt.mpr hg, hn, h]

end CharSet

end Precedence.Text
