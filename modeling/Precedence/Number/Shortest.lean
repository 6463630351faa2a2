/-!
# Shortest decimals

The decimal with the fewest digits that reads back as a given binary floating point number, and
of those the one nearest to it. `Binary` is a positive number `m · 2 ^ q` together with the
interval of reals that round to it; `Binary.shortest` looks at coarser and coarser grids of powers
of ten from the coarsest on and takes the first grid with a point in the interval.
-/

namespace Precedence.Number

/-- A decimal `digits · 10 ^ exponent`. -/
structure Decimal where
  digits : Nat
  exponent : Int
deriving DecidableEq, Inhabited

/-- Where a value stands halfway between two decimals. -/
inductive Tie where
  /-- The larger of the two is taken. -/
  | up
  /-- The one with an even last digit is taken. -/
  | even
deriving DecidableEq

/-- A positive number `mantissa · 2 ^ exponent`. The gap to the next smaller number is half of the
gap to the next larger one where `narrow` is set. -/
structure Binary where
  mantissa : Nat
  exponent : Int
  narrow : Bool
deriving DecidableEq

namespace Binary

/-- The positive finite number with these bits, the sign bit apart. -/
def ofBits (bits : Nat) : Binary :=
  let fraction := bits % (1 <<< 52)
  let biased := (bits >>> 52) % (1 <<< 11)
  if biased = 0 then ⟨fraction, -1074, false⟩
  else ⟨1 <<< 52 + fraction, Int.ofNat biased - 1075, fraction == 0 && 1 < biased⟩

/-- An exponent that no power of ten below the number exceeds by more than one. -/
def decimalExponent (b : Binary) : Int :=
  (Int.ofNat (Nat.log2 b.mantissa) + b.exponent + 1) * 30103 / 100000 + 1

/-- The point of the grid `10 ^ g` that stands for the number: one of its two neighbours on the
grid, if that reads back as the number, and of two the nearer one. -/
def onGrid? (b : Binary) (tie : Tie) (g : Int) : Option Nat :=
  -- Everything is counted in quarters of the last binary place, and cleared of fractions.
  let binaryUp := 1 <<< (b.exponent - 2).toNat
  let binaryDown := 1 <<< (2 - b.exponent).toNat
  let decimalUp := Nat.pow 10 g.toNat
  let decimalDown := Nat.pow 10 (-g).toNat
  let scale := binaryUp * decimalDown
  let unit := decimalUp * binaryDown
  let value := 4 * b.mantissa * scale
  let low := (4 * b.mantissa - if b.narrow then 1 else 2) * scale
  let high := (4 * b.mantissa + 2) * scale
  let closed := b.mantissa % 2 == 0
  let inside (x : Nat) : Bool := if closed then low ≤ x && x ≤ high else low < x && x < high
  let below := value / unit
  let above := below + 1
  match inside (below * unit) && 0 < below, inside (above * unit) with
  | false, false => none
  | true, false => some below
  | false, true => some above
  | true, true =>
    let down := value - below * unit
    let up := above * unit - value
    if down < up then some below
    else if up < down then some above
    else match tie with
      | .up => some above
      | .even => some (if below % 2 == 0 then below else above)

/-- The first grid from `10 ^ g` downwards that has a point for the number. -/
def search (b : Binary) (tie : Tie) : Nat → Int → Decimal
  | 0, g => ⟨(b.onGrid? tie g).getD 0, g⟩
  | tries + 1, g =>
    match b.onGrid? tie g with
    | some digits => ⟨digits, g⟩
    | none => search b tie tries (g - 1)

/-- The shortest decimal that reads back as the number. Seventeen digits always suffice. -/
def shortest (b : Binary) (tie : Tie) : Decimal :=
  b.search tie 20 b.decimalExponent

end Binary

end Precedence.Number
