import Mathlib.Algebra.Order.Ring.Int
import Precedence.Exact.Arithmetic

/-!
# Room on the way to a result

A result has to have 64 bits, the numbers on the way to it need more. Here fractions are added,
multiplied, divided and reduced step by step, and a computation is given up, with `none`, as soon
as a sum, a product, an opposite, an absolute value, a quotient or a remainder does not lie strictly
inside of 128 bits, or when a divisor is zero. The operands are numerators and denominators of 64
bits, and no computation is ever given up: each gives what the arithmetic without limits gives.

* `Stepwise.divisor?_eq`: Euclid's algorithm on two numbers inside of the range stays there.
* `Stepwise.reduce_eq`: so does the reduction of a fraction.
* `Stepwise.steps_have_room`: so does all arithmetic on fractions.
-/

namespace Precedence

open Precedence.Number

namespace Stepwise

variable {a b n d : Int} {q : Rational} {x : Exact}

/-! ## The arithmetic, step by step -/

/-- The number lies strictly inside of the range of 128 bits. -/
def Inside (n : Int) : Prop :=
  -2 ^ 127 < n ∧ n < 2 ^ 127 - 1

instance (n : Int) : Decidable (Inside n) :=
  inferInstanceAs (Decidable (_ ∧ _))

/-- The number itself, if it lies inside of the range. -/
def inside? (n : Int) : Option Int :=
  if Inside n then some n else none

/-- The quotient, rounded towards zero. -/
def quotient? (a b : Int) : Option Int :=
  if b = 0 then none else inside? (a.tdiv b)

theorem natAbs_tmod_lt (a : Int) (hb : b ≠ 0) : (a.tmod b).natAbs < b.natAbs := by
  rw [Int.natAbs_tmod]
  exact Nat.mod_lt _ (Int.natAbs_pos.mpr hb)

/-- Euclid's algorithm. -/
def euclid? (a b : Int) : Option Int :=
  if b = 0 then some a
  else if Inside (a.tmod b) then euclid? b (a.tmod b)
  else none
termination_by b.natAbs
decreasing_by exact natAbs_tmod_lt a ‹¬b = 0›

/-- The greatest common divisor, from the absolute values. -/
def divisor? (a b : Int) : Option Int := do
  let a ← inside? (a.natAbs : Int)
  let b ← inside? (b.natAbs : Int)
  euclid? a b

/-- The fraction, if both its parts have 64 bits. -/
def pack (n d : Int) : Except ArithmeticError Rational := do
  let n ← narrow n
  let d ← narrow d
  return ⟨n, d⟩

/-- The fraction in lowest terms. The signs are changed last, if the denominator is negative. -/
def reduce (n d : Int) : Option (Except ArithmeticError Rational) :=
  if d = 0 then some (.error .divisionByZero)
  else do
    let g ← divisor? n d
    let n ← quotient? n g
    let d ← quotient? d g
    if d < 0 then
      let n ← inside? (-n)
      let d ← inside? (-d)
      return pack n d
    else
      return pack n d

/-- The reduced fraction as an exact number. -/
def make (n d : Int) : Option (Except ArithmeticError Exact) :=
  (reduce n d).map (·.map Rational.collapse)

/-- The sum of a fraction and an exact number. -/
def add (q : Rational) (x : Exact) : Option (Except ArithmeticError Exact) := do
  let left ← inside? (q.numer * x.denom)
  let right ← inside? (x.numer * q.denom)
  let n ← inside? (left + right)
  let d ← inside? (q.denom * x.denom)
  make n d

/-- The difference of a fraction and an exact number. -/
def subtract (q : Rational) (x : Exact) : Option (Except ArithmeticError Exact) := do
  let left ← inside? (q.numer * x.denom)
  let right ← inside? (x.numer * q.denom)
  let n ← inside? (left - right)
  let d ← inside? (q.denom * x.denom)
  make n d

/-- The product of a fraction and an exact number. -/
def multiply (q : Rational) (x : Exact) : Option (Except ArithmeticError Exact) := do
  let n ← inside? (q.numer * x.numer)
  let d ← inside? (q.denom * x.denom)
  make n d

/-- The quotient of a fraction and an exact number. -/
def divide (q : Rational) (x : Exact) : Option (Except ArithmeticError Exact) := do
  let n ← inside? (q.numer * x.denom)
  let d ← inside? (q.denom * x.numer)
  make n d

/-- One divided by a fraction. -/
def reciprocal (q : Rational) : Option (Except ArithmeticError Exact) := do
  let n ← inside? q.denom
  let d ← inside? q.numer
  make n d

/-- The opposite of a fraction. -/
def neg (q : Rational) : Option (Except ArithmeticError Rational) := do
  let n ← inside? (-q.numer)
  let d ← inside? q.denom
  reduce n d

/-! ## Numbers inside of the range -/

/-- The range is the same on both sides of zero, but for the least number in it. -/
theorem inside_of_natAbs_lt (h : n.natAbs < 2 ^ 127 - 1) : Inside n := by
  unfold Inside
  omega

theorem inside?_of_natAbs_lt (h : n.natAbs < 2 ^ 127 - 1) : inside? n = some n :=
  if_pos (inside_of_natAbs_lt h)

/-- A quotient without a remainder is no greater than what is divided. -/
theorem quotient?_of_dvd (hb : b ≠ 0) (hdvd : b ∣ a) (ha : a.natAbs < 2 ^ 127 - 1) :
    quotient? a b = some (a / b) := by
  have hlt : (a / b).natAbs < 2 ^ 127 - 1 := Nat.lt_of_le_of_lt (Int.natAbs_ediv_le_natAbs a b) ha
  rw [quotient?, if_neg hb, Int.tdiv_eq_ediv_of_dvd hdvd, inside?_of_natAbs_lt hlt]

theorem inside?_neg (h : n.natAbs < 2 ^ 127 - 1) : inside? (-n) = some (-n) :=
  inside?_of_natAbs_lt (by rwa [Int.natAbs_neg])

/-! ## Reduction -/

/-- Remainders are smaller than the divisor, so that the algorithm stays where it begins. -/
theorem euclid?_eq (ha : 0 ≤ a) (hb : 0 ≤ b) (hlt : b.natAbs < 2 ^ 127 - 1) :
    euclid? a b = some (Int.gcd a b : Int) := by
  induction a, b using euclid?.induct with
  | case1 a =>
    rw [euclid?, if_pos rfl, Int.gcd_zero, Int.natAbs_of_nonneg ha]
  | case2 a b h0 hinside ih =>
    have hmod := natAbs_tmod_lt a h0
    rw [euclid?, if_neg h0, if_pos hinside, ih hb (Int.tmod_nonneg b ha) (by omega),
      Int.tmod_eq_emod_of_nonneg ha, Int.gcd_comm b, Int.gcd_emod]
  | case3 a b h0 hinside =>
    have hmod := natAbs_tmod_lt a h0
    exact absurd (inside_of_natAbs_lt (by omega)) hinside

theorem divisor?_eq (ha : a.natAbs < 2 ^ 127 - 1) (hb : b.natAbs < 2 ^ 127 - 1) :
    divisor? a b = some (Int.gcd a b : Int) := by
  have heuclid : euclid? a.natAbs b.natAbs = some (Int.gcd a b : Int) :=
    euclid?_eq (Int.natCast_nonneg _) (Int.natCast_nonneg _) hb
  simp only [divisor?, inside?_of_natAbs_lt (n := (a.natAbs : Int)) ha,
    inside?_of_natAbs_lt (n := (b.natAbs : Int)) hb, Option.bind_eq_bind, Option.bind_some, heuclid]

/-- **The reduction of a fraction has room** if the fraction has. -/
theorem reduce_eq (hn : n.natAbs < 2 ^ 127 - 1) (hd : d.natAbs < 2 ^ 127 - 1) :
    reduce n d = some (Rational.reduce n d) := by
  by_cases h0 : d = 0
  · rw [reduce, Rational.reduce, if_pos h0, if_pos h0]
  · have hg : (0 : Int) < Int.gcd n d := Int.natCast_pos.mpr (Int.gcd_pos_of_ne_zero_right n h0)
    have hn' := Nat.lt_of_le_of_lt (Int.natAbs_ediv_le_natAbs n (Int.gcd n d)) hn
    have hd' := Nat.lt_of_le_of_lt (Int.natAbs_ediv_le_natAbs d (Int.gcd n d)) hd
    -- the reduced denominator has the sign of the denominator
    have hsign : d / (Int.gcd n d : Int) < 0 ↔ d < 0 := by
      rw [Int.ediv_lt_iff_lt_mul hg, Int.zero_mul]
    simp only [reduce, Rational.reduce, if_neg h0, divisor?_eq hn hd,
      quotient?_of_dvd (Int.ne_of_gt hg) (Int.gcd_dvd_left n d) hn,
      quotient?_of_dvd (Int.ne_of_gt hg) (Int.gcd_dvd_right n d) hd,
      inside?_neg hn', inside?_neg hd', hsign, Option.bind_eq_bind, Option.bind_some]
    by_cases hneg : d < 0
    · simp [pack, hneg]
    · simp [pack, hneg]

theorem make_eq (hn : n.natAbs < 2 ^ 127 - 1) (hd : d.natAbs < 2 ^ 127 - 1) :
    make n d = some (Rational.make n d) := by
  rw [make, reduce_eq hn hd, Option.map_some, Rational.make]

/-! ## Operands of 64 bits -/

theorem natAbs_le_of_fits (h : Fits n) : n.natAbs ≤ 2 ^ 63 := by
  unfold Fits leastInteger greatestInteger at h
  omega

theorem natAbs_mul_le {s t : Nat} (ha : a.natAbs ≤ s) (hb : b.natAbs ≤ t) :
    (a * b).natAbs ≤ s * t := by
  rw [Int.natAbs_mul]
  exact Nat.mul_le_mul ha hb

/-- A product of two integers of 64 bits is half as great as the range. -/
theorem natAbs_mul_lt (ha : a.natAbs ≤ 2 ^ 63) (hb : b.natAbs ≤ 2 ^ 63) :
    (a * b).natAbs < 2 ^ 127 - 1 :=
  Nat.lt_of_le_of_lt (natAbs_mul_le ha hb) (by decide)

/-- The parts of a fraction: a numerator of 64 bits and a denominator that is no greater than the
greatest such integer. The least one is no denominator, or a sum could leave the range. -/
structure Operands (n d : Int) : Prop where
  numer : n.natAbs ≤ 2 ^ 63
  denom : d.natAbs ≤ 2 ^ 63 - 1

theorem Operands.of_fits (hn : Fits n) (hpos : 1 ≤ d) (hd : d ≤ greatestInteger) :
    Operands n d where
  numer := natAbs_le_of_fits hn
  denom := by
    unfold greatestInteger at hd
    omega

namespace Operands

theorem denom_le (h : Operands n d) : d.natAbs ≤ 2 ^ 63 :=
  Nat.le_trans h.denom (Nat.sub_le _ _)

variable (hq : Operands q.numer q.denom) (hx : Operands x.numer x.denom)

include hq hx

/-- A numerator times the other denominator, for each of the two. -/
theorem cross_le :
    (q.numer * x.denom).natAbs ≤ 2 ^ 63 * (2 ^ 63 - 1) ∧
      (x.numer * q.denom).natAbs ≤ 2 ^ 63 * (2 ^ 63 - 1) :=
  ⟨natAbs_mul_le hq.numer hx.denom, natAbs_mul_le hx.numer hq.denom⟩

theorem add_eq : add q x = some (q.add x) := by
  obtain ⟨hleft, hright⟩ := cross_le hq hx
  have hn : (q.numer * x.denom + x.numer * q.denom).natAbs < 2 ^ 127 - 1 := by omega
  have hd := natAbs_mul_lt hq.denom_le hx.denom_le
  simp only [add, inside?_of_natAbs_lt (natAbs_mul_lt hq.numer hx.denom_le),
    inside?_of_natAbs_lt (natAbs_mul_lt hx.numer hq.denom_le), inside?_of_natAbs_lt hn,
    inside?_of_natAbs_lt hd, Option.bind_eq_bind, Option.bind_some, make_eq hn hd, Rational.add]

theorem subtract_eq : subtract q x = some (q.subtract x) := by
  obtain ⟨hleft, hright⟩ := cross_le hq hx
  have hn : (q.numer * x.denom - x.numer * q.denom).natAbs < 2 ^ 127 - 1 := by omega
  have hd := natAbs_mul_lt hq.denom_le hx.denom_le
  simp only [subtract, inside?_of_natAbs_lt (natAbs_mul_lt hq.numer hx.denom_le),
    inside?_of_natAbs_lt (natAbs_mul_lt hx.numer hq.denom_le), inside?_of_natAbs_lt hn,
    inside?_of_natAbs_lt hd, Option.bind_eq_bind, Option.bind_some, make_eq hn hd,
    Rational.subtract]

theorem multiply_eq : multiply q x = some (q.multiply x) := by
  have hn := natAbs_mul_lt hq.numer hx.numer
  have hd := natAbs_mul_lt hq.denom_le hx.denom_le
  simp only [multiply, inside?_of_natAbs_lt hn, inside?_of_natAbs_lt hd, Option.bind_eq_bind,
    Option.bind_some, make_eq hn hd, Rational.multiply]

theorem divide_eq : divide q x = some (q.divide x) := by
  have hn := natAbs_mul_lt hq.numer hx.denom_le
  have hd := natAbs_mul_lt hq.denom_le hx.numer
  simp only [divide, inside?_of_natAbs_lt hn, inside?_of_natAbs_lt hd, Option.bind_eq_bind,
    Option.bind_some, make_eq hn hd, Rational.divide]

omit hx

theorem reciprocal_eq : reciprocal q = some q.reciprocal := by
  have hn := Nat.lt_of_le_of_lt hq.denom_le (by decide : 2 ^ 63 < 2 ^ 127 - 1)
  have hd := Nat.lt_of_le_of_lt hq.numer (by decide : 2 ^ 63 < 2 ^ 127 - 1)
  simp only [reciprocal, inside?_of_natAbs_lt hn, inside?_of_natAbs_lt hd, Option.bind_eq_bind,
    Option.bind_some, make_eq hn hd, Rational.reciprocal]

theorem neg_eq : neg q = some q.neg := by
  have hn := Nat.lt_of_le_of_lt hq.numer (by decide : 2 ^ 63 < 2 ^ 127 - 1)
  have hn' : (-q.numer).natAbs < 2 ^ 127 - 1 := by rwa [Int.natAbs_neg]
  have hd := Nat.lt_of_le_of_lt hq.denom_le (by decide : 2 ^ 63 < 2 ^ 127 - 1)
  simp only [neg, inside?_neg hn, inside?_of_natAbs_lt hd, Option.bind_eq_bind,
    Option.bind_some, reduce_eq hn' hd, Rational.neg]

end Operands

/-- **There is always room.** Let the numerators have 64 bits, and let the denominators lie between
one and the greatest integer of 64 bits. Then no step of a sum, a difference, a product, a quotient,
a reciprocal or an opposite leaves the range of 128 bits or divides by zero, down to the remainders
of Euclid's algorithm, and the result is that of the arithmetic without limits. So it is when any
two integers of 64 bits are reduced to a fraction. -/
theorem steps_have_room (hqn : Fits q.numer) (hqd : 1 ≤ q.denom ∧ q.denom ≤ greatestInteger)
    (hxn : Fits x.numer) (hxd : 1 ≤ x.denom ∧ x.denom ≤ greatestInteger) (hn : Fits n)
    (hd : Fits d) :
    add q x = some (q.add x) ∧ subtract q x = some (q.subtract x) ∧
      multiply q x = some (q.multiply x) ∧ divide q x = some (q.divide x) ∧
      reciprocal q = some q.reciprocal ∧ neg q = some q.neg ∧
      reduce n d = some (Rational.reduce n d) := by
  have hq := Operands.of_fits hqn hqd.1 hqd.2
  have hx := Operands.of_fits hxn hxd.1 hxd.2
  refine ⟨hq.add_eq hx, hq.subtract_eq hx, hq.multiply_eq hx, hq.divide_eq hx, hq.reciprocal_eq,
    hq.neg_eq, reduce_eq ?_ ?_⟩
  · exact Nat.lt_of_le_of_lt (natAbs_le_of_fits hn) (by decide)
  · exact Nat.lt_of_le_of_lt (natAbs_le_of_fits hd) (by decide)

/-- The least numerator over the greatest denominator, twice: the sum is only about `2 ^ 64` away
from the end of the range. -/
theorem steps_have_room_least :
    let q : Rational := ⟨leastInteger, greatestInteger⟩
    q.numer * q.denom + q.numer * q.denom = -2 ^ 127 + 2 ^ 64 ∧
      add q (.rational q) = some (q.add (.rational q)) ∧
      reduce leastInteger (-1) = some (.error .overflow) := by
  obtain ⟨hadd, -, -, -, -, -, hreduce⟩ := steps_have_room (q := ⟨leastInteger, greatestInteger⟩)
    (x := .rational ⟨leastInteger, greatestInteger⟩) (n := leastInteger) (d := -1) (by decide)
    (by decide) (by decide) (by decide) (by decide) (by decide)
  exact ⟨by decide, hadd, hreduce.trans (by decide +kernel)⟩

end Stepwise

end Precedence
