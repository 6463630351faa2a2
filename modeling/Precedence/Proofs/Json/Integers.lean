import Precedence.Json.Fraction
import Precedence.Proofs.Except
import Precedence.Proofs.Json.Texts

/-!
# Reading integers from JSON

An integer of 64 bits is read exactly if its decimal digits stand behind the blanks, with nothing
behind them that would go on with the number.

* `readNumeral_repr`, `exists_repr_of_readNumeral`: a number that is not real is read from its
  digits, and from nothing else.
* `wantInteger_eq_ok_iff`: so is an integer that is wanted.
-/

namespace Precedence.Json

open Precedence.Number

variable {text rest ds : List Char} {negative : Bool} {m : Numeral} {n : Nat}

/-- Nothing at the beginning of the text goes on with a whole number. -/
def EndsNumber (rest : List Char) : Prop :=
  ∀ c ∈ rest.head?, c.isDigit = false ∧ c ≠ '.' ∧ c ≠ 'e' ∧ c ≠ 'E'

theorem endsNumber_of_ne (hdigit : ∀ c ∈ rest.head?, c.isDigit = false)
    (hpoint : ∀ tail, rest ≠ '.' :: tail) (he : ∀ tail, rest ≠ 'e' :: tail)
    (hE : ∀ tail, rest ≠ 'E' :: tail) : EndsNumber rest := by
  intro c hc
  obtain ⟨tail, rfl⟩ := List.head?_eq_some_iff.mp hc
  refine ⟨hdigit c hc, ?_, ?_, ?_⟩ <;> rintro rfl
  · exact hpoint tail rfl
  · exact he tail rfl
  · exact hE tail rfl

/-! ## Digits -/

theorem addWhole_of_dropped {dropped : Nat} (h : dropped ≠ 0) :
    addWhole n dropped ds = (n, dropped + ds.length) := by
  induction ds generalizing dropped with
  | nil => rfl
  | cons c ds ih =>
    rw [addWhole, if_neg (by simp [h]), ih (Nat.succ_ne_zero dropped), List.length_cons]
    congr 1
    omega

/-- As long as they have 64 bits, digits make up the number that they stand for. -/
theorem addWhole_of_le (h : Nat.ofDigitChars 10 ds n ≤ greatestSignificand) :
    addWhole n 0 ds = (Nat.ofDigitChars 10 ds n, 0) := by
  induction ds generalizing n with
  | nil => rfl
  | cons c ds ih =>
    rw [Nat.ofDigitChars_cons] at h ⊢
    have hnext := Nat.le_trans (le_ofDigitChars ds _) h
    rw [addWhole, if_pos (by simpa using hnext)]
    exact ih h

/-- Of more digits some are dropped. -/
theorem addWhole_snd_ne_zero (hn : n ≤ greatestSignificand)
    (h : greatestSignificand < Nat.ofDigitChars 10 ds n) : (addWhole n 0 ds).2 ≠ 0 := by
  induction ds generalizing n with
  | nil => exact absurd hn (Nat.not_le.mpr h)
  | cons c ds ih =>
    rw [Nat.ofDigitChars_cons] at h
    rw [addWhole]
    split
    · rename_i hnext
      simp only [decide_true, Bool.true_and, decide_eq_true_eq] at hnext
      exact ih hnext h
    · rw [addWhole_of_dropped (Nat.succ_ne_zero 0)]
      simp only
      omega

/-! ## Numbers -/

/-- The end of a number that has a point, an exponent or too many digits. -/
def realNumeral (negative : Bool) (significand : Nat) (exponent : Int) (rest : List Char) :
    Option (Numeral × List Char) :=
  match rest with
  | c :: behind =>
    if c == 'e' || c == 'E' then
      match readExponent behind with
      | none => none
      | some (down, amount, rest) =>
        (realOfParts negative significand exponent (some (down, amount))).map
          fun x => (.real x, rest)
    else (realOfParts negative significand exponent none).map fun x => (.real x, rest)
  | [] => (realOfParts negative significand exponent none).map fun x => (.real x, [])

theorem exists_real_of_realNumeral {significand : Nat} {exponent : Int} {rest' : List Char}
    (h : realNumeral negative significand exponent rest = some (m, rest')) : ∃ x, m = .real x := by
  have hmap : ∀ {x? : Option Float} {behind : List Char},
      x?.map (fun x => (Numeral.real x, behind)) = some (m, rest') → ∃ x, m = .real x := by
    intro x? behind h
    obtain ⟨x, -, hx⟩ := Option.map_eq_some_iff.mp h
    exact ⟨x, (congrArg Prod.fst hx).symm⟩
  unfold realNumeral at h
  split at h
  · split at h
    · split at h
      · cases h
      · exact hmap h
    · exact hmap h
  · exact hmap h

/-- What digits alone are. -/
def wholeNumeral (negative : Bool) (n : Nat) : Numeral :=
  if !negative then .natural n
  else if n = 0 || 1 <<< 63 < n then .real (-(Float.ofNat n))
  else .negative (-(Int.ofNat n))

/-- The choices at the end of digits alone, with the text behind them. -/
theorem some_wholeNumeral (negative : Bool) (n : Nat) (rest : List Char) :
    (if !negative then some (Numeral.natural n, rest)
      else if n = 0 || 1 <<< 63 < n then some (.real (-(Float.ofNat n)), rest)
      else some (.negative (-(Int.ofNat n)), rest)) = some (wholeNumeral negative n, rest) := by
  rw [wholeNumeral]
  split
  · rfl
  · split <;> rfl

/-- **A number of 64 bits is read from its digits.** -/
theorem readNumeral_repr (hn : n ≤ greatestSignificand) (hrest : EndsNumber rest) :
    readNumeral negative (n.repr.toList ++ rest) = some (wholeNumeral negative n, rest) := by
  have hdigits := isDigits_repr n
  have hwhole : addWhole 0 0 n.repr.toList = (n, 0) := by
    rw [addWhole_of_le (by rw [← digitsValue_eq, digitsValue_repr]; exact hn), ← digitsValue_eq,
      digitsValue_repr]
  have hzero : ¬ (n.repr.toList.isEmpty || n.repr.toList.head? == some '0' &&
      decide (1 < n.repr.toList.length)) = true := by
    simp only [Bool.or_eq_true, List.isEmpty_iff, Bool.and_eq_true, beq_iff_eq, decide_eq_true_eq,
      not_or, not_and]
    exact ⟨hdigits.nonempty, fun h => by rw [length_repr_of_head? h]; omega⟩
  unfold readNumeral
  simp only [takeWhile_append_of_digits hdigits.digits fun c hc => (hrest c hc).1, List.drop_left,
    hwhole]
  rw [if_neg hzero]
  split
  · exact absurd rfl (hrest '.' rfl).2.1
  · exact absurd rfl (hrest 'e' rfl).2.2.1
  · exact absurd rfl (hrest 'E' rfl).2.2.2
  · rw [if_neg (not_not_intro rfl)]
    exact some_wholeNumeral negative n rest

/-- A number that is not real is read from its digits only. -/
theorem exists_repr_of_readNumeral (h : readNumeral negative text = some (m, rest))
    (hm : ∀ x, m ≠ .real x) : ∃ n : Nat, n ≤ greatestSignificand ∧ EndsNumber rest ∧
      text = n.repr.toList ++ rest ∧ m = wholeNumeral negative n := by
  have hnot : ∀ significand exponent behind,
      realNumeral negative significand exponent behind ≠ some (m, rest) := by
    intro significand exponent behind h
    obtain ⟨x, hx⟩ := exists_real_of_realNumeral h
    exact hm x hx
  obtain ⟨ds, behind, rfl, hd, hbehind⟩ := exists_digits_append text
  unfold readNumeral at h
  simp only [takeWhile_append_of_digits hd hbehind, List.drop_left] at h
  split at h
  · cases h
  rename_i hds
  simp only [Bool.or_eq_true, List.isEmpty_iff, Bool.and_eq_true, beq_iff_eq, decide_eq_true_eq,
    not_or, not_and, Nat.not_lt] at hds
  have hlength := List.length_pos_iff.mpr hds.1
  have hrepr := toList_repr_digitsValue hds.1 hd fun h => by
    have hle := hds.2 h
    omega
  split at h
  · split at h
    · cases h
    · exact (hnot _ _ _ h).elim
  · rename_i tail
    exact (hnot _ _ ('e' :: tail) h).elim
  · rename_i tail
    exact (hnot _ _ ('E' :: tail) h).elim
  rename_i hpoint he hE
  split at h
  · exact (hnot _ _ _ h).elim
  rename_i hdropped
  -- No digit was dropped, so the digits stand for a number of 64 bits.
  have hle : digitsValue ds ≤ greatestSignificand := by
    by_contra hlt
    exact hdropped (addWhole_snd_ne_zero (Nat.zero_le _) (Nat.not_le.mp hlt))
  rw [addWhole_of_le hle, ← digitsValue_eq] at h
  cases (some_wholeNumeral negative (digitsValue ds) behind).symm.trans h
  exact ⟨digitsValue ds, hle, endsNumber_of_ne hbehind hpoint he hE, by rw [hrepr], rfl⟩

/-! ## Wanted integers -/

theorem wholeNumeral_eq_natural {k : Nat} (h : wholeNumeral negative n = .natural k) :
    negative = false ∧ n = k := by
  unfold wholeNumeral at h
  split at h
  · rename_i hpositive
    exact ⟨by simpa using hpositive, Numeral.natural.inj h⟩
  · split at h <;> cases h

theorem wholeNumeral_eq_negative {k : Int} (h : wholeNumeral negative n = .negative k) :
    negative = true ∧ 0 < n ∧ n ≤ 1 <<< 63 ∧ k = -(n : Int) := by
  unfold wholeNumeral at h
  split at h
  · cases h
  · rename_i hnegative
    split at h
    · cases h
    · rename_i hsize
      simp only [Bool.or_eq_true, decide_eq_true_eq, not_or, Nat.not_lt] at hsize
      exact ⟨by simpa using hnegative, Nat.pos_of_ne_zero hsize.1, hsize.2,
        (Numeral.negative.inj h).symm⟩

/-- An integer of 64 bits whose minus sign, if it has one, has been taken. -/
def readSigned (negative : Bool) (digits : List Char) : Except JsonError (Int × List Char) :=
  match readNumeral negative digits with
  | none => .error .malformed
  | some (.negative n, rest) => .ok (n, rest)
  | some (.real x, _) => .error (.type (.real x) .integer)
  | some (.natural n, rest) =>
    if Int.ofNat n ≤ greatestInteger then .ok (Int.ofNat n, rest) else .error (.range n)

theorem wantInteger_eq (text : List Char) : wantInteger text =
    match skipBlanks text with
    | '-' :: rest => readSigned true rest
    | text =>
      if text.head?.any (·.isDigit) then readSigned false text
      else .error (unexpected .integer text) := rfl

/-- A sign is part of an integer only before a number that is not zero. -/
theorem readSigned_eq_ok_iff {n : Int} : readSigned negative text = .ok (n, rest) ↔
    Fits n ∧ EndsNumber rest ∧ (negative = true ↔ n < 0) ∧
      text = n.natAbs.repr.toList ++ rest := by
  have hgreatest : greatestInteger = 9223372036854775807 := rfl
  have hleast : leastInteger = -9223372036854775808 := rfl
  constructor
  · intro h
    unfold readSigned at h
    split at h
    · cases h
    · rename_i k rest' hread
      cases h
      obtain ⟨v, -, hends, rfl, hv⟩ := exists_repr_of_readNumeral hread (by simp)
      obtain ⟨rfl, hpos, hle, rfl⟩ := wholeNumeral_eq_negative hv.symm
      refine ⟨⟨by omega, by omega⟩, hends, by simp [hpos], by simp⟩
    · cases h
    · rename_i k rest' hread
      split at h
      · rename_i hle
        cases h
        obtain ⟨v, -, hends, rfl, hv⟩ := exists_repr_of_readNumeral hread (by simp)
        obtain ⟨rfl, rfl⟩ := wholeNumeral_eq_natural hv.symm
        exact ⟨⟨by simp [hleast], hle⟩, hends, by simp, rfl⟩
      · cases h
  · rintro ⟨⟨hleast', hgreatest'⟩, hends, hsign, rfl⟩
    have hsize : n.natAbs ≤ greatestSignificand := by
      have : greatestSignificand = 18446744073709551615 := rfl
      omega
    rw [readSigned, readNumeral_repr hsize hends, wholeNumeral]
    cases negative with
    | true =>
      have hn : n < 0 := hsign.mp rfl
      have hbounds : ¬ (n.natAbs = 0 || 1 <<< 63 < n.natAbs) = true := by
        simp only [Bool.or_eq_true, decide_eq_true_eq, not_or]
        omega
      have habs : -Int.ofNat n.natAbs = n := by
        simp only [Int.ofNat_eq_natCast]
        omega
      rw [if_neg (by decide), if_neg hbounds, habs]
    | false =>
      have hn : ¬ n < 0 := fun h => absurd (hsign.mpr h) Bool.false_ne_true
      have habs : Int.ofNat n.natAbs = n := by
        simp only [Int.ofNat_eq_natCast]
        omega
      rw [if_pos (by decide)]
      simp only [habs]
      rw [if_pos hgreatest']

/-- **An integer that is wanted is read exactly if its digits stand there**, and nothing goes on
with them. -/
theorem wantInteger_eq_ok_iff {n : Int} : wantInteger text = .ok (n, rest) ↔
    Fits n ∧ EndsNumber rest ∧ skipBlanks text = (toString n).toList ++ rest := by
  rw [wantInteger_eq, toList_toString]
  split
  · rename_i digits htext
    rw [readSigned_eq_ok_iff, htext]
    by_cases hn : n < 0
    · simp [hn, -Nat.toList_repr]
    · have hne := repr_append_ne_sign (s := rest) (t := digits) n.natAbs
      simp [hn, hne.symm, -Nat.toList_repr]
  · rename_i hsign
    by_cases hn : n < 0
    · have hne : skipBlanks text ≠ '-' :: (n.natAbs.repr.toList ++ rest) := hsign _
      split
      · rw [readSigned_eq_ok_iff]
        simp [hn, hne, -Nat.toList_repr]
      · simp [hne, -Nat.toList_repr]
    · split
      · rw [readSigned_eq_ok_iff]
        simp [hn]
      · rename_i hdigit
        have hne : skipBlanks text ≠ n.natAbs.repr.toList ++ rest := by
          obtain ⟨c, cs, hcons, hc⟩ := repr_append_eq_cons n.natAbs rest
          intro h
          rw [h, hcons] at hdigit
          exact hdigit (by simpa using hc)
        simp [hne, -Nat.toList_repr]

end Precedence.Json
