import Precedence.Value.Literal
import Mathlib.Data.List.Induction

/-!
# Literals of integers

What ASCII digits read as, with and without a minus sign in front of them.

* `readNumber_of_isDigits`, `readNumber_neg_of_isDigits`: digits read as the number they stand for,
  if that number or its opposite has 64 bits.
* `readNumber_of_greater`, `readNumber_neg_of_less`: if it has not, they are no literal.
* `readInteger_eq_ok`, `readInteger_neg_eq_ok`: what reads as an integer is what its digits stand for.
* `isDigits_repr`: the text of a natural number is such digits.
* `toList_repr_digitsValue`: digits are the text of what they stand for, if no zero stands in front
  of other digits.
-/

namespace Precedence.Number

/-- The text is made of ASCII digits, of at least one. -/
structure IsDigits (text : String) : Prop where
  nonempty : text.toList ≠ []
  digits : ∀ c ∈ text.toList, c.isDigit = true

instance (text : String) : Decidable (IsDigits text) :=
  decidable_of_iff (text.toList ≠ [] ∧ text.toList.all (·.isDigit) = true)
    ⟨fun h => ⟨h.1, List.all_eq_true.mp h.2⟩, fun h => ⟨h.1, List.all_eq_true.mpr h.2⟩⟩

theorem digitsValue_eq (ds : List Char) : digitsValue ds = Nat.ofDigitChars 10 ds 0 := rfl

theorem toNat_of_isDigit {c : Char} (h : c.isDigit = true) : 48 ≤ c.toNat ∧ c.toNat ≤ 57 := by
  simpa [Char.isDigit, UInt32.le_iff_toNat_le] using h

theorem digitValue?_of_isDigit {c : Char} (h : c.isDigit = true) :
    digitValue? c = some (c.toNat - '0'.toNat) := by
  rw [digitValue?, if_pos h]

theorem le_ofDigitChars (ds : List Char) (n : Nat) : n ≤ Nat.ofDigitChars 10 ds n := by
  induction ds generalizing n with
  | nil => exact Nat.le_refl n
  | cons c ds ih =>
    rw [Nat.ofDigitChars_cons]
    refine Nat.le_trans ?_ (ih _)
    omega

theorem readPositive_of_digits {ds : List Char} {n : Nat} (hd : ∀ c ∈ ds, c.isDigit = true)
    (hn : (Nat.ofDigitChars 10 ds n : Int) ≤ greatestInteger) :
    readPositive n ds = .ok (Nat.ofDigitChars 10 ds n) := by
  induction ds generalizing n with
  | nil => rfl
  | cons c ds ih =>
    have hc := digitValue?_of_isDigit (hd c List.mem_cons_self)
    rw [Nat.ofDigitChars_cons] at hn ⊢
    have hle := le_ofDigitChars ds (10 * n + (c.toNat - '0'.toNat))
    have hnext : 10 * (n : Int) + ((c.toNat - '0'.toNat : Nat) : Int) =
        ((10 * n + (c.toNat - '0'.toNat) : Nat) : Int) := by
      omega
    unfold readPositive
    simp only [hc, hnext]
    rw [if_pos (by omega)]
    exact ih (fun c' hc' => hd c' (List.mem_cons_of_mem _ hc')) hn

/-- Digits that go beyond the greatest integer are found too large at one of them. -/
theorem readPositive_of_greater {ds : List Char} {n : Nat} (hd : ∀ c ∈ ds, c.isDigit = true)
    (hsofar : (n : Int) ≤ greatestInteger)
    (hn : greatestInteger < (Nat.ofDigitChars 10 ds n : Int)) :
    readPositive n ds = .error .tooLarge := by
  induction ds generalizing n with
  | nil => exact absurd hsofar (Int.not_le.mpr hn)
  | cons c ds ih =>
    have hc := digitValue?_of_isDigit (hd c List.mem_cons_self)
    rw [Nat.ofDigitChars_cons] at hn
    have hnext : 10 * (n : Int) + ((c.toNat - '0'.toNat : Nat) : Int) =
        ((10 * n + (c.toNat - '0'.toNat) : Nat) : Int) := by
      omega
    unfold readPositive
    simp only [hc, hnext]
    split
    · rename_i hle
      exact ih (fun c' hc' => hd c' (List.mem_cons_of_mem _ hc')) hle hn
    · rfl

theorem readNegative_of_digits {ds : List Char} {n : Nat} (hd : ∀ c ∈ ds, c.isDigit = true)
    (hn : leastInteger ≤ -(Nat.ofDigitChars 10 ds n : Int)) :
    readNegative (-n) ds = .ok (-(Nat.ofDigitChars 10 ds n : Int)) := by
  induction ds generalizing n with
  | nil => rfl
  | cons c ds ih =>
    have hc := digitValue?_of_isDigit (hd c List.mem_cons_self)
    rw [Nat.ofDigitChars_cons] at hn ⊢
    have hle := le_ofDigitChars ds (10 * n + (c.toNat - '0'.toNat))
    have hnext : 10 * -(n : Int) - ((c.toNat - '0'.toNat : Nat) : Int) =
        -((10 * n + (c.toNat - '0'.toNat) : Nat) : Int) := by
      omega
    unfold readNegative
    simp only [hc, hnext]
    rw [if_pos (by omega)]
    exact ih (fun c' hc' => hd c' (List.mem_cons_of_mem _ hc')) hn

/-- Digits that go beyond the least integer are found too small at one of them. -/
theorem readNegative_of_less {ds : List Char} {n : Nat} (hd : ∀ c ∈ ds, c.isDigit = true)
    (hsofar : leastInteger ≤ -(n : Int))
    (hn : -(Nat.ofDigitChars 10 ds n : Int) < leastInteger) :
    readNegative (-n) ds = .error .tooSmall := by
  induction ds generalizing n with
  | nil => exact absurd hsofar (Int.not_le.mpr hn)
  | cons c ds ih =>
    have hc := digitValue?_of_isDigit (hd c List.mem_cons_self)
    rw [Nat.ofDigitChars_cons] at hn
    have hnext : 10 * -(n : Int) - ((c.toNat - '0'.toNat : Nat) : Int) =
        -((10 * n + (c.toNat - '0'.toNat) : Nat) : Int) := by
      omega
    unfold readNegative
    simp only [hc, hnext]
    split
    · rename_i hle
      exact ih (fun c' hc' => hd c' (List.mem_cons_of_mem _ hc')) hle hn
    · rfl

theorem not_isDigit_special {c : Char} (h : c.isDigit = true) :
    c ≠ '+' ∧ c ≠ '-' ∧ c ≠ '.' ∧ c ≠ 'e' ∧ c ≠ 'E' := by
  refine ⟨?_, ?_, ?_, ?_, ?_⟩ <;> rintro rfl <;> revert h <;> decide

/-- Digits are no literal of a real number. -/
theorem isRealLiteral_of_isDigits {text : String} (h : IsDigits text) :
    Value.isRealLiteral text.toList = false := by
  rw [Value.isRealLiteral, List.any_eq_false]
  intro c hc
  obtain ⟨-, -, hp, he, hE⟩ := not_isDigit_special (h.digits c hc)
  simp [hp, he, hE]

theorem readIntegerChars_of_isDigits {text : String} (h : IsDigits text) :
    readIntegerChars text.toList = readPositive 0 text.toList := by
  cases hl : text.toList with
  | nil => exact absurd hl h.nonempty
  | cons c cs =>
    obtain ⟨hp, hm, -⟩ := not_isDigit_special (h.digits c (by rw [hl]; exact List.mem_cons_self))
    unfold readIntegerChars
    split <;> simp_all

/-- **Digits read as the number that they stand for.** -/
theorem readNumber_of_isDigits {text : String} (h : IsDigits text)
    (hn : (digitsValue text.toList : Int) ≤ greatestInteger) :
    Value.readNumber text = .ok (.integer (digitsValue text.toList)) := by
  have hr : readInteger text = .ok (digitsValue text.toList : Int) := by
    rw [readInteger, readIntegerChars_of_isDigits h]
    exact readPositive_of_digits (n := 0) h.digits hn
  simp only [Value.readNumber, isRealLiteral_of_isDigits h, Bool.false_eq_true, if_false, hr]

theorem toList_neg (text : String) : ("-" ++ text).toList = '-' :: text.toList := by
  simp

/-- Digits behind a minus sign are no literal of a real number either. -/
theorem isRealLiteral_neg_of_isDigits {text : String} (h : IsDigits text) :
    Value.isRealLiteral ("-" ++ text).toList = false := by
  have htext := isRealLiteral_of_isDigits h
  rw [toList_neg]
  simpa [Value.isRealLiteral] using htext

/-- **Digits behind a minus sign read as the opposite number.** -/
theorem readNumber_neg_of_isDigits {text : String} (h : IsDigits text)
    (hn : leastInteger ≤ -(digitsValue text.toList : Int)) :
    Value.readNumber ("-" ++ text) = .ok (.integer (-(digitsValue text.toList : Int))) := by
  have hr : readInteger ("-" ++ text) = .ok (-(digitsValue text.toList : Int)) := by
    rw [readInteger, toList_neg, readIntegerChars]
    · exact readNegative_of_digits (n := 0) h.digits hn
    · exact h.nonempty
  simp only [Value.readNumber, isRealLiteral_neg_of_isDigits h, Bool.false_eq_true, if_false, hr]

/-- Digits that stand for more than the greatest integer are no literal. -/
theorem readNumber_of_greater {text : String} (h : IsDigits text)
    (hn : greatestInteger < (digitsValue text.toList : Int)) :
    Value.readNumber text = .error (.integer .tooLarge) := by
  have hr : readInteger text = .error .tooLarge := by
    rw [readInteger, readIntegerChars_of_isDigits h]
    exact readPositive_of_greater (n := 0) h.digits (by decide) hn
  simp only [Value.readNumber, isRealLiteral_of_isDigits h, Bool.false_eq_true, if_false, hr]

/-- Digits behind a minus sign that stand for less than the least integer are no literal. -/
theorem readNumber_neg_of_less {text : String} (h : IsDigits text)
    (hn : -(digitsValue text.toList : Int) < leastInteger) :
    Value.readNumber ("-" ++ text) = .error (.integer .tooSmall) := by
  have hr : readInteger ("-" ++ text) = .error .tooSmall := by
    rw [readInteger, toList_neg, readIntegerChars]
    · exact readNegative_of_less (n := 0) h.digits (by decide) hn
    · exact h.nonempty
  simp only [Value.readNumber, isRealLiteral_neg_of_isDigits h, Bool.false_eq_true, if_false, hr]

/-! ## What is read -/

theorem fits_readPositive {ds : List Char} {n m : Int} (hn : Fits n) (h0 : 0 ≤ n)
    (h : readPositive n ds = .ok m) : Fits m := by
  induction ds generalizing n with
  | nil =>
    cases h
    exact hn
  | cons c ds ih =>
    unfold readPositive at h
    split at h
    · cases h
    · simp only at h
      split at h
      · rename_i hle
        exact ih ⟨by simp only [leastInteger]; omega, hle⟩ (by omega) h
      · cases h

theorem fits_readNegative {ds : List Char} {n m : Int} (hn : Fits n) (h0 : n ≤ 0)
    (h : readNegative n ds = .ok m) : Fits m := by
  induction ds generalizing n with
  | nil =>
    cases h
    exact hn
  | cons c ds ih =>
    unfold readNegative at h
    split at h
    · cases h
    · simp only at h
      split at h
      · rename_i hle
        exact ih ⟨hle, by simp only [greatestInteger]; omega⟩ (by omega) h
      · cases h

/-- An integer that is read has 64 bits. -/
theorem fits_readInteger {text : String} {n : Int} (h : readInteger text = .ok n) : Fits n := by
  have hzero : Fits 0 := by decide
  unfold readInteger readIntegerChars at h
  split at h
  · cases h
  · cases h
  · cases h
  · exact fits_readPositive hzero (Int.le_refl 0) h
  · exact fits_readNegative hzero (Int.le_refl 0) h
  · exact fits_readPositive hzero (Int.le_refl 0) h

theorem eq_of_digitValue? {c : Char} {d : Nat} (h : digitValue? c = some d) :
    d = c.toNat - '0'.toNat := by
  rw [digitValue?] at h
  split at h
  · exact (Option.some.inj h).symm
  · cases h

theorem readPositive_eq_ok {ds : List Char} {n : Nat} {m : Int} (h : readPositive n ds = .ok m) :
    m = Nat.ofDigitChars 10 ds n := by
  induction ds generalizing n with
  | nil =>
    cases h
    rfl
  | cons c ds ih =>
    unfold readPositive at h
    split at h
    · cases h
    · rename_i d hd
      have hnext : 10 * (n : Int) + d = ((10 * n + d : Nat) : Int) := by omega
      simp only [hnext] at h
      split at h
      · rw [Nat.ofDigitChars_cons, ← eq_of_digitValue? hd]
        exact ih h
      · cases h

theorem readNegative_eq_ok {ds : List Char} {n : Nat} {m : Int}
    (h : readNegative (-n) ds = .ok m) : m = -(Nat.ofDigitChars 10 ds n : Int) := by
  induction ds generalizing n with
  | nil =>
    cases h
    rfl
  | cons c ds ih =>
    unfold readNegative at h
    split at h
    · cases h
    · rename_i d hd
      have hnext : 10 * -(n : Int) - d = -((10 * n + d : Nat) : Int) := by omega
      simp only [hnext] at h
      split at h
      · rw [Nat.ofDigitChars_cons, ← eq_of_digitValue? hd]
        exact ih h
      · cases h

/-- **A text without a sign that reads as an integer** reads as what its digits stand for. -/
theorem readInteger_eq_ok {text : String} {m : Int}
    (hsign : ∀ c ∈ text.toList.head?, c ≠ '+' ∧ c ≠ '-') (h : readInteger text = .ok m) :
    m = digitsValue text.toList := by
  rw [readInteger] at h
  cases htext : text.toList with
  | nil =>
    rw [htext] at h
    cases h
  | cons c cs =>
    rw [htext] at h hsign
    obtain ⟨hplus, hminus⟩ := hsign c rfl
    have hread : readIntegerChars (c :: cs) = readPositive 0 (c :: cs) := by
      unfold readIntegerChars
      split <;> simp_all
    rw [hread] at h
    exact readPositive_eq_ok (n := 0) h

/-- **A text behind a minus sign that reads as an integer** reads as the opposite of what its digits
stand for. -/
theorem readInteger_neg_eq_ok {text : String} {m : Int} (h : readInteger ("-" ++ text) = .ok m) :
    m = -(digitsValue text.toList : Int) := by
  rw [readInteger, toList_neg] at h
  cases htext : text.toList with
  | nil =>
    rw [htext] at h
    cases h
  | cons c cs =>
    rw [htext, readIntegerChars] at h
    · exact readNegative_eq_ok (n := 0) h
    · simp

/-! ## Texts of numbers -/

/-- The text of a natural number is made of digits. -/
theorem isDigits_repr (n : Nat) : IsDigits n.repr := by
  constructor
  · rw [Nat.toList_repr]
    exact Nat.toDigits_ne_nil
  · intro c hc
    rw [Nat.toList_repr] at hc
    exact Nat.isDigit_of_mem_toDigits (by decide) (by decide) hc

/-- The text of a natural number stands for the number. -/
theorem digitsValue_repr (n : Nat) : digitsValue n.repr.toList = n := by
  rw [digitsValue_eq, Nat.toList_repr, Nat.ofDigitChars_ten_toDigits]

/-- A digit is the text of its value. -/
theorem toDigits_of_isDigit {c : Char} (h : c.isDigit = true) :
    Nat.toDigits 10 (c.toNat - '0'.toNat) = [c] := by
  obtain ⟨hge, hle⟩ := toNat_of_isDigit h
  have hzero : '0'.toNat = 48 := rfl
  have htable : ∀ d < 10, Nat.digitChar d = Char.ofNat ('0'.toNat + d) := by decide
  rw [Nat.toDigits_of_lt_base (by omega), htable _ (by omega), Nat.add_sub_cancel' (by omega),
    Char.ofNat_toNat]

/-- A number whose digits begin with another one than zero is positive. -/
theorem digitsValue_cons_pos {c : Char} {ds : List Char} (hc : c.isDigit = true) (h : c ≠ '0') :
    0 < digitsValue (c :: ds) := by
  have hle := le_ofDigitChars ds (10 * 0 + (c.toNat - '0'.toNat))
  have hne : c.toNat ≠ '0'.toNat := fun heq => h (Char.toNat_inj.mp heq)
  have hzero : '0'.toNat = 48 := rfl
  obtain ⟨hge, -⟩ := toNat_of_isDigit hc
  rw [digitsValue_eq, Nat.ofDigitChars_cons]
  omega

/-- **Digits are the text of the number that they stand for**, if no zero stands in front of other
digits. -/
theorem toList_repr_digitsValue {ds : List Char} (hne : ds ≠ [])
    (hd : ∀ c ∈ ds, c.isDigit = true) (hzero : ds.head? = some '0' → ds.length = 1) :
    (digitsValue ds).repr.toList = ds := by
  induction ds using List.reverseRecOn with
  | nil => exact absurd rfl hne
  | append_singleton init c ih =>
    have hc := hd c (by simp)
    have hvalue : digitsValue (init ++ [c]) = 10 * digitsValue init + (c.toNat - '0'.toNat) := by
      rw [digitsValue_eq, Nat.ofDigitChars_append, Nat.ofDigitChars_cons, Nat.ofDigitChars_nil]
      rfl
    rw [hvalue, Nat.toList_repr]
    cases init with
    | nil => exact (congrArg (Nat.toDigits 10) (Nat.zero_add _)).trans (toDigits_of_isDigit hc)
    | cons d init =>
      have hfirst : d ≠ '0' := by
        rintro rfl
        have hlength := hzero rfl
        simp at hlength
      have hinit := ih (List.cons_ne_nil d init)
        (fun c' hc' => hd c' (List.mem_append_left [c] hc'))
        fun hhead => absurd (Option.some.inj hhead) hfirst
      have hpos : 0 < digitsValue (d :: init) := digitsValue_cons_pos (hd d (by simp)) hfirst
      have hzero : '0'.toNat = 48 := rfl
      obtain ⟨-, hle⟩ := toNat_of_isDigit hc
      rw [← Nat.toDigits_append_toDigits (by decide) hpos (by omega), toDigits_of_isDigit hc,
        ← Nat.toList_repr, hinit]

/-- No zero stands in front of the other digits of a number. -/
theorem length_repr_of_head? {n : Nat} (h : n.repr.toList.head? = some '0') :
    n.repr.toList.length = 1 := by
  induction n using Nat.strongRecOn with
  | ind n ih =>
    rw [Nat.toList_repr] at h ⊢
    by_cases hn : n < 10
    · rw [Nat.toDigits_of_lt_base hn]
      rfl
    · obtain ⟨c, cs, hcons⟩ :=
        List.exists_cons_of_ne_nil (Nat.toDigits_ne_nil (b := 10) (n := n / 10))
      have hhead : (Nat.toDigits 10 n).head? = some c := by
        rw [Nat.toDigits_of_base_le (by decide) (by omega), hcons]
        rfl
      -- The digits but the last one would be a single zero.
      cases Option.some.inj (hhead.symm.trans h)
      have hone := ih (n / 10) (by omega) (by rw [Nat.toList_repr, hcons]; rfl)
      have hvalue := digitsValue_repr (n / 10)
      rw [Nat.toList_repr, hcons] at hone hvalue
      rw [List.length_eq_zero_iff.mp (Nat.succ.inj hone)] at hvalue
      have hzero : 0 = n / 10 := hvalue
      omega

/-- Digits end where no digit follows. -/
theorem takeWhile_append_of_digits {ds s : List Char} (hd : ∀ c ∈ ds, c.isDigit = true)
    (hs : ∀ c ∈ s.head?, c.isDigit = false) : (ds ++ s).takeWhile (·.isDigit) = ds := by
  rw [List.takeWhile_append_of_pos hd]
  cases s with
  | nil => simp
  | cons c s => simp [hs c rfl]

/-- The digits at the beginning of a text, and the text behind them. -/
theorem exists_digits_append (text : List Char) : ∃ ds rest, text = ds ++ rest ∧
    (∀ c ∈ ds, c.isDigit = true) ∧ ∀ c ∈ rest.head?, c.isDigit = false := by
  induction text with
  | nil => exact ⟨[], [], rfl, by simp, by simp⟩
  | cons c text ih =>
    by_cases hc : c.isDigit = true
    · obtain ⟨ds, rest, rfl, hds, hrest⟩ := ih
      exact ⟨c :: ds, rest, rfl, by simpa [hc] using hds, hrest⟩
    · exact ⟨[], c :: text, rfl, by simp, by simpa using hc⟩

/-- The text of a natural number and what stands behind it are told apart, if no digit does. -/
theorem repr_append_inj {n m : Nat} {s t : List Char} (hs : ∀ c ∈ s.head?, c.isDigit = false)
    (ht : ∀ c ∈ t.head?, c.isDigit = false) (h : n.repr.toList ++ s = m.repr.toList ++ t) :
    n = m ∧ s = t := by
  have hdigits : n.repr.toList = m.repr.toList := by
    rw [← takeWhile_append_of_digits (isDigits_repr n).digits hs, h,
      takeWhile_append_of_digits (isDigits_repr m).digits ht]
  refine ⟨?_, List.append_cancel_left (hdigits ▸ h)⟩
  rw [← digitsValue_repr n, hdigits, digitsValue_repr]

/-- The text of an integer. -/
theorem toList_toString (n : Int) :
    (toString n).toList = (if n < 0 then ['-'] else []) ++ n.natAbs.repr.toList := by
  cases n with
  | ofNat k => rfl
  | negSucc k =>
    rw [if_pos (Int.negSucc_lt_zero k),
      show toString (Int.negSucc k) = "-" ++ (k + 1).repr from rfl, String.toList_append]
    rfl

end Precedence.Number
