import Precedence.Proofs.Except
import Precedence.Proofs.Number.Digits
import Precedence.Text.Digit

/-!
# Literals in the digits of any script

A number without a sign is made of digits, with a fraction or without, and with an exponent or
without. The digits may be those of any script, but numbers are read in ASCII digits only.

* `readNumber_of_isAscii`, `readNumber_neg_of_isAscii`: a number of ASCII characters reads as a
  number, with and without a minus sign in front of it, unless it is an integer out of range.
* `readNumber_of_not_isAscii`: a number with a digit of another script does not read as a number.
-/

namespace Precedence.Number

open Precedence.Text

variable {digit : Char → Bool} {text whole fraction exponent ds rest : List Char} {c : Char}

/-! ## The form of numbers -/

/-- Digits of a class, one at least. -/
def AreDigits (digit : Char → Bool) (ds : List Char) : Prop :=
  ds ≠ [] ∧ ∀ c ∈ ds, digit c = true

/-- A point and digits, or nothing. -/
def IsFraction (digit : Char → Bool) (part : List Char) : Prop :=
  part = [] ∨ ∃ ds, part = '.' :: ds ∧ AreDigits digit ds

/-- A mark, a minus sign or none, and digits; or nothing. -/
def IsExponent (digit : Char → Bool) (part : List Char) : Prop :=
  part = [] ∨ ∃ mark sign ds, part = mark :: (sign ++ ds) ∧ (mark = 'e' ∨ mark = 'E') ∧
    (sign = [] ∨ sign = ['-']) ∧ AreDigits digit ds

/-- Digits of a class, with a fraction or without, and with an exponent or without. -/
def IsUnsigned (digit : Char → Bool) (text : List Char) : Prop :=
  ∃ whole fraction exponent, text = whole ++ fraction ++ exponent ∧ AreDigits digit whole ∧
    IsFraction digit fraction ∧ IsExponent digit exponent

/-- All characters of the text are ASCII characters. -/
def IsAscii (text : List Char) : Prop :=
  ∀ c ∈ text, c.toNat < 128

instance (text : List Char) : Decidable (IsAscii text) :=
  decidable_of_iff (text.all (·.toNat < 128) = true) (by simp [IsAscii])

theorem isAscii_append : IsAscii (text ++ rest) ↔ IsAscii text ∧ IsAscii rest := by
  simp only [IsAscii, List.mem_append, or_imp, forall_and]

theorem isAscii_cons : IsAscii (c :: text) ↔ c.toNat < 128 ∧ IsAscii text := by
  simp only [IsAscii, List.forall_mem_cons]

theorem isAscii_of_digits (h : ∀ c ∈ ds, c.isDigit = true) : IsAscii ds := by
  intro c hc
  have := (toNat_of_isDigit (h c hc)).2
  omega

theorem AreDigits.mono {digit' : Char → Bool} (h : AreDigits digit ds)
    (hd : ∀ c ∈ ds, digit c = true → digit' c = true) : AreDigits digit' ds :=
  ⟨h.1, fun c hc => hd c hc (h.2 c hc)⟩

/-- What the digits of a number are may depend on the characters of the number. -/
theorem IsUnsigned.mono {digit' : Char → Bool} (h : IsUnsigned digit text)
    (hd : ∀ c ∈ text, digit c = true → digit' c = true) : IsUnsigned digit' text := by
  obtain ⟨whole, fraction, exponent, rfl, hwhole, hfraction, hexponent⟩ := h
  refine ⟨whole, fraction, exponent, rfl, hwhole.mono fun c hc => hd c (by simp [hc]), ?_, ?_⟩
  · refine hfraction.imp id fun ⟨ds, hpart, hds⟩ => ⟨ds, hpart, hds.mono fun c hc => hd c ?_⟩
    simp [hpart, hc]
  · refine hexponent.imp id fun ⟨mark, sign, ds, hpart, hmark, hsign, hds⟩ =>
      ⟨mark, sign, ds, hpart, hmark, hsign, hds.mono fun c hc => hd c ?_⟩
    simp [hpart, hc]

/-! ## Digits of any script -/

/-- A digit is an ASCII digit or no ASCII character at all. -/
theorem isDigit_or_of_decimalDigits (h : decimalDigits.contains c = true) :
    c.isDigit = true ∨ 128 ≤ c.toNat := by
  rw [CharSet.contains, decimalDigits, CharSet.holds] at h
  split at h
  · cases h
  · rename_i hlow
    rcases Bool.or_eq_true _ _ ▸ h with h | h
    · refine .inl ?_
      rw [decide_eq_true_eq] at h
      simp only [Char.isDigit, UInt32.le_iff_toNat_le, Bool.and_eq_true, decide_eq_true_eq,
        ge_iff_le]
      exact ⟨Nat.not_lt.mp hlow, h⟩
    · refine .inr ?_
      rw [CharSet.holds] at h
      split at h
      · cases h
      · omega

theorem IsUnsigned.of_isAscii (h : IsUnsigned decimalDigits.contains text) (ha : IsAscii text) :
    IsUnsigned Char.isDigit text := by
  refine h.mono fun c hc hd => (isDigit_or_of_decimalDigits hd).resolve_right ?_
  exact Nat.not_le.mpr (ha c hc)

theorem ne_of_decimalDigits {d : Char} (h : decimalDigits.contains c = true)
    (hd : decimalDigits.contains d = false) : c ≠ d := by
  rintro rfl
  rw [hd] at h
  cases h

/-- A digit has no other case. -/
theorem toLower_of_decimalDigits (h : decimalDigits.contains c = true) : c.toLower = c := by
  have hcase : ¬ ('A'.toNat ≤ c.toNat ∧ c.toNat ≤ 'Z'.toNat) := by
    have hA : 'A'.toNat = 65 := rfl
    have hZ : 'Z'.toNat = 90 := rfl
    rcases isDigit_or_of_decimalDigits h with h | h
    · have := toNat_of_isDigit h
      omega
    · omega
  exact dif_neg fun h => hcase ⟨UInt32.le_iff_toNat_le.mp h.1, UInt32.le_iff_toNat_le.mp h.2⟩

/-! ## Reading a real number -/

theorem readExponent_of_isExponent (h : IsExponent Char.isDigit exponent) :
    ∃ n, readExponent exponent = .ok n := by
  rcases h with rfl | ⟨mark, sign, ds, rfl, hmark, hsign, hne, hds⟩
  · exact ⟨0, rfl⟩
  · have hmark' : (mark == 'e' || mark == 'E') = true := by
      rcases hmark with rfl | rfl <;> rfl
    have hall : ds.all (·.isDigit) = true := List.all_eq_true.mpr hds
    have hempty : ds.isEmpty = false := by simpa using hne
    obtain ⟨d, ds', rfl⟩ := List.exists_cons_of_ne_nil hne
    obtain ⟨hplus, hminus, -⟩ := not_isDigit_special (hds d List.mem_cons_self)
    rcases hsign with rfl | rfl
    · rw [List.nil_append, readExponent]
      · simp only [hmark', hempty, hall, Bool.not_false, Bool.and_self, if_true]
        exact ⟨_, rfl⟩
      · exact fun _ he => hminus (List.cons.inj he).1
      · exact fun _ he => hplus (List.cons.inj he).1
    · rw [List.cons_append, List.nil_append, readExponent]
      simp only [hmark', hempty, hall, Bool.not_false, Bool.and_self, if_true]
      exact ⟨_, rfl⟩

/-- An exponent begins with neither a digit nor a point. -/
theorem IsExponent.head? (h : IsExponent digit exponent) :
    ∀ c ∈ exponent.head?, c.isDigit = false ∧ c ≠ '.' := by
  rcases h with rfl | ⟨mark, sign, ds, rfl, rfl | rfl, -, -⟩ <;> simp

theorem dropWhile_append_of_digits (hd : ∀ c ∈ ds, c.isDigit = true)
    (hs : ∀ c ∈ rest.head?, c.isDigit = false) : (ds ++ rest).dropWhile (·.isDigit) = rest := by
  rw [List.dropWhile_append_of_pos hd]
  cases rest with
  | nil => rfl
  | cons c rest => exact List.dropWhile_cons_of_neg (by simp [hs c rfl])

/-- A decimal without a fraction. -/
theorem readDecimal_whole (hds : ∀ c ∈ ds, c.isDigit = true)
    (hrest : ∀ c ∈ rest.head?, c.isDigit = false ∧ c ≠ '.') :
    readDecimal (ds ++ rest) = if ds = [] then .error .invalid else
      (readExponent rest).map (nearestReal (digitsValue ds) ds.length) := by
  have htake := takeWhile_append_of_digits hds fun c hc => (hrest c hc).1
  have hdrop := dropWhile_append_of_digits hds fun c hc => (hrest c hc).1
  have hpoint : ∀ rest', rest ≠ '.' :: rest' := by
    rintro rest' rfl
    exact (hrest '.' rfl).2 rfl
  rw [readDecimal, htake, hdrop]
  split
  · exact absurd rfl (hpoint _)
  · by_cases hempty : ds = []
    · rw [hempty]
      rfl
    · rw [if_neg (by simpa using hempty), if_neg hempty]
      simp only [List.append_nil, List.length_nil, Int.ofNat_eq_natCast, Int.natCast_zero,
        Int.sub_zero]
      cases readExponent rest <;> rfl

/-- A decimal with a point. -/
theorem readDecimal_point {ds' : List Char} (hds : ∀ c ∈ ds, c.isDigit = true)
    (hds' : ∀ c ∈ ds', c.isDigit = true) (hrest : ∀ c ∈ rest.head?, c.isDigit = false) :
    readDecimal (ds ++ '.' :: (ds' ++ rest)) = if ds = [] ∧ ds' = [] then .error .invalid else
      (readExponent rest).map fun n =>
        nearestReal (digitsValue (ds ++ ds')) (ds ++ ds').length (n - Int.ofNat ds'.length) := by
  have hpoint : ∀ c ∈ ('.' :: (ds' ++ rest)).head?, c.isDigit = false := by simp
  rw [readDecimal, takeWhile_append_of_digits hds hpoint, dropWhile_append_of_digits hds hpoint]
  simp only [takeWhile_append_of_digits hds' hrest, dropWhile_append_of_digits hds' hrest]
  by_cases hempty : ds = [] ∧ ds' = []
  · rw [hempty.1, hempty.2]
    rfl
  · rw [if_neg (by simpa using hempty), if_neg hempty]
    cases readExponent rest <;> rfl

/-- **A number in ASCII digits is a decimal.** -/
theorem exists_readDecimal_of_isUnsigned (h : IsUnsigned Char.isDigit text) :
    ∃ x, readDecimal text = .ok x := by
  obtain ⟨whole, fraction, exponent, rfl, ⟨hne, hwhole⟩, hfraction, hexponent⟩ := h
  obtain ⟨n, hn⟩ := readExponent_of_isExponent hexponent
  rcases hfraction with rfl | ⟨ds, rfl, -, hds⟩
  · rw [List.append_nil, readDecimal_whole hwhole hexponent.head?, if_neg hne, hn]
    exact ⟨_, rfl⟩
  · rw [List.append_assoc, List.cons_append,
      readDecimal_point hwhole hds fun c hc => (hexponent.head? c hc).1,
      if_neg fun h => hne h.1, hn]
    exact ⟨_, rfl⟩

theorem readExponent_of_not_isAscii (h : ¬ IsAscii text) :
    readExponent text = .error .invalid := by
  fun_cases readExponent text with
  | case1 => exact absurd (by simp [IsAscii]) h
  | case2 mark rest negative digits hsign hall =>
    refine absurd ?_ h
    simp only [Bool.and_eq_true, Bool.or_eq_true, beq_iff_eq, List.all_eq_true] at hall
    obtain ⟨⟨hmark, -⟩, hdigits⟩ := hall
    refine isAscii_cons.mpr ⟨by rcases hmark with rfl | rfl <;> decide, ?_⟩
    split at hsign
    all_goals cases hsign
    · exact isAscii_cons.mpr ⟨by decide, isAscii_of_digits hdigits⟩
    · exact isAscii_cons.mpr ⟨by decide, isAscii_of_digits hdigits⟩
    · exact isAscii_of_digits hdigits
  | case3 => rfl

/-- **A text with other characters than ASCII ones is no decimal.** -/
theorem readDecimal_of_not_isAscii (h : ¬ IsAscii text) : readDecimal text = .error .invalid := by
  -- The digits in front are ASCII characters, so the others are left for the exponent.
  obtain ⟨ds, rest, rfl, hds, hrest⟩ := exists_digits_append text
  have hrest' : ¬ IsAscii rest := fun hr => h (isAscii_append.mpr ⟨isAscii_of_digits hds, hr⟩)
  by_cases hpoint : rest.head? = some '.'
  · cases rest with
    | nil => cases hpoint
    | cons c rest =>
      cases Option.some.inj hpoint
      obtain ⟨ds', rest, rfl, hds', hhead⟩ := exists_digits_append rest
      have hexponent : ¬ IsAscii rest := fun hr => hrest'
        (isAscii_cons.mpr ⟨by decide, isAscii_append.mpr ⟨isAscii_of_digits hds', hr⟩⟩)
      rw [readDecimal_point hds hds' hhead, readExponent_of_not_isAscii hexponent]
      split <;> rfl
  · rw [readDecimal_whole hds fun c hc => ⟨hrest c hc, fun he => hpoint (he ▸ hc)⟩,
      readExponent_of_not_isAscii hrest']
    split <;> rfl

/-! ## Reading a number -/

/-- A number begins with a digit. -/
theorem IsUnsigned.exists_cons (h : IsUnsigned digit text) :
    ∃ c rest, text = c :: rest ∧ digit c = true := by
  obtain ⟨whole, fraction, exponent, rfl, ⟨hne, hwhole⟩, -⟩ := h
  obtain ⟨c, rest, rfl⟩ := List.exists_cons_of_ne_nil hne
  exact ⟨c, rest ++ fraction ++ exponent, rfl, hwhole c List.mem_cons_self⟩

/-- A number is no name of infinity or of no number. -/
theorem readUnsigned_of_isUnsigned (h : IsUnsigned decimalDigits.contains text) :
    readUnsigned text = readDecimal text := by
  obtain ⟨c, rest, rfl, hc⟩ := h.exists_cons
  have hi : c ≠ 'i' := ne_of_decimalDigits hc (by decide)
  have hn : c ≠ 'n' := ne_of_decimalDigits hc (by decide)
  simp only [readUnsigned, List.map_cons, toLower_of_decimalDigits hc, List.cons.injEq, hi, hn,
    false_and, decide_false, Bool.or_self, Bool.false_eq_true, if_false]

theorem readRealChars_of_isUnsigned (h : IsUnsigned decimalDigits.contains text) :
    readRealChars text = readDecimal text := by
  rw [← readUnsigned_of_isUnsigned h]
  obtain ⟨c, rest, rfl, hc⟩ := h.exists_cons
  rw [readRealChars]
  · exact List.cons_ne_nil c rest
  · exact fun _ he => ne_of_decimalDigits hc (by decide) (List.cons.inj he).1
  · exact fun _ he => ne_of_decimalDigits hc (by decide) (List.cons.inj he).1

theorem readIntegerChars_of_isUnsigned (h : IsUnsigned decimalDigits.contains text) :
    readIntegerChars text = readPositive 0 text := by
  obtain ⟨c, rest, rfl, hc⟩ := h.exists_cons
  have hplus : c ≠ '+' := ne_of_decimalDigits hc (by decide)
  have hminus : c ≠ '-' := ne_of_decimalDigits hc (by decide)
  unfold readIntegerChars
  split <;> simp_all

/-- A number without a fraction and without an exponent is made of digits. -/
theorem IsUnsigned.areDigits (h : IsUnsigned digit text) (hr : Value.isRealLiteral text = false) :
    AreDigits digit text := by
  obtain ⟨whole, fraction, exponent, rfl, hwhole, hfraction, hexponent⟩ := h
  simp only [Value.isRealLiteral, List.any_append, Bool.or_eq_false_iff] at hr
  obtain ⟨⟨-, hr⟩, hr'⟩ := hr
  rcases hfraction with rfl | ⟨ds, rfl, -⟩
  · rcases hexponent with rfl | ⟨mark, sign, ds, rfl, rfl | rfl, -⟩
    · simpa using hwhole
    · simp at hr'
    · simp at hr'
  · simp at hr

/-- Digits are read from left to right. -/
theorem readPositive_append (n : Int) (ds rest : List Char) :
    readPositive n (ds ++ rest) = readPositive n ds >>= fun m => readPositive m rest := by
  induction ds generalizing n with
  | nil => rfl
  | cons c ds ih =>
    rw [List.cons_append, readPositive, readPositive]
    split
    · rfl
    · simp only
      split
      · exact ih _
      · rfl

section Readings

variable {literal : String}

/-- **A number in ASCII digits reads as a number**, unless it is an integer that is too large. -/
theorem readNumber_of_isAscii (h : IsUnsigned decimalDigits.contains literal.toList)
    (ha : IsAscii literal.toList) :
    if Value.isRealLiteral literal.toList then ∃ x, Value.readNumber literal = .ok (.real x)
    else Value.readNumber literal =
      if (digitsValue literal.toList : Int) ≤ greatestInteger then
        .ok (.integer (digitsValue literal.toList))
      else .error (.integer .tooLarge) := by
  have hdigits := h.of_isAscii ha
  cases hr : Value.isRealLiteral literal.toList with
  | true =>
    obtain ⟨x, hx⟩ := exists_readDecimal_of_isUnsigned hdigits
    refine ⟨x, ?_⟩
    simp only [Value.readNumber, hr, if_true, readReal, readRealChars_of_isUnsigned h, hx]
  | false =>
    obtain ⟨hne, hds⟩ := hdigits.areDigits hr
    by_cases hle : (digitsValue literal.toList : Int) ≤ greatestInteger
    · rw [if_pos hle]
      exact readNumber_of_isDigits ⟨hne, hds⟩ hle
    · rw [if_neg hle]
      exact readNumber_of_greater ⟨hne, hds⟩ (Int.not_le.mp hle)

/-- Behind a minus sign it does as well, unless it is an integer that is too small there. -/
theorem readNumber_neg_of_isAscii (h : IsUnsigned decimalDigits.contains literal.toList)
    (ha : IsAscii literal.toList) :
    if Value.isRealLiteral literal.toList then
      ∃ x, Value.readNumber ("-" ++ literal) = .ok (.real x)
    else Value.readNumber ("-" ++ literal) =
      if leastInteger ≤ -(digitsValue literal.toList : Int) then
        .ok (.integer (-(digitsValue literal.toList : Int)))
      else .error (.integer .tooSmall) := by
  have hdigits := h.of_isAscii ha
  cases hr : Value.isRealLiteral literal.toList with
  | true =>
    obtain ⟨x, hx⟩ := exists_readDecimal_of_isUnsigned hdigits
    refine ⟨-x, ?_⟩
    have hr' : Value.isRealLiteral ('-' :: literal.toList) = true := by
      simpa [Value.isRealLiteral] using hr
    simp only [Value.readNumber, toList_neg, hr', if_true, readReal, readRealChars,
      readUnsigned_of_isUnsigned h, hx, Except.map]
  | false =>
    obtain ⟨hne, hds⟩ := hdigits.areDigits hr
    by_cases hle : leastInteger ≤ -(digitsValue literal.toList : Int)
    · rw [if_pos hle]
      exact readNumber_neg_of_isDigits ⟨hne, hds⟩ hle
    · rw [if_neg hle]
      exact readNumber_neg_of_less ⟨hne, hds⟩ (Int.not_le.mp hle)

/-- **A number with a digit of another script does not read as a number.** Where it has no fraction
and no exponent, the digits in front of that one may already be too large. -/
theorem readNumber_of_not_isAscii (h : IsUnsigned decimalDigits.contains literal.toList)
    (ha : ¬ IsAscii literal.toList) :
    Value.readNumber literal = .error (
      if Value.isRealLiteral literal.toList then .real .invalid
      else .integer (
        if (digitsValue (literal.toList.takeWhile (·.isDigit)) : Int) ≤ greatestInteger then
          .invalidDigit
        else .tooLarge)) := by
  cases hr : Value.isRealLiteral literal.toList with
  | true =>
    simp only [Value.readNumber, hr, if_true, readReal, readRealChars_of_isUnsigned h,
      readDecimal_of_not_isAscii ha]
  | false =>
    have hread : readInteger literal = readPositive 0 literal.toList :=
      readIntegerChars_of_isUnsigned h
    obtain ⟨ds, rest, hsplit, hds, hrest⟩ := exists_digits_append literal.toList
    rw [hsplit, readPositive_append] at hread
    rw [hsplit, takeWhile_append_of_digits hds hrest]
    cases rest with
    | nil =>
      rw [hsplit, List.append_nil] at ha
      exact absurd (isAscii_of_digits hds) ha
    | cons c rest =>
      have hc : digitValue? c = none := by rw [digitValue?, hrest c rfl]; rfl
      by_cases hle : (digitsValue ds : Int) ≤ greatestInteger
      · have hds' : readPositive 0 ds = .ok (digitsValue ds : Int) :=
          readPositive_of_digits (n := 0) hds hle
        have herror : readInteger literal = .error .invalidDigit := by
          rw [hread, hds']
          simp only [bind, Except.bind, readPositive, hc]
        simp only [Value.readNumber, hr, Bool.false_eq_true, if_false, herror, if_pos hle]
      · have hds' : readPositive 0 ds = .error .tooLarge :=
          readPositive_of_greater (n := 0) hds (by decide) (Int.not_le.mp hle)
        have herror : readInteger literal = .error .tooLarge := by
          rw [hread, hds']
          rfl
        simp only [Value.readNumber, hr, Bool.false_eq_true, if_false, herror, if_neg hle]

end Readings

end Precedence.Number
