import Precedence.Proofs.Number.Digits

/-!
# Texts of real numbers

A real number is written as digits, or as digits with a point among them, or as a name, and with a
minus sign in front of it if its sign bit is set.

* `writeReal_plain`: these are all forms of the text of a real number.
* `exists_readNumber`, `exists_readNumber_neg`: digits with a point among them read as a real
  number, with and without a minus sign.
-/

namespace Precedence.Number

/-- Digits, a point, and digits. -/
def IsDecimal (text : String) : Prop :=
  ∃ whole fraction : List Char, text.toList = whole ++ '.' :: fraction ∧
    (whole ≠ [] ∧ ∀ c ∈ whole, c.isDigit = true) ∧
    (fraction ≠ [] ∧ ∀ c ∈ fraction, c.isDigit = true)

/-- Digits, with or without a point among them. -/
def IsNumeral (text : String) : Prop :=
  IsDigits text ∨ IsDecimal text

variable {text : String}

/-- A numeral begins with a digit. -/
theorem IsNumeral.exists_cons (h : IsNumeral text) :
    ∃ c cs, text.toList = c :: cs ∧ c.isDigit = true := by
  rcases h with ⟨hne, hd⟩ | ⟨whole, fraction, ht, ⟨hne, hd⟩, -⟩
  · obtain ⟨c, cs, hl⟩ := List.exists_cons_of_ne_nil hne
    exact ⟨c, cs, hl, hd c (by rw [hl]; exact List.mem_cons_self)⟩
  · obtain ⟨c, cs, rfl⟩ := List.exists_cons_of_ne_nil hne
    exact ⟨c, _, ht, hd c List.mem_cons_self⟩

/-- There is no letter in a numeral. -/
theorem IsNumeral.not_mem_letter (h : IsNumeral text) : 'i' ∉ text.toList := by
  have hletter : ∀ word : List Char, (∀ c ∈ word, c.isDigit = true) → 'i' ∉ word :=
    fun word hd hmem => absurd (hd _ hmem) (by decide)
  rcases h with ⟨-, hd⟩ | ⟨whole, fraction, ht, ⟨-, hw⟩, -, hf⟩
  · exact hletter _ hd
  · simp [ht, hletter _ hw, hletter _ hf]

/-! ## Reading -/

theorem IsDecimal.isRealLiteral (h : IsDecimal text) : Value.isRealLiteral text.toList = true := by
  obtain ⟨whole, fraction, ht, -⟩ := h
  rw [ht, Value.isRealLiteral, List.any_append, List.any_cons]
  simp

theorem readDecimal_of_isDecimal (h : IsDecimal text) : ∃ x, readDecimal text.toList = .ok x := by
  obtain ⟨whole, fraction, ht, ⟨hne, hw⟩, -, hf⟩ := h
  have hwhole : (whole ++ '.' :: fraction).takeWhile (·.isDigit) = whole := by
    rw [List.takeWhile_append_of_pos hw, List.takeWhile_cons_of_neg (by decide), List.append_nil]
  have hrest : (whole ++ '.' :: fraction).dropWhile (·.isDigit) = '.' :: fraction := by
    rw [List.dropWhile_append_of_pos hw, List.dropWhile_cons_of_neg (by decide)]
  have hfraction : fraction.dropWhile (·.isDigit) = [] := by
    rw [← List.append_nil fraction, List.dropWhile_append_of_pos hf]
    rfl
  have hempty : whole.isEmpty = false := by simpa using hne
  rw [readDecimal, ht, hwhole, hrest]
  simp only [hfraction, hempty, Bool.false_and, Bool.false_eq_true, if_false, readExponent]
  exact ⟨_, rfl⟩

theorem IsDecimal.point_mem (h : IsDecimal text) : '.' ∈ text.toList := by
  obtain ⟨whole, fraction, ht, -⟩ := h
  simp [ht]

theorem readUnsigned_of_isDecimal (h : IsDecimal text) :
    ∃ x, readUnsigned text.toList = .ok x := by
  have hpoint : '.' ∈ text.toList.map Char.toLower :=
    List.mem_map.mpr ⟨'.', h.point_mem, by decide⟩
  have hname : ∀ name : List Char, '.' ∉ name → text.toList.map Char.toLower ≠ name :=
    fun name hname he => hname (he ▸ hpoint)
  unfold readUnsigned
  simp only [hname ['i', 'n', 'f'] (by decide),
    hname ['i', 'n', 'f', 'i', 'n', 'i', 't', 'y'] (by decide), hname ['n', 'a', 'n'] (by decide),
    decide_false, Bool.or_false, Bool.false_eq_true, if_false]
  exact readDecimal_of_isDecimal h

/-- **A decimal reads as a real number.** -/
theorem exists_readNumber (h : IsDecimal text) : ∃ x, Value.readNumber text = .ok (.real x) := by
  obtain ⟨x, hx⟩ := readUnsigned_of_isDecimal h
  have hread : readReal text = .ok x := by
    obtain ⟨whole, fraction, ht, ⟨hne, hd⟩, -⟩ := h
    obtain ⟨c, cs, rfl⟩ := List.exists_cons_of_ne_nil hne
    obtain ⟨hplus, hminus, -⟩ := not_isDigit_special (hd c List.mem_cons_self)
    rw [ht, List.cons_append] at hx
    rw [readReal, ht, List.cons_append, readRealChars]
    · exact hx
    · exact List.cons_ne_nil _ _
    · exact fun _ he => hplus (List.cons.inj he).1
    · exact fun _ he => hminus (List.cons.inj he).1
  refine ⟨x, ?_⟩
  simp only [Value.readNumber, h.isRealLiteral, if_true, hread]

theorem exists_readNumber_neg (h : IsDecimal text) :
    ∃ x, Value.readNumber ("-" ++ text) = .ok (.real x) := by
  obtain ⟨x, hx⟩ := readUnsigned_of_isDecimal h
  have hl : ("-" ++ text).toList = '-' :: text.toList := by simp
  have hreal : Value.isRealLiteral ("-" ++ text).toList = true := by
    have htext := h.isRealLiteral
    rw [hl]
    simpa [Value.isRealLiteral] using htext
  have hread : readReal ("-" ++ text) = .ok (-x) := by
    rw [readReal, hl, readRealChars, hx]
    rfl
  refine ⟨-x, ?_⟩
  simp only [Value.readNumber, hreal, if_true, hread]

/-! ## Writing -/

theorem isDigits_toDigits (n : Nat) :
    Nat.toDigits 10 n ≠ [] ∧ ∀ c ∈ Nat.toDigits 10 n, c.isDigit = true :=
  ⟨Nat.toDigits_ne_nil, fun _ hc => Nat.isDigit_of_mem_toDigits (by decide) (by decide) hc⟩

/-- A number written with digits and no exponent. -/
theorem isNumeral_writePositional {digits : List Char} (hne : digits ≠ [])
    (hd : ∀ c ∈ digits, c.isDigit = true) (exponent : Int) :
    IsNumeral (writePositional .plain digits exponent) := by
  have hzeros : ∀ n, ∀ c ∈ List.replicate n '0', c.isDigit = true := fun n c hc => by
    rw [List.eq_of_mem_replicate hc]
    rfl
  unfold writePositional
  split
  · left
    have htext : (String.ofList (digits ++ List.replicate exponent.toNat '0') ++
        Layout.plain.wholeEnd).toList = digits ++ List.replicate exponent.toNat '0' := by
      simp [Layout.plain]
    constructor
    · rw [htext]
      simp [hne]
    · rw [htext]
      intro c hc
      rcases List.mem_append.mp hc with hc | hc
      · exact hd c hc
      · exact hzeros _ c hc
  · right
    simp only
    split
    · refine ⟨digits.take (digits.length - exponent.natAbs),
        digits.drop (digits.length - exponent.natAbs), String.toList_ofList,
        ⟨?_, fun c hc => hd c (List.mem_of_mem_take hc)⟩,
        ⟨?_, fun c hc => hd c (List.mem_of_mem_drop hc)⟩⟩
      · rw [← List.length_pos_iff, List.length_take]
        omega
      · rw [← List.length_pos_iff, List.length_drop]
        omega
    · refine ⟨['0'], List.replicate (exponent.natAbs - digits.length) '0' ++ digits, ?_,
        ⟨List.cons_ne_nil _ _, List.forall_mem_singleton.mpr rfl⟩, ⟨by simp [hne], fun c hc => ?_⟩⟩
      · rw [String.toList_ofList]
        simp
      · rcases List.mem_append.mp hc with hc | hc
        · exact hzeros _ c hc
        · exact hd c hc

theorem isNumeral_writePositive (bits : Nat) : IsNumeral (writePositive .plain bits) := by
  obtain ⟨hne, hd⟩ := isDigits_toDigits ((Binary.ofBits bits).shortest Layout.plain.tie).digits
  exact isNumeral_writePositional hne hd _

/-- **The texts of real numbers.** -/
theorem writeReal_plain (x : Float) :
    writeReal .plain x = "NaN" ∨ ∃ word, (IsNumeral word ∨ word = "inf") ∧
      writeReal .plain x = (if signBit x then "-" else "") ++ word := by
  have hsign : (if 1 <<< 63 ≤ x.toBits.toNat then "-" else "") = if signBit x then "-" else "" := by
    simp only [signBit, decide_eq_true_eq]
  unfold writeReal
  simp only [hsign]
  split
  · exact .inl rfl
  · right
    split
    · exact ⟨"inf", .inr rfl, rfl⟩
    · split
      · exact ⟨"0", .inl (.inl (by decide)), String.append_empty⟩
      · exact ⟨_, .inl (isNumeral_writePositive _), rfl⟩

end Precedence.Number
