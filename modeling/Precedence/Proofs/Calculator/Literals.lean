import Precedence.Proofs.Calculator.Blame
import Precedence.Proofs.Number.Literals
import Precedence.Proofs.Pattern.Language

/-!
# The class of numbers

The pattern of numbers and the reading of numbers are two definitions of a number. Up to the range of
integers they agree on texts of ASCII characters, and on these alone: the digits of the pattern are
those of any script.

* `numberRegex_matches_iff`: what the pattern of numbers matches.
* `number_class`: how the texts that it matches are read, and where the literal errors of the
  calculators come from.
-/

namespace Precedence

open Precedence.Source Precedence.Text Precedence.Pattern Precedence.Number

namespace Calculator

variable {input text : String} {chars part : List Char} {t : Token} {e : ParseError}

/-! ## What the pattern matches -/

theorem ofText?_numberPattern : Regex.ofText? numberPattern = some numberRegex := by
  decide +kernel

theorem digitsRegex_matches_iff :
    digitsRegex.Matches part ↔ AreDigits decimalDigits.contains part :=
  Regex.matches_plus_iff

theorem char_matches_iff {c : Char} : (Regex.char c).Matches part ↔ part = [c] := by
  rw [Regex.char, Regex.matches_chars_iff]
  simp only [CharSet.contains_single, decide_eq_true_eq, exists_eq_right]

/-- The set of the marks of exponents. -/
theorem contains_marks {c : Char} :
    (CharSet.mk [(69, 69), (101, 101)]).contains c = true ↔ c = 'e' ∨ c = 'E' := by
  constructor
  · intro h
    simp only [CharSet.contains, CharSet.holds] at h
    have hmark : c.toNat = 'e'.toNat ∨ c.toNat = 'E'.toNat := by
      have he : 'e'.toNat = 101 := rfl
      have hE : 'E'.toNat = 69 := rfl
      grind
    exact hmark.imp Char.toNat_inj.mp Char.toNat_inj.mp
  · rintro (rfl | rfl) <;> decide

theorem fraction_matches_iff :
    (Regex.rep (.seq (.char '.') digitsRegex) 0 (some 1) true).Matches part ↔
      IsFraction decimalDigits.contains part := by
  simp only [Regex.matches_optional_iff, Regex.matches_seq_iff, char_matches_iff,
    digitsRegex_matches_iff, IsFraction]
  refine or_congr_right ⟨?_, ?_⟩
  · rintro ⟨_, ds, rfl, rfl, hds⟩
    exact ⟨ds, rfl, hds⟩
  · rintro ⟨ds, rfl, hds⟩
    exact ⟨['.'], ds, rfl, rfl, hds⟩

theorem exponent_matches_iff :
    (Regex.rep (.seq (.chars ⟨[(69, 69), (101, 101)]⟩)
      (.seq (.rep (.char '-') 0 (some 1) true) digitsRegex)) 0 (some 1) true).Matches part ↔
      IsExponent decimalDigits.contains part := by
  simp only [Regex.matches_optional_iff, Regex.matches_seq_iff, Regex.matches_chars_iff,
    char_matches_iff, contains_marks, digitsRegex_matches_iff, IsExponent]
  refine or_congr_right ⟨?_, ?_⟩
  · rintro ⟨_, _, rfl, ⟨mark, rfl, hmark⟩, sign, ds, rfl, hsign, hds⟩
    exact ⟨mark, sign, ds, rfl, hmark, hsign, hds⟩
  · rintro ⟨mark, sign, ds, rfl, hmark, hsign, hds⟩
    exact ⟨[mark], sign ++ ds, rfl, ⟨mark, rfl, hmark⟩, sign, ds, rfl, hsign, hds⟩

/-- **The pattern of numbers matches the numbers in digits of any script.** -/
theorem numberRegex_matches_iff :
    numberRegex.Matches chars ↔ IsUnsigned decimalDigits.contains chars := by
  rw [numberRegex, Regex.matches_seq_iff]
  constructor
  · rintro ⟨whole, _, rfl, hwhole, hrest⟩
    obtain ⟨fraction, exponent, rfl, hfraction, hexponent⟩ := Regex.matches_seq_iff.mp hrest
    exact ⟨whole, fraction, exponent, (List.append_assoc _ _ _).symm,
      digitsRegex_matches_iff.mp hwhole, fraction_matches_iff.mp hfraction,
      exponent_matches_iff.mp hexponent⟩
  · rintro ⟨whole, fraction, exponent, rfl, hwhole, hfraction, hexponent⟩
    exact ⟨whole, fraction ++ exponent, List.append_assoc _ _ _,
      digitsRegex_matches_iff.mpr hwhole, Regex.matches_seq_iff.mpr ⟨fraction, exponent, rfl,
        fraction_matches_iff.mpr hfraction, exponent_matches_iff.mpr hexponent⟩⟩

/-- A number of a scan is a text of the class of numbers. -/
theorem matches_of_number (ht : t ∈ (calculatorRecognizer.scan input).tokens)
    (hnumber : t.terminal? = some (.number t.text)) : numberRegex.Matches t.text.toList := by
  obtain ⟨hsymbol, -⟩ := Token.of_terminal?_number hnumber
  obtain ⟨before, chars, n, hn, htext⟩ :=
    exists_matchLength?_of_mem (.regex numberRegex) ht (by rw [hsymbol]; decide)
  rw [htext, String.toList_ofList]
  exact Regex.matches_of_matchLength? hn

/-! ## Literal errors -/

/-- The number is an integer out of range, and the message says on which side. -/
def OutOfRange (number message : String) : Prop :=
  Value.isRealLiteral number.toList = false ∧
    (message = "invalid number: number too large to fit in target type" ∧
        greatestInteger < (digitsValue number.toList : Int) ∨
      message = "invalid number: number too small to fit in target type" ∧
        -(digitsValue number.toList : Int) < leastInteger)

/-- A number that is read unless it is an integer out of range, and is not read. -/
theorem of_read_unless {real fits : Prop} [Decidable real] [Decidable fits] {n : Int}
    {cause : NumberError} {bound : IntegerError}
    (h : if real then ∃ x, (.error cause : Except NumberError Value) = .ok (.real x)
      else (.error cause : Except NumberError Value) =
        if fits then .ok (.integer n) else .error (.integer bound)) :
    ¬ real ∧ ¬ fits ∧ cause = .integer bound := by
  split at h
  · obtain ⟨x, hx⟩ := h
    cases hx
  · rename_i hreal
    split at h
    · cases h
    · rename_i hfits
      cases h
      exact ⟨hreal, hfits, rfl⟩

theorem outOfRange_of_readNumber {cause : NumberError} (h : numberRegex.Matches text.toList)
    (ha : IsAscii text.toList) (hcause : Value.readNumber text = .error cause) :
    OutOfRange text cause.message := by
  have hread := readNumber_of_isAscii (numberRegex_matches_iff.mp h) ha
  rw [hcause] at hread
  obtain ⟨hreal, hgreater, rfl⟩ := of_read_unless hread
  exact ⟨Bool.eq_false_iff.mpr hreal, .inl ⟨by decide, Int.not_le.mp hgreater⟩⟩

theorem outOfRange_of_readNumber_neg {cause : NumberError} (h : numberRegex.Matches text.toList)
    (ha : IsAscii text.toList) (hcause : Value.readNumber ("-" ++ text) = .error cause) :
    OutOfRange text cause.message := by
  have hread := readNumber_neg_of_isAscii (numberRegex_matches_iff.mp h) ha
  rw [hcause] at hread
  obtain ⟨hreal, hless, rfl⟩ := of_read_unless hread
  exact ⟨Bool.eq_false_iff.mpr hreal, .inr ⟨by decide, Int.not_le.mp hless⟩⟩

/-- A literal error shows a number that does not read as one, and shows nothing behind it. -/
theorem exists_number_of_refuses (hinput : e.input = input)
    (h : (calculatorRecognizer.scan input).Refuses e) :
    ∃ number ∈ (calculatorRecognizer.scan input).tokens, numberRegex.Matches number.text.toList ∧
      number.text.toList <:+ e.fragment.toList ∧
      (IsAscii number.text.toList → OutOfRange number.text e.message) := by
  obtain ⟨number, hmem, hnumber, cause, hmessage, h⟩ := h
  have hmatches := matches_of_number hmem hnumber
  refine ⟨number, hmem, hmatches, ?_, fun ha => ?_⟩
  · rcases h with ⟨hspan, -⟩ | ⟨sign, hpair, -, hspan, -⟩
    · have hfragment := (cuts_of_token hinput hmem hspan).2
      exact hfragment ▸ List.suffix_refl _
    · obtain ⟨blanks, -, hcuts⟩ :=
        Recognizer.cuts_merge_of_scan isProgressive_calculatorRecognizer hpair
      rw [← hspan] at hcuts
      rw [ParseError.fragment_of_cuts (hinput ▸ hcuts), String.toList_ofList]
      exact List.suffix_append _ _
  · rw [hmessage]
    rcases h with ⟨-, hcause⟩ | ⟨-, -, -, -, hcause⟩
    · exact outOfRange_of_readNumber hmatches ha hcause
    · exact outOfRange_of_readNumber_neg hmatches ha hcause

/-- **Numbers in ASCII digits are read, unless they are integers out of range; those with a digit of
another script are not read at all.** A literal error of a calculator is about such a number. -/
theorem number_class {r : Regex} (hr : Regex.ofText? numberPattern = some r) :
    (∀ number : String, r.Matches number.toList →
      (IsAscii number.toList →
        if Value.isRealLiteral number.toList then ∃ x, Value.readNumber number = .ok (.real x)
        else Value.readNumber number =
          if (digitsValue number.toList : Int) ≤ greatestInteger then
            .ok (.integer (digitsValue number.toList))
          else .error (.integer .tooLarge)) ∧
      (¬ IsAscii number.toList → Value.readNumber number = .error (
        if Value.isRealLiteral number.toList then .real .invalid
        else .integer (
          if (digitsValue (number.toList.takeWhile (·.isDigit)) : Int) ≤ greatestInteger then
            .invalidDigit
          else .tooLarge)))) ∧
    ∀ input e, evaluate input = some (.error e) ∨ parseSymbolic input = some (.error e) →
      e.kind = .literal →
      ∃ number ∈ (calculatorRecognizer.scan input).tokens,
        r.Matches number.text.toList ∧ number.text.toList <:+ e.fragment.toList ∧
        (IsAscii number.text.toList → OutOfRange number.text e.message) := by
  obtain rfl : numberRegex = r := Option.some.inj (ofText?_numberPattern.symm.trans hr)
  refine ⟨fun number h => ?_, fun input e h hkind => ?_⟩
  · have hunsigned := numberRegex_matches_iff.mp h
    exact ⟨readNumber_of_isAscii hunsigned, readNumber_of_not_isAscii hunsigned⟩
  · have haccounts : (calculatorRecognizer.scan input).Accounts input e :=
      h.elim (accounts_of_parse (.inl rfl)) (accounts_of_parse (.inr rfl))
    exact exists_number_of_refuses haccounts.explains.1 (haccounts.refuses hkind)

theorem number_class_nines :
    Regex.ofText? numberPattern = some numberRegex ∧
    Value.readNumber "9999999999999999999" = .error (.integer .tooLarge) ∧
    ∃ e, evaluate "-9999999999999999999" = some (.error e) ∧ e.kind = .literal ∧
      ∃ number ∈ (calculatorRecognizer.scan "-9999999999999999999").tokens,
        IsAscii number.text.toList ∧ OutOfRange number.text e.message := by
  obtain ⟨hread, herror⟩ := number_class ofText?_numberPattern
  refine ⟨ofText?_numberPattern, ?_, ?_⟩
  · have hlength : numberRegex.matchLength? none "9999999999999999999".toList = some 19 := by
      decide +kernel
    have hmatches : numberRegex.Matches "9999999999999999999".toList :=
      Regex.matches_of_matchLength? hlength
    have hread := (hread _ hmatches).1 (by decide)
    rwa [if_neg (by decide), if_neg (by decide +kernel)] at hread
  · have h : evaluate "-9999999999999999999" = some (.error ⟨.literal,
        "invalid number: number too small to fit in target type", "-9999999999999999999",
        ⟨0, 20⟩⟩) := error?_eq_some_iff.mp (by decide +kernel)
    obtain ⟨number, hmem, -, -, hrange⟩ := herror _ _ (.inl h) rfl
    have hascii : ∀ number ∈ (calculatorRecognizer.scan "-9999999999999999999").tokens,
        IsAscii number.text.toList := by decide +kernel
    exact ⟨_, h, rfl, number, hmem, hascii number hmem, hrange (hascii number hmem)⟩

/-- The Arabic digit three is in the class of numbers, and is no integer out of range. -/
theorem number_class_three :
    Regex.ofText? numberPattern = some numberRegex ∧ numberRegex.Matches "٣".toList ∧
      Value.readNumber "٣" = .error (.integer .invalidDigit) ∧
      evaluate "٣" = some (.error ⟨.literal, "invalid number: invalid digit found in string", "٣",
        ⟨0, 2⟩⟩) := by
  have hlength : numberRegex.matchLength? none "٣".toList = some 1 := by decide +kernel
  exact ⟨ofText?_numberPattern, Regex.matches_of_matchLength? hlength, rfl,
    error?_eq_some_iff.mp (by decide +kernel)⟩

end Calculator

end Precedence
