import Precedence.Proofs.Calculator.Signs
import Precedence.Proofs.Calculator.Spacing

/-!
# Signed numerals

Texts of digits with any number of minus signs in front of them and blanks of any kind between:
`SignedNumeral.answer` is what the calculator makes of one. The literals with one sign cover the
integers of 64 bits down to the least one, which has no opposite. Expressions nest 256 deep, and so
many signs may stand in front of a number.

* `scan_text`: the tokens of such a text, and where its signs are.
* `result_eq_answer`: the outcome for these tokens is the answer, by the number of signs and the
  number that the digits stand for.
* `evaluate_signed`: so the answer is what is evaluated.
-/

namespace Precedence

open Precedence.Source Precedence.Text Precedence.Number

namespace Calculator

open Grammar
open Piece (layout)

/-- Digits with minus signs in front of them, and blanks of any kind between all of these. -/
structure SignedNumeral where
  /-- The blanks in front of each of the signs. -/
  gaps : List (List Char)
  /-- The blanks in front of the digits. -/
  gap : List Char
  digits : String
  /-- The blanks behind the digits. -/
  rest : List Char
  gaps_blank : ∀ blanks ∈ gaps, ∀ x ∈ blanks, isBlank x = true
  gap_blank : ∀ x ∈ gap, isBlank x = true
  isDigits : IsDigits digits
  rest_blank : ∀ x ∈ rest, isBlank x = true

namespace SignedNumeral

/-- Minus signs with blanks in front of them. -/
def signs (gaps : List (List Char)) : List Char :=
  gaps.flatMap (· ++ ['-'])

variable (s : SignedNumeral)

/-- The whole text. -/
def text : String :=
  String.ofList (signs s.gaps ++ s.gap ++ s.digits.toList ++ s.rest)

/-- The number that the digits stand for. -/
def magnitude : Nat :=
  digitsValue s.digits.toList

/-- The text in front of a sign. -/
def front (i : Nat) : List Char :=
  signs (s.gaps.take i) ++ s.gaps.getD i []

/-- Where a sign is. -/
def signSpan (i : Nat) : Span :=
  ⟨byteLength (s.front i), byteLength (s.front i ++ ['-'])⟩

/-- Where the digits are. -/
def digitsSpan : Span :=
  ⟨byteLength (signs s.gaps ++ s.gap), byteLength (signs s.gaps ++ s.gap ++ s.digits.toList)⟩

/-- What the calculator makes of the text. Expressions nest 256 deep. The last sign is part of the
literal, and the sign in front of it takes the opposite of that. -/
def answer : Except ParseError Value :=
  let k := s.gaps.length
  if 256 < k then
    .error ⟨.tooDeep, "expression nested too deeply", s.text, s.signSpan 256⟩
  else if s.magnitude < 2 ^ 63 then
    .ok (.integer ((-1) ^ k * s.magnitude))
  else if s.magnitude = 2 ^ 63 ∧ k = 1 then
    .ok (.integer leastInteger)
  else if s.magnitude = 2 ^ 63 ∧ 2 ≤ k then
    .error ⟨.arithmetic, "integer overflow", s.text, s.signSpan (k - 2)⟩
  else if k = 0 then
    .error ⟨.literal, "invalid number: number too large to fit in target type", s.text,
      s.digitsSpan⟩
  else
    .error ⟨.literal, "invalid number: number too small to fit in target type", s.text,
      (s.signSpan (k - 1)).merge s.digitsSpan⟩

/-! ## The tokens of the text -/

/-- The signs as pieces of the text. -/
def signPieces (gaps : List (List Char)) : List Piece :=
  gaps.map fun blanks => (Terminal.sign .subtract).piece blanks

/-- The digits as a piece of the text. -/
def digitsPiece : Piece :=
  (Terminal.number s.digits).piece s.gap

/-- The tokens of signs. -/
def signTokens (gaps : List (List Char)) : List Token :=
  Piece.tokens 0 (signPieces gaps)

/-- The token of the digits. -/
def digitsToken : Token :=
  .taking 1 (byteLength (signs s.gaps)) s.gap s.digits.toList

variable {s} {before after : List (List Char)} {blanks : List Char}

theorem layout_signPieces (gaps : List (List Char)) : layout (signPieces gaps) = signs gaps := by
  rw [layout, signPieces, List.flatMap_map]
  rfl

theorem length_signTokens (gaps : List (List Char)) : (signTokens gaps).length = gaps.length := by
  rw [signTokens, Piece.length_tokens, signPieces, List.length_map]

theorem symbol_signTokens (gaps : List (List Char)) : ∀ t ∈ signTokens gaps, t.symbol = 5 := by
  have hall : ∀ (gaps : List (List Char)) (offset : Nat),
      ∀ t ∈ Piece.tokens offset (signPieces gaps), t.symbol = 5 := by
    intro gaps
    induction gaps with
    | nil =>
      intro offset t ht
      cases ht
    | cons blanks gaps ih =>
      intro offset t ht
      rcases List.mem_cons.mp ht with rfl | ht
      · rfl
      · exact ih _ t ht
  exact hall gaps 0

/-- A sign has its token where it is. -/
theorem signTokens_middle (hgaps : s.gaps = before ++ blanks :: after) :
    ∃ t back, signTokens s.gaps = signTokens before ++ t :: back ∧
      back.length = after.length ∧ t.span = s.signSpan before.length := by
  have hfront : s.front before.length = signs before ++ blanks := by
    simp [front, hgaps]
  have htokens := Piece.tokens_middle 0 (signPieces before) (signPieces after)
    ((Terminal.sign .subtract).piece blanks)
  have hpieces : signPieces s.gaps =
      signPieces before ++ (Terminal.sign .subtract).piece blanks :: signPieces after := by
    rw [hgaps, signPieces, List.map_append]
    rfl
  rw [← hpieces] at htokens
  refine ⟨_, _, htokens, ?_, ?_⟩
  · rw [Piece.length_tokens, signPieces, List.length_map]
  · rw [signSpan, hfront, layout_signPieces, List.append_assoc, byteLength_append,
      byteLength_append, Nat.zero_add]
    rfl

/-- The text is scanned as its signs and its digits. -/
theorem scan_text : ∃ stop, calculatorRecognizer.scan s.text =
    ⟨signTokens s.gaps ++ [s.digitsToken], .endless stop⟩ ∧ stop.symbol = 0 := by
  have hrest : BeginsApart s.rest := by
    cases hr : s.rest with
    | nil => exact beginsApart_nil
    | cons x xs => exact beginsApart_cons (setsApart_of_isBlank (s.rest_blank x (by simp [hr]))) xs
  have hdigits : calculatorRecognizer.Cuts [s.digitsPiece] s.rest :=
    cuts_piece s.gap_blank ⟨.inl s.isDigits, hrest⟩ (.nil _)
  have hsigns : ∀ gaps : List (List Char), (∀ blanks ∈ gaps, ∀ x ∈ blanks, isBlank x = true) →
      calculatorRecognizer.Cuts (signPieces gaps ++ [s.digitsPiece]) s.rest := by
    intro gaps hgaps
    induction gaps with
    | nil => exact hdigits
    | cons blanks gaps ih =>
      exact cuts_piece (hgaps blanks List.mem_cons_self) trivial
        (ih fun blanks' hmem => hgaps blanks' (List.mem_cons_of_mem blanks hmem))
  have htext : s.text.toList = layout (signPieces s.gaps ++ [s.digitsPiece]) ++ s.rest := by
    rw [Piece.layout_append, layout_signPieces, text, String.toList_ofList, layout,
      List.flatMap_cons, List.flatMap_nil, List.append_nil, List.append_assoc (signs s.gaps)]
    rfl
  have hscan := (hsigns s.gaps s.gaps_blank).scan_eq isProgressive_calculatorRecognizer
    s.rest_blank htext
  rw [Piece.tokens_append, layout_signPieces, Nat.zero_add] at hscan
  exact ⟨_, hscan, rfl⟩

theorem span_digitsToken : s.digitsToken.span = s.digitsSpan := by
  rw [digitsSpan, List.append_assoc, byteLength_append, byteLength_append]
  rfl

theorem text_digitsToken : s.digitsToken.text = s.digits :=
  String.ofList_toList

/-! ## The result of the text -/

variable {c : Context}

theorem readNumber_digitsToken (h : s.magnitude < 2 ^ 63) :
    Value.readNumber s.digitsToken.text = .ok (.integer s.magnitude) := by
  rw [text_digitsToken]
  refine readNumber_of_isDigits s.isDigits ?_
  unfold magnitude at h
  unfold greatestInteger
  omega

theorem readNumber_neg_digitsToken (h : s.magnitude ≤ 2 ^ 63) :
    Value.readNumber ("-" ++ s.digitsToken.text) = .ok (.integer (-s.magnitude)) := by
  rw [text_digitsToken]
  refine readNumber_neg_of_isDigits s.isDigits ?_
  unfold magnitude at h
  unfold leastInteger
  omega

/-- With too many signs, the first one that nests too deeply is blamed. -/
theorem result_of_many (hc : c.input = s.text) {limit : Nat} (h : limit < s.gaps.length) :
    signedResult c s.digitsToken limit (signTokens s.gaps) =
      .error ⟨.tooDeep, "expression nested too deeply", s.text, s.signSpan limit⟩ := by
  have hgaps : s.gaps = s.gaps.take limit ++ s.gaps[limit] :: s.gaps.drop (limit + 1) := by
    rw [← List.drop_eq_getElem_cons h, List.take_append_drop]
  have hlength : (s.gaps.take limit).length = limit := List.length_take_of_le (Nat.le_of_lt h)
  obtain ⟨t, back, htokens, -, hspan⟩ := signTokens_middle hgaps
  rw [htokens, signedResult_tooDeep ((length_signTokens _).trans hlength), hspan, hlength,
    Context.errorAt, hc]

/-- A number that is small enough has opposites. -/
theorem result_of_small {limit : Nat} (h : s.magnitude < 2 ^ 63) (hlimit : s.gaps.length ≤ limit)
    (hpos : 0 < limit) : signedResult c s.digitsToken limit (signTokens s.gaps) =
      .ok (.integer ((-1) ^ s.gaps.length * s.magnitude)) := by
  have hn : (s.magnitude : Int) ≤ greatestInteger := by
    unfold greatestInteger
    omega
  have hresult := signedResult_integer (c := c) hn (readNumber_digitsToken h)
    (readNumber_neg_digitsToken (Nat.le_of_lt h)) ((length_signTokens s.gaps).trans_le hlimit) hpos
  rwa [length_signTokens] at hresult

/-- Without a sign a number that is too great is no literal. -/
theorem result_of_none (hc : c.input = s.text) {limit : Nat} (h : 2 ^ 63 ≤ s.magnitude)
    (hgaps : s.gaps = []) (hpos : 0 < limit) :
    signedResult c s.digitsToken limit (signTokens s.gaps) =
      .error ⟨.literal, "invalid number: number too large to fit in target type", s.text,
        s.digitsSpan⟩ := by
  obtain ⟨limit, rfl⟩ := Nat.exists_eq_succ_of_ne_zero (Nat.ne_of_gt hpos)
  have hread : Value.readNumber s.digitsToken.text = .error (.integer .tooLarge) := by
    rw [text_digitsToken]
    refine readNumber_of_greater s.isDigits ?_
    unfold magnitude at h
    unfold greatestInteger
    omega
  rw [hgaps]
  show literalResult c s.digitsToken.text s.digitsToken.span = _
  rw [literalResult, hread, span_digitsToken]
  simp only [Context.errorAt, hc]
  rfl

/-- With its sign a number that is too great is no literal. -/
theorem result_of_great (hc : c.input = s.text) {limit : Nat} (h : 2 ^ 63 < s.magnitude)
    (hgaps : s.gaps = before ++ [blanks]) (hlimit : s.gaps.length ≤ limit) :
    signedResult c s.digitsToken limit (signTokens s.gaps) =
      .error ⟨.literal, "invalid number: number too small to fit in target type", s.text,
        (s.signSpan (s.gaps.length - 1)).merge s.digitsSpan⟩ := by
  have hread : Value.readNumber ("-" ++ s.digitsToken.text) = .error (.integer .tooSmall) := by
    rw [text_digitsToken]
    refine readNumber_neg_of_less s.isDigits ?_
    unfold magnitude at h
    unfold leastInteger
    omega
  have hlength : s.gaps.length = before.length + 1 := by simp [hgaps]
  obtain ⟨t, back, htokens, hback, hspan⟩ := signTokens_middle hgaps
  obtain rfl : back = [] := List.eq_nil_of_length_eq_zero hback
  have hfront : (signTokens before).length < limit := by
    rw [length_signTokens]
    omega
  rw [htokens, signedResult_literal hfront hread, hspan, span_digitsToken, hlength,
    Nat.add_sub_cancel, Context.errorAt, hc]
  rfl

/-- One sign makes the least integer. -/
theorem result_of_one {limit : Nat} (h : s.magnitude = 2 ^ 63) (hgaps : s.gaps = [blanks])
    (hpos : 0 < limit) : signedResult c s.digitsToken limit (signTokens s.gaps) =
      .ok (.integer leastInteger) := by
  obtain ⟨limit, rfl⟩ := Nat.exists_eq_succ_of_ne_zero (Nat.ne_of_gt hpos)
  have hread := readNumber_neg_digitsToken (Nat.le_of_eq h)
  rw [h] at hread
  rw [hgaps]
  show literalResult c ("-" ++ s.digitsToken.text) _ = _
  rw [literalResult, hread]
  rfl

/-- The sign in front of the least integer is blamed, which has no opposite. -/
theorem result_of_two (hc : c.input = s.text) {limit : Nat} {last : List Char}
    (h : s.magnitude = 2 ^ 63) (hgaps : s.gaps = before ++ [blanks, last])
    (hlimit : s.gaps.length ≤ limit) :
    signedResult c s.digitsToken limit (signTokens s.gaps) =
      .error ⟨.arithmetic, "integer overflow", s.text, s.signSpan (s.gaps.length - 2)⟩ := by
  have hread := readNumber_neg_digitsToken (Nat.le_of_eq h)
  rw [h] at hread
  have hlength : s.gaps.length = before.length + 2 := by simp [hgaps]
  obtain ⟨t, back, htokens, hback, hspan⟩ := signTokens_middle hgaps
  obtain ⟨t', rfl⟩ := List.length_eq_one_iff.mp hback
  have hfront : (signTokens before).length + 1 < limit := by
    rw [length_signTokens]
    omega
  rw [htokens, signedResult_least hfront hread, hspan, hlength, Nat.add_sub_cancel,
    Context.errorAt, hc]
  rfl

/-- The result of the text is the answer. -/
theorem result_eq_answer (hc : c.input = s.text) :
    signedResult c s.digitsToken 256 (signTokens s.gaps) = s.answer := by
  unfold answer
  by_cases hmany : 256 < s.gaps.length
  · rw [if_pos hmany, result_of_many hc hmany]
  rw [if_neg hmany]
  by_cases hsmall : s.magnitude < 2 ^ 63
  · rw [if_pos hsmall, result_of_small hsmall (Nat.not_lt.mp hmany) (by decide)]
  rw [if_neg hsmall]
  rcases List.eq_nil_or_concat s.gaps with hnil | ⟨before, last, hgaps⟩
  · rw [result_of_none hc (Nat.not_lt.mp hsmall) hnil (by decide)]
    simp [hnil]
  rw [List.concat_eq_append] at hgaps
  by_cases hgreat : 2 ^ 63 < s.magnitude
  · have hne : s.magnitude ≠ 2 ^ 63 := Nat.ne_of_gt hgreat
    have hlength : s.gaps.length ≠ 0 := by simp [hgaps]
    rw [result_of_great hc hgreat hgaps (Nat.not_lt.mp hmany), if_neg fun h => hne h.1,
      if_neg fun h => hne h.1, if_neg hlength]
  have heq : s.magnitude = 2 ^ 63 := by omega
  rcases List.eq_nil_or_concat before with rfl | ⟨before, second, rfl⟩
  · rw [result_of_one heq hgaps (by decide), if_pos ⟨heq, by rw [hgaps]; rfl⟩]
  · rw [List.concat_eq_append, List.append_assoc] at hgaps
    have hlength : s.gaps.length = before.length + 2 := by simp [hgaps]
    rw [result_of_two hc heq hgaps (Nat.not_lt.mp hmany), if_neg (by omega),
      if_pos ⟨heq, by omega⟩]

end SignedNumeral

/-- A calculator makes of the text what the answer says. -/
theorem parse_signed {g : Grammar Value} {perform : Operation → Value → Value → Option Value}
    (hg : g.Calculates perform) (hd : g.maxDepth = 256) (s : SignedNumeral) :
    (g.parse s.text).map (·.map Prod.fst) = some s.answer := by
  obtain ⟨stop, hscan, hstop⟩ := s.scan_text
  have hresult : signedResult (g.context s.text) s.digitsToken 256 (SignedNumeral.signTokens s.gaps)
      = s.answer := SignedNumeral.result_eq_answer rfl
  let start := Session.start (calculatorRecognizer.scan s.text) (byteLength s.text.toList)
  have hupcoming : start.upcoming = SignedNumeral.signTokens s.gaps ++ [s.digitsToken] := by
    show (calculatorRecognizer.scan s.text).tokens = _
    rw [hscan]
  have hproper : Session.Proper start := by
    refine ⟨?_, Nat.le_refl 0⟩
    show (calculatorRecognizer.scan s.text).ending.symbol? = some 0
    rw [hscan, Ending.symbol?, hstop]
  have hends : EndsWith g (g.context s.text) 0 start (signedResult (g.context s.text)
      s.digitsToken (g.maxDepth - start.depth) (SignedNumeral.signTokens s.gaps)) :=
    hg.endsWith_signedResult rfl _ 0 start (SignedNumeral.symbol_signTokens s.gaps) hproper
      hupcoming
  rw [show g.maxDepth - start.depth = 256 from hd, hresult] at hends
  exact hg.parse_of_endsWith hends

/-- **Signed literals cover exactly the integers of 64 bits.** Any number of minus signs before any
digits gives the number if expressions may nest that deep and the number has 64 bits on the way
out, with the last sign as part of its literal. -/
theorem evaluate_signed (s : SignedNumeral) :
    (evaluate s.text).map (·.map Prod.fst) = some s.answer := by
  have hg := calculates_arithmetic arithmetic.maxDepth
  rw [Grammar.setMaxDepth_maxDepth] at hg
  exact parse_signed hg maxDepth_arithmetic s

/-- The literal takes the second sign, and the first one asks for the opposite of the least
integer. -/
example : (⟨[[], [' ']], [], "9223372036854775808", [], by simp; decide, by simp,
    ⟨by simp, by simp⟩, by simp⟩ : SignedNumeral).answer =
      .error ⟨.arithmetic, "integer overflow", "- -9223372036854775808", ⟨0, 1⟩⟩ := by
  rfl

end Calculator

end Precedence
