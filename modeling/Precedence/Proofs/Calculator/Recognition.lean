import Precedence.Proofs.Calculator.Derivations
import Precedence.Proofs.Parsing.Scans
import Precedence.Proofs.Pattern.Matching

/-!
# What the calculators accept

* `parse_eq_ok_iff_phrase`: the parse of a text succeeds exactly if the text is scanned to its end,
  its terminals are those of a sum, the sum has a value, and the limit to the depth allows it. The
  value and the statistics are those of the sum.
* `algebra_parse_of_phrase`, `parseSymbolic_of_phrase`: so `algebra` parses the texts of a sum.
-/

namespace Precedence

open Precedence.Source Precedence.Pattern Calculator

namespace Calculator

/-- The recognizer of the calculators takes a character with every match. -/
theorem isProgressive_calculatorRecognizer : calculatorRecognizer.IsProgressive where
  ne_end := by decide
  pos := by
    intro before text symbol n h
    obtain ⟨rule, hmem, hrule⟩ := List.exists_of_findSome?_eq_some h
    obtain ⟨m, hm, hn⟩ := Option.map_eq_some_iff.mp hrule
    cases hn
    have hliteral : ∀ chars : List Char, chars ≠ [] →
        (Rule.text chars).matchLength? before text = some n → 0 < n := by
      intro chars hne hm
      simp only [Rule.matchLength?] at hm
      split at hm
      · cases hm
        exact List.length_pos_iff.mpr hne
      · cases hm
    simp only [calculatorRecognizer, List.mem_cons, List.not_mem_nil, or_false] at hmem
    rcases hmem with rfl | rfl | rfl | rfl | rfl | rfl | rfl | rfl | rfl
    · exact hliteral _ (by decide) hm
    · exact hliteral _ (by decide) hm
    · exact hliteral _ (by decide) hm
    · exact hliteral _ (by decide) hm
    · exact hliteral _ (by decide) hm
    · exact hliteral _ (by decide) hm
    · exact hliteral _ (by decide) hm
    · exact Regex.lt_of_matchLength? (m := 1) (by decide +kernel) Nat.one_pos hm
    · exact Regex.lt_of_matchLength? (m := 1) (by decide +kernel) Nat.one_pos hm

/-- The statistics of a parse that finds a sum. -/
def Phrase.stats (e : Phrase .sum) : Stats :=
  ⟨e.terminals.length, e.tally.nuds, e.tally.leds, e.tally.height + 1⟩

/-- A scan that gets to the end of the text, where it finds the terminals `ts`. -/
structure Terminals (scan : Scan) (ts : List Terminal) : Prop where
  tokens : scan.tokens.map Token.terminal? = ts.map some
  ending : scan.ending.symbol? = some 0

end Calculator

namespace Grammar

open Session (Proper Passes)

variable {g : Grammar Value} {perform : Operation → Value → Value → Option Value} {input : String}
variable {v : Value} {stats : Stats}

/-- The end of a text binds no operand. -/
theorem Calculates.endIsInert (hg : Calculates g perform) (input : String) :
    EndIsInert (g.context input)
      (Session.start (calculatorRecognizer.scan input) (byteLength input.toList)) := by
  intro symbol h
  have hpower : (g.context input).power 0 = 0 := hg.power ⟨0, "", ⟨0, 0⟩, 0⟩
  rw [Recognizer.symbol_eq_of_scan isProgressive_calculatorRecognizer h]
  exact hpower

/-- **What a calculator accepts, and what it makes of it.** -/
theorem parse_eq_ok_iff_phrase (hg : Calculates g perform) :
    g.parse input = some (.ok (v, stats)) ↔
      ∃ e : Phrase .sum, Terminals (calculatorRecognizer.scan input) e.terminals ∧
        e.value perform = some v ∧ e.tally.height + 1 ≤ g.maxDepth ∧ stats = e.stats := by
  have hr := isProgressive_calculatorRecognizer
  let s := Session.start (calculatorRecognizer.scan input) (byteLength input.toList)
  rw [parse_eq_ok_iff hg.recognizer (hg.endIsInert input)]
  constructor
  · rintro ⟨s₁, t, s₂, ⟨n, hn⟩, hpeek, hend, rfl⟩
    have hlater := expression_later hn
    obtain ⟨hup, hending⟩ := Session.of_peek_isEnd hpeek hend fun t' ht' =>
      Recognizer.symbol_ne_of_mem_scan hr (hlater.upcoming.subset ht')
    have hs : Proper s := ⟨hlater.ending.symm.trans hending, Nat.le_refl 0⟩
    obtain ⟨s₃, ⟨e, hv, hp, hd⟩, rfl, -⟩ :=
      (finds_all hg n).1 (N := .sum) hn hs (Nat.le_refl 0) (by decide)
    have halike := Session.alike_peek (c := g.context input) s₃.leave
    have hnil : s₃.ahead = [] := by
      rw [Session.ahead, show s₃.upcoming = [] from hup]
      rfl
    refine ⟨e, ⟨?_, hs.ends⟩, hv, ?_, ?_⟩
    · have hahead := hp.ahead
      rw [hnil, List.append_nil] at hahead
      exact hahead
    · rw [Nat.add_comm]
      exact hd
    · rw [hpeek] at halike
      rw [halike.stats, show s₃.leave.stats = s₃.stats from rfl, hp.stats]
      simp [Session.start, Session.enter, Phrase.stats, Nat.add_comm 1]
  · rintro ⟨e, ⟨htokens, hending⟩, hv, hd, rfl⟩
    have hs : Proper s := ⟨hending, Nat.le_refl 0⟩
    have hahead : s.ahead = e.terminals.map some ++ [] := by
      rw [List.append_nil]
      exact htokens
    have hd' : s.depth + e.tally.nested.height ≤ g.maxDepth := by
      rw [show s.depth = 0 from rfl, Nat.zero_add]
      exact hd
    obtain ⟨s₁, ha, hp, hexpr⟩ := Reads.expresses 0 hg (reads hg e) hv hs hahead hd'
      (by decide) (Nat.zero_le _) (Nat.le_refl 0)
    have hs₁ := hp.proper hs
    obtain ⟨t, s₂, hpeek, -, halike⟩ := hs₁.peek (c := g.context input)
    refine ⟨s₁, t, s₂, hexpr, hpeek, hs₁.isEnd_of_peek ha hpeek, ?_⟩
    rw [halike.stats, hp.stats]
    simp [s, Session.start, Phrase.stats, Tally.nested]

end Grammar

namespace Calculator

section Phrases

variable {input : String} {e : Phrase .sum} {v : Value}

/-- A text with the terminals of a phrase is parsed as the value of the phrase. -/
theorem algebra_parse_of_phrase (he : Terminals (calculatorRecognizer.scan input) e.terminals)
    (hv : e.value kept = some v) {depth : Nat} (hdepth : e.tally.height + 1 ≤ depth) :
    (algebra.setMaxDepth depth).parse input = some (.ok (v, e.stats)) := by
  refine (Grammar.parse_eq_ok_iff_phrase (calculates_algebra depth)).mpr ⟨e, he, hv, ?_, rfl⟩
  rw [Grammar.maxDepth_setMaxDepth]
  exact hdepth

theorem parseSymbolic_of_phrase (he : Terminals (calculatorRecognizer.scan input) e.terminals)
    (hv : e.value kept = some v) (hdepth : e.tally.height + 1 ≤ algebra.maxDepth) :
    parseSymbolic input = some (.ok (v, e.stats)) := by
  rw [parseSymbolic, ← Grammar.setMaxDepth_maxDepth algebra]
  exact algebra_parse_of_phrase he hv hdepth

end Phrases

end Calculator

end Precedence
