import Precedence.Proofs.Calculator.Ambiguity
import Precedence.Proofs.Calculator.Heights
import Precedence.Proofs.Calculator.Printing

/-!
# Reading what is printed

`algebra` need not read the text of a value that it made. Parentheses around a first operand nest
deeper than the chain of operators that they come from, and a whole real number is written as an
integer, of any size.

* `IsTree.parse_text_iff`: the text of a tree is read exactly if its real numbers are readable and
  the limit to the depth allows its nesting.
* `parseSymbolic_text_iff`: so it is for all values that `parseSymbolic` gives, with its own limit.
-/

namespace Precedence

open Calculator

namespace Calculator

/-- A scan has the terminals of one list at most. -/
theorem Terminals.unique {scan : Scan} {ts us : List Terminal} (h : Terminals scan ts)
    (h' : Terminals scan us) : ts = us :=
  (List.map_inj_right fun _ _ => Option.some.inj).mp (h.tokens.symm.trans h'.tokens)

end Calculator

namespace Value

/-- **The text of a tree is read exactly if its real numbers are readable and the limit to the depth
allows its nesting.** -/
theorem IsTree.parse_text_iff {v : Value} (h : IsTree v) {depth : Nat} :
    (∃ w stats, (algebra.setMaxDepth depth).parse v.text = some (.ok (w, stats))) ↔
      v.isReadable = true ∧ v.textNesting < depth := by
  obtain ⟨e₀, he₀⟩ := rereads_render h
  obtain ⟨e, he⟩ := he₀.widen (N := .sum) (by cases v.level <;> decide)
  have hheight := he.height
  constructor
  · rintro ⟨w, stats, hparse⟩
    obtain ⟨e', hterminals, hw, hdepth, -⟩ :=
      (Grammar.parse_eq_ok_iff_phrase (calculates_algebra depth)).mp hparse
    obtain rfl := Phrase.eq_of_terminals (hterminals.unique he.written.terminals)
    rw [Grammar.maxDepth_setMaxDepth] at hdepth
    refine ⟨?_, by omega⟩
    rw [← he.isSome_value, hw]
    rfl
  · rintro ⟨hreadable, hdepth⟩
    rw [← he.isSome_value] at hreadable
    obtain ⟨w, hw⟩ := Option.isSome_iff_exists.mp hreadable
    exact ⟨w, e.stats, he.written.parse hw (by omega)⟩

end Value

namespace Calculator

open Value

theorem maxDepth_algebra : algebra.maxDepth = 256 := by
  decide +kernel

/-- What a parse of `algebra` gives is a tree. -/
theorem isTree_of_parseSymbolic {input : String} {w : Value} {stats : Stats}
    (h : parseSymbolic input = some (.ok (w, stats))) : IsTree w := by
  rw [parseSymbolic, ← Grammar.setMaxDepth_maxDepth algebra] at h
  obtain ⟨e, hterminals, he, -, -⟩ :=
    (Grammar.parse_eq_ok_iff_phrase (calculates_algebra _)).mp h
  exact e.isTree_value (fun text ht => isName_of_terminals hterminals ht) he

theorem IsTree.parseSymbolic_iff {v : Value} (h : IsTree v) :
    (∃ w stats, parseSymbolic v.text = some (.ok (w, stats))) ↔
      v.isReadable = true ∧ v.textNesting < 256 := by
  rw [← maxDepth_algebra, ← h.parse_text_iff, Grammar.setMaxDepth_maxDepth]
  rfl

/-- **Reading what is printed.** The text of a value that `parseSymbolic` gives is accepted exactly
if the value has no real number that is written as an integer of more than 64 bits, and the text
nests expressions no deeper than the limit allows. -/
theorem parseSymbolic_text_iff {input : String} {w : Value} {stats : Stats}
    (h : parseSymbolic input = some (.ok (w, stats))) :
    (∃ w' stats', parseSymbolic w.text = some (.ok (w', stats'))) ↔
      w.isReadable = true ∧ w.textNesting < 256 :=
  IsTree.parseSymbolic_iff (isTree_of_parseSymbolic h)

theorem parseSymbolic_text_iff_mixedValue :
    mixedValue.isReadable = true ∧ mixedValue.textNesting = 5 ∧
      ∃ w stats, parseSymbolic mixedValue.text = some (.ok (w, stats)) :=
  ⟨by decide +kernel, by decide +kernel,
    (parseSymbolic_text_iff parseSymbolic_mixedValue).mpr ⟨by decide +kernel, by decide +kernel⟩⟩

/-! ## Chains -/

theorem isTree_differences (n : Nat) : IsTree (differences n) := by
  have hx : IsTree (.var "x") := .var (by decide +kernel)
  induction n with
  | zero => exact hx
  | succ n ih =>
    show IsTree (node Operation.subtract.operator [differences n, var "x"])
    exact .pair rfl ih hx

/-- The text of a chain puts every difference but the outermost one in parentheses. -/
theorem textNesting_differences (n : Nat) : (differences n).textNesting = n := by
  induction n with
  | zero => rfl
  | succ n ih =>
    have hx : (var "x").textNesting = 0 := rfl
    rw [differences, textNesting, operandsTextNesting_cons, operandsTextNesting_cons, ih, hx]
    cases n with
    | zero => rfl
    | succ n =>
      have hfirst : (differences (n + 1)).needsParens Operation.subtract.operator true = true :=
        show Operation.subtract.operator.needsParens Operation.subtract.operator = true by decide
      have hlater : (var "x").needsParens Operation.subtract.operator false = false := rfl
      rw [hfirst, hlater]
      simp [wrappedNesting, operandsTextNesting]

/-- A chain that nests nothing is accepted, and its text is not. -/
theorem parseSymbolic_differences :
    (∃ stats, parseSymbolic (String.ofList (differencesText 256)) =
        some (.ok (differences 256, stats))) ∧
      ¬ ∃ w stats, parseSymbolic (differences 256).text = some (.ok (w, stats)) := by
  constructor
  · refine ⟨(differencesPhrase 256).stats, ?_⟩
    have hheight := tally_differences_le 256
    have hdepth : (differencesPhrase 256).tally.height + 1 ≤ algebra.maxDepth := by
      rw [maxDepth_algebra]
      omega
    have hparse := (isWritten_differences 256).parse (value_differences 256) hdepth
    rwa [Grammar.setMaxDepth_maxDepth] at hparse
  · rw [IsTree.parseSymbolic_iff (isTree_differences 256), textNesting_differences]
    exact fun h => Nat.lt_irrefl 256 h.2

end Calculator

end Precedence
