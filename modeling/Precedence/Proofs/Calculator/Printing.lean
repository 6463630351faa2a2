import Precedence.Proofs.Calculator.Texts

/-!
# Printing and parsing

The text of a tree without real numbers is read back as the same tree. `Prints N v text` says that
the text is that of a phrase of the kind `N` with the value `v`; a tree has a text of the kind
`Value.level`.

* `prints_render`: the text of a tree is that of a phrase with its value.
* `algebra_parse_text`: so a value of `algebra` is parsed from its text again, under every limit to
  the depth that is high enough.
-/

namespace Precedence

open Precedence.Number Calculator Value

/-! ## Texts of phrases -/

namespace Calculator

/-- The text is that of a phrase with the value. -/
def Prints (N : Level) (v : Value) (text : List Char) : Prop :=
  ∃ e : Phrase N, e.value kept = some v ∧
    ∀ rest ts, Stops rest → Spells rest ts → Spells (text ++ rest) (e.terminals ++ ts)

/-- What is a text of a tighter kind is one of a looser kind. -/
theorem Prints.widen {M N : Level} {v : Value} {text : List Char} (h : Prints M v text)
    (hN : N.bottom < M.floor) : Prints N v text := by
  obtain ⟨e, hv, ht⟩ := h
  obtain ⟨e', hterminals, -, hvalue⟩ := e.exists_widen hN
  refine ⟨e', ?_, ?_⟩
  · rw [hvalue]
    exact hv
  · rw [hterminals]
    exact ht

end Calculator

/-- **The text of a tree without real numbers is that of a phrase with its value.** -/
theorem Value.prints_render {v : Value} (h : IsTree v) (hreal : v.hasReal = false) :
    Prints v.level v v.render := by
  obtain ⟨e, he⟩ := rereads_render h
  exact ⟨e, he.value hreal, he.written⟩

namespace Calculator

/-- **Printing and parsing again.** A value of `algebra` without real numbers is parsed from its
text again, under every limit to the depth that is high enough. -/
theorem algebra_parse_text {input : String} {w : Value} {stats : Stats}
    (h : parseSymbolic input = some (.ok (w, stats))) (hreal : w.hasReal = false) :
    ∃ limit, ∀ depth, limit ≤ depth →
      ∃ stats', (algebra.setMaxDepth depth).parse w.text = some (.ok (w, stats')) := by
  rw [parseSymbolic, ← Grammar.setMaxDepth_maxDepth algebra] at h
  obtain ⟨e, hterminals, he, -, -⟩ :=
    (Grammar.parse_eq_ok_iff_phrase (calculates_algebra _)).mp h
  have htree := e.isTree_value (fun text ht => isName_of_terminals hterminals ht) he
  obtain ⟨e', he', hspells⟩ :=
    (prints_render htree hreal).widen (N := .sum) (by cases w.level <;> decide)
  have hnil := hspells [] [] stops_nil .nil
  rw [List.append_nil, List.append_nil] at hnil
  refine ⟨e'.tally.height + 1, fun depth hdepth => ⟨e'.stats, ?_⟩⟩
  refine (Grammar.parse_eq_ok_iff_phrase (calculates_algebra depth)).mpr
    ⟨e', terminals_of_spells hnil ?_ ?_, he', ?_, rfl⟩
  · rw [Value.text, String.toList_ofList]
  · rw [Value.text, String.toList_ofList]
    exact Nat.lt_succ_self _
  · rw [Grammar.maxDepth_setMaxDepth]
    exact hdepth

/-- A difference whose right side is a product, of a difference, a power of a negative number with
a negated exponent and a product that flattens. -/
def mixedValue : Value :=
  .node Operation.subtract.operator [.var "a", .node Operation.multiply.operator
    [.node Operation.subtract.operator [.var "b",
      .node Operation.power.operator [.integer (-2), .negation (.var "x")]],
    .var "y", .integer 3, .var "z"]]

theorem parseSymbolic_mixedValue :
    parseSymbolic "a-(b-(-2)^-x)*y*(3*z)" = some (.ok (mixedValue, ⟨21, 11, 6, 6⟩)) := by
  let base : Phrase .atom := .group (.term (.factor (.negated (.plain (.number "2")))))
  let power : Phrase .signed := .raised base (.negated (.plain (.name "x")))
  let difference : Phrase .sum :=
    .subtracted (.term (.factor (.plain (.name "b")))) (.factor power)
  let product : Phrase .product := .multiplied (.factor (.plain (.number "3"))) (.plain (.name "z"))
  let e : Phrase .sum := .subtracted (.term (.factor (.plain (.name "a"))))
    (.multiplied (.multiplied (.factor (.plain (.group difference))) (.plain (.name "y")))
      (.plain (.group (.term product))))
  have hterminals : Terminals (calculatorRecognizer.scan "a-(b-(-2)^-x)*y*(3*z)") e.terminals :=
    ⟨by decide +kernel, by decide +kernel⟩
  have hstats : e.stats = ⟨21, 11, 6, 6⟩ := by decide +kernel
  rw [← hstats]
  exact parseSymbolic_of_phrase hterminals rfl (by decide +kernel)

theorem algebra_parse_text_mixedValue :
    mixedValue.text = "a - (b - (-2) ^ -x) * y * 3 * z" ∧
      ∃ limit, ∀ depth, limit ≤ depth → ∃ stats', (algebra.setMaxDepth depth).parse
        mixedValue.text = some (.ok (mixedValue, stats')) :=
  ⟨by decide +kernel, algebra_parse_text parseSymbolic_mixedValue rfl⟩

end Calculator

end Precedence
