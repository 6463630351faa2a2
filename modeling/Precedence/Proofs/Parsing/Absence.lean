import Precedence.Proofs.Parsing.Frame

/-!
# Symbols that do not occur

What a symbol does matters only to the texts that it occurs in. Two grammars that differ in one
symbol, and recognize tokens alike, parse the same texts alike as long as the symbol is not among
the tokens.

Denotations can look at the whole table. Those that do not look at the operators in it take part in
this; all that come with operators and literals are of this kind.

* `agreesOn`: the two grammars agree on all other symbols.
* `parse_of_lacks`: the two grammars parse a text alike that lacks the symbol.
-/

namespace Precedence

open Precedence.Source

variable {V α : Type}

/-! ## Operators in the table -/

/-- What a table says of a symbol, without the operator. -/
def Entry.plain (e : Entry) : Entry :=
  { e with operator? := none }

namespace Context

/-- The context without the operators. -/
def plain (c : Context) : Context :=
  { c with entries := c.entries.map Entry.plain }

/-- What is made of a context does not depend on the operators in it. -/
def IgnoresOperators (f : Context → α) : Prop :=
  ∀ c, f c = f c.plain

variable {c c' : Context}

theorem IgnoresOperators.congr {f : Context → α} (hf : IgnoresOperators f)
    (h : c.plain = c'.plain) : f c = f c' := by
  rw [hf c, hf c', h]

theorem input_congr (h : c.plain = c'.plain) : c.input = c'.input :=
  show c.plain.input = c'.plain.input by rw [h]

theorem power_plain (c : Context) (symbol : Nat) : c.plain.power symbol = c.power symbol := by
  rw [power, power, entry, entry, plain, List.getD_eq_getElem?_getD, List.getD_eq_getElem?_getD,
    List.getElem?_map]
  cases c.entries[symbol]? <;> rfl

theorem power_congr (h : c.plain = c'.plain) (symbol : Nat) : c.power symbol = c'.power symbol := by
  rw [← power_plain c, h, power_plain]

end Context

/-- The denotations of the symbol do not depend on operators. -/
structure Symbol.IgnoresOperators (s : Symbol V) : Prop where
  nud : ∀ f, s.nud? = some f → Context.IgnoresOperators f
  led : ∀ f, s.led? = some f → Context.IgnoresOperators f

/-! ## Tokens -/

/-- The symbol is not among the tokens, the one at the end included. -/
structure Scan.Lacks (symbol : Nat) (scan : Scan) : Prop where
  tokens : ∀ t ∈ scan.tokens, t.symbol ≠ symbol
  ending : scan.ending.symbol? ≠ some symbol

instance (symbol : Nat) (scan : Scan) : Decidable (scan.Lacks symbol) :=
  decidable_of_iff ((∀ t ∈ scan.tokens, t.symbol ≠ symbol) ∧ scan.ending.symbol? ≠ some symbol)
    ⟨fun h => ⟨h.1, h.2⟩, fun h => ⟨h.tokens, h.ending⟩⟩

/-- All other symbols may be known. -/
theorem Scan.Lacks.knows {symbol : Nat} {scan : Scan} (h : scan.Lacks symbol) :
    scan.Knows (· ≠ symbol) where
  tokens := h.tokens
  ending _ he heq := h.ending (heq ▸ he)

namespace Grammar

variable {g g' : Grammar V} {c c' : Context} {i : Nat}

/-- The grammars differ at most in the operators of their tables and in what the symbol at an index
does. -/
structure DiffersAt (i : Nat) (g g' : Grammar V) : Prop where
  maxDepth : g.maxDepth = g'.maxDepth
  entries : g.entries.map Entry.plain = g'.entries.map Entry.plain
  others : ∀ j, j ≠ i → (g.symbols[j]?.bind (·.nud?) = g'.symbols[j]?.bind (·.nud?)) ∧
    g.symbols[j]?.bind (·.led?) = g'.symbols[j]?.bind (·.led?)

namespace DiffersAt

theorem context (h : DiffersAt i g g') (input : String) :
    (g.context input).plain = (g'.context input).plain := by
  simp only [Context.plain, Grammar.context, h.entries]

theorem nudAction (h : DiffersAt i g g') (hg : ∀ s ∈ g.symbols, s.IgnoresOperators)
    (hc : c.plain = c'.plain) {t : Token} (ht : t.symbol ≠ i) :
    g.nudAction c t = g'.nudAction c' t := by
  rw [Grammar.nudAction, Grammar.nudAction, ← (h.others _ ht).1,
    Context.errorAt_eq (Context.input_congr hc)]
  cases hs : g.symbols[t.symbol]?.bind (·.nud?) with
  | none => rfl
  | some f =>
    obtain ⟨s, hs, hf⟩ := Option.bind_eq_some_iff.mp hs
    exact congrFun (((hg s (List.mem_of_getElem? hs)).nud f hf).congr hc) t

theorem ledAction (h : DiffersAt i g g') (hg : ∀ s ∈ g.symbols, s.IgnoresOperators)
    (hc : c.plain = c'.plain) {t : Token} (ht : t.symbol ≠ i) (left : V) :
    g.ledAction c t left = g'.ledAction c' t left := by
  rw [Grammar.ledAction, Grammar.ledAction, ← (h.others _ ht).2,
    Context.errorAt_eq (Context.input_congr hc)]
  cases hs : g.symbols[t.symbol]?.bind (·.led?) with
  | none => rfl
  | some f =>
    obtain ⟨s, hs, hf⟩ := Option.bind_eq_some_iff.mp hs
    exact congrFun (congrFun (((hg s (List.mem_of_getElem? hs)).led f hf).congr hc) t) left

/-- The grammars agree on all other symbols. -/
theorem agreesOn (h : DiffersAt i g g') (hg : ∀ s ∈ g.symbols, s.IgnoresOperators)
    (input : String) : AgreesOn (· ≠ i) g g' (g.context input) (g'.context input) where
  maxDepth := h.maxDepth
  input := rfl
  power j _ := Context.power_congr (h.context input) j
  nud _ ht := .of_eq (h.nudAction hg (h.context input) ht)
  led _ left ht := .of_eq (h.ledAction hg (h.context input) ht left)

/-- **A text that lacks the symbol is parsed alike,** also if the parse fails. -/
theorem parse_of_lacks (h : DiffersAt i g g') (hg : ∀ s ∈ g.symbols, s.IgnoresOperators)
    (hr : g.recognizer = g'.recognizer) {input : String}
    (hlacks : ∀ r, g.recognizer = .ok r → (r.scan input).Lacks i) :
    g.parse input = g'.parse input := by
  cases hr' : g'.recognizer with
  | error e => rw [parse, parse, hr, hr', Context.errorAt_eq (h.agreesOn hg input).input]
  | ok r =>
    rw [hr'] at hr
    exact (h.agreesOn hg input).parse_eq hr hr' rfl (hlacks r hr).knows

end DiffersAt

end Grammar

end Precedence
