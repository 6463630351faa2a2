import Precedence.Proofs.Calculator.Recognition
import Precedence.Proofs.Parsing.Comparison

/-!
# Calculators side by side

What the symbols of the calculators do goes in step in any two texts, so their parses can be
compared: those of one text under two limits to the nesting, and those of two texts with the same
tokens at different places.

* `parse_limits`: a limit decides only between the full result and the error of the limit.
* `parse_layout`: the places of the tokens have no part in the value, the counts, or the kind and
  the message of an error.
-/

namespace Precedence

open Precedence.Source Calculator

/-- The symbols and the texts of the tokens of a scan, without their places. -/
def Scan.words (scan : Scan) : List (Nat × String) :=
  scan.tokens.map fun t => (t.symbol, t.text)

namespace Comparison

/-- One text under two limits to the nesting. Errors of the limit are excused. -/
def underLimits : Comparison where
  placed := True
  Abreast a a' := a' = a
  Gone _ := False
  Past _ := False
  Excused e := e.kind = .tooDeep
  next_of_abreast {a a'} h := by
    subst h
    refine .inr ?_
    cases hn : a'.next with
    | ok t => exact .inl ⟨t, t, rfl, rfl, .refl True t, rfl⟩
    | error span => exact .inr ⟨span, span, rfl, rfl, fun _ => rfl⟩
  next_of_gone h := h.elim
  excused_of_gone h := h.elim

/-- Two texts with the same tokens at any places, each scanned to its end. -/
def ofLayouts : Comparison where
  placed := False
  Abreast a a' := a'.words = a.words ∧
    ∃ t t', a.ending = .endless t ∧ a'.ending = .endless t' ∧ t.Alike False t'
  Gone _ := False
  Past _ := False
  Excused _ := False
  next_of_abreast {a a'} h := by
    obtain ⟨ts, ending⟩ := a
    obtain ⟨ts', ending'⟩ := a'
    obtain ⟨hwords, t, t', rfl, rfl, ht⟩ := h
    refine .inr (.inl ?_)
    cases ts with
    | nil =>
      obtain rfl := List.map_eq_nil_iff.mp hwords
      exact ⟨t, t', rfl, rfl, ht, rfl, _, _, rfl, rfl, ⟨ht.symbol, ht.text, fun h => h.elim⟩⟩
    | cons u us =>
      obtain ⟨u', us', rfl, hu, hus⟩ := List.map_eq_cons_iff.mp hwords
      obtain ⟨hsymbol, htext⟩ := Prod.mk.inj hu
      exact ⟨u, u', rfl, rfl, ⟨hsymbol, htext, fun h => h.elim⟩, hus, t, t', rfl, rfl, ht⟩
  next_of_gone h := h.elim
  excused_of_gone h := h.elim

end Comparison

/-! ## What the symbols do -/

namespace Calculator

variable {placed : Prop} {c c' : Context} {now : Option Token} {t t' sign sign' : Token}

open Action.InStep in
theorem inStep_literalNud (convert : String → Except String Value) (ht : t.Alike placed t') :
    (Build.literalNud convert c t).InStep placed c c' now (Build.literalNud convert c' t') := by
  unfold Build.literalNud
  rw [ht.text]
  cases convert t.text with
  | ok v => exact .value v
  | error message => exact .fail message ht.span fun h => h.elim

theorem inStep_literalAt (text : String) {span span' : Span} (hspan : placed → span' = span) :
    (literalAt c text span).InStep placed c c' now (literalAt c' text span') := by
  unfold literalAt
  cases Value.readNumber text with
  | ok v => exact .value v
  | error e => exact .fail e.message hspan fun h => h.elim

theorem inStep_oppositeAt (v : Value) {span span' : Span} (hspan : placed → span' = span) :
    (oppositeAt c v span).InStep placed c c' now (oppositeAt c' v span') := by
  unfold oppositeAt
  cases v.negate with
  | ok v => exact .value v
  | error e => exact .fail e.message hspan fun h => h.elim

theorem inStep_parentheses (hid : ∀ symbol, c'.id symbol = c.id symbol) :
    (parentheses c t).InStep placed c c' now (parentheses c' t') :=
  .operand 0 fun v => .takeExpected hid fun _ _ _ => .value v

/-- A minus sign does the same in both texts, though it joins the texts of two tokens. -/
theorem inStep_minus (hc : c'.entries = c.entries) (hsign : sign.Alike placed sign') :
    (minus c sign).InStep placed c c' now (minus c' sign') := by
  have hindex : c'.index? = c.index? := by
    funext id
    rw [Context.index?, Context.index?, hc]
  have hpower : ∀ symbol, c'.power symbol = c.power symbol := fun symbol => by
    rw [Context.power, Context.power, Context.entry, Context.entry, hc]
  refine .peekToken fun next next' hnext => ?_
  rw [hindex, hnext.symbol]
  split
  · refine .takeToken fun number number' hnumber => ?_
    refine .peekToken fun following following' hfollowing => ?_
    rw [hnumber.text, hpower, hfollowing.symbol]
    split
    · refine inStep_literalAt _ fun hplaced => ?_
      rw [hsign.span hplaced, hnumber.span hplaced]
    · unfold literalAt
      cases Value.readNumber number.text with
      | error e => exact .fail e.message hnumber.span fun h => h.elim
      | ok magnitude => exact .continued magnitude signPower fun v => inStep_oppositeAt v hsign.span
  · exact .operand signPower fun v => inStep_oppositeAt v hsign.span

theorem inStep_computed (op : Operation) (least : Nat) (left : Value) (ht : t.Alike placed t') :
    (computed op least c t left).InStep placed c c' now (computed op least c' t' left) := by
  refine .operand least fun right => ?_
  cases left.apply op right with
  | ok v => exact .value v
  | error e => exact .fail e.message ht.span fun h => h.elim

theorem inStep_betweenLed (op : Operator) (left : Value) :
    (Build.betweenLed op c t left).InStep placed c c' now (Build.betweenLed op c' t' left) :=
  .operand op.rightPower fun right => .value (Term.combine op left right)

/-- The symbols of a calculator go in step if its operations do. -/
theorem goesInStep_calculatorSymbols (operator? : Operation → Option Operator)
    {led : Operation → Led Value}
    (hled : ∀ op c c' t t' left, t.Alike placed t' →
      (led op c t left).InStep placed c c' (some t) (led op c' t' left)) :
    ∀ s ∈ calculatorSymbols operator? led, s.GoesInStep placed := by
  have hid : ∀ {c c' : Context}, c'.entries = c.entries → ∀ symbol, c'.id symbol = c.id symbol :=
    fun hc symbol => by rw [Context.id, Context.id, Context.entry, Context.entry, hc]
  have hplain : ∀ id pattern?, (Symbol.fresh (V := Value) id pattern?).GoesInStep placed :=
    fun _ _ => ⟨fun _ h => (by cases h), fun _ h => (by cases h)⟩
  have hoperation : ∀ op, (operationSymbol operator? led none op).GoesInStep placed := fun op =>
    ⟨fun _ h => (by cases h), fun _ h c c' t t' left _ ht => by
      cases h
      exact hled op c c' t t' left ht⟩
  simp only [calculatorSymbols, operandSymbols, List.cons_append, List.nil_append,
    List.forall_mem_cons, List.not_mem_nil, false_implies, implies_true, and_true]
  refine ⟨hplain _ _, ⟨?_, fun _ h => (by cases h)⟩, ⟨?_, fun _ h => (by cases h)⟩, hplain _ _,
    ⟨?_, fun _ h => (by cases h)⟩, ⟨?_, ?_⟩, hoperation _, hoperation _, hoperation _, hoperation _⟩
  · intro f hf c c' t t' _ ht
    obtain rfl := Option.some.inj hf
    exact inStep_literalNud convertNumber ht
  · intro f hf c c' t t' _ ht
    obtain rfl := Option.some.inj hf
    exact inStep_literalNud convertName ht
  · intro f hf c c' t t' hc _
    obtain rfl := Option.some.inj hf
    exact inStep_parentheses (hid hc)
  · intro f hf c c' t t' hc ht
    obtain rfl := Option.some.inj hf
    exact inStep_minus hc ht
  · intro f hf c c' t t' left _ ht
    obtain rfl := Option.some.inj hf
    exact hled .subtract c c' t t' left ht

/-- The symbols of both calculators go in step. -/
theorem goesInStep {g : Grammar Value} (hg : g = arithmetic ∨ g = algebra) :
    ∀ s ∈ g.symbols, s.GoesInStep placed := by
  have hcomputed : ∀ op c c' t t' left, t.Alike placed t' →
      (computed op op.rightPower c t left).InStep placed c c' (some t)
        (computed op op.rightPower c' t' left) :=
    fun op _ _ _ _ left ht => inStep_computed op op.rightPower left ht
  have hkept : ∀ (op : Operation) c c' t t' left, t.Alike placed t' →
      (Build.betweenLed op.operator c t left).InStep placed c c' (some t)
        (Build.betweenLed op.operator c' t' left) :=
    fun op _ _ _ _ left _ => inStep_betweenLed op.operator left
  rcases hg with h | h
  · rw [h, arithmetic_symbols]
    exact goesInStep_calculatorSymbols _ hcomputed
  · rw [h, algebra_symbols]
    exact goesInStep_calculatorSymbols _ hkept

theorem exists_calculates_setMaxDepth {g : Grammar Value} (hg : g = arithmetic ∨ g = algebra) :
    ∃ perform, ∀ depth, (g.setMaxDepth depth).Calculates perform := by
  rcases hg with h | h
  · rw [h]
    exact ⟨_, calculates_arithmetic⟩
  · rw [h]
    exact ⟨_, calculates_algebra⟩

theorem exists_calculates {g : Grammar Value} (hg : g = arithmetic ∨ g = algebra) :
    ∃ perform, g.Calculates perform := by
  obtain ⟨perform, h⟩ := exists_calculates_setMaxDepth hg
  rw [← g.setMaxDepth_maxDepth]
  exact ⟨perform, h g.maxDepth⟩

/-! ## Limits to the nesting -/

variable {g : Grammar Value} {input input' : String} {d d' : Nat}

/-- A parse that fails within a limit, but not for the limit, fails alike within a larger one. -/
theorem parse_error_mono (hg : g = arithmetic ∨ g = algebra) (hd : d ≤ d') {e : ParseError}
    (he : e.kind ≠ .tooDeep) (hp : (g.setMaxDepth d).parse input = some (.error e)) :
    (g.setMaxDepth d').parse input = some (.error e) := by
  obtain ⟨perform, hcalculates⟩ := exists_calculates_setMaxDepth hg
  have hcompares : Comparison.underLimits.Compares (g.setMaxDepth d) (g.setMaxDepth d')
      ((g.setMaxDepth d).context input) ((g.setMaxDepth d').context input) :=
    Comparison.compares rfl (goesInStep (g := g) hg) hd fun _ _ h => h
  obtain ⟨s, hlost | ⟨result, s', hp', hmatches⟩⟩ := hcompares.parse (hcalculates d).recognizer
    (hcalculates d').recognizer ((hcalculates d).endIsInert input)
    ((hcalculates d').endIsInert input) rfl hp
  · cases hlost with
    | excused hkind => exact absurd hkind he
  · cases hmatches with
    | failure hfails =>
      obtain ⟨kind, message, hspan⟩ := hfails
      rw [hp', hspan trivial]
      rfl

/-- A value that takes more depth than a limit allows is lost to the error of the limit. -/
theorem parse_tooDeep (hg : g = arithmetic ∨ g = algebra) (hd : d ≤ d') {v : Value} {stats : Stats}
    (hp : (g.setMaxDepth d').parse input = some (.ok (v, stats))) (hlt : d < stats.depth) :
    ∃ e, (g.setMaxDepth d).parse input = some (.error e) ∧ e.kind = .tooDeep := by
  obtain ⟨perform, hcalculates⟩ := exists_calculates_setMaxDepth hg
  obtain ⟨result, hresult⟩ := Grammar.exists_result (hcalculates d).recognizer
    ((hcalculates d).endIsInert input)
  rcases result with e | ⟨v₁, stats₁⟩
  · refine ⟨e, hresult, Classical.byContradiction fun he => ?_⟩
    cases hp.symm.trans (parse_error_mono hg hd he hresult)
  · -- A value within the limit is that of a sum that is found within the larger one, too.
    obtain ⟨p, hterminals, hv, hheight, rfl⟩ :=
      (Grammar.parse_eq_ok_iff_phrase (hcalculates d)).mp hresult
    have hresult' := (Grammar.parse_eq_ok_iff_phrase (hcalculates d')).mpr
      ⟨p, hterminals, hv, Nat.le_trans hheight hd, rfl⟩
    cases hp.symm.trans hresult'
    exact absurd hheight (Nat.not_le.mpr hlt)

/-- **A limit to the nesting decides only between the full result and the error of the limit.** A
result within a limit is the result within every larger one, with the same counts; a value that
takes more depth than the limit allows is lost to the error of the limit; any other error stays. -/
theorem parse_limits (hg : g = arithmetic ∨ g = algebra) (input : String) (hd : d ≤ d') :
    (∀ v stats, (g.setMaxDepth d).parse input = some (.ok (v, stats)) →
        (g.setMaxDepth d').parse input = some (.ok (v, stats))) ∧
      (∀ v stats, (g.setMaxDepth d').parse input = some (.ok (v, stats)) → stats.depth ≤ d →
        (g.setMaxDepth d).parse input = some (.ok (v, stats))) ∧
      (∀ v stats, (g.setMaxDepth d').parse input = some (.ok (v, stats)) → d < stats.depth →
        ∃ e, (g.setMaxDepth d).parse input = some (.error e) ∧ e.kind = .tooDeep) ∧
      ∀ e, (g.setMaxDepth d).parse input = some (.error e) → e.kind ≠ .tooDeep →
        (g.setMaxDepth d').parse input = some (.error e) := by
  obtain ⟨perform, hcalculates⟩ := exists_calculates_setMaxDepth hg
  refine ⟨fun v stats h => ?_, fun v stats h hle => ?_, fun v stats => parse_tooDeep hg hd,
    fun e h he => parse_error_mono hg hd he h⟩
  · obtain ⟨p, hterminals, hv, hheight, hstats⟩ :=
      (Grammar.parse_eq_ok_iff_phrase (hcalculates d)).mp h
    exact (Grammar.parse_eq_ok_iff_phrase (hcalculates d')).mpr
      ⟨p, hterminals, hv, Nat.le_trans hheight hd, hstats⟩
  · obtain ⟨p, hterminals, hv, -, rfl⟩ := (Grammar.parse_eq_ok_iff_phrase (hcalculates d')).mp h
    exact (Grammar.parse_eq_ok_iff_phrase (hcalculates d)).mpr ⟨p, hterminals, hv, hle, rfl⟩

theorem parse_limits_group :
    (∃ stats, (arithmetic.setMaxDepth 2).parse "(1)" = some (.ok (.integer 1, stats))) ∧
      ∃ e, (arithmetic.setMaxDepth 1).parse "(1)" = some (.error e) ∧ e.kind = .tooDeep := by
  let group : Phrase .sum := .term (.factor (.plain (.group (.term (.factor (.plain
    (.number "1")))))))
  have hgroup : (arithmetic.setMaxDepth 2).parse "(1)" =
      some (.ok (.integer 1, ⟨3, 2, 0, 2⟩)) :=
    (Grammar.parse_eq_ok_iff_phrase (calculates_arithmetic 2)).mpr
      ⟨group, ⟨by decide +kernel, by decide +kernel⟩, rfl, Nat.le_refl 2, by decide +kernel⟩
  have hlimits := parse_limits (.inl rfl) "(1)" (by decide : 1 ≤ 2)
  exact ⟨⟨_, hgroup⟩, hlimits.2.2.1 _ _ hgroup (by decide)⟩

/-! ## Layouts -/

/-- **The places of the tokens have no part in a result.** Two texts that are scanned to their ends
into the same tokens have one value with the same counts, or fail alike. -/
theorem parse_layout (hg : g = arithmetic ∨ g = algebra) {r : Recognizer}
    (hr : g.recognizer = .ok r) {t t' : Token} (ht : (r.scan input).ending = .endless t)
    (ht' : (r.scan input').ending = .endless t')
    (hwords : (r.scan input').words = (r.scan input).words) :
    (∃ v stats, g.parse input = some (.ok (v, stats)) ∧
        g.parse input' = some (.ok (v, stats))) ∨
      ∃ e e', g.parse input = some (.error e) ∧ g.parse input' = some (.error e') ∧
        e'.kind = e.kind ∧ e'.message = e.message := by
  obtain ⟨perform, hg'⟩ := exists_calculates hg
  obtain rfl := Except.ok.inj (hg'.recognizer.symm.trans hr)
  obtain ⟨hsymbol, htext⟩ :=
    Recognizer.of_endless_scan isProgressive_calculatorRecognizer ht
  obtain ⟨hsymbol', htext'⟩ :=
    Recognizer.of_endless_scan isProgressive_calculatorRecognizer ht'
  have hcompares : Comparison.ofLayouts.Compares g g (g.context input) (g.context input') :=
    Comparison.compares rfl (goesInStep hg) (Nat.le_refl _)
      fun hlt => absurd hlt (Nat.lt_irrefl _)
  have habreast : Comparison.ofLayouts.Abreast (calculatorRecognizer.scan input)
      (calculatorRecognizer.scan input') :=
    ⟨hwords, t, t', ht, ht', by rw [hsymbol, hsymbol'], by rw [htext, htext'], fun h => h.elim⟩
  obtain ⟨result, hp⟩ := Grammar.exists_result hr (hg'.endIsInert input)
  obtain ⟨s, hlost | ⟨result', s', hp', hmatches⟩⟩ := hcompares.parse hr hr
    (hg'.endIsInert input) (hg'.endIsInert input') habreast hp
  · cases hlost with
    | gone _ hgone => exact hgone.elim
    | excused he => exact he.elim
  · cases hmatches with
    | value ha _ =>
      cases ha
      exact .inl ⟨_, _, hp, hp'⟩
    | failure hfails =>
      obtain ⟨kind, message, -⟩ := hfails
      exact .inr ⟨_, _, hp, hp', rfl, rfl⟩

theorem parse_layout_spaced :
    ∃ stats, arithmetic.parse "-5" = some (.ok (.integer (-5), stats)) ∧
      arithmetic.parse " -  5 " = some (.ok (.integer (-5), stats)) := by
  have hcalculates := calculates_arithmetic arithmetic.maxDepth
  rw [Grammar.setMaxDepth_maxDepth] at hcalculates
  let negative : Phrase .sum := .term (.factor (.negated (.plain (.number "5"))))
  have hp : arithmetic.parse "-5" = some (.ok (.integer (-5), negative.stats)) :=
    (Grammar.parse_eq_ok_iff_phrase hcalculates).mpr
      ⟨negative, ⟨by decide +kernel, by decide +kernel⟩, rfl, by decide +kernel, rfl⟩
  have hends : (calculatorRecognizer.scan "-5").ending = .endless ⟨0, "", ⟨2, 2⟩, 0⟩ := by
    decide +kernel
  have hends' : (calculatorRecognizer.scan " -  5 ").ending = .endless ⟨0, "", ⟨6, 6⟩, 1⟩ := by
    decide +kernel
  have hlayout := parse_layout (.inl rfl) arithmetic_recognizer hends hends' (by decide +kernel)
  rcases hlayout with ⟨v, stats, h, h'⟩ | ⟨e, _, h, _⟩
  · rw [hp] at h
    obtain ⟨rfl, rfl⟩ := Prod.mk.inj (Except.ok.inj (Option.some.inj h))
    exact ⟨_, hp, h'⟩
  · rw [hp] at h
    cases Option.some.inj h

end Calculator

end Precedence
