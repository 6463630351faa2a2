import Precedence.Proofs.Calculator.Chains
import Precedence.Proofs.Calculator.Trees

/-!
# Printing and parsing with an operator more

The text of a value without real numbers is read back as the same value by `algebra` with one
operator more, if and only if every minus sign in it is sheltered from operators that bind tighter
than the sign. If the new operator binds no tighter than the sign, every value is sheltered.

* `prints_operands`: the operands of a node are read back one after the other.
* `prints_render`: the text of a sheltered value is spelled and read as the value.
* `isSheltered_of_parse`: a value that is parsed from its text is sheltered.
* `grammar_parse_text_iff`: so a value of the grammar is parsed from its text again if and only if
  it is sheltered.
-/

namespace Precedence

open Precedence.Number Calculator Value

namespace Calculator.Addition

variable {a : Addition} {r : Recognizer} {input : String} {text other : List Char}
variable {op : Operator} {v w x : Value} {vs us : List Value} {least most i : Nat}

/-- The text is spelled with words that are read as the value. -/
def Prints (a : Addition) (r : Recognizer) (input : String) (text : List Char) (v : Value)
    (least most : Nat) : Prop :=
  ∃ ws, Spelled r text ws ∧ a.grammar.ReadsAs (a.grammar.context input) ws v least most

/-- A text in parentheses, if so demanded. -/
theorem prints_wrap (hr : a.grammar.recognizer = .ok r) {parens : Bool}
    (hinner : parens = true → a.Prints r input text v 0 0)
    (hbare : parens = false → a.Prints r input text v least most) :
    a.Prints r input (wrap parens text) v least most := by
  cases parens with
  | false => exact hbare rfl
  | true =>
    obtain ⟨ws, hspelled, hreads⟩ := hinner rfl
    exact ⟨_, hspelled.group hr, Grammar.readsAs_group a.hasVocabulary hreads⟩

/-- An operator between two texts. -/
theorem Prints.applied (hr : a.grammar.recognizer = .ok r) (hop : a.Places op i)
    (h : a.Prints r input text v least op.power) (hleast : least < op.power)
    (h' : a.Prints r input other w op.rightPower most) (hmost : most ≤ op.rightPower) :
    a.Prints r input (text ++ (' ' :: op.symbol.toList ++ [' ']) ++ other)
      (Term.combine op v w) least most := by
  obtain ⟨ws, hspelled, hreads⟩ := h
  obtain ⟨us, hspelled', hreads'⟩ := h'
  exact ⟨_, hspelled.applied hr hop hspelled',
    hreads.applied (fun t ht => hop.isInfix (Prod.mk.inj ht).1) hleast hreads' hmost⟩

theorem prints_name (hr : a.grammar.recognizer = .ok r) {name : String} (h : IsName name) :
    a.Prints r input name.toList (.var name) least most :=
  ⟨_, spelled_name hr h, Grammar.readsAs_name a.hasVocabulary⟩

theorem prints_integer (hr : a.grammar.recognizer = .ok r) {n : Int} (h : Fits n)
    (hmost : n < 0 → most ≤ signPower) :
    a.Prints r input (integer n).render (integer n) least most := by
  rcases Int.lt_or_le n 0 with hn | hn
  · obtain ⟨k, rfl⟩ := Int.eq_negSucc_of_lt_zero hn
    have hdigits := isDigits_repr (k + 1)
    have hread := readNumber_neg_of_isDigits hdigits (by rw [digitsValue_repr]; exact h.1)
    rw [digitsValue_repr] at hread
    rw [render_negSucc]
    exact ⟨_, (spelled_number hr hdigits).negated hr,
      Grammar.readsAs_signed a.hasVocabulary hread (hmost hn)⟩
  · obtain ⟨k, rfl⟩ := Int.eq_ofNat_of_zero_le hn
    have hdigits := isDigits_repr k
    have hread := readNumber_of_isDigits hdigits (by rw [digitsValue_repr]; exact h.2)
    rw [digitsValue_repr] at hread
    exact ⟨_, spelled_number hr hdigits, Grammar.readsAs_number a.hasVocabulary hread⟩

/-- A minus sign in front of a text that begins with no number. -/
theorem prints_negation (hr : a.grammar.recognizer = .ok r) (hmost : most ≤ signPower)
    (hbare : v.IsBare) (hname : ∀ name, v = .var name → IsName name)
    (hinner : v.isNode = true → a.Prints r input v.render v 0 0) :
    a.Prints r input (negation v).render (negation v) least most := by
  cases v with
  | var name =>
    refine ⟨_, (spelled_name hr (hname name rfl)).negated hr, ?_⟩
    have hsymbol : ((2, name) : Word).1 ≠ 1 := (by decide : 2 ≠ 1)
    exact Grammar.readsAs_negated a.hasVocabulary hsymbol (Grammar.readsAs_name a.hasVocabulary)
      hmost rfl
  | node op operands =>
    obtain ⟨ws, hspelled, hreads⟩ := hinner rfl
    refine ⟨_, (hspelled.group hr).negated hr, ?_⟩
    have hsymbol : ((4, "(") : Word).1 ≠ 1 := (by decide : 4 ≠ 1)
    exact Grammar.readsAs_negated a.hasVocabulary hsymbol
      (Grammar.readsAs_group a.hasVocabulary hreads) hmost rfl
  | integer _ | real _ | rational _ | negation _ => exact hbare.elim

/-! ## Nodes -/

/-- What is needed of an operand of a node. -/
structure Operand (a : Addition) (r : Recognizer) (input : String) (op : Operator) (v : Value) :
    Prop where
  built : v.IsBuilt a.Knows
  flat : op.associative = true → Term.contribution op v = [v]
  prints : v.isSheltered = true → ∀ least most, v.Binds least → v.Admits most →
    a.Prints r input v.render v least most

/-- An operand as it stands in the text of its node, in parentheses if need be. -/
theorem Operand.wrapped (hr : a.grammar.recognizer = .ok r) (hop : a.Knows op)
    (h : a.Operand r input op v) (hsheltered : v.isSheltered = true) (first : Bool)
    (hleast : least ≤ op.power) (hmost : most ≤ op.power)
    (hexposed : v.needsParens op first = false → v.isExposed = true → most ≤ signPower) :
    a.Prints r input (wrap (v.needsParens op first) v.render) v least most := by
  refine prints_wrap hr (fun _ => ?_) fun hparens => ?_
  · refine h.prints hsheltered 0 0 (fun tag vs hv => ?_)
      ⟨fun _ _ _ => Nat.zero_le _, fun _ => Nat.zero_le _⟩
    subst hv
    exact a.isRepertoire.positive tag h.built.known_tag
  · obtain ⟨hbinds, hadmits⟩ := h.built.stands a.isRepertoire hop hparens h.flat hleast hmost
      (hexposed hparens)
    exact h.prints hsheltered least most hbinds hadmits

/-- **Further operands are read back one after the other.** `x` is what is read so far, which is a
node of the operands `us` as soon as there is another one. -/
theorem prints_operands (hr : a.grammar.recognizer = .ok r) (hop : a.Places op i)
    (hleast : least < op.power) (hmost : most ≤ op.rightPower)
    (hoperands : ∀ v ∈ w :: vs, a.Operand r input op v)
    (hassociative : vs ≠ [] → op.associative = true)
    (hsheltered : areSheltered op false (w :: vs) = true)
    (hexposed : endsExposed op false (w :: vs) = true → most ≤ signPower)
    (hx : ∀ v, (op.associative = true → Term.contribution op v = [v]) →
      Term.combine op x v = node op (us ++ [v]))
    (h : a.Prints r input text x least op.power) :
    a.Prints r input (text ++ renderOperands op false (w :: vs)) (node op (us ++ w :: vs)) least
      most := by
  have hknown : a.Knows op := ⟨i, hop⟩
  have hright := op.rightPower_le_power
  have hbetween := a.isRepertoire.fixity op hknown
  have hw := hoperands w List.mem_cons_self
  induction vs generalizing w us x text with
  | nil =>
    simp only [areSheltered, Bool.and_eq_true] at hsheltered
    have hoperand : a.Prints r input (wrap (w.needsParens op false) w.render) w op.rightPower
        most := hw.wrapped hr hknown hsheltered.1.1 false hright (Nat.le_trans hmost hright)
      fun hparens hv => hexposed (by simp [endsExposed, hparens, hv])
    have happlied := h.applied hr hop hleast hoperand hmost
    rw [hx w hw.flat] at happlied
    rw [renderOperands_of_infixOp hbetween]
    simpa [renderOperands] using happlied
  | cons w' vs ih =>
    have hflat := hassociative (List.cons_ne_nil _ _)
    have hleft := a.isRepertoire.rightPower op hknown hflat
    rw [areSheltered, Bool.and_eq_true, Bool.and_eq_true] at hsheltered
    obtain ⟨⟨hself, hclear⟩, hlater⟩ := hsheltered
    have hoperand : a.Prints r input (wrap (w.needsParens op false) w.render) w op.rightPower
        op.power := hw.wrapped hr hknown hself false hright (Nat.le_refl _)
      (power_le_of_isClear hclear)
    have happlied := h.applied hr hop hleast hoperand (Nat.le_of_eq hleft.symm)
    rw [hx w hw.flat] at happlied
    have hnext : ∀ v, (op.associative = true → Term.contribution op v = [v]) →
        Term.combine op (node op (us ++ [w])) v = node op (us ++ [w] ++ [v]) := by
      intro v hv
      simp [Term.combine, hflat, Operator.sameKind_refl, hv hflat]
    have hrest := ih (fun v hv => hoperands v (List.mem_cons_of_mem w hv)) (fun _ => hflat)
      hlater (fun hv => hexposed (by simpa [endsExposed] using hv))
      hnext happlied (hoperands w' (by simp))
    rw [renderOperands_of_infixOp hbetween]
    simpa using hrest

/-- **A node is read back** if its operands are. -/
theorem prints_node (hr : a.grammar.recognizer = .ok r) (hop : a.Places op i)
    (hleast : least < op.power) (hmost : most ≤ op.rightPower)
    (hoperands : ∀ u ∈ v :: w :: vs, a.Operand r input op u)
    (hassociative : op.associative = false → vs = [])
    (hsheltered : (node op (v :: w :: vs)).isSheltered = true)
    (hexposed : (node op (v :: w :: vs)).isExposed = true → most ≤ signPower) :
    a.Prints r input (node op (v :: w :: vs)).render (node op (v :: w :: vs)) least most := by
  have hknown : a.Knows op := ⟨i, hop⟩
  have hbetween := a.isRepertoire.fixity op hknown
  have hv := hoperands v List.mem_cons_self
  rw [isSheltered, areSheltered, Bool.and_eq_true, Bool.and_eq_true] at hsheltered
  obtain ⟨⟨hself, hclear⟩, hlater⟩ := hsheltered
  have hoperand : a.Prints r input (wrap (v.needsParens op true) v.render) v least op.power :=
    hv.wrapped hr hknown hself true (Nat.le_of_lt hleast) (Nat.le_refl _)
      (power_le_of_isClear hclear)
  have hfirst : ∀ u, (op.associative = true → Term.contribution op u = [u]) →
      Term.combine op v u = node op ([v] ++ [u]) := by
    intro u hu
    by_cases hflat : op.associative = true
    · rw [hv.built.combine_eq_node a.isRepertoire hknown hflat, hv.flat hflat, hu hflat]
    · rw [Bool.not_eq_true] at hflat
      rw [Term.combine_of_not_associative hflat]
      rfl
  have hrest := prints_operands hr hop hleast hmost
    (fun u hu => hoperands u (List.mem_cons_of_mem v hu))
    (fun hne => by rw [← Bool.not_eq_false]; exact fun hnot => hne (hassociative hnot))
    hlater
    (fun hends => hexposed (by simpa [isExposed, endsExposed] using hends)) hfirst hoperand
  rw [render, renderOperands_of_infixOp hbetween]
  simpa using hrest

/-- **The text of a sheltered value without real numbers is spelled and read as the value.** -/
theorem prints_render (hr : a.grammar.recognizer = .ok r) (h : v.IsBuilt a.Knows)
    (hreal : v.hasReal = false) (hsheltered : v.isSheltered = true) (hbinds : v.Binds least)
    (hadmits : v.Admits most) : a.Prints r input v.render v least most := by
  induction h generalizing least most with
  | @integer n hn =>
    exact prints_integer hr hn fun hneg =>
      hadmits.signPower (by simp [isExposed, prefixPower?, hneg])
  | real x => cases hreal
  | var hname => exact prints_name hr hname
  | @negation v hv hbare ih =>
    refine prints_negation hr (hadmits.signPower rfl) hbare ?_ fun hnode => ?_
    · rintro name rfl
      cases hv with
      | var hname => exact hname
    · refine ih hreal hsheltered (fun tag vs htag => ?_)
        ⟨fun _ _ _ => Nat.zero_le _, fun _ => Nat.zero_le _⟩
      subst htag
      exact a.isRepertoire.positive tag hv.known_tag
  | @pair op v w hop hassociative hv hw ihv ihw =>
    obtain ⟨i, hplace⟩ := hop
    have hreals := fun u (hu : u ∈ [v, w]) => hasReal_of_mem hreal hu
    have hnever : ¬ op.associative = true := by simp [hassociative]
    refine prints_node hr hplace (hbinds op _ rfl) (hadmits.rightPower op _ rfl) ?_ (fun _ => rfl)
      hsheltered hadmits.signPower
    intro u hu
    have hu' := hreals u hu
    simp only [List.mem_cons, List.not_mem_nil, or_false] at hu
    rcases hu with rfl | rfl
    · exact ⟨hv, fun h => absurd h hnever, fun hs _ _ hb ha => ihv hu' hs hb ha⟩
    · exact ⟨hw, fun h => absurd h hnever, fun hs _ _ hb ha => ihw hu' hs hb ha⟩
  | @chain op vs hop hassociative hlength hvs hflat ih =>
    obtain ⟨i, hplace⟩ := hop
    rcases vs with _ | ⟨v, _ | ⟨w, vs⟩⟩
    · exact absurd hlength (by simp)
    · exact absurd hlength (by simp)
    refine prints_node hr hplace (hbinds op _ rfl) (hadmits.rightPower op _ rfl) ?_
      (fun hnot => absurd (hnot.symm.trans hassociative) Bool.false_ne_true) hsheltered
      hadmits.signPower
    intro u hu
    exact ⟨hvs u hu, fun _ => hflat u hu,
      fun hs _ _ hb ha => ih u hu (hasReal_of_mem hreal hu) hs hb ha⟩

/-! ## Texts -/

/-- **If the new operator binds no tighter than a minus sign all values are sheltered.** -/
theorem isSheltered_of_power_le (hpower : a.power ≤ signPower) (h : v.IsBuilt a.Knows) :
    v.isSheltered = true := by
  refine h.isSheltered a.isRepertoire ?_
  have hle : ∀ inner, a.Knows inner → inner.power ≤ Operation.power.operator.power := by
    rintro inner ⟨i, ⟨op⟩ | _⟩
    · cases op <;> decide
    · exact Nat.le_trans hpower (by decide)
  rintro op ⟨i, ⟨op⟩ | _⟩ htight
  · cases op with
    | power => exact ⟨rfl, hle⟩
    | add | subtract | multiply | divide => exact absurd htight (by decide)
  · exact absurd htight (Nat.not_lt.mpr hpower)

/-- What is read as a value whatever stands around it is parsed as that value. -/
theorem Prints.parse (hr : a.grammar.recognizer = .ok r)
    (h : a.Prints r (String.ofList text) text v 0 most) :
    ∃ limit, ∀ depth, limit ≤ depth → ∃ stats,
      (a.grammar.setMaxDepth depth).parse (String.ofList text) = some (.ok (v, stats)) := by
  obtain ⟨ws, hspelled, hreads⟩ := h
  refine hreads.parse hr (isProgressive hr) a.hasVocabulary.power_end ?_
  rw [String.toList_ofList]
  exact hspelled.whole

/-- **What is parsed from its own text is sheltered,** under whatever limit to the depth. -/
theorem isSheltered_of_parse (h : a.grammar.recognizer = .ok r) (hbuilt : v.IsBuilt a.Knows)
    (hreal : v.hasReal = false) {depth : Nat} {stats : Stats}
    (hparse : (a.grammar.setMaxDepth depth).parse v.text = some (.ok (v, stats))) :
    v.isSheltered = true :=
  isSheltered_of_load_le v (load_le_of_parse h hbuilt hreal hparse)

/-- **Printing and parsing again with an operator more.** A value without real numbers that the
grammar makes is parsed from its text again, under every limit to the depth that is high enough, if
and only if its minus signs are sheltered. That is a condition only if the new operator binds
tighter than the sign. -/
theorem grammar_parse_text_iff (a : Addition) {stats : Stats}
    (h : a.grammar.parse input = some (.ok (v, stats))) (hreal : v.hasReal = false) :
    (∃ limit, ∀ depth, limit ≤ depth →
      ∃ stats', (a.grammar.setMaxDepth depth).parse v.text = some (.ok (v, stats'))) ↔
        (signPower < a.power → v.isSheltered = true) := by
  obtain ⟨r, hr, hbuilt⟩ := isBuilt_of_parse h
  constructor
  · rintro ⟨limit, hlimit⟩ -
    obtain ⟨stats', hparse⟩ := hlimit limit (Nat.le_refl limit)
    exact isSheltered_of_parse hr hbuilt hreal hparse
  · intro hsheltered
    have hall : v.isSheltered = true := by
      by_cases hpower : a.power ≤ signPower
      · exact isSheltered_of_power_le hpower hbuilt
      · exact hsheltered (Nat.not_le.mp hpower)
    have hbinds : v.Binds 0 := by
      rintro tag vs rfl
      exact a.isRepertoire.positive tag hbuilt.known_tag
    have hadmits : v.Admits 0 := ⟨fun _ _ _ => Nat.zero_le _, fun _ => Nat.zero_le _⟩
    exact (prints_render hr hbuilt hreal hall hbinds hadmits).parse hr

/-! ## An operator that binds tighter than the sign -/

theorem isFresh_at : IsFresh "@" where
  isClassId := by decide
  sign_ne op := by cases op <;> decide
  not_blank := by
    simp
    decide
  exists_foreign := ⟨'@', by simp, by decide⟩

/-- An operator that binds as tightly as a power. -/
def tight : Addition where
  symbol := "@"
  power := 80
  commutative := false
  isFresh := isFresh_at
  power_pos := by decide

/-- What compares equal to a value without real numbers is that value. -/
theorem eq_ok_of_same {result : Option (Except ParseError (Value × Stats))} {stats : Stats}
    (hreal : v.hasReal = false)
    (h : result.map (·.map fun x => (x.1.same v, x.2)) = some (.ok (true, stats))) :
    result = some (.ok (v, stats)) := by
  obtain ⟨_ | ⟨w, stats'⟩, rfl, hmap⟩ := Option.map_eq_some_iff.mp h
  · cases hmap
  · have hpair : (w.same v, stats') = (true, stats) := Except.ok.inj hmap
    obtain ⟨hsame, rfl⟩ := Prod.mk.inj hpair
    rw [eq_of_same w v hreal hsame]

/-- Signed operands in front, in parentheses further on, and at the end. -/
def shelteredValue : Value :=
  .node tight.operator [.negation (.var "b"),
    .node Operation.subtract.operator [.var "c", .integer (-2)], .integer (-3)]

theorem grammar_parse_text_iff_shelteredValue :
    shelteredValue.text = "(-b) @ (c - -2) @ -3" ∧ ∃ limit, ∀ depth, limit ≤ depth →
      ∃ stats, (tight.grammar.setMaxDepth depth).parse shelteredValue.text =
        some (.ok (shelteredValue, stats)) := by
  have hparse : tight.grammar.parse "(-b) @ (c - -2) @ (-3)" =
      some (.ok (shelteredValue, ⟨16, 8, 3, 4⟩)) :=
    eq_ok_of_same rfl (by decide +kernel)
  exact ⟨by decide +kernel,
    (grammar_parse_text_iff tight hparse rfl).mpr fun _ => by decide +kernel⟩

/-- A signed operand between others. -/
def exposedValue : Value :=
  .node tight.operator [.var "a", .negation (.var "b"), .var "c"]

/-- **A sign that is not sheltered** takes what stands behind its operand, so that the text is not
parsed as the value again, under any limit to the depth. -/
theorem not_parse_text_exposedValue :
    tight.grammar.parse "a @ (-b) @ c" = some (.ok (exposedValue, ⟨8, 5, 2, 4⟩)) ∧
      exposedValue.hasReal = false ∧ exposedValue.text = "a @ -b @ c" ∧
      ¬ ∃ limit, ∀ depth, limit ≤ depth → ∃ stats,
        (tight.grammar.setMaxDepth depth).parse exposedValue.text =
          some (.ok (exposedValue, stats)) := by
  have hparse : tight.grammar.parse "a @ (-b) @ c" = some (.ok (exposedValue, ⟨8, 5, 2, 4⟩)) :=
    eq_ok_of_same rfl (by decide +kernel)
  refine ⟨hparse, rfl, by decide +kernel, ?_⟩
  rintro ⟨limit, hlimit⟩
  obtain ⟨r, hr, hbuilt⟩ := isBuilt_of_parse hparse
  obtain ⟨stats, h⟩ := hlimit limit (Nat.le_refl limit)
  have hsheltered := isSheltered_of_parse hr hbuilt rfl h
  exact absurd hsheltered (by decide +kernel)

end Calculator.Addition

end Precedence
