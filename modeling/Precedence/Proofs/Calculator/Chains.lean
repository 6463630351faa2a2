import Precedence.Proofs.Calculator.AddedSpelling
import Precedence.Proofs.Calculator.Captures
import Precedence.Proofs.Calculator.Exposure
import Precedence.Proofs.Calculator.Trees

/-!
# Texts as chains

The text of a value is a chain of the operands that stand in it without parentheses, and of those in
parentheses. The load of the value is what the chain weighs: more than the value itself, if an
exposed sign stands in front of an operator that binds tighter than the sign.

* `isSheltered_of_load_le`: a value that weighs as much as its text is sheltered.
* `isChain_of_isBuilt`: the text of a value without real numbers is a chain with its load.
* `load_le_of_parse`: so whatever is parsed of the text weighs at least that much.
-/

namespace Precedence

open Precedence.Number Precedence.Text Calculator Value

namespace Value

/-! ## Operands -/

variable {op : Operator}

/-- How the operands of an operator between them are written. -/
theorem renderOperands_of_infixOp (hop : op.fixity = .infixOp) (first : Bool) (v : Value)
    (vs : List Value) : renderOperands op first (v :: vs) =
      (if first then [] else ' ' :: op.symbol.toList ++ [' ']) ++
        wrap (v.needsParens op first) v.render ++ renderOperands op false vs := by
  rw [renderOperands, hop]

/-- How a negative number is written. -/
theorem render_negSucc (n : Nat) :
    (integer (.negSucc n)).render = '-' :: (n + 1).repr.toList := by
  rw [render, show toString (Int.negSucc n) = "-" ++ (n + 1).repr from rfl, String.toList_append]
  rfl

/-! ## Loads -/

mutual

/-- What the text of the value weighs: one more for each operand that is not clear. -/
def load : Value → Nat
  | negation inner => 2 * load inner
  | node op operands => loadAll op true operands
  | integer _ | real _ | rational _ | var _ => 1

/-- What the texts of the operands of a node weigh; `first` says that no operand came before. -/
def loadAll (op : Operator) (first : Bool) : List Value → Nat
  | [] => 0
  | v :: rest =>
    load v + (if isClear op first rest.isEmpty v then 0 else 1) + loadAll op false rest

end

mutual

theorem weight_le_load : ∀ v : Value, v.weight ≤ v.load
  | negation inner => by
    have := weight_le_load inner
    rw [weight, load]
    omega
  | node op operands => by
    rw [weight, load]
    exact weightAll_le_loadAll op true operands
  | integer _ | real _ | rational _ | var _ => Nat.le_refl 1

theorem weightAll_le_loadAll (op : Operator) (first : Bool) :
    ∀ vs : List Value, weightAll vs ≤ loadAll op first vs
  | [] => Nat.le_refl 0
  | v :: rest => by
    have := weight_le_load v
    have := weightAll_le_loadAll op false rest
    rw [weightAll, loadAll]
    omega

end

mutual

/-- **A value that weighs as much as its text is sheltered.** -/
theorem isSheltered_of_load_le : ∀ v : Value, v.load ≤ v.weight → v.isSheltered = true
  | negation inner, h => by
    rw [load, weight] at h
    rw [isSheltered]
    exact isSheltered_of_load_le inner (by omega)
  | node op operands, h => by
    rw [load, weight] at h
    rw [isSheltered]
    exact areSheltered_of_loadAll_le op true operands h
  | integer _, _ | real _, _ | rational _, _ | var _, _ => rfl

theorem areSheltered_of_loadAll_le (op : Operator) (first : Bool) :
    ∀ vs : List Value, loadAll op first vs ≤ weightAll vs → areSheltered op first vs = true
  | [], _ => rfl
  | v :: rest, h => by
    have hv := weight_le_load v
    have hrest := weightAll_le_loadAll op false rest
    rw [loadAll, weightAll] at h
    have hclear : isClear op first rest.isEmpty v = true := by
      by_contra hclear
      rw [if_neg hclear] at h
      omega
    rw [areSheltered, isSheltered_of_load_le v (by omega), hclear,
      areSheltered_of_loadAll_le op false rest (by omega)]
    rfl

end

end Value

/-! ## Chains behind each other -/

namespace Calculator

/-- Whether the last operand of a chain has a sign. -/
def Factor.endsSigned (x : Factor) : List Joint → Bool
  | [] => x.signed
  | j :: js => j.factor.endsSigned js

variable {x : Factor} {js : List Joint}

theorem Joint.words_append (js ks : List Joint) : words (js ++ ks) = words js ++ words ks := by
  induction js with
  | nil => rfl
  | cons j js ih => simp [words, ih]

theorem Factor.endsSigned_append_cons (x : Factor) (js : List Joint) (j : Joint)
    (ks : List Joint) : x.endsSigned (js ++ j :: ks) = j.factor.endsSigned ks := by
  induction js generalizing x with
  | nil => rfl
  | cons k js ih => exact ih k.factor

/-- What two chains behind each other weigh. -/
theorem Factor.charge_append (x : Factor) (js ks : List Joint) :
    x.charge (js ++ ks) + Joint.load (js ++ ks) = x.charge js + Joint.load js +
      (if x.endsSigned js && decide (signPower < Joint.headPower ks) then 1 else 0) +
        Joint.load ks := by
  induction js generalizing x with
  | nil => simp [charge, endsSigned, Joint.headPower, Joint.load]
  | cons j js ih =>
    have hcharge : x.charge (j :: js ++ ks) = x.charge (j :: js) := rfl
    have hload : Joint.load (j :: js ++ ks) = j.factor.charge (js ++ ks) +
        Joint.load (js ++ ks) := rfl
    have hload' : Joint.load (j :: js) = j.factor.charge js + Joint.load js := rfl
    have := ih j.factor
    rw [hcharge, hload, hload', endsSigned]
    omega

namespace Addition

variable {a : Addition} {r : Recognizer} {input : String} {limit m i : Nat} {exposed first : Bool}
variable {text : List Char} {op : Operator} {v w : Value} {vs : List Value}

/-! ## Texts as chains -/

/-- The text is spelled as the chain, which weighs `m`; `exposed` says whether it ends in a signed
operand. -/
structure Chain (a : Addition) (r : Recognizer) (input : String) (limit : Nat) (text : List Char)
    (m : Nat) (exposed : Bool) (x : Factor) (js : List Joint) : Prop where
  spelled : Spelled r text (x.words ++ Joint.words js)
  stands : (a.grammar.setMaxDepth limit).Stands (a.grammar.context input) x
  chained : (a.grammar.setMaxDepth limit).IsChained (a.grammar.context input) js
  load : x.charge js + Joint.load js = m
  ends : x.endsSigned js = exposed

/-- The text of further operands of a node is spelled as joints that weigh what it does. -/
structure Tail (a : Addition) (r : Recognizer) (input : String) (limit : Nat) (op : Operator)
    (vs : List Value) (ks : List Joint) : Prop where
  spelled : Spelled r (renderOperands op false vs) (Joint.words ks)
  chained : (a.grammar.setMaxDepth limit).IsChained (a.grammar.context input) ks
  load : Joint.load ks = loadAll op false vs
  /-- If there are operands, the operator stands in front of them, and their end is that of the
  chain. -/
  shape : (vs = [] ∧ ks = []) ∨ ∃ w ws k ls, vs = w :: ws ∧ ks = k :: ls ∧ k.operator = op ∧
    k.factor.endsSigned ls = endsExposed op false vs

/-- The text of the value is a chain that weighs what the text does. The chain of a node has
operators, and no sign in front takes any. -/
def IsChain (a : Addition) (r : Recognizer) (input : String) (limit : Nat) (v : Value) : Prop :=
  ∃ x js, a.Chain r input limit v.render v.load v.isExposed x js ∧
    (v.isNode = true → x.Spares js ∧ js ≠ []) ∧ (v.isNode = false → js = [])

theorem hasVocabulary_setMaxDepth (a : Addition) (limit : Nat) :
    (a.grammar.setMaxDepth limit).HasVocabulary :=
  ⟨a.hasVocabulary.operands, a.hasVocabulary.minus⟩

theorem isInfix_setMaxDepth (hop : a.Places op i) {t : Token}
    (ht : t.word = (i, op.symbol)) :
    (a.grammar.setMaxDepth limit).IsInfix (a.grammar.context input) op t := by
  have h : a.grammar.IsInfix (a.grammar.context input) op t := hop.isInfix (Prod.mk.inj ht).1
  exact ⟨h.power, h.led, h.positive⟩

/-- A chain of one operand. -/
theorem chain_single {x : Factor} (hspelled : Spelled r text x.words)
    (hstands : (a.grammar.setMaxDepth limit).Stands (a.grammar.context input) x) :
    a.Chain r input limit text x.weight x.signed x [] where
  spelled := by
    rw [Joint.words, List.append_nil]
    exact hspelled
  stands := hstands
  chained := fun j hj => absurd hj List.not_mem_nil
  load := by
    rw [Factor.charge_of_spares fun _ => Nat.zero_le _]
    rfl
  ends := rfl

theorem Chain.pos (h : a.Chain r input limit text m exposed x js) : 1 ≤ m := by
  have hpos := h.stands.pos_weight
  have hload := h.load
  unfold Factor.charge at hload
  omega

/-- What is in parentheses is one operand. -/
theorem IsChain.stands (h : a.IsChain r input limit v) : ∃ ws, Spelled r v.render ws ∧
    ∀ signed, (signed = true → v.isNode = true) →
      (a.grammar.setMaxDepth limit).Stands (a.grammar.context input)
        ⟨signed, .group ws v.load v.isNode⟩ := by
  obtain ⟨x, js, hchain, hnode, -⟩ := h
  have hconfines := Grammar.confines_chain (hasVocabulary_setMaxDepth a limit) rfl hchain.stands
    hchain.chained
  refine ⟨_, hchain.spelled, fun signed hsigned => ⟨hchain.pos, ?_, fun h => .inl (hsigned h)⟩⟩
  intro ws weight bare heq n depth rest s u s' hs hrest hu
  obtain ⟨rfl, rfl, rfl⟩ := Primary.group.inj heq
  obtain ⟨hat, hweight, hbare⟩ := hconfines n depth rest s u s' hs hrest hu
  rw [hchain.load] at hweight
  exact ⟨hat, hweight, fun h => hbare (hnode h).1 (hnode h).2⟩

/-- The text of an operand in a node is a chain; if it is the first one, a sign in front takes
nothing. -/
theorem IsChain.wrapped (hr : a.grammar.recognizer = .ok r) (h : a.IsChain r input limit v)
    (op : Operator) (first : Bool) :
    ∃ x js, a.Chain r input limit (wrap (v.needsParens op first) v.render) v.load
        (!v.needsParens op first && v.isExposed) x js ∧
      (first = true → ∀ ks, Joint.headPower ks = op.power → x.Spares (js ++ ks)) := by
  cases hparens : v.needsParens op first with
  | true =>
    obtain ⟨ws, hspelled, hstands⟩ := h.stands
    have hsingle := chain_single (x := ⟨false, .group ws v.load v.isNode⟩) (hspelled.group hr)
      (hstands false fun h => absurd h Bool.false_ne_true)
    exact ⟨_, [], hsingle, fun _ _ _ h => absurd h Bool.false_ne_true⟩
  | false =>
    obtain ⟨x, js, hchain, hnode, hother⟩ := h
    refine ⟨x, js, hchain, ?_⟩
    rintro rfl ks hks hsigned
    cases hv : v.isNode with
    | true =>
      obtain ⟨hspares, hne⟩ := hnode hv
      obtain ⟨j, js, rfl⟩ := List.exists_cons_of_ne_nil hne
      exact hspares hsigned
    | false =>
      rw [hother hv, List.nil_append, hks]
      refine power_le_of_not_isNode hv hparens ?_
      rw [← hchain.ends, hother hv]
      exact hsigned

/-! ## Nodes -/

/-- An operand of a node, and the operands behind it. -/
theorem Chain.append (hop : op.fixity = .infixOp) {ks : List Joint}
    (h : a.Chain r input limit (wrap (v.needsParens op first) v.render) v.load
      (!v.needsParens op first && v.isExposed) x js) (ht : a.Tail r input limit op vs ks) :
    a.Chain r input limit (wrap (v.needsParens op first) v.render ++ renderOperands op false vs)
      (loadAll op first (v :: vs)) (endsExposed op first (v :: vs)) x (js ++ ks) := by
  have hspelled : Spelled r (wrap (v.needsParens op first) v.render ++ renderOperands op false vs)
      (x.words ++ Joint.words (js ++ ks)) := by
    rw [Joint.words_append, ← List.append_assoc]
    refine h.spelled.append ht.spelled ?_
    cases vs with
    | nil => exact .inl rfl
    | cons w vs =>
      rw [renderOperands_of_infixOp hop]
      exact .inr ⟨_, rfl⟩
  refine ⟨hspelled, h.stands,
    fun j hj => (List.mem_append.mp hj).elim (h.chained j) (ht.chained j), ?_, ?_⟩
  · rw [Factor.charge_append, h.load, h.ends, ht.load, loadAll]
    obtain ⟨rfl, rfl⟩ | ⟨w, ws, k, ls, rfl, rfl, hk, -⟩ := ht.shape
    · simp [Joint.headPower, isClear]
    · rw [Joint.headPower, hk, isClear, List.isEmpty_cons]
      by_cases hpower : signPower < op.power
      · cases v.needsParens op first <;> cases v.isExposed <;>
          simp [hpower, Nat.not_le.mpr hpower]
      · simp [hpower, Nat.not_lt.mp hpower]
  · obtain ⟨rfl, rfl⟩ | ⟨w, ws, k, ls, rfl, rfl, -, hends⟩ := ht.shape
    · rw [List.append_nil, h.ends]
      rfl
    · rw [Factor.endsSigned_append_cons, hends]
      rfl

/-- The texts of further operands, one after the other. -/
theorem exists_tail (hr : a.grammar.recognizer = .ok r) (hop : a.Places op i)
    (hvs : ∀ v ∈ vs, a.IsChain r input limit v) : ∃ ks, a.Tail r input limit op vs ks := by
  have hbetween := a.isRepertoire.fixity op ⟨i, hop⟩
  induction vs with
  | nil =>
    exact ⟨[], spelled_nil, fun j hj => absurd hj List.not_mem_nil, rfl, .inl ⟨rfl, rfl⟩⟩
  | cons v vs ih =>
    obtain ⟨ks, hks⟩ := ih fun w hw => hvs w (List.mem_cons_of_mem v hw)
    obtain ⟨x, js, hchain, -⟩ := (hvs v List.mem_cons_self).wrapped hr op false
    have hall := hchain.append hbetween hks
    refine ⟨⟨(i, op.symbol), op, x⟩ :: (js ++ ks), ?_, ?_, hall.load,
      .inr ⟨v, vs, _, _, rfl, rfl, rfl, hall.ends⟩⟩
    · have hspelled := hall.spelled.behind hr hop
      rw [renderOperands_of_infixOp hbetween]
      simpa [Joint.words] using hspelled
    · intro j hj
      rcases List.mem_cons.mp hj with rfl | hj
      · exact ⟨fun t ht => isInfix_setMaxDepth hop ht, hall.stands⟩
      · exact hall.chained j hj

/-- **The text of a node is a chain** if those of its operands are. -/
theorem isChain_node (hr : a.grammar.recognizer = .ok r) (hop : a.Places op i)
    (h : ∀ u ∈ v :: w :: vs, a.IsChain r input limit u) :
    a.IsChain r input limit (node op (v :: w :: vs)) := by
  have hbetween := a.isRepertoire.fixity op ⟨i, hop⟩
  obtain ⟨ks, hks⟩ := exists_tail hr hop fun u hu => h u (List.mem_cons_of_mem v hu)
  obtain ⟨x, js, hchain, hspares⟩ := (h v List.mem_cons_self).wrapped hr op true
  have hall := hchain.append hbetween hks
  rw [← List.nil_append (wrap (v.needsParens op true) v.render ++ _), ← List.append_assoc] at hall
  obtain ⟨hnil, -⟩ | ⟨-, -, k, ls, -, rfl, hk, -⟩ := hks.shape
  · cases hnil
  refine ⟨x, js ++ k :: ls, ?_, fun _ => ⟨hspares rfl _ ?_, by simp⟩, fun hnot => by cases hnot⟩
  · rw [render, renderOperands_of_infixOp hbetween]
    exact hall
  · rw [Joint.headPower, hk]

/-! ## Values -/

/-- A number or a name stands for itself. -/
theorem stands_atom {g : Grammar Value} {c : Context} {signed : Bool} {p : Primary}
    (h : (∃ text, p = .number text) ∨ ∃ text, p = .name text) : g.Stands c ⟨signed, p⟩ := by
  obtain ⟨text, rfl⟩ | ⟨text, rfl⟩ := h
  · exact ⟨Nat.le_refl 1, fun _ _ _ heq => (by cases heq), fun _ => .inr ⟨text, rfl⟩⟩
  · exact ⟨Nat.le_refl 1, fun _ _ _ heq => (by cases heq), fun _ => .inl rfl⟩

/-- The text of what is no node is one operand. -/
theorem isChain_single (x : Factor) (hnode : v.isNode = false)
    (hspelled : Spelled r v.render x.words)
    (hstands : (a.grammar.setMaxDepth limit).Stands (a.grammar.context input) x)
    (hload : x.weight = v.load) (hends : x.signed = v.isExposed) : a.IsChain r input limit v := by
  refine ⟨x, [], ?_, fun h => ?_, fun _ => rfl⟩
  · rw [← hload, ← hends]
    exact chain_single hspelled hstands
  · exact absurd (hnode.symm.trans h) Bool.false_ne_true

theorem isChain_integer (hr : a.grammar.recognizer = .ok r) (n : Int) :
    a.IsChain r input limit (integer n) := by
  rcases Int.lt_or_le n 0 with hn | hn
  · obtain ⟨k, rfl⟩ := Int.eq_negSucc_of_lt_zero hn
    have hspelled := (spelled_number hr (isDigits_repr (k + 1))).negated hr
    rw [← render_negSucc] at hspelled
    refine isChain_single ⟨true, .number (k + 1).repr⟩ rfl hspelled (stands_atom (.inl ⟨_, rfl⟩))
      rfl ?_
    simp [isExposed, prefixPower?, hn]
  · obtain ⟨k, rfl⟩ := Int.eq_ofNat_of_zero_le hn
    refine isChain_single ⟨false, .number k.repr⟩ rfl (spelled_number hr (isDigits_repr k))
      (stands_atom (.inl ⟨_, rfl⟩)) rfl ?_
    simp [isExposed, prefixPower?, Int.not_lt.mpr hn]

theorem isChain_name (hr : a.grammar.recognizer = .ok r) {name : String} (h : IsName name) :
    a.IsChain r input limit (.var name) :=
  isChain_single ⟨false, .name name⟩ rfl (spelled_name hr h) (stands_atom (.inr ⟨_, rfl⟩)) rfl rfl

/-- A minus sign in front of a name or of a node in parentheses. -/
theorem IsChain.negation (hr : a.grammar.recognizer = .ok r) (h : a.IsChain r input limit v)
    (hbare : v.IsBare) (hname : ∀ name, v = .var name → IsName name) :
    a.IsChain r input limit (.negation v) := by
  cases v with
  | var name =>
    exact isChain_single ⟨true, .name name⟩ rfl ((spelled_name hr (hname name rfl)).negated hr)
      (stands_atom (.inr ⟨_, rfl⟩)) rfl rfl
  | node op operands =>
    obtain ⟨ws, hspelled, hstands⟩ := h.stands
    exact isChain_single ⟨true, .group ws (node op operands).load true⟩ rfl
      ((hspelled.group hr).negated hr) (hstands true fun _ => rfl) rfl rfl
  | integer _ | real _ | rational _ | negation _ => exact hbare.elim

/-- **The text of a value without real numbers is a chain.** -/
theorem isChain_of_isBuilt (hr : a.grammar.recognizer = .ok r) (h : v.IsBuilt a.Knows)
    (hreal : v.hasReal = false) : a.IsChain r input limit v := by
  induction h with
  | integer => exact isChain_integer hr _
  | real x => cases hreal
  | var hname => exact isChain_name hr hname
  | @negation v hv hbare ih =>
    refine (ih hreal).negation hr hbare ?_
    rintro name rfl
    cases hv with
    | var hname => exact hname
  | @pair op v w hop hassociative hv hw ihv ihw =>
    obtain ⟨i, hplace⟩ := hop
    refine isChain_node hr hplace fun u hu => ?_
    have hu' := hasReal_of_mem hreal hu
    simp only [List.mem_cons, List.not_mem_nil, or_false] at hu
    rcases hu with rfl | rfl
    · exact ihv hu'
    · exact ihw hu'
  | @chain op vs hop hassociative hlength hvs hflat ih =>
    obtain ⟨i, hplace⟩ := hop
    rcases vs with _ | ⟨v, _ | ⟨w, vs⟩⟩
    · exact absurd hlength (by simp)
    · exact absurd hlength (by simp)
    exact isChain_node hr hplace fun u hu => ih u hu (hasReal_of_mem hreal hu)

/-- **Whatever is parsed of the text of a value weighs at least what the text does,** under any
limit to the depth. -/
theorem load_le_of_parse (hr : a.grammar.recognizer = .ok r) (h : v.IsBuilt a.Knows)
    (hreal : v.hasReal = false) {stats : Stats}
    (hparse : (a.grammar.setMaxDepth limit).parse v.text = some (.ok (w, stats))) :
    v.load ≤ w.weight := by
  have hall : a.IsChain r v.text limit v := isChain_of_isBuilt hr h hreal
  obtain ⟨x, js, hchain, -⟩ := hall
  have hconfines := Grammar.confines_chain (hasVocabulary_setMaxDepth a limit) rfl hchain.stands
    hchain.chained
  have hspells : r.Spells v.text.toList (x.words ++ Joint.words js) := by
    rw [Value.text, String.toList_ofList]
    exact hchain.spelled.whole
  have hr' : (a.grammar.setMaxDepth limit).recognizer = .ok r := hr
  obtain ⟨hload, -⟩ := hconfines.of_parse hr' (isProgressive hr)
    (hasVocabulary_setMaxDepth a limit).power_end hspells hparse
  rwa [hchain.load] at hload

end Addition

end Calculator

end Precedence
