import Precedence.Proofs.Calculator.Denotations
import Precedence.Proofs.Calculator.Vocabulary
import Precedence.Proofs.Value.Shapes

/-!
# What minus signs take

Between parentheses a text is a chain: operands, each with or without a minus sign, and operators
between them. A sign takes all operators behind its operand that bind tighter than the sign.

The weight of a value counts each leaf once, and twice as often for every minus sign around it.
What an operator makes weighs as much as its operands do. So a sign that takes more than the operand
behind it makes the value heavier.

* `weight_combine`, `weight_negate`: what operators and minus signs do to weights.
* `WeighsWithin.nud`, `weighsWithin`: what is read of a chain, one operand and then all of it.
* `confines_chain`: a chain is read up to its end, and its value weighs at least its load.
-/

namespace Precedence

open Precedence.Source

/-! ## Weights -/

namespace Value

mutual

/-- The number of leaves, where each minus sign doubles what is behind it. -/
def weight : Value → Nat
  | negation inner => 2 * weight inner
  | node _ operands => weightAll operands
  | integer _ | real _ | rational _ | var _ => 1

/-- The weights of values together. -/
def weightAll : List Value → Nat
  | [] => 0
  | v :: rest => weight v + weightAll rest

end

theorem weightAll_append (vs ws : List Value) :
    weightAll (vs ++ ws) = weightAll vs + weightAll ws := by
  induction vs with
  | nil => rw [List.nil_append, weightAll, Nat.zero_add]
  | cons v vs ih => rw [List.cons_append, weightAll, weightAll, ih, Nat.add_assoc]

theorem weightAll_singleton (v : Value) : weightAll [v] = weight v := by
  rw [weightAll, weightAll, Nat.add_zero]

/-- What a value gives to a node weighs as much as the value. -/
theorem weightAll_contribution (op : Operator) (v : Value) :
    weightAll (Term.contribution op v) = weight v := by
  rcases contribution_cases op v with ⟨inner, operands, rfl, -, hoperands⟩ | hself
  · rw [hoperands, weight]
  · rw [hself, weightAll_singleton]

/-- **An operator makes nothing heavier,** whether it flattens or not. -/
theorem weight_combine (op : Operator) (v w : Value) :
    weight (Term.combine op v w) = weight v + weight w := by
  by_cases h : op.associative = true
  · rw [combine_eq h, weight, weightAll_append, weightAll_contribution, weightAll_contribution]
  · rw [Term.combine_of_not_associative (Bool.eq_false_iff.mpr h), term_node, weight, weightAll,
      weightAll_singleton]

/-- **A minus sign doubles the weight** of a name or a node. -/
theorem weight_negate {v w : Value} (h : v.IsBare) (hw : v.negate.toOption = some w) :
    weight w = 2 * weight v := by
  rw [negate_of_isBare h] at hw
  cases hw
  rw [weight]

theorem weight_readNumber {text : String} {v : Value}
    (h : (readNumber text).toOption = some v) : weight v = 1 := by
  obtain ⟨n, -, rfl⟩ | ⟨x, rfl⟩ := readNumber_eq_ok (toOption_eq_some_iff.mp h)
  · rfl
  · rfl

end Value

namespace Calculator

/-! ## Chains -/

/-- An operand apart from its sign. For words in parentheses there is a bound to what their value
weighs, and whether it is sure to be a name or a node. -/
inductive Primary where
  | number (text : String)
  | name (text : String)
  | group (ws : List Word) (weight : Nat) (bare : Bool)

namespace Primary

def words : Primary → List Word
  | number text => [(1, text)]
  | name text => [(2, text)]
  | group ws _ _ => (4, "(") :: ws ++ [(3, ")")]

def weight : Primary → Nat
  | number _ | name _ => 1
  | group _ weight _ => weight

/-- Whether the value is sure to be a name or a node. -/
def bare : Primary → Bool
  | number _ => false
  | name _ => true
  | group _ _ bare => bare

end Primary

/-- An operand, with a minus sign or without. -/
structure Factor where
  signed : Bool
  primary : Primary

namespace Factor

def words (x : Factor) : List Word :=
  if x.signed then (5, "-") :: x.primary.words else x.primary.words

/-- What the operand weighs if its sign takes nothing more. A sign and a number are one number. -/
def weight (x : Factor) : Nat :=
  match x.signed, x.primary with
  | true, .number _ => 1
  | true, p => 2 * p.weight
  | false, p => p.weight

end Factor

/-- An operator, and the operand behind it. -/
structure Joint where
  word : Word
  operator : Operator
  factor : Factor

namespace Joint

/-- The words of a chain behind its first operand. -/
def words : List Joint → List Word
  | [] => []
  | j :: js => j.word :: j.factor.words ++ words js

/-- How tightly the first operator of the chain binds. -/
def headPower : List Joint → Nat
  | [] => 0
  | j :: _ => j.operator.power

end Joint

namespace Factor

/-- What an operand weighs in front of the rest of the chain, if its sign takes one leaf of that. -/
def charge (x : Factor) (js : List Joint) : Nat :=
  x.weight + if x.signed && decide (signPower < Joint.headPower js) then 1 else 0

/-- The operand has no sign, or its sign takes nothing of the rest of the chain. -/
def Spares (x : Factor) (js : List Joint) : Prop :=
  x.signed = true → Joint.headPower js ≤ signPower

variable {x : Factor} {p : Primary} {js : List Joint}

theorem charge_of_spares (h : x.Spares js) : x.charge js = x.weight := by
  rw [charge, if_neg, Nat.add_zero]
  rw [Bool.and_eq_true, decide_eq_true_eq]
  rintro ⟨hsigned, hpower⟩
  exact absurd (h hsigned) (Nat.not_le.mpr hpower)

theorem spares_unsigned : Spares ⟨false, p⟩ js :=
  fun hsigned => absurd hsigned Bool.false_ne_true

theorem charge_unsigned : charge ⟨false, p⟩ js = p.weight :=
  charge_of_spares spares_unsigned

theorem charge_signed (hnumber : ∀ text, p ≠ .number text) :
    charge ⟨true, p⟩ js = 2 * p.weight + if signPower < Joint.headPower js then 1 else 0 := by
  have hweight : weight ⟨true, p⟩ = 2 * p.weight := by
    cases p with
    | number text => exact absurd rfl (hnumber text)
    | name text => rfl
    | group ws weight bare => rfl
  rw [charge, hweight]
  simp

end Factor

/-- What the operands of the rest of a chain weigh, each one in front of what is behind it. -/
def Joint.load : List Joint → Nat
  | [] => 0
  | j :: js => j.factor.charge js + load js

end Calculator

/-! ## Readings of chains -/

namespace Grammar

open Calculator

variable {g : Grammar Value} {input : String} {c : Context} {x : Factor} {p : Primary}
variable {js js' : List Joint} {rest ws : List Word} {n m depth least : Nat} {s s' : Session}
variable {t : Token} {left v w : Value}

/-- The operand is what it says. -/
structure Stands (g : Grammar Value) (c : Context) (x : Factor) : Prop where
  pos : 1 ≤ x.primary.weight
  confines : ∀ ws weight bare, x.primary = .group ws weight bare →
    g.Confines c ws fun v => weight ≤ v.weight ∧ (bare = true → v.IsBare)
  bare : x.signed = true → x.primary.bare = true ∨ ∃ text, x.primary = .number text

/-- The operators of the chain take second operands, and the operands are what they say. -/
def IsChained (g : Grammar Value) (c : Context) (js : List Joint) : Prop :=
  ∀ j ∈ js, (∀ t, t.word = j.word → g.IsInfix c j.operator t) ∧ g.Stands c j.factor

theorem Stands.pos_weight (h : g.Stands c x) : 1 ≤ x.weight := by
  have hpos := h.pos
  unfold Factor.weight
  split
  · exact Nat.le_refl 1
  · omega
  · exact hpos

/-- The operand without its sign. -/
theorem Stands.unsigned (h : g.Stands c ⟨true, p⟩) : g.Stands c ⟨false, p⟩ :=
  ⟨h.pos, h.confines, fun hsigned => absurd hsigned Bool.false_ne_true⟩

theorem IsChained.tail {j : Joint} (h : g.IsChained c (j :: js)) : g.IsChained c js :=
  fun k hk => h k (List.mem_cons_of_mem j hk)

theorem IsChained.suffix (h : g.IsChained c js) (hjs : js' <:+ js) : g.IsChained c js' :=
  fun j hj => h j (hjs.subset hj)

/-- What is left of a chain has less load. -/
theorem IsChained.load_lt (h : g.IsChained c js) (hjs : js' <:+ js) (hne : js' ≠ js) :
    Joint.load js' < Joint.load js := by
  obtain ⟨ks, rfl⟩ := hjs
  induction ks with
  | nil => exact absurd rfl hne
  | cons k ks ih =>
    have hk := (h k List.mem_cons_self).2.pos_weight
    have hload : Joint.load (k :: ks ++ js') = k.factor.charge (ks ++ js') +
        Joint.load (ks ++ js') := rfl
    have hcharge : k.factor.weight ≤ k.factor.charge (ks ++ js') := Nat.le_add_right _ _
    by_cases hks : js' = ks ++ js'
    · rw [← hks] at hload hcharge
      omega
    · have := ih h.tail hks
      omega

theorem IsChained.load_le (h : g.IsChained c js) (hjs : js' <:+ js) :
    Joint.load js' ≤ Joint.load js := by
  by_cases hne : js' = js
  · exact Nat.le_of_eq (congrArg _ hne)
  · exact Nat.le_of_lt (h.load_lt hjs hne)

theorem IsChained.headPower (h : g.IsChained c js) (hrest : c.headPower rest = 0) :
    c.headPower (Joint.words js ++ rest) = Joint.headPower js := by
  cases js with
  | nil => exact hrest
  | cons j js => exact ((h j List.mem_cons_self).1 ⟨j.word.1, j.word.2, ⟨0, 0⟩, 0⟩ rfl).power

/-- From a weight and a chain on a value is read, with the chain `js'` left to read: nothing is lost
of their weight. -/
structure Weighs (depth m : Nat) (rest : List Word) (js js' : List Joint) (v : Value)
    (s : Session) : Prop where
  suffix : js' <:+ js
  ahead : s.At (Joint.words js' ++ rest) depth
  weight : m + Joint.load js ≤ v.weight + Joint.load js'

theorem Weighs.trans {js₁ js₂ : List Joint} {s₁ s₂ : Session} (h : Weighs depth m rest js js₁ v s₁)
    (h' : Weighs depth v.weight rest js₁ js₂ w s₂) : Weighs depth m rest js js₂ w s₂ :=
  ⟨h'.suffix.trans h.suffix, h'.ahead, Nat.le_trans h.weight h'.weight⟩

/-- What an expression that begins with the operand leaves of a chain, and the kind of its value. -/
structure Expressed (x : Factor) (least : Nat) (js js' : List Joint) (v : Value) : Prop where
  headPower : Joint.headPower js' ≤ least
  stays : x.Spares js → Joint.headPower js ≤ least → js' = js
  bare : x.Spares js → least < Joint.headPower js → v.IsBare
  bare_of_primary : x.signed = false → x.primary.bare = true → v.IsBare

/-- What a continuation leaves of a chain, and the kind of its value. -/
structure Continued (left : Value) (least : Nat) (js js' : List Joint) (v : Value) : Prop where
  headPower : Joint.headPower js' ≤ least
  stays : Joint.headPower js ≤ least → js' = js
  bare : left.IsBare ∨ least < Joint.headPower js → v.IsBare

/-- What expressions and continuations read of chains within `n` steps. -/
structure WeighsWithin (g : Grammar Value) (c : Context) (n : Nat) : Prop where
  expression : ∀ {x js rest depth least s v s'}, g.Stands c x → g.IsChained c js →
    c.headPower rest = 0 → s.At (x.words ++ (Joint.words js ++ rest)) depth →
    g.expression c n least s = some (.ok v, s') →
    ∃ js', Weighs depth (x.charge js) rest js js' v s' ∧ Expressed x least js js' v
  resume : ∀ {js rest depth left least s v s'}, g.IsChained c js → c.headPower rest = 0 →
    s.At (Joint.words js ++ rest) depth → g.resume c n left least s = some (.ok v, s') →
    ∃ js', Weighs depth left.weight rest js js' v s' ∧ Continued left least js js' v

/-! ### Operands -/

/-- Words in parentheses are read up to the closing one. -/
theorem weighs_parentheses (hg : g.HasVocabulary) {weight : Nat} {bare : Bool}
    (hc : c = g.context input) (hstands : g.Stands c ⟨false, .group ws weight bare⟩)
    (hs : s.At (ws ++ (3, ")") :: (Joint.words js ++ rest)) depth)
    (h : g.act c n (parentheses c t) s = some (.ok v, s')) :
    s'.At (Joint.words js ++ rest) depth ∧ weight ≤ v.weight ∧ (bare = true → v.IsBare) := by
  obtain ⟨s₁, t', hinner, hclose⟩ := act_parentheses_iff.mp h
  obtain ⟨t₁, s₂, hp, -, -, ht⟩ := act_takeExpected_iff.mp hclose
  have hzero : c.headPower ((3, ")") :: (Joint.words js ++ rest)) = 0 := by
    rw [hc]
    exact hg.power_closing
  obtain ⟨hs₁, hv⟩ := hstands.confines _ _ _ rfl n depth _ s v s₁ hs hzero hinner
  obtain ⟨-, hs₂⟩ := hs₁.of_peek_cons hp
  obtain ⟨-, hs₃⟩ := hs₂.of_take ht
  exact ⟨hs₃, hv⟩

/-- An operand without a sign. -/
theorem weighs_unsigned (hg : g.HasVocabulary) (hc : c = g.context input)
    (hstands : g.Stands c ⟨false, p⟩) {s₀ : Session}
    (hs : s₀.At (p.words ++ (Joint.words js ++ rest)) depth) (ht : s₀.take c = (.ok t, s))
    (h : g.act c n (g.nudAction c t) s.countNud = some (.ok v, s')) :
    Weighs depth p.weight rest js js v s' ∧ (p.bare = true → v.IsBare) := by
  cases p with
  | number text =>
    obtain ⟨hword, hs₁⟩ := hs.of_take ht
    obtain ⟨hsymbol, -⟩ := Prod.mk.inj hword
    rw [hg.nudAction (Build.literalNud convertNumber) (by rw [hsymbol]; rfl)] at h
    obtain ⟨hv, rfl⟩ := act_number_iff.mp h
    refine ⟨⟨List.suffix_refl js, hs₁.countNud, ?_⟩, fun hbare => by cases hbare⟩
    rw [Value.weight_readNumber hv]
    exact Nat.le_refl _
  | name text =>
    obtain ⟨hword, hs₁⟩ := hs.of_take ht
    obtain ⟨hsymbol, -⟩ := Prod.mk.inj hword
    rw [hg.nudAction (Build.literalNud convertName) (by rw [hsymbol]; rfl)] at h
    obtain ⟨rfl, rfl⟩ := act_name_iff.mp h
    exact ⟨⟨List.suffix_refl js, hs₁.countNud, Nat.le_refl _⟩, fun _ => trivial⟩
  | group ws weight bare =>
    rw [Primary.words, List.cons_append, List.cons_append, List.append_assoc] at hs
    obtain ⟨hword, hs₁⟩ := hs.of_take ht
    obtain ⟨hsymbol, -⟩ := Prod.mk.inj hword
    rw [hg.nudAction parentheses (by rw [hsymbol]; rfl)] at h
    obtain ⟨hs', hweight, hbare⟩ := weighs_parentheses hg hc hstands hs₁.countNud h
    exact ⟨⟨List.suffix_refl js, hs', Nat.add_le_add_right hweight _⟩, hbare⟩

/-- The opposite of what is read weighs twice as much, and so one more than the chain that is read
if that has more than the operand. -/
theorem Weighs.negate (h : Weighs depth m rest js js' v s) (hjs : g.IsChained c js)
    (hbare : v.IsBare) (hw : v.negate.toOption = some w) (hhead : Joint.headPower js' ≤ signPower) :
    Weighs depth (2 * m + if signPower < Joint.headPower js then 1 else 0) rest js js' w s := by
  refine ⟨h.suffix, h.ahead, ?_⟩
  have hweight := h.weight
  rw [Value.weight_negate hbare hw]
  split
  · rename_i hpower
    have hlt : Joint.load js' < Joint.load js := by
      refine hjs.load_lt h.suffix fun heq => ?_
      rw [heq] at hhead
      omega
    omega
  · have hle := hjs.load_le h.suffix
    omega

/-- A sign in front of a number. -/
theorem WeighsWithin.signed_number (hn : g.WeighsWithin c n) (hg : g.HasVocabulary)
    (hc : c = g.context input) (hjs : g.IsChained c js) (hrest : c.headPower rest = 0)
    {text : String} (hs : s.At ((1, text) :: (Joint.words js ++ rest)) depth)
    (h : g.act c n (minus c t) s = some (.ok v, s')) :
    ∃ js', Weighs depth (Factor.charge ⟨true, .number text⟩ js) rest js js' v s' ∧
      (Factor.Spares ⟨true, .number text⟩ js → js' = js) := by
  subst hc
  obtain ⟨next, s₁, hp, h⟩ := (act_minus_iff hg.index?_number).mp h
  obtain ⟨hnext, hs₁⟩ := hs.of_peek_cons hp
  obtain ⟨-, number, s₂, following, s₃, ht, hp', h⟩ | ⟨hother, -⟩ := h
  · obtain ⟨-, hs₂⟩ := hs₁.of_take ht
    obtain ⟨hs₃, hpower⟩ := hs₂.of_peek hp'
    rw [hjs.headPower hrest] at hpower
    rw [hpower] at h
    obtain ⟨hle, hv, rfl⟩ | ⟨hlt, u, w, hu, hresume, hv⟩ := h
    · refine ⟨js, ⟨List.suffix_refl js, hs₃, ?_⟩, fun _ => rfl⟩
      rw [Factor.charge_of_spares fun _ => hle, Value.weight_readNumber hv]
      exact Nat.le_refl _
    · obtain ⟨js', hweighs, hcontinued⟩ := hn.resume hjs hrest hs₃ hresume
      have hopposite := hweighs.negate hjs (hcontinued.bare (.inr hlt)) hv hcontinued.headPower
      rw [Value.weight_readNumber hu, if_pos hlt] at hopposite
      refine ⟨js', ⟨hopposite.suffix, hopposite.ahead, ?_⟩, fun hspares => ?_⟩
      · have hweight := hopposite.weight
        have hcharge : Factor.charge ⟨true, .number text⟩ js = 2 := by
          simp [Factor.charge, Factor.weight, hlt]
        omega
      · exact absurd (hspares rfl) (Nat.not_le.mpr hlt)
  · exact absurd (Prod.mk.inj hnext).1 hother

/-- A sign in front of anything else. -/
theorem WeighsWithin.signed_other (hn : g.WeighsWithin c n) (hg : g.HasVocabulary)
    (hc : c = g.context input) (hstands : g.Stands c ⟨true, p⟩)
    (hnumber : ∀ text, p ≠ .number text) (hjs : g.IsChained c js) (hrest : c.headPower rest = 0)
    (hs : s.At (p.words ++ (Joint.words js ++ rest)) depth)
    (h : g.act c n (minus c t) s = some (.ok v, s')) :
    ∃ js', Weighs depth (Factor.charge ⟨true, p⟩ js) rest js js' v s' ∧
      (Factor.Spares ⟨true, p⟩ js → js' = js) := by
  subst hc
  obtain ⟨w, ws, hwords, hw⟩ : ∃ w ws, p.words = w :: ws ∧ w.1 ≠ 1 := by
    cases p with
    | number text => exact absurd rfl (hnumber text)
    | name text => exact ⟨_, _, rfl, Nat.succ_ne_self 1⟩
    | group ws weight bare => exact ⟨(4, "("), _, rfl, by decide⟩
  have hbare : p.bare = true := by
    obtain hbare | ⟨text, htext⟩ := hstands.bare rfl
    · exact hbare
    · exact absurd htext (hnumber text)
  obtain ⟨next, s₁, hp, h⟩ := (act_minus_iff hg.index?_number).mp h
  have hs₁ : s₁.At (p.words ++ (Joint.words js ++ rest)) depth := (hs.of_peek hp).1
  rw [hwords] at hs
  obtain ⟨hnext, -⟩ := hs.of_peek_cons hp
  obtain ⟨hone, -⟩ | ⟨-, u, hexpression, hv⟩ := h
  · rw [← hnext] at hw
    exact absurd hone hw
  · obtain ⟨js', hweighs, hexpressed⟩ := hn.expression hstands.unsigned hjs hrest hs₁ hexpression
    rw [Factor.charge_unsigned] at hweighs
    refine ⟨js', ?_, fun hsign => hexpressed.stays Factor.spares_unsigned (hsign rfl)⟩
    rw [Factor.charge_signed hnumber]
    exact hweighs.negate hjs (hexpressed.bare_of_primary rfl hbare) hv hexpressed.headPower

/-- **What is read of one operand** weighs what the operand does, with all that its sign takes. -/
theorem WeighsWithin.nud (hn : g.WeighsWithin c n) (hg : g.HasVocabulary)
    (hc : c = g.context input) (hstands : g.Stands c x) (hjs : g.IsChained c js)
    (hrest : c.headPower rest = 0) {s₀ : Session}
    (hs : s₀.At (x.words ++ (Joint.words js ++ rest)) depth) (ht : s₀.take c = (.ok t, s))
    (h : g.act c n (g.nudAction c t) s.countNud = some (.ok v, s')) :
    ∃ js', Weighs depth (x.charge js) rest js js' v s' ∧ (x.Spares js → js' = js) ∧
      (x.signed = false → x.primary.bare = true → v.IsBare) := by
  obtain ⟨signed, p⟩ := x
  cases signed with
  | false =>
    obtain ⟨hweighs, hbare⟩ := weighs_unsigned hg hc hstands hs ht h
    refine ⟨js, ?_, fun _ => rfl, fun _ => hbare⟩
    rw [Factor.charge_unsigned]
    exact hweighs
  | true =>
    obtain ⟨hword, hs₁⟩ := hs.of_take ht
    rw [hg.nudAction_minus (Prod.mk.inj hword).1] at h
    have hsigned : ∃ js', Weighs depth (Factor.charge ⟨true, p⟩ js) rest js js' v s' ∧
        (Factor.Spares ⟨true, p⟩ js → js' = js) := by
      by_cases hnumber : ∃ text, p = .number text
      · obtain ⟨text, rfl⟩ := hnumber
        exact hn.signed_number hg hc hjs hrest hs₁.countNud h
      · exact hn.signed_other hg hc hstands (fun text htext => hnumber ⟨text, htext⟩) hjs hrest
          hs₁.countNud h
    obtain ⟨js', hweighs, hspares⟩ := hsigned
    exact ⟨js', hweighs, hspares, fun hunsigned => absurd hunsigned.symm Bool.false_ne_true⟩

/-! ### Chains -/

/-- An expression reads one operand, and what continues that. -/
theorem WeighsWithin.expression_succ (hn : g.WeighsWithin c n) (hg : g.HasVocabulary)
    (hc : c = g.context input) (hstands : g.Stands c x) (hjs : g.IsChained c js)
    (hrest : c.headPower rest = 0) (hs : s.At (x.words ++ (Joint.words js ++ rest)) depth)
    (h : g.expression c (n + 1) least s = some (.ok v, s')) :
    ∃ js', Weighs depth (x.charge js) rest js js' v s' ∧ Expressed x least js js' v := by
  obtain ⟨-, s₁, hbegin, rfl⟩ := expression_eq_ok_iff.mp h
  obtain ⟨t, s₂, left, s₃, ht, hnud, hresume⟩ := begin_eq_ok_iff.mp hbegin
  obtain ⟨js₁, hleft, hspares, hbare⟩ := hn.nud hg hc hstands hjs hrest hs.enter ht hnud
  obtain ⟨js', hweighs, hcontinued⟩ :=
    hn.resume (hjs.suffix hleft.suffix) hrest hleft.ahead hresume
  have hall := hleft.trans hweighs
  refine ⟨js', ⟨hall.suffix, hall.ahead.leave, hall.weight⟩, hcontinued.headPower,
    fun hx hle => ?_, fun hx hlt => ?_,
    fun hunsigned hx => hcontinued.bare (.inl (hbare hunsigned hx))⟩
  · rw [hspares hx] at hcontinued
    exact hcontinued.stays hle
  · rw [hspares hx] at hcontinued
    exact hcontinued.bare (.inr hlt)

/-- A continuation reads one operator with its second operand, and what continues both. -/
theorem WeighsWithin.resume_succ (hn : g.WeighsWithin c n) (hjs : g.IsChained c js)
    (hrest : c.headPower rest = 0) (hs : s.At (Joint.words js ++ rest) depth)
    (h : g.resume c (n + 1) left least s = some (.ok v, s')) :
    ∃ js', Weighs depth left.weight rest js js' v s' ∧ Continued left least js js' v := by
  obtain ⟨t, s₁, hp, h⟩ := resume_eq_ok_iff.mp h
  obtain ⟨hs₁, hpower⟩ := hs.of_peek hp
  rw [hjs.headPower hrest] at hpower
  rw [hpower] at h
  obtain ⟨hle, rfl, rfl⟩ | ⟨hlt, t', s₂, u, s₃, ht, hled, hresume⟩ := h
  · exact ⟨js, ⟨List.suffix_refl js, hs₁, Nat.le_refl _⟩, hle, fun _ => rfl,
      fun hor => hor.resolve_right (Nat.not_lt.mpr hle)⟩
  · cases js with
    | nil => exact absurd hlt (Nat.not_lt_zero least)
    | cons j js =>
      obtain ⟨hbetween, hstands⟩ := hjs j List.mem_cons_self
      rw [Joint.words, List.cons_append, List.cons_append, List.append_assoc] at hs₁
      obtain ⟨hword, hs₂⟩ := hs₁.of_take ht
      rw [(hbetween t' hword).led, Build.betweenLed, act_bind, Outcome.andThen_eq_ok_iff] at hled
      obtain ⟨right, s₄, hright, hu⟩ := hled
      rw [act_operand] at hright
      cases hu
      obtain ⟨js₁, hoperand, -⟩ := hn.expression hstands hjs.tail hrest hs₂.countLed hright
      obtain ⟨js', hweighs, hcontinued⟩ :=
        hn.resume (hjs.tail.suffix hoperand.suffix) hrest hoperand.ahead hresume
      have hsuffix := hweighs.suffix.trans hoperand.suffix
      refine ⟨js', ⟨hsuffix.trans (List.suffix_cons j js), hweighs.ahead, ?_⟩,
        hcontinued.headPower, fun hle => absurd hle (Nat.not_le.mpr hlt),
        fun _ => hcontinued.bare (.inl ?_)⟩
      · have hweight := hweighs.weight
        have hright := hoperand.weight
        rw [Value.weight_combine] at hweight
        rw [Joint.load]
        omega
      · exact Value.isBare_combine _ _ _

/-- **Whatever is read of a chain** weighs what the chain does, up to where it is read. -/
theorem weighsWithin (hg : g.HasVocabulary) (hc : c = g.context input) (n : Nat) :
    g.WeighsWithin c n := by
  induction n with
  | zero => exact ⟨fun _ _ _ _ h => (by cases h), fun _ _ _ h => (by cases h)⟩
  | succ n ih => exact ⟨ih.expression_succ hg hc, ih.resume_succ⟩

/-- **A chain is read up to its end,** and its value weighs at least what the chain does. -/
theorem confines_chain (hg : g.HasVocabulary) (hc : c = g.context input) (hstands : g.Stands c x)
    (hjs : g.IsChained c js) : g.Confines c (x.words ++ Joint.words js) fun v =>
      x.charge js + Joint.load js ≤ v.weight ∧ (x.Spares js → js ≠ [] → v.IsBare) := by
  intro n depth rest s v s' hs hrest h
  rw [List.append_assoc] at hs
  obtain ⟨js', hweighs, hexpressed⟩ := (weighsWithin hg hc n).expression hstands hjs hrest hs h
  have hpos : ∀ ks, ks ≠ [] → g.IsChained c ks → 0 < Joint.headPower ks := by
    intro ks hne hks
    obtain ⟨k, ks, rfl⟩ := List.exists_cons_of_ne_nil hne
    exact ((hks k List.mem_cons_self).1 ⟨k.word.1, k.word.2, ⟨0, 0⟩, 0⟩ rfl).positive
  obtain rfl : js' = [] := Decidable.byContradiction fun hne =>
    absurd hexpressed.headPower (Nat.not_le.mpr (hpos js' hne (hjs.suffix hweighs.suffix)))
  exact ⟨hweighs.ahead, hweighs.weight,
    fun hspares hne => hexpressed.bare hspares (hpos js hne hjs)⟩

end Grammar

end Precedence
