import Precedence.Proofs.Calculator.Trees
import Precedence.Proofs.Calculator.Writing

/-!
# Texts of values

The text of a tree is that of a phrase: its parentheses stand where the grammar needs them. The kind
of the phrase is `Value.level`, and `Value.textNesting` says how deeply it nests expressions. It has
a value exactly if the real numbers of the tree are readable, since a real number may be written as
an integer that has more than 64 bits; without real numbers the value is the tree itself.

* `bottom_left_lt`, `bottom_right_lt`: the parentheses of operands are where the grammar needs them.
* `rereads_render`: the text of a tree is that of a phrase of which all this is true.
-/

namespace Precedence

open Precedence.Number Calculator

namespace Value

/-! ## Real numbers in a text -/

/-- Whether the text of a real number is read again: if no letter and no point is in it, it has to
be that of an integer of 64 bits. -/
def isReadableReal (x : Float) : Bool :=
  let text := writeReal .plain x
  !text.toList.all (fun c => c == '-' || c.isDigit) || (readInteger text).toOption.isSome

mutual

/-- Whether all real numbers in the value are of a kind. -/
def allReals (p : Float → Bool) : Value → Bool
  | real x => p x
  | negation inner => allReals p inner
  | node _ operands => allRealsIn p operands
  | integer _ | rational _ | var _ => true

/-- Whether all real numbers in the values are of a kind. -/
def allRealsIn (p : Float → Bool) : List Value → Bool
  | [] => true
  | v :: rest => allReals p v && allRealsIn p rest

end

/-- Whether the texts of all real numbers in the value are read again. -/
def isReadable (v : Value) : Bool :=
  v.allReals isReadableReal

/-! ## The nesting of a text -/

/-- The nesting of a text, in parentheses if so demanded. -/
def wrappedNesting (parens : Bool) (nesting : Nat) : Nat :=
  if parens then nesting + 1 else nesting

mutual

/-- How deeply the text of the value nests expressions below the outermost one: the operand of a
minus sign, what stands in parentheses and what stands behind an operator is an expression of its
own. A number and its minus sign are one literal. -/
def textNesting : Value → Nat
  | real x => if writeReal .plain x = "-inf" then 1 else 0
  | negation inner => wrappedNesting inner.isNode (textNesting inner) + 1
  | node op operands => operandsTextNesting op true operands
  | integer _ | rational _ | var _ => 0

/-- The nesting of the texts of operands; `first` says that no operand came before. -/
def operandsTextNesting (op : Operator) (first : Bool) : List Value → Nat
  | [] => 0
  | v :: rest =>
    max (wrappedNesting (v.needsParens op first) (textNesting v) + if first then 0 else 1)
      (operandsTextNesting op false rest)

end

end Value

namespace Calculator

/-! ## Texts of phrases that stand for values -/

/-- The text is one of the phrase. The phrase nests expressions that deep, and it has the value as
far as the real numbers of the value can be read. -/
structure Phrase.Rereads {N : Level} (e : Phrase N) (v : Value) (text : List Char) (nesting : Nat) :
    Prop where
  written : e.IsWritten text
  height : e.tally.height = nesting
  isSome_value : (e.value kept).isSome = v.isReadable
  isBare : v.IsBare → ∀ w, e.value kept = some w → w.IsBare
  value : v.hasReal = false → e.value kept = some v

end Calculator

namespace Value

variable {op : Operation} {v w : Value} {vs ws : List Value} {text other : List Char}

mutual

/-- A value has a real number inside of it unless all of them are of the kind that none is of. -/
theorem hasReal_eq : ∀ v : Value, v.hasReal = !v.allReals fun _ => false
  | real _ => rfl
  | negation inner => by rw [hasReal, allReals, hasReal_eq inner]
  | node _ operands => by rw [hasReal, allReals, anyHasReal_eq operands]
  | integer _ | rational _ | var _ => rfl

theorem anyHasReal_eq : ∀ vs : List Value, anyHasReal vs = !allRealsIn (fun _ => false) vs
  | [] => rfl
  | v :: rest => by rw [anyHasReal, allRealsIn, hasReal_eq v, anyHasReal_eq rest, Bool.not_and]

end

variable {p : Float → Bool}

theorem allRealsIn_append (vs ws : List Value) :
    allRealsIn p (vs ++ ws) = (allRealsIn p vs && allRealsIn p ws) := by
  induction vs with
  | nil => rfl
  | cons v vs ih => rw [List.cons_append, allRealsIn, allRealsIn, ih, Bool.and_assoc]

theorem allRealsIn_contribution (tag : Operator) (v : Value) :
    allRealsIn p (Term.contribution tag v) = v.allReals p := by
  rcases contribution_cases tag v with ⟨inner, vs, rfl, -, hvs⟩ | hself
  · rw [hvs]
    rfl
  · simp [hself, allRealsIn]

/-- The real numbers of a node are those of its operands. -/
theorem allReals_combine (tag : Operator) (v w : Value) :
    (Term.combine tag v w).allReals p = (v.allReals p && w.allReals p) := by
  by_cases htag : tag.associative = true
  · obtain ⟨tag', -, -, hnode⟩ := combine_eq_node htag v w
    rw [hnode, allReals, allRealsIn_append, allRealsIn_contribution, allRealsIn_contribution]
  · rw [Bool.not_eq_true] at htag
    simp [Term.combine_of_not_associative htag, allReals, allRealsIn]

end Value

namespace Calculator.Phrase.Rereads

open Value

variable {M N : Level} {op : Operation} {v w : Value} {text other : List Char} {j k : Nat}

/-- What a phrase of a tighter kind rereads one of a looser kind does. -/
theorem widen {e : Phrase M} (h : e.Rereads v text k) (hN : N.bottom < M.floor) :
    ∃ e' : Phrase N, e'.Rereads v text k := by
  obtain ⟨e', hterminals, htally, hvalue⟩ := e.exists_widen hN
  have hkept := hvalue kept
  exact ⟨e', h.written.of_terminals_eq hterminals, by rw [htally, h.height],
    by rw [hkept, h.isSome_value], fun hv => by rw [hkept]; exact h.isBare hv,
    fun hv => by rw [hkept, h.value hv]⟩

/-- Parentheses nest once more. -/
theorem group {e : Phrase .sum} (h : e.Rereads v text k) :
    (Phrase.group e).Rereads v (parenthesized text) (k + 1) where
  written := h.written.group
  height := by
    simp [Phrase.tally, Tally.and, Tally.operand, Tally.nested, h.height]
  isSome_value := h.isSome_value
  isBare := h.isBare
  value := h.value

/-- A minus sign in front of what is no number. -/
theorem negated {a : Phrase .atom} (h : a.Rereads v text k) (hv : v.IsBare)
    (hliteral : a.literal? = none) (hhead : a.head? = none) :
    (Phrase.negated (.plain a)).Rereads (negation v) ('-' :: text) (k + 1) := by
  have hvalue : (Phrase.negated (.plain a)).value kept =
      (do (← a.value kept).negate.toOption) := by
    simp only [Phrase.value, Phrase.literal?, hliteral]
  have hsome : ∀ w, a.value kept = some w →
      (Phrase.negated (.plain a)).value kept = some (negation w) := fun w hw => by
    rw [hvalue, hw, Option.bind_eq_bind, Option.bind_some, negate_of_isBare (h.isBare hv w hw)]
    rfl
  refine ⟨h.written.of_terminals_eq rfl |>.negated, ?_, ?_, fun hbare => hbare.elim, ?_⟩
  · rw [Phrase.height_negated, Phrase.head?, if_neg (by simp [hhead]), Phrase.tally, h.height]
  · rw [isReadable, allReals, ← isReadable, ← h.isSome_value]
    cases hw : a.value kept with
    | none => rw [hvalue, hw]; rfl
    | some w => rw [hsome w hw]; rfl
  · exact fun hreal => hsome v (h.value hreal)

/-- An operation nests its right operand. -/
theorem applied {a : Phrase (.left op)} {b : Phrase (.right op)} (ha : a.Rereads v text j)
    (hb : b.Rereads w other k) : (Phrase.applied op a b).Rereads (Term.combine op.operator v w)
      (text ++ (' ' :: op.sign.toList ++ [' ']) ++ other) (max j (k + 1)) := by
  refine ⟨ha.written.applied op hb.written, ?_, ?_, fun _ u hu => ?_, fun hreal => ?_⟩
  · rw [Phrase.height_applied, ha.height, hb.height]
  · rw [isReadable, allReals_combine, ← isReadable, ← isReadable, ← ha.isSome_value,
      ← hb.isSome_value, Phrase.value_applied]
    cases a.value kept <;> cases b.value kept <;> rfl
  · obtain ⟨v', w', -, -, ⟨⟩⟩ := value_applied_eq_some_iff.mp hu
    exact isBare_combine _ _ _
  · rw [hasReal_eq, allReals_combine, Bool.not_and, Bool.or_eq_false_iff, ← hasReal_eq,
      ← hasReal_eq] at hreal
    rw [Phrase.value_applied, ha.value hreal.1, hb.value hreal.2]
    rfl

end Calculator.Phrase.Rereads

/-! ## Texts of leaves -/

namespace Calculator

open Value

theorem rereads_name {name : String} (h : IsName name) :
    (Phrase.name name).Rereads (.var name) name.toList 0 where
  written := Phrase.isWritten_name h
  height := rfl
  isSome_value := rfl
  isBare _ w hw := by cases hw; trivial
  value _ := rfl

theorem rereads_nat {k : Nat} (h : Fits k) :
    (Phrase.number k.repr).Rereads (.integer k) k.repr.toList 0 := by
  have hvalue : (Phrase.number k.repr).value kept = some (.integer k) := by
    have hread := readNumber_of_isDigits (isDigits_repr k) (by rw [digitsValue_repr]; exact h.2)
    rw [Phrase.value, hread, digitsValue_repr]
    rfl
  exact ⟨Phrase.isWritten_number (.inl (isDigits_repr k)), rfl, by rw [hvalue]; rfl,
    fun hbare => hbare.elim, fun _ => hvalue⟩

theorem rereads_neg {k : Nat} (h : Fits (-k)) :
    (Phrase.negated (.plain (.number k.repr))).Rereads (.integer (-k)) ('-' :: k.repr.toList)
      0 := by
  have hvalue : (Phrase.negated (.plain (.number k.repr))).value kept = some (.integer (-k)) := by
    have hread := readNumber_neg_of_isDigits (isDigits_repr k)
      (by rw [digitsValue_repr]; exact h.1)
    rw [digitsValue_repr] at hread
    simp only [Phrase.value, Phrase.literal?, hread]
    rfl
  have hwritten := Phrase.isWritten_number (.inl (isDigits_repr k))
  exact ⟨Phrase.IsWritten.negated (u := .plain _) (hwritten.of_terminals_eq rfl), rfl,
    by rw [hvalue]; rfl, fun hbare => hbare.elim, fun _ => hvalue⟩

end Calculator

namespace Value

/-- The kind of phrase that the text of a value is. -/
def level : Value → Level
  | integer n => if n < 0 then .signed else .atom
  | real x => if signBit x then .signed else .atom
  | negation _ => .signed
  | node op _ => if op.power = 50 then .sum else if op.power = 60 then .product else .signed
  | rational _ | var _ => .atom

theorem level_node (op : Operation) (vs : List Value) : (node op.operator vs).level = .of op := by
  cases op <;> rfl

variable {op : Operation} {v w : Value} {vs us : List Value} {text : List Char} {k : Nat}

theorem rereads_integer {n : Int} (h : Fits n) : ∃ e : Phrase (integer n).level,
    e.Rereads (integer n) (integer n).render (integer n).textNesting := by
  rcases Int.lt_or_le n 0 with hn | hn
  · obtain ⟨k, rfl⟩ := Int.eq_negSucc_of_lt_zero hn
    have hrender : (integer (.negSucc k)).render = '-' :: (k + 1).repr.toList := by
      rw [render, show toString (Int.negSucc k) = "-" ++ (k + 1).repr from rfl,
        String.toList_append]
      rfl
    rw [level, if_pos hn, hrender]
    exact ⟨_, rereads_neg (k := k + 1) h⟩
  · obtain ⟨k, rfl⟩ := Int.eq_ofNat_of_zero_le hn
    rw [level, if_neg (Int.not_lt.mpr hn)]
    exact ⟨_, rereads_nat h⟩

/-- A numeral that is the text of a real number is read again if that is readable. -/
theorem isSome_readNumber {x : Float} {sign word : String} (hsign : sign = "" ∨ sign = "-")
    (hword : IsNumeral word) (h : writeReal .plain x = sign ++ word) :
    (readNumber (sign ++ word)).toOption.isSome = isReadableReal x := by
  rcases hword with hdigits | hdecimal
  · have hall : (sign ++ word).toList.all (fun c => c == '-' || c.isDigit) = true := by
      have hword : word.toList.all (fun c => c == '-' || c.isDigit) = true :=
        List.all_eq_true.mpr fun c hc => by simp [hdigits.digits c hc]
      rw [String.toList_append, List.all_append, hword]
      rcases hsign with rfl | rfl <;> rfl
    have hliteral : isRealLiteral (sign ++ word).toList = false := by
      have hword := isRealLiteral_of_isDigits hdigits
      rw [isRealLiteral] at hword ⊢
      rw [String.toList_append, List.any_append, hword]
      rcases hsign with rfl | rfl <;> rfl
    rw [isReadableReal, h]
    simp only [hall, Bool.not_true, Bool.false_or, readNumber, hliteral, Bool.false_eq_true,
      if_false]
    cases readInteger (sign ++ word) <;> rfl
  · have hnot : (sign ++ word).toList.all (fun c => c == '-' || c.isDigit) = false := by
      rw [List.all_eq_false]
      exact ⟨'.', by simp [hdecimal.point_mem], by decide⟩
    rw [isReadableReal, h]
    simp only [hnot, Bool.not_false, Bool.true_or]
    rcases hsign with rfl | rfl
    · obtain ⟨y, hy⟩ := exists_readNumber hdecimal
      rw [String.empty_append, hy]
      rfl
    · obtain ⟨y, hy⟩ := exists_readNumber_neg hdecimal
      rw [hy]
      rfl

/-- A name that a real number is written as. -/
theorem rereads_real_name {x : Float} (hname : IsName (writeReal .plain x)) :
    (Phrase.name (writeReal .plain x)).Rereads (real x) (real x).render 0 := by
  have hreadable : isReadableReal x = true := by
    obtain ⟨c, cs, hl, hc, -⟩ := hname
    obtain ⟨hlow, -⟩ := toNat_of_nameStart hc
    have hdash : c ≠ '-' := by rintro rfl; exact absurd hlow (by decide)
    have hdigit : c.isDigit = false := by
      rw [← Bool.not_eq_true]
      intro hd
      have hhigh := (toNat_of_isDigit hd).2
      omega
    simp [isReadableReal, hl, hdash, hdigit]
  exact ⟨Phrase.isWritten_name hname, rfl, hreadable.symm, fun hbare => hbare.elim,
    fun hreal => absurd hreal (by simp [hasReal])⟩

/-- The numeral that a real number is written as. -/
theorem rereads_real_number {x : Float} (hword : IsNumeral (writeReal .plain x)) :
    (Phrase.number (writeReal .plain x)).Rereads (real x) (real x).render 0 := by
  have hsome := isSome_readNumber (x := x) (.inl rfl) hword String.empty_append.symm
  rw [String.empty_append] at hsome
  exact ⟨Phrase.isWritten_number hword, rfl, hsome, fun hbare => hbare.elim,
    fun hreal => absurd hreal (by simp [hasReal])⟩

/-- A minus sign and what a real number is written as behind it. -/
theorem rereads_real_negated {x : Float} {word : String} (hword : IsNumeral word ∨ word = "inf")
    (h : writeReal .plain x = "-" ++ word) : ∃ u : Phrase .signed,
      u.Rereads (real x) (real x).render (real x).textNesting := by
  have hrender : (real x).render = '-' :: word.toList := by
    rw [render, h, String.toList_append]
    rfl
  have hreal : (real x).hasReal = true := rfl
  rcases hword with hnumeral | rfl
  · have hnesting : (real x).textNesting = 0 := by
      rw [textNesting, if_neg]
      intro hinf
      have hmem : 'i' ∈ ("-" ++ word).toList := by
        rw [← h, hinf]
        decide
      rw [String.toList_append] at hmem
      rcases List.mem_append.mp hmem with hmem | hmem
      · exact absurd hmem (by decide)
      · exact hnumeral.not_mem_letter hmem
    have hwritten : (Phrase.plain (.number word)).IsWritten word.toList :=
      (Phrase.isWritten_number hnumeral).of_terminals_eq rfl
    refine ⟨.negated (.plain (.number word)), ?_, ?_, ?_, fun hbare => hbare.elim,
      fun hfalse => absurd (hreal.symm.trans hfalse) (by decide)⟩
    · rw [hrender]
      exact hwritten.negated
    · rw [hnesting]
      rfl
    · exact isSome_readNumber (.inr rfl) hnumeral h
  · have hnesting : (real x).textNesting = 1 := by
      rw [textNesting, h]
      rfl
    have hreadable : (real x).isReadable = true := by
      rw [isReadable, allReals, isReadableReal, h]
      decide
    have hinf : IsName "inf" := by decide +kernel
    have hwritten : (Phrase.plain (.name "inf")).IsWritten "inf".toList :=
      (Phrase.isWritten_name hinf).of_terminals_eq rfl
    refine ⟨.negated (.plain (.name "inf")), ?_, ?_, ?_, fun hbare => hbare.elim,
      fun hfalse => absurd (hreal.symm.trans hfalse) (by decide)⟩
    · rw [hrender]
      exact hwritten.negated
    · rw [hnesting]
      rfl
    · rw [hreadable]
      rfl

/-- The text of a real number is that of a numeral or a name, with its sign. -/
theorem rereads_real (x : Float) : ∃ e : Phrase (real x).level,
    e.Rereads (real x) (real x).render (real x).textNesting := by
  have hatom : ∀ e : Phrase .atom, e.Rereads (real x) (real x).render 0 →
      (real x).textNesting = 0 → ∃ e : Phrase (real x).level,
        e.Rereads (real x) (real x).render (real x).textNesting := by
    intro e he hnesting
    rw [hnesting]
    refine he.widen ?_
    rw [level]
    split <;> decide
  rcases writeReal_plain x with hnan | ⟨word, hword, h⟩
  · refine hatom (.name (writeReal .plain x)) (rereads_real_name ?_) ?_
    · rw [hnan]
      decide +kernel
    · rw [textNesting, hnan]
      rfl
  · by_cases hsign : signBit x = true
    · rw [level, if_pos hsign]
      rw [if_pos hsign] at h
      exact rereads_real_negated hword h
    · rw [if_neg hsign, String.empty_append] at h
      subst h
      rcases hword with hnumeral | hinf
      · refine hatom (.number (writeReal .plain x)) (rereads_real_number hnumeral) ?_
        rw [textNesting, if_neg]
        intro hinf
        exact hnumeral.not_mem_letter (by rw [hinf]; decide)
      · refine hatom (.name (writeReal .plain x)) (rereads_real_name ?_) ?_
        · rw [hinf]
          decide +kernel
        · rw [textNesting, hinf]
          rfl

/-! ## Operands -/

/-- A number, a name or a negation that stands without parentheses as a first operand. -/
theorem bottom_left_lt_of_leaf (hnode : v.isNode = false) (hrational : ∀ q, v ≠ rational q)
    (hv : v.needsParens op.operator true = false) :
    (Level.left op).bottom < v.level.floor := by
  have hsigned : decide (signPower < op.operator.power) = false →
      (Level.left op).bottom < Level.signed.floor := by
    cases op <;> decide
  have hatom : (Level.left op).bottom < Level.atom.floor := by
    cases op <;> decide
  cases v with
  | integer n =>
    by_cases hn : n < 0
    · rw [level, if_pos hn]
      refine hsigned ?_
      simpa [needsParens, prefixPower?, hn] using hv
    · rw [level, if_neg hn]
      exact hatom
  | real x =>
    by_cases hx : signBit x = true
    · rw [level, if_pos hx]
      refine hsigned ?_
      simpa [needsParens, prefixPower?, hx] using hv
    · rw [level, if_neg hx]
      exact hatom
  | rational q => exact absurd rfl (hrational q)
  | negation _ =>
    refine hsigned ?_
    simpa [needsParens, prefixPower?] using hv
  | var _ => exact hatom
  | node _ _ => cases hnode

/-- A number, a name or a negation as a later operand. -/
theorem bottom_right_lt_of_leaf (hnode : v.isNode = false) (op : Operation) :
    (Level.right op).bottom < v.level.floor := by
  have hsigned : (Level.right op).bottom < Level.signed.floor := by
    cases op <;> decide
  have hatom : (Level.right op).bottom < Level.atom.floor := by
    cases op <;> decide
  cases v with
  | integer n =>
    rw [level]
    split
    · exact hsigned
    · exact hatom
  | real x =>
    rw [level]
    split
    · exact hsigned
    · exact hatom
  | rational _ | var _ => exact hatom
  | negation _ => exact hsigned
  | node _ _ => cases hnode

/-- A node that stands without parentheses as a first operand. -/
theorem bottom_left_lt_of_node {op' : Operation}
    (h : op.operator.needsParens op'.operator = false) :
    (Level.left op).bottom < (Level.of op').floor := by
  revert h
  cases op <;> cases op' <;> decide

/-- A node that stands without parentheses as a later operand, and would not have been flattened. -/
theorem bottom_right_lt_of_node {op' : Operation}
    (h : op.operator.needsParens op'.operator = false)
    (hflat : ¬ (op' = op ∧ op.operator.associative = true)) :
    (Level.right op).bottom < (Level.of op').floor := by
  revert h hflat
  cases op <;> cases op' <;> decide

/-- What stands without parentheses as a first operand is of the kind that the operation takes. -/
theorem IsTree.bottom_left_lt (h : IsTree v) (hv : v.needsParens op.operator true = false) :
    (Level.left op).bottom < v.level.floor := by
  cases h with
  | integer _ | real _ | var _ | negation _ _ =>
    exact bottom_left_lt_of_leaf rfl (fun _ h => by cases h) hv
  | pair _ _ _ | chain _ _ _ _ =>
    rw [level_node]
    exact bottom_left_lt_of_node hv

/-- What stands without parentheses as a later operand is of the kind that the operation takes,
unless it is a node that would have been flattened. -/
theorem IsTree.bottom_right_lt (h : IsTree v) (hv : v.needsParens op.operator false = false)
    (hflat : op.operator.associative = true → Term.contribution op.operator v = [v]) :
    (Level.right op).bottom < v.level.floor := by
  cases h with
  | integer _ | real _ | var _ | negation _ _ => exact bottom_right_lt_of_leaf rfl op
  | pair hop _ _ =>
    rw [level_node]
    refine bottom_right_lt_of_node hv ?_
    rintro ⟨rfl, hop'⟩
    exact Bool.false_ne_true (hop.symm.trans hop')
  | chain _ hlength _ _ =>
    rw [level_node]
    refine bottom_right_lt_of_node hv ?_
    rintro ⟨rfl, hop'⟩
    exact contribution_ne_singleton hlength (hflat hop')

/-- An operand, in parentheses if need be, is of the kind that the operation takes. -/
theorem rereads_wrap {M : Level} {parens : Bool} (h : ∃ e : Phrase v.level, e.Rereads v text k)
    (hM : parens = false → M.bottom < v.level.floor) :
    ∃ e : Phrase M, e.Rereads v (wrap parens text) (wrappedNesting parens k) := by
  obtain ⟨e, he⟩ := h
  cases parens with
  | false => exact he.widen (hM rfl)
  | true =>
    obtain ⟨e', he'⟩ := he.widen (N := .sum) (by cases v.level <;> decide)
    exact he'.group.widen (by cases M <;> decide)

/-- The first operand of a node, as it stands in the text. -/
theorem IsTree.rereads_left (hv : IsTree v) (op : Operation)
    (h : ∃ e : Phrase v.level, e.Rereads v v.render k) : ∃ e : Phrase (.left op), e.Rereads v
      (wrap (v.needsParens op.operator true) v.render)
      (wrappedNesting (v.needsParens op.operator true) k) :=
  rereads_wrap h hv.bottom_left_lt

/-- A later operand of a node, as it stands in the text. -/
theorem IsTree.rereads_right (hv : IsTree v) (op : Operation)
    (hflat : op.operator.associative = true → Term.contribution op.operator v = [v])
    (h : ∃ e : Phrase v.level, e.Rereads v v.render k) : ∃ e : Phrase (.right op), e.Rereads v
      (wrap (v.needsParens op.operator false) v.render)
      (wrappedNesting (v.needsParens op.operator false) k) :=
  rereads_wrap h fun hparens => hv.bottom_right_lt hparens hflat

/-! ## Nodes -/

theorem renderOperands_cons (op : Operation) (first : Bool) (v : Value) (vs : List Value) :
    renderOperands op.operator first (v :: vs) =
      (if first then [] else ' ' :: op.sign.toList ++ [' ']) ++
        wrap (v.needsParens op.operator first) v.render ++
        renderOperands op.operator false vs := by
  cases op <;> rfl

theorem operandsTextNesting_cons (tag : Operator) (first : Bool) (v : Value) (vs : List Value) :
    operandsTextNesting tag first (v :: vs) =
      max (wrappedNesting (v.needsParens tag first) v.textNesting + if first then 0 else 1)
        (operandsTextNesting tag false vs) := rfl

/-- The text of a sum or a product goes on with the texts of further operands. -/
theorem rereads_renderOperands (hop : op.operator.associative = true)
    (h : ∀ w ∈ vs, Term.contribution op.operator w = [w] ∧ ∃ e : Phrase (.right op), e.Rereads w
      (wrap (w.needsParens op.operator false) w.render)
      (wrappedNesting (w.needsParens op.operator false) w.textNesting))
    (hus : ∃ e : Phrase (.of op), e.Rereads (node op.operator us) text k) :
    ∃ e : Phrase (.of op), e.Rereads (node op.operator (us ++ vs))
      (text ++ renderOperands op.operator false vs)
      (max k (operandsTextNesting op.operator false vs)) := by
  have hleft : Level.of op = Level.left op := by
    cases op <;> first | rfl | exact absurd hop (by decide)
  induction vs generalizing us text k with
  | nil => simpa [renderOperands, operandsTextNesting] using hus
  | cons w vs ih =>
    obtain ⟨hflat, b, hb⟩ := h w List.mem_cons_self
    rw [hleft] at hus
    obtain ⟨a, ha⟩ := hus
    have hstep := ha.applied hb
    rw [combine_node hop hflat] at hstep
    have hrest := ih (fun u hu => h u (List.mem_cons_of_mem _ hu)) ⟨_, hstep⟩
    rw [renderOperands_cons, operandsTextNesting_cons]
    simpa [Nat.max_assoc] using hrest

/-- **The text of a tree is that of a phrase.** -/
theorem rereads_render (h : IsTree v) :
    ∃ e : Phrase v.level, e.Rereads v v.render v.textNesting := by
  induction h with
  | integer hn => exact rereads_integer hn
  | real x => exact rereads_real x
  | var hname => exact ⟨_, rereads_name hname⟩
  | @negation v hv hbare ih =>
    cases hv with
    | var hname => exact ⟨_, (rereads_name hname).negated trivial rfl rfl⟩
    | pair _ _ _ | chain _ _ _ _ =>
      obtain ⟨e, he⟩ := ih
      obtain ⟨e', he'⟩ := he.widen (N := .sum) (by cases level _ <;> decide)
      exact ⟨_, he'.group.negated trivial rfl rfl⟩
    | integer _ | real _ | negation _ _ => exact hbare.elim
  | @pair op v w hop hv hw ihv ihw =>
    obtain ⟨a, ha⟩ := hv.rereads_left op ihv
    obtain ⟨b, hb⟩ := hw.rereads_right op (fun hop' => by simp [hop] at hop') ihw
    have hboth := ha.applied hb
    rw [Term.combine_of_not_associative hop, term_node] at hboth
    rw [level_node, render, renderOperands_cons, renderOperands_cons, textNesting,
      operandsTextNesting_cons, operandsTextNesting_cons]
    exact ⟨_, by simpa [renderOperands, operandsTextNesting] using hboth⟩
  | @chain op vs hop hlength hvs hflat ih =>
    match vs, hlength with
    | v :: w :: vs, _ =>
      have hv : v ∈ v :: w :: vs := by simp
      have hw : w ∈ v :: w :: vs := by simp
      have hlater : ∀ u ∈ v :: w :: vs, ∃ e : Phrase (.right op), e.Rereads u
          (wrap (u.needsParens op.operator false) u.render)
          (wrappedNesting (u.needsParens op.operator false) u.textNesting) := fun u hu =>
        (hvs u hu).rereads_right op (fun _ => hflat u hu) (ih u hu)
      obtain ⟨a, ha⟩ := (hvs v hv).rereads_left op (ih v hv)
      obtain ⟨b, hb⟩ := hlater w hw
      have hboth := ha.applied hb
      rw [(hvs v hv).combine_eq_node hop, hflat v hv, hflat w hw] at hboth
      have hrest : ∀ u ∈ vs, Term.contribution op.operator u = [u] ∧
          ∃ e : Phrase (.right op), e.Rereads u
            (wrap (u.needsParens op.operator false) u.render)
            (wrappedNesting (u.needsParens op.operator false) u.textNesting) := fun u hu =>
        ⟨hflat u (by simp [hu]), hlater u (by simp [hu])⟩
      have hall := rereads_renderOperands hop hrest ⟨_, hboth⟩
      rw [level_node, render, renderOperands_cons, renderOperands_cons, textNesting,
        operandsTextNesting_cons, operandsTextNesting_cons]
      simpa [Nat.max_assoc] using hall

end Value

end Precedence
