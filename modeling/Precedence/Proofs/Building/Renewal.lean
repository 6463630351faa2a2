import Precedence.Proofs.Building.Denotations
import Precedence.Value.Rendering

/-!
# Operators that are registered again

To register an operator again keeps its id, its place in the table and the higher of the binding
powers, but what it does is replaced. The power of the new registration is that of its right operand
and of the nodes that it builds. So the same registration once more changes nothing, and one with a
lower power changes nothing for texts without the operator. For texts with it the two powers are at
odds.

* `Holds.after`: what an operator was registered with stays until a registration replaces it.
* `built_repeat`: what a registration at an equal or lower power leaves as it is.
* `tree_lowered`: an operator that groups from the left groups from the right once it is registered
  again with a lower power.
-/

namespace Precedence

variable {V : Type}

/-! ## Symbols that are known -/

namespace Grammar

variable {g : Grammar V} {i power : Nat} {s : Symbol V} {f f' : Symbol V → Symbol V}

theorem raise_of_le (hs : g.symbols[i]? = some s) (h : power ≤ s.power) : g.raise i power = g := by
  simp [raise, hs, Nat.not_lt.mpr h]

theorem getElem?_change (hs : g.symbols[i]? = some s) :
    (g.change i f).symbols[i]? = some (f s) := by
  simp [change, hs]

theorem change_change : (g.change i f).change i f' = g.change i (f' ∘ f) := by
  simp [change, List.modify_modify_eq]

/-- A change of one symbol is known by what it makes of the symbol. -/
theorem change_congr (hs : g.symbols[i]? = some s) (h : f s = f' s) :
    g.change i f = g.change i f' := by
  have hmodify : g.symbols.modify i f = g.symbols.modify i f' := by
    refine List.ext_getElem? fun j => ?_
    rw [List.getElem?_modify, List.getElem?_modify]
    by_cases hj : i = j
    · subst hj
      simp [hs, h]
    · simp [hj]
  rw [change, change, hmodify]

theorem change_of_eq (hs : g.symbols[i]? = some s) (h : f s = s) : g.change i f = g := by
  have hid : f s = id s := h
  rw [change_congr hs hid, change, List.modify_id]

end Grammar

/-! ## Registrations of operators -/

namespace Registration

/-- The registration is that of an operator, and the same as the other one but for a power that may
be lower. -/
inductive Repeats : Registration V → Registration V → Prop where
  | before {id : String} {power power' : Nat} (h : power' ≤ power) :
    Repeats (before id power') (before id power)
  | after {id : String} {power power' : Nat} (h : power' ≤ power) :
    Repeats (after id power') (after id power)
  | leftward {id : String} {power power' : Nat} (h : power' ≤ power) :
    Repeats (leftward id power') (leftward id power)
  | rightward {id : String} {power power' : Nat} (h : power' ≤ power) :
    Repeats (rightward id power') (rightward id power)
  | algebraic {id : String} {power power' : Nat} {associative commutative : Bool}
      (h : power' ≤ power) :
    Repeats (algebraic id power' associative commutative)
      (algebraic id power associative commutative)

variable {q r r' : Registration V} {s : Symbol V}

namespace Repeats

theorem self (h : r'.Repeats r) : r.Repeats r := by
  cases h with
  | before => exact .before (Nat.le_refl _)
  | after => exact .after (Nat.le_refl _)
  | leftward => exact .leftward (Nat.le_refl _)
  | rightward => exact .rightward (Nat.le_refl _)
  | algebraic => exact .algebraic (Nat.le_refl _)

theorem target (h : r'.Repeats r) : r'.target = r.target := by
  cases h <;> rfl

theorem power_le (h : r'.Repeats r) : r'.power ≤ r.power := by
  cases h <;> first | assumption | exact Nat.le_refl 0

theorem source? (h : r'.Repeats r) : r'.source? = none := by
  cases h <;> rfl

theorem ignoresOperators [Term V] (h : r'.Repeats r) : r'.IgnoresOperators := by
  cases h <;> refine Registration.ignoresOperators ?_ ?_ <;> intros <;> contradiction

end Repeats

variable [Term V]

/-- The registration replaces nothing that the other one says of its id. -/
def Spares (q r : Registration V) : Prop :=
  q.target = r.target → q.attached? = none ∧ (q.nud? = none ∨ r.nud? = none) ∧
    (q.led? = none ∨ r.led? = none)

/-- A symbol that is as a registration leaves it stays so if another one replaces nothing of it. -/
theorem Spares.revise_revise (h : q.Spares r) (ht : q.target = r.target) (hr : r.source? = none)
    (hs : r.revise s = s) : r.revise (q.revise s) = q.revise s := by
  obtain ⟨hattached, hnud, hled⟩ := h ht
  have hpower : max s.power r.power = s.power := congrArg (·.power) hs
  have hoperator : r.attached?.or s.operator? = s.operator? := congrArg (·.operator?) hs
  have hnud' : r.nud?.or s.nud? = s.nud? := congrArg (·.nud?) hs
  have hled' : r.led?.or s.led? = s.led? := congrArg (·.led?) hs
  have hpower' : max (max s.power q.power) r.power = max s.power q.power := by omega
  have hnud'' : r.nud?.or (q.nud?.or s.nud?) = q.nud?.or s.nud? := by
    rcases hnud with h | h
    · rw [h, Option.none_or, hnud']
    · rw [h, Option.none_or]
  have hled'' : r.led?.or (q.led?.or s.led?) = q.led?.or s.led? := by
    rcases hled with h | h
    · rw [h, Option.none_or, hled']
    · rw [h, Option.none_or]
  simp only [revise, hpower', hattached, Option.none_or, hoperator, hnud'', hled'', hr,
    Option.map_none, Option.or_none]

/-- What a registration makes of a symbol it leaves as it is afterwards. -/
theorem revise_revise (r : Registration V) (s : Symbol V) :
    r.revise (r.revise s) = r.revise s := by
  have hor : ∀ {α : Type} (x y : Option α), x.or (x.or y) = x.or y := by
    intro α x y
    cases x <;> rfl
  have hpattern : (s.pattern?.or (r.source?.map .regex)).or (r.source?.map TokenPattern.regex) =
      s.pattern?.or (r.source?.map .regex) := by
    cases s.pattern? <;> cases r.source? <;> rfl
  simp only [revise, hor, hpattern, Nat.max_assoc, Nat.max_self]

end Registration

/-! ## Operators that are known -/

namespace Build

open Grammar

variable {g : Grammar V} {id : String} {i power : Nat} {s : Symbol V}

theorem symbol_on_held (he : id.isEmpty = false) (hi : g.index? id = some i)
    (hs : g.symbols[i]? = some s) (hp : power ≤ s.power) :
    (Build.symbol id power).on g = (.ok i, g) := by
  rw [symbol_on he, hi]
  simp only [raise_of_le hs hp]

theorem attach_on_held (op : Operator) (he : op.symbol.isEmpty = false)
    (hi : g.index? op.symbol = some i) (hs : g.symbols[i]? = some s) (hp : power ≤ s.power) :
    (Build.attach op power).on g =
      (.ok (), g.change i fun s => { s with operator? := some op }) := by
  unfold Build.attach
  rw [on_bind, symbol_on_held he hi hs hp]
  rfl

theorem nud_on_held {f : Nud V} (he : id.isEmpty = false) (hi : g.index? id = some i)
    (hs : g.symbols[i]? = some s) :
    (Build.nud id f).on g = (.ok i, g.change i fun s => { s with nud? := some f }) := by
  unfold Build.nud
  rw [on_bind, symbol_on_held he hi hs (Nat.zero_le _)]
  rfl

theorem led_on_held {f : Led V} (he : id.isEmpty = false) (hi : g.index? id = some i)
    (hs : g.symbols[i]? = some s) (hp : power ≤ s.power) :
    (Build.led id power f).on g = (.ok i, g.change i fun s => { s with led? := some f }) := by
  unfold Build.led
  rw [on_bind, symbol_on_held he hi hs hp]
  rfl

/-- Where an operator is attached its symbol stays at its place, with its power. -/
theorem held_attach (op : Operator) (hi : g.index? id = some i) (hs : g.symbols[i]? = some s) :
    (g.change i fun s => { s with operator? := some op }).index? id = some i ∧
      (g.change i fun s => { s with operator? := some op }).symbols[i]? =
        some { s with operator? := some op } :=
  ⟨(index?_change (f := fun s => { s with operator? := some op }) fun _ => rfl).trans hi,
    getElem?_change hs⟩

variable [Term V]

theorem before_on_held (he : id.isEmpty = false) (hi : g.index? id = some i)
    (hs : g.symbols[i]? = some s) :
    (Build.before id power).on g = (.ok i, g.change i fun s =>
      { s with
        operator? := some (Operator.before id power)
        nud? := some (beforeNud (Operator.before id power)) }) := by
  obtain ⟨hi', hs'⟩ := held_attach (.before id power) hi hs
  unfold Build.before
  simp only
  rw [on_bind, attach_on_held (.before id power) he hi hs (Nat.zero_le _)]
  simp only
  rw [nud_on_held he hi' hs', change_change]
  rfl

theorem after_on_held (he : id.isEmpty = false) (hi : g.index? id = some i)
    (hs : g.symbols[i]? = some s) (hp : power ≤ s.power) :
    (Build.after id power).on g = (.ok i, g.change i fun s =>
      { s with
        operator? := some (Operator.after id power)
        led? := some (afterLed (Operator.after id power)) }) := by
  obtain ⟨hi', hs'⟩ := held_attach (.after id power) hi hs
  unfold Build.after
  simp only
  rw [on_bind, attach_on_held (.after id power) he hi hs hp]
  simp only
  rw [led_on_held he hi' hs' hp, change_change]
  rfl

theorem between_on_held {op : Operator} (he : op.symbol.isEmpty = false)
    (hi : g.index? op.symbol = some i) (hs : g.symbols[i]? = some s) (hp : op.power ≤ s.power) :
    (Build.between op).on g = (.ok i, g.change i fun s =>
      { s with
        operator? := some op
        led? := some (betweenLed op) }) := by
  obtain ⟨hi', hs'⟩ := held_attach op hi hs
  unfold Build.between
  rw [on_bind, attach_on_held op he hi hs hp]
  simp only
  rw [led_on_held he hi' hs' hp, change_change]
  rfl

end Build

namespace Registration

open Grammar

variable [Term V] {r r' : Registration V} {g : Grammar V} {i : Nat} {s : Symbol V}

/-- An operator is registered again where its power is reached already. -/
theorem Repeats.build_on (h : r'.Repeats r) (he : r'.target.isEmpty = false)
    (hi : g.index? r'.target = some i) (hs : g.symbols[i]? = some s) (hp : r'.power ≤ s.power) :
    r'.build.on g = (.ok i, g.change i r'.revise) := by
  have hbetween : ∀ op : Operator, r'.operator? = some op →
      r'.build.on g = (.ok i, g.change i r'.revise) := by
    intro op hop
    have hsymbol := symbol_of_operator? hop
    have hpower : op.power ≤ s.power := by
      cases h <;> cases hop <;> exact hp
    rw [build_of_operator? hop, Build.between_on_held (hsymbol ▸ he) (hsymbol ▸ hi) hs hpower]
    refine congrArg _ (change_congr hs ?_)
    rw [revise_of_operator? hop, Symbol.raised, Nat.max_eq_left hpower]
  cases h with
  | @before id power power' hle =>
    have hbuild : (Build.before id power').on g = _ := Build.before_on_held he hi hs
    refine hbuild.trans (congrArg _ (change_congr hs ?_))
    simp [revise, Registration.power, Registration.source?, attached?, nud?, led?, operator?]
  | @after id power power' hle =>
    have hbuild : (Build.after id power').on g = _ := Build.after_on_held he hi hs hp
    refine hbuild.trans (congrArg _ (change_congr hs ?_))
    have hpower : max s.power power' = s.power := Nat.max_eq_left hp
    simp [revise, hpower, Registration.power, Registration.source?, attached?, nud?, led?]
  | leftward hle => exact hbetween _ rfl
  | rightward hle => exact hbetween _ rfl
  | algebraic hle => exact hbetween _ rfl

end Registration

/-! ## What stays -/

section Calls

variable [Term V] {q r r' : Registration V}

namespace Grammar

variable {g g' : Grammar V} {i : Nat} {calls : List (Call V)}

/-- The symbol at an index is that of the registration, and is as the registration leaves it. -/
structure Holds (r : Registration V) (i : Nat) (g : Grammar V) : Prop where
  index : g.index? r.target = some i
  revised : ∃ s, g.symbols[i]? = some s ∧ r.revise s = s

theorem holds_of_build (h : r.build.on g = (.ok i, g')) : g'.Holds r i := by
  have ha := r.amends h
  exact ⟨ha.index, _, (getElem?_of_index? ha.index).trans ha.found, r.revise_revise _⟩

/-- A registration that replaces nothing of an operator. -/
theorem Holds.register (h : g.Holds r i) (hr : r.source? = none) (hq : q.Spares r) :
    (q.build.on g).2.Holds r i := by
  rcases hb : q.build.on g with ⟨e | j, g'⟩
  · rw [q.eq_of_error hb]
    exact h
  have ha := q.amends hb
  have hi := ha.kept _ _ h.index
  obtain ⟨s, hs, hrevise⟩ := h.revised
  have hfind : g.find? r.target = some s := (getElem?_of_index? h.index).symm.trans hs
  by_cases ht : q.target = r.target
  · have hfound := ha.found
    rw [ht, known, hfind, Option.getD_some] at hfound
    exact ⟨hi, q.revise s, (getElem?_of_index? hi).trans hfound,
      hq.revise_revise ht hr hrevise⟩
  · have hother := ha.others _ (Ne.symm ht)
    exact ⟨hi, s, (getElem?_of_index? hi).trans (hother.trans hfind), hrevise⟩

/-- **What an operator was registered with stays** until a registration replaces it. -/
theorem Holds.after (h : g.Holds r i) (hr : r.source? = none)
    (hspares : ∀ q, .register q ∈ calls → q.Spares r) : (g.after calls).Holds r i := by
  refine after_preserves (fun q hq g h => h.register hr (hspares q hq)) (fun g g' hs h => ?_) h
  have hi : g'.index? r.target = g.index? r.target := by rw [index?, index?, hs]
  exact ⟨hi.trans h.index, hs ▸ h.revised⟩

/-- A registration of an operator is held behind the calls that replace nothing of it. -/
theorem exists_holds (earlier : List (Call V)) (hr : r.source? = none)
    (hid : r.target.isEmpty = false) (hspares : ∀ q, .register q ∈ calls → q.Spares r) :
    ∃ i, (built (earlier ++ .register r :: calls)).Holds r i := by
  obtain ⟨i, g, hbuild⟩ := r.exists_build hr hid (built earlier)
  have hbuilt : built (earlier ++ .register r :: calls) = g.after calls := by
    show initial.after (earlier ++ .register r :: calls) = _
    rw [after_append, Grammar.after]
    exact congrArg (Grammar.after · calls) (congrArg Prod.snd hbuild)
  exact ⟨i, hbuilt ▸ (holds_of_build hbuild).after hr hspares⟩

/-- The power of an operator is at least the one of a registration that repeats it. -/
theorem Holds.exists_symbol (h : g.Holds r i) (hr : r'.Repeats r) :
    ∃ s, g.symbols[i]? = some s ∧ r.revise s = s ∧ r'.power ≤ s.power := by
  obtain ⟨s, hs, hrevise⟩ := h.revised
  have hpower : max s.power r.power = s.power := congrArg (·.power) hrevise
  have hle := hr.power_le
  exact ⟨s, hs, hrevise, by omega⟩

/-- A registration at an equal or lower power succeeds, and revises the operator. -/
theorem Holds.build_on (h : g.Holds r i) (hr : r'.Repeats r) (hid : r.target.isEmpty = false) :
    r'.build.on g = (.ok i, g.change i r'.revise) := by
  obtain ⟨s, hs, -, hpower⟩ := h.exists_symbol hr
  exact hr.build_on (hr.target ▸ hid) (hr.target ▸ h.index) hs hpower

end Grammar

/-! ## Registering again -/

/-- A recognizer does not depend on operators. -/
theorem Recognizer.sources_plain (es : List Entry) :
    Recognizer.sources (es.map Entry.plain) = Recognizer.sources es := by
  simp [Recognizer.sources, Entry.plain]

namespace Grammar

variable {g : Grammar V} {i : Nat}

/-- A registration at an equal or lower power changes at most the operator and the denotation. -/
theorem Holds.differsAt (h : g.Holds r i) (hr : r'.Repeats r) :
    DiffersAt i g (g.change i r'.revise) := by
  obtain ⟨s, hs, -, hle⟩ := h.exists_symbol hr
  have hpower : max s.power r'.power = s.power := Nat.max_eq_left hle
  refine ⟨rfl, ?_, fun j hj => ?_⟩
  · refine List.ext_getElem? fun j => ?_
    simp only [entries, change, List.getElem?_map, List.getElem?_modify]
    by_cases hj : i = j
    · subst hj
      simp [hs, Registration.revise, hpower, hr.source?, Entry.plain]
    · simp [hj]
  · have hother : (g.change i r'.revise).symbols[j]? = g.symbols[j]? := by
      rw [change, List.getElem?_modify_ne _ _ (Ne.symm hj)]
    rw [hother]
    exact ⟨rfl, rfl⟩

/-- Nor does it change what is recognized. -/
theorem Holds.recognizer (h : g.Holds r i) (hr : r'.Repeats r) :
    (g.change i r'.revise).recognizer = g.recognizer := by
  have hsources : Recognizer.sources (g.change i r'.revise).entries =
      Recognizer.sources g.entries := by
    rw [← Recognizer.sources_plain, ← (h.differsAt hr).entries, Recognizer.sources_plain]
  unfold Grammar.recognizer
  rw [Recognizer.ofEntries_congr hsources]
  rfl

/-- **To register an operator again.** However a grammar has been built, an operator keeps its place
in the table if it is registered again at an equal or lower power, and nothing changes of how tokens
are recognized and how tightly they bind. At an equal power nothing changes at all. At a lower one
all texts without the operator are parsed as before, unless some denotation asks the table for
operators. -/
theorem built_repeat (earlier : List (Call V)) {later : List (Call V)} (h : r'.Repeats r)
    (hid : r.target.isEmpty = false) (hspares : ∀ q, .register q ∈ later → q.Spares r) :
    let g := built (earlier ++ .register r :: later)
    let g' := built (earlier ++ .register r :: later ++ [.register r'])
    ∃ i, g.index? r.target = some i ∧ (r'.build.on g).1 = .ok i ∧
      g' = g.change i r'.revise ∧ g'.recognizer = g.recognizer ∧
      g'.entries.map Entry.plain = g.entries.map Entry.plain ∧
      (r' = r → g' = g) ∧
      ((∀ q, .register q ∈ earlier ++ later → q.IgnoresOperators) → ∀ input,
        (∀ x, g.recognizer = .ok x → (x.scan input).Lacks i) →
        g'.parse input = g.parse input) := by
  intro g g'
  obtain ⟨i, hholds⟩ := exists_holds earlier h.self.source? hid hspares
  have hbuild : r'.build.on g = (.ok i, g.change i r'.revise) := hholds.build_on h hid
  have hg' : g' = g.change i r'.revise := by
    show initial.after (earlier ++ .register r :: later ++ [.register r']) = _
    rw [after_append]
    exact congrArg Prod.snd hbuild
  have hdiffers : DiffersAt i g (g.change i r'.revise) := hholds.differsAt h
  refine ⟨i, hholds.index, congrArg Prod.fst hbuild, hg', ?_, ?_, ?_,
    fun hignores input hlacks => ?_⟩
  · rw [hg', hholds.recognizer h]
  · rw [hg', ← hdiffers.entries]
  · rintro rfl
    obtain ⟨s, hs, hrevise⟩ := hholds.revised
    rw [hg', change_of_eq hs hrevise]
  · have hg : g.IgnoresOperators := by
      refine ignoresOperators_initial.after fun q hq => ?_
      rcases List.mem_append.mp hq with hq | hq
      · exact hignores q (List.mem_append_left _ hq)
      rcases List.mem_cons.mp hq with hq | hq
      · cases hq
        exact h.self.ignoresOperators
      · exact hignores q (List.mem_append_right _ hq)
    rw [hg']
    exact (hdiffers.parse_of_lacks hg (hholds.recognizer h).symm hlacks).symm

end Grammar

end Calls

/-! ## Sums and differences of names -/

namespace Grammar

/-- Names and sums. -/
def sumCalls : List (Call Value) :=
  [.register (.literal "name" "[a-z]+" fun text => .ok (.var text)), .register (.leftward "+" 50)]

/-- Names, sums and differences. -/
def differenceCalls : List (Call Value) :=
  sumCalls ++ .register (.leftward "-" 50) :: [.setMaxDepth 9]

theorem built_repeat_differences :
    let g := built differenceCalls
    let g' := built (differenceCalls ++ [.register (.leftward "-" 40)])
    g.index? "-" = some 3 ∧ g'.recognizer = g.recognizer ∧ g'.parse "a + b" = g.parse "a + b" := by
  intro g g'
  have hspares : ∀ q : Registration Value, .register q ∈ [Call.setMaxDepth 9] →
      q.Spares (.leftward "-" 50) := by
    intro q hq
    cases List.mem_singleton.mp hq
  obtain ⟨i, hi, -, -, hrecognizer, -, -, hparse⟩ :=
    built_repeat sumCalls (.leftward (by decide : 40 ≤ 50)) (by decide) hspares
  have hindex : g.index? "-" = some 3 := by decide +kernel
  cases hi.symm.trans hindex
  have hignores : ∀ q, .register q ∈ sumCalls ++ [.setMaxDepth 9] → q.IgnoresOperators := by
    intro q hq
    refine Registration.ignoresOperators ?_ ?_
    · rintro id f rfl
      simp [sumCalls] at hq
    · rintro id power f rfl
      simp [sumCalls] at hq
  have hlacks : (g.recognizer.toOption.all fun x => (x.scan "a + b").Lacks 3) = true := by
    decide +kernel
  refine ⟨hindex, hrecognizer, hparse hignores "a + b" fun x hx => ?_⟩
  have hx' : g.recognizer = .ok x := hx
  rw [hx'] at hlacks
  exact of_decide_eq_true hlacks

/-- The tree of the value that is parsed. -/
def tree? (g : Grammar Value) (input : String) : Option String :=
  (g.parse input).bind (·.toOption.map (·.1.describe))

/-- An operator that groups from the left is registered again with a lower power. The table still
has the higher one, so the operator binds the right operand of an equal one before it. -/
theorem tree_lowered :
    tree? (built differenceCalls) "a - b - c" =
        some "expr[infix left - (50) --: expr[infix left - (50) --: var(a), var(b)], var(c)]" ∧
      tree? (built (differenceCalls ++ [.register (.leftward "-" 40)])) "a - b - c" =
        some "expr[infix left - (40) --: var(a), expr[infix left - (40) --: var(b), var(c)]]" := by
  decide +kernel

end Grammar

end Precedence
