import Precedence.Proofs.Building.Registrations
import Precedence.Proofs.Parsing.Tokens
import Precedence.Value.Basic

/-!
# Operators with a stack

A grammar with one class of atoms and operators between them, registered with any binding powers
and groupings, parses a chain of atoms and operators to the value that a machine with a stack finds.
The machine reads the chain from the left. Before it puts an operator on the stack it applies those
on top that are to be applied first: those whose right power is at least the power of the new one.

* `unwinds_shunt`: the nested expressions of a parse are the stack of the machine. Their operands
  are continued up to the next operator, and then the machine has made the same step.
* `parse_eq_shunt`: so both have the same value, whatever the table.
-/

namespace Precedence

open Precedence.Source

variable {V : Type} [Term V]

/-! ## The machine -/

/-- Operators on the stack, the last one first, each with its left operand. -/
abbrev Stack (V : Type) : Type :=
  List (V × Operator)

namespace Stack

/-- Applies the operators on top that come before the operator `next`; `v` is the operand in front
of it. -/
def reduce (next : Operator) : Stack V → V → Stack V × V
  | [], v => ([], v)
  | (left, op) :: stack, v =>
    if next.power ≤ op.rightPower then reduce next stack (Term.combine op left v)
    else ((left, op) :: stack, v)

/-- Applies all operators. -/
def collapse : Stack V → V → V
  | [], v => v
  | (left, op) :: stack, v => collapse stack (Term.combine op left v)

/-- Runs the machine on operators and the operands behind them; `v` is the last operand so far. -/
def shunt (stack : Stack V) (v : V) : List (Operator × V) → V
  | [] => stack.collapse v
  | (op, right) :: rest =>
    let (stack, left) := stack.reduce op v
    shunt ((left, op) :: stack) right rest

variable {op next : Operator} {left right v : V} {stack : Stack V} {rest : List (Operator × V)}

theorem shunt_of_le (h : next.power ≤ op.rightPower) :
    shunt ((left, op) :: stack) v ((next, right) :: rest) =
      shunt stack (Term.combine op left v) ((next, right) :: rest) := by
  simp only [shunt, reduce, h, if_true]

theorem shunt_of_lt (h : op.rightPower < next.power) :
    shunt ((left, op) :: stack) v ((next, right) :: rest) =
      shunt ((v, next) :: (left, op) :: stack) right rest := by
  simp only [shunt, reduce, Nat.not_le.mpr h, if_false]

end Stack

/-! ## The parse of a chain -/

/-- An operator in a chain of atoms: its token, and the token of the atom behind it. -/
structure Link where
  sign : Token
  op : Operator
  operand : Token

/-- The tokens of a link. -/
def Link.tokens (l : Link) : List Token :=
  [l.sign, l.operand]

namespace Grammar

variable {g : Grammar V} {c : Context} {value : String → V} {stop : Token}

/-- The token is an atom that stands for the value of its text. -/
def IsAtom (g : Grammar V) (c : Context) (value : String → V) (t : Token) : Prop :=
  g.nudAction c t = pure (value t.text)

/-- The token is an operator that takes a second operand. -/
structure IsInfix (g : Grammar V) (c : Context) (op : Operator) (t : Token) : Prop where
  power : c.power t.symbol = op.power
  led : ∀ left, g.ledAction c t left = Build.betweenLed op c t left
  positive : 0 < op.power

/-- A chain that the grammar reads as one. -/
def IsChain (g : Grammar V) (c : Context) (value : String → V) (chain : List Link) : Prop :=
  ∀ l ∈ chain, g.IsInfix c l.op l.sign ∧ g.IsAtom c value l.operand

/-- The pending expressions of a parse are continued and left one after the other, the innermost
first. Those of `stack` wait for the right operands of its operators. -/
def Unwinds (g : Grammar V) (c : Context) : Stack V → V → Session → V → Session → Prop
  | [], v, s, w, s' => Resumes g c v 0 s w s'
  | (left, op) :: stack, v, s, w, s' =>
    ∃ right s₁, Resumes g c v op.rightPower s right s₁ ∧
      Unwinds g c stack (Term.combine op left right) s₁.leave w s'

/-- An operator that binds its left operand has an expression parsed that begins with the atom
behind it. `s'` is the state behind that atom. -/
theorem resumes_link {l : Link} {ts : List Token} {s : Session} (left : V) {least : Nat}
    (hu : s.upcoming = l.sign :: l.operand :: ts) (hop : g.IsInfix c l.op l.sign)
    (hatom : g.IsAtom c value l.operand) (hl : least < l.op.power) (hd : s.depth < g.maxDepth) :
    ∃ s', s'.upcoming = ts ∧ s'.ending = s.ending ∧ s'.depth = s.depth + 1 ∧
      ∀ right s₁ w s₂, Resumes g c (value l.operand.text) l.op.rightPower s' right s₁ →
        Resumes g c (Term.combine l.op left right) least s₁.leave w s₂ →
          Resumes g c left least s w s₂ := by
  obtain ⟨s₁, hp, h₁⟩ := Session.peek_of_cons (c := c) hu
  obtain ⟨s₂, ht, h₂⟩ := Session.take_of_cons (c := c) (h₁.upcoming.trans hu)
  have hu₂ : s₂.countLed.enter.upcoming = l.operand :: ts := by
    rw [show s₂.countLed.enter.upcoming = s₂.upcoming from rfl, h₂.upcoming, Session.pass,
      h₁.upcoming, hu]
    rfl
  have hd₂ : s₂.depth = s.depth := h₂.depth.trans h₁.depth
  obtain ⟨s₃, ht', h₃⟩ := Session.take_of_cons (c := c) hu₂
  refine ⟨s₃.countNud, ?_, ?_, ?_, fun right s₄ w s₅ hr hw => ?_⟩
  · rw [show s₃.countNud.upcoming = s₃.upcoming from rfl, h₃.upcoming, Session.pass, hu₂]
    rfl
  · exact h₃.ending.trans (h₂.ending.trans h₁.ending)
  · rw [show s₃.countNud.depth = s₃.depth from rfl, h₃.depth]
    simp only [Session.pass, Session.enter, Session.countLed, hd₂]
  · have hb : Begins g c l.op.rightPower s₂.countLed.enter right s₄ := by
      refine Begins.intro ht' ?_ hr
      rw [hatom]
      exact Acts.pure _
    have he : Expresses g c l.op.rightPower s₂.countLed right s₄.leave :=
      Expresses.intro (by rw [show s₂.countLed.depth = s₂.depth from rfl, hd₂]; exact hd) hb
    refine Resumes.step hp (by rw [hop.power]; exact hl) ht ?_ hw
    rw [hop.led]
    exact Acts.bind (Acts.operand he) (Acts.pure _)

/-- Where the text ends all pending expressions end. -/
theorem unwinds_collapse (hstop : c.power stop.symbol = 0) (stack : Stack V) :
    ∀ (v : V) (s : Session), s.upcoming = [] → s.ending = .endless stop →
      ∃ s', Unwinds g c stack v s (stack.collapse v) s' ∧ s'.upcoming = [] ∧
        s'.ending = .endless stop := by
  induction stack with
  | nil =>
    intro v s hu he
    obtain ⟨s₁, hp, h₁⟩ := Session.peek_of_end (c := c) hu he
    exact ⟨s₁, Resumes.stop hp (Nat.le_of_eq hstop), h₁.upcoming.trans hu, h₁.ending.trans he⟩
  | cons top stack ih =>
    obtain ⟨left, op⟩ := top
    intro v s hu he
    obtain ⟨s₁, hp, h₁⟩ := Session.peek_of_end (c := c) hu he
    obtain ⟨s', hs', hu', he'⟩ := ih (Term.combine op left v) s₁.leave (h₁.upcoming.trans hu)
      (h₁.ending.trans he)
    refine ⟨s', ⟨v, s₁, Resumes.stop hp ?_, hs'⟩, hu', he'⟩
    rw [hstop]
    exact Nat.zero_le _

/-- **The pending expressions of a parse are the stack of the machine**: to continue and leave them
all gives what the machine finds. -/
theorem unwinds_shunt (hstop : c.power stop.symbol = 0) (chain : List Link) :
    ∀ (stack : Stack V) (v : V) (s : Session), g.IsChain c value chain →
      s.upcoming = chain.flatMap Link.tokens → s.ending = .endless stop →
      s.depth + chain.length ≤ g.maxDepth →
      ∃ s', Unwinds g c stack v s
          (stack.shunt v (chain.map fun l => (l.op, value l.operand.text))) s' ∧
        s'.upcoming = [] ∧ s'.ending = .endless stop := by
  induction chain with
  | nil => exact fun stack v s _ hu he _ => unwinds_collapse hstop stack v s hu he
  | cons l chain ih =>
    intro stack v s hc hu he hd
    have hu' : s.upcoming = l.sign :: l.operand :: chain.flatMap Link.tokens := hu
    obtain ⟨hop, hatom⟩ := hc l List.mem_cons_self
    have hc' : g.IsChain c value chain := fun l' hl' => hc l' (List.mem_cons_of_mem _ hl')
    rw [List.length_cons] at hd
    have hd' : s.depth < g.maxDepth := by omega
    rw [List.map_cons]
    -- The operators on top that come first are applied one by one.
    induction stack generalizing v s with
    | nil =>
      obtain ⟨s₁, hu₁, he₁, hd₁, hlink⟩ :=
        resumes_link v hu' hop hatom hop.positive hd'
      obtain ⟨s', ⟨right, s₂, hr, hw⟩, hs'⟩ := ih [(v, l.op)] (value l.operand.text) s₁ hc' hu₁
        (he₁.trans he) (by omega)
      exact ⟨s', hlink right s₂ _ s' hr hw, hs'⟩
    | cons top stack ihs =>
      obtain ⟨left, op⟩ := top
      by_cases hle : l.op.power ≤ op.rightPower
      · obtain ⟨s₁, hp, h₁⟩ := Session.peek_of_cons (c := c) hu'
        have hd₁ : s₁.leave.depth ≤ s.depth := by
          rw [show s₁.leave.depth = s₁.depth - 1 from rfl, h₁.depth]
          omega
        obtain ⟨s', hs', h'⟩ := ihs (Term.combine op left v) s₁.leave (h₁.upcoming.trans hu)
          (h₁.ending.trans he) (by omega) (h₁.upcoming.trans hu') (by omega)
        rw [Stack.shunt_of_le hle]
        exact ⟨s', ⟨v, s₁, Resumes.stop hp (by rw [hop.power]; exact hle), hs'⟩, h'⟩
      · have hlt := Nat.not_le.mp hle
        obtain ⟨s₁, hu₁, he₁, hd₁, hlink⟩ := resumes_link v hu' hop hatom hlt hd'
        obtain ⟨s', ⟨right, s₂, hr, outer, s₃, hw, hs'⟩, h'⟩ :=
          ih ((v, l.op) :: (left, op) :: stack) (value l.operand.text) s₁ hc' hu₁ (he₁.trans he)
            (by omega)
        rw [Stack.shunt_of_lt hlt]
        exact ⟨s', ⟨outer, s₃, hlink right s₂ outer s₃ hr hw, hs'⟩, h'⟩

/-! ## Tables of operators -/

/-- Registrations of one class of atoms, each of which stands for the value of its text, and of
operators between them. -/
structure IsOperatorTable (rs : List (Registration V)) (name source : String)
    (value : String → V) : Prop where
  atoms : .literal name source (fun text => .ok (value text)) ∈ rs
  operators : ∀ r ∈ rs, r = .literal name source (fun text => .ok (value text)) ∨
    ∃ op, r.operator? = some op ∧ isClassId op.symbol = false ∧ 1 ≤ op.power
  distinct : (rs.map (·.target)).Nodup

namespace IsOperatorTable

variable {rs : List (Registration V)} {name source : String}

theorem target_ne_endId (hrs : IsOperatorTable rs name source value)
    (hg : (Registration.all rs).on initial = (.ok (), g)) : ∀ r ∈ rs, r.target ≠ endId := by
  intro r hr he
  rcases hrs.operators r hr with rfl | ⟨op, hop, hclass, -⟩
  · obtain ⟨g₁, i, g₂, hb, -⟩ := Registration.all_of_mem hg hrs.distinct hr
    exact (Build.literal_amends hb).2.1 he
  · rw [Registration.symbol_of_operator? hop, he] at hclass
    revert hclass
    decide

/-- The end of the text keeps its symbol. -/
theorem power_end (hrs : IsOperatorTable rs name source value)
    (hg : (Registration.all rs).on initial = (.ok (), g)) (input : String) :
    (g.context input).power 0 = 0 := by
  have hi : g.index? endId = some 0 := Registration.all_kept hg rfl
  have hf : g.find? endId = some (Symbol.fresh endId none) :=
    Registration.all_others hg (hrs.target_ne_endId hg)
  rw [power_context ((getElem?_of_index? hi).trans hf)]
  rfl

/-- A token of the class is an atom. -/
theorem isAtom (hrs : IsOperatorTable rs name source value)
    (hg : (Registration.all rs).on initial = (.ok (), g)) {t : Token}
    (ht : g.index? (classId name) = some t.symbol) (c : Context) : g.IsAtom c value t := by
  obtain ⟨g₁, i, g₂, hb, -, -, hf⟩ := Registration.all_of_mem hg hrs.distinct hrs.atoms
  have hs := getElem?_of_index? ht
  rw [show g.find? (classId name) = g₂.find? (classId name) from hf,
    (Build.literal_amends hb).2.2.found] at hs
  rw [IsAtom, nudAction, hs]
  rfl

/-- A token of an operator takes a second operand. -/
theorem isInfix (hrs : IsOperatorTable rs name source value)
    (hg : (Registration.all rs).on initial = (.ok (), g)) {r : Registration V} (hr : r ∈ rs)
    {op : Operator} (hop : r.operator? = some op) {t : Token}
    (ht : g.index? op.symbol = some t.symbol) (input : String) :
    g.IsInfix (g.context input) op t := by
  obtain ⟨g₁, i, g₂, hb, hk, -, hf⟩ := Registration.all_of_mem hg hrs.distinct hr
  have hne : op.symbol ≠ endId := by
    rw [Registration.symbol_of_operator? hop]
    exact hrs.target_ne_endId hg r hr
  have hpos : 0 < op.power := by
    rcases hrs.operators r hr with rfl | ⟨op', hop', -, hpos⟩
    · cases hop
    · cases hop.symm.trans hop'
      exact hpos
  rw [Registration.build_of_operator? hop] at hb
  rw [← Registration.symbol_of_operator? hop] at hk hf
  have hs := getElem?_of_index? ht
  rw [hf, (Build.between_amends hb).found] at hs
  have hp : (g₁.known op.symbol).power = 0 := by
    rw [hk]
    simp [known, find?, initial, Symbol.fresh, Ne.symm hne]
  refine ⟨?_, fun left => ?_, hpos⟩
  · rw [power_context hs]
    simp [Symbol.raised, hp]
  · rw [ledAction, hs]
    rfl

end IsOperatorTable

variable {rs : List (Registration V)} {name source : String} {x₀ : Token} {chain : List Link}

/-- **The parse of a chain of atoms and operators finds what the machine with a stack finds**, for
every table of operators that group from either side. -/
theorem parse_eq_shunt (hrs : IsOperatorTable rs name source value)
    (hg : (Registration.all rs).on initial = (.ok (), g)) {r : Recognizer}
    (hr : g.recognizer = .ok r) {input : String}
    (hscan : r.scan input = ⟨x₀ :: chain.flatMap Link.tokens, .endless stop⟩)
    (hstop : stop.isEnd = true) (hx₀ : g.index? (classId name) = some x₀.symbol)
    (hchain : ∀ l ∈ chain, l.op ∈ rs.filterMap (·.operator?) ∧
      g.index? l.op.symbol = some l.sign.symbol ∧
      g.index? (classId name) = some l.operand.symbol)
    {d : Nat} (hd : chain.length + 1 ≤ d) :
    ∃ stats, (g.setMaxDepth d).parse input =
      some (.ok (Stack.shunt [] (value x₀.text)
        (chain.map fun l => (l.op, value l.operand.text)), stats)) := by
  have hstop' : stop.symbol = 0 := by simpa [Token.isEnd] using hstop
  have hp : (g.context input).power stop.symbol = 0 := by
    rw [hstop']
    exact hrs.power_end hg input
  have hc : (g.setMaxDepth d).IsChain (g.context input) value chain := by
    intro l hl
    obtain ⟨hmem, hsign, hoperand⟩ := hchain l hl
    obtain ⟨r, hr, hop⟩ := List.mem_filterMap.mp hmem
    have hi := hrs.isInfix hg hr hop hsign input
    exact ⟨⟨hi.power, hi.led, hi.positive⟩, hrs.isAtom hg hoperand (g.context input)⟩
  -- The first atom is taken, and the machine runs on what is behind it.
  let s := Session.start (r.scan input) (byteLength input.toList)
  have hu : s.enter.upcoming = x₀ :: chain.flatMap Link.tokens := by
    rw [show s.enter.upcoming = (r.scan input).tokens from rfl, hscan]
  have he : s.enter.ending = .endless stop := by
    rw [show s.enter.ending = (r.scan input).ending from rfl, hscan]
  obtain ⟨s₁, ht, h₁⟩ := Session.take_of_cons (c := g.context input) hu
  have hu₁ : s₁.countNud.upcoming = chain.flatMap Link.tokens := by
    rw [show s₁.countNud.upcoming = s₁.upcoming from rfl, h₁.upcoming, Session.pass, hu]
    rfl
  have hd₁ : s₁.countNud.depth = 1 := h₁.depth
  obtain ⟨s', hs', hu', he'⟩ := unwinds_shunt (g := g.setMaxDepth d) hp chain []
    (value x₀.text) s₁.countNud hc hu₁ (h₁.ending.trans he) (by rw [hd₁, Nat.add_comm]; exact hd)
  have hx : ∀ c s, (g.setMaxDepth d).Acts c ((g.setMaxDepth d).nudAction c x₀) s
      (value x₀.text) s := by
    intro c s
    rw [show (g.setMaxDepth d).nudAction c x₀ = pure (value x₀.text) from hrs.isAtom hg hx₀ c]
    exact Acts.pure _
  obtain ⟨s₂, hpeek, -⟩ := Session.peek_of_end (c := g.context input) (s := s'.leave) hu' he'
  have hinert : EndIsInert (g.context input) s := by
    intro symbol hsymbol
    rw [show s.ending = .endless stop from he] at hsymbol
    cases hsymbol
    exact hp
  refine ⟨s₂.stats, (parse_eq_ok_iff (g := g.setMaxDepth d) hr hinert).mpr
    ⟨s'.leave, stop, s₂, ?_, hpeek, hstop, rfl⟩⟩
  exact Expresses.intro (Nat.lt_of_lt_of_le (Nat.succ_pos _) hd) (Begins.intro ht (hx _ _) hs')

/-- Operators that group from either side at one power, and one whose right power collides with
them. -/
def mixedTable : List (Registration Value) :=
  [.leftward "-" 50, .literal "name" "[a-z]" (fun text => .ok (.var text)), .rightward "=" 50,
    .algebraic "+" 50 true true, .rightward "^" 51]

theorem isOperatorTable_mixedTable : IsOperatorTable mixedTable "name" "[a-z]" Value.var where
  atoms := by simp [mixedTable]
  operators := by
    intro r hr
    simp only [mixedTable, List.mem_cons, List.not_mem_nil, or_false] at hr
    rcases hr with rfl | rfl | rfl | rfl | rfl
    · exact .inr ⟨_, rfl, by decide, by decide⟩
    · exact .inl rfl
    · exact .inr ⟨_, rfl, by decide, by decide⟩
    · exact .inr ⟨_, rfl, by decide, by decide⟩
    · exact .inr ⟨_, rfl, by decide, by decide⟩
  distinct := by decide

/-- The grammar that the registrations build. -/
def mixed : Grammar Value :=
  ((Registration.all mixedTable).on initial).2

/-- The recognizer of the grammar. -/
def mixedRecognizer : Recognizer :=
  (mixed.recognizer.toOption).getD ⟨[]⟩

/-- The token of the symbol `symbol` that is the character at `start`. -/
def glyph (symbol : Nat) (text : String) (start : Nat) : Token :=
  ⟨symbol, text, ⟨start, start + 1⟩, 1⟩

/-- The links of a chain with all of the operators. -/
def mixedChain : List Link :=
  [⟨glyph 1 "-" 1, .between "-" 50 .left, glyph 2 "b" 2⟩,
    ⟨glyph 3 "=" 3, .between "=" 50 .right, glyph 2 "c" 4⟩,
    ⟨glyph 4 "+" 5, (Operator.between "+" 50 .left).withFlags true true, glyph 2 "d" 6⟩,
    ⟨glyph 5 "^" 7, .between "^" 51 .right, glyph 2 "e" 8⟩]

theorem parse_mixedTable :
    (mixedRecognizer.scan "a-b=c+d^e").tokens.length = 9 ∧
    ∃ stats, (mixed.setMaxDepth 5).parse "a-b=c+d^e" =
      some (.ok (Stack.shunt [] (.var "a")
        [(Operator.between "-" 50 .left, .var "b"), (Operator.between "=" 50 .right, .var "c"),
          ((Operator.between "+" 50 .left).withFlags true true, .var "d"),
          (Operator.between "^" 51 .right, .var "e")], stats)) := by
  have hg : (Registration.all mixedTable).on initial = (.ok (), mixed) :=
    rfl
  have hr : mixed.recognizer = .ok mixedRecognizer :=
    recognizer_eq_ok_of_toOption (by decide +kernel)
  have hscan : mixedRecognizer.scan "a-b=c+d^e" =
      ⟨glyph 2 "a" 0 :: mixedChain.flatMap Link.tokens, .endless ⟨0, "", ⟨9, 9⟩, 0⟩⟩ := by
    decide +kernel
  refine ⟨by decide +kernel, ?_⟩
  exact parse_eq_shunt isOperatorTable_mixedTable hg hr hscan (by decide) (by decide +kernel)
    (by decide +kernel) (by decide)

end Grammar

end Precedence
