import Precedence.Proofs.Calculator.Reading

/-!
# Every expression is a phrase

What a calculator parses without an error is a phrase: of the kind that the power asks for, with
the value that the phrase has, and found by what the tally of the phrase counts.
-/

namespace Precedence

open Precedence.Source Calculator

namespace Grammar

open Session (Proper Passes)

variable {g : Grammar Value} {perform : Operation → Value → Value → Option Value} {input : String}
variable {M N : Level} {least n : Nat} {s s' s₁ s₂ s₃ s₄ : Session} {left right v w : Value}

/-- A phrase with the value `v` lies between two states. -/
def Covers (g : Grammar Value) (perform : Operation → Value → Value → Option Value) (N : Level)
    (v : Value) (s s' : Session) : Prop :=
  ∃ e : Phrase N, e.value perform = some v ∧ Passes e.terminals e.tally s s' ∧
    s.depth + e.tally.height ≤ g.maxDepth

/-- A phrase of a tighter kind is one of a looser kind. -/
theorem Covers.widen (h : g.Covers perform M v s s') (hN : N.bottom < M.floor) :
    g.Covers perform N v s s' := by
  obtain ⟨e, hv, hp, hd⟩ := h
  obtain ⟨e', hterminals, htally, hvalue⟩ := e.exists_widen hN
  refine ⟨e', ?_, ?_, ?_⟩
  · rw [hvalue]
    exact hv
  · rw [hterminals, htally]
    exact hp
  · rw [htally]
    exact hd

theorem Covers.of_alike (hs : Proper s) (h : g.Covers perform N v s s₁) (ha : Session.Alike s₁ s') :
    g.Covers perform N v s s' := by
  obtain ⟨e, hv, hp, hd⟩ := h
  have hp' := hp.trans (Passes.of_alike (hp.proper hs) ha)
  rw [List.append_nil, Tally.and_nothing] at hp'
  exact ⟨e, hv, hp', hd⟩

/-- An operation between phrases. -/
theorem Covers.applied {op : Operation} (hl : g.Covers perform (.left op) left s s₁)
    (hop : Passes [.sign op] .operator s₁ s₂) (hs : Proper s₂)
    (hr : g.Covers perform (.right op) right s₂.enter s₃) (hw : perform op left right = some w) :
    g.Covers perform (.of op) w s s₃.leave := by
  obtain ⟨a, ha, hpa, hda⟩ := hl
  obtain ⟨b, hb, hpb, hdb⟩ := hr
  refine ⟨Phrase.applied op a b, ?_, ?_, ?_⟩
  · rw [Phrase.value_applied, ha, hb]
    exact hw
  · rw [Phrase.terminals_applied, Phrase.tally_applied]
    exact hpa.trans (hop.trans (hpb.nested hs))
  · rw [Phrase.tally_applied]
    rw [show s₂.enter.depth = s₂.depth + 1 from rfl, hop.depth, hpa.depth] at hdb
    simp only [Tally.and, Tally.operator, Tally.nested]
    omega

/-! ## What binds an operand -/

/-- Only operations bind an operand. -/
theorem next_of_headPower {ahead : List (Option Terminal)} (h : least < headPower ahead) :
    ∃ op, ahead.head?.join = some (.sign op) ∧ headPower ahead = op.leftPower := by
  unfold headPower at h ⊢
  cases hx : ahead.head?.join with
  | none =>
    rw [hx] at h
    exact absurd h (Nat.not_lt_zero _)
  | some x =>
    rw [hx] at h
    cases x with
    | sign op => exact ⟨op, rfl, rfl⟩
    | number _ => exact absurd h (Nat.not_lt_zero _)
    | name _ => exact absurd h (Nat.not_lt_zero _)
    | opening => exact absurd h (Nat.not_lt_zero _)
    | closing => exact absurd h (Nat.not_lt_zero _)

theorem headPower_le_cap_atom (ahead : List (Option Terminal)) :
    headPower ahead ≤ Level.atom.cap := by
  rcases Nat.eq_zero_or_pos (headPower ahead) with h | h
  · rw [h]
    exact Nat.zero_le _
  · obtain ⟨op, -, hop⟩ := next_of_headPower h
    rw [hop]
    cases op <;> decide

/-- What does not bind the right operand of an operation may stand behind the operation. -/
theorem headPower_le_cap_of {op : Operation} {ahead : List (Option Terminal)}
    (h : headPower ahead ≤ op.rightPower) : headPower ahead ≤ (Level.of op).cap := by
  rcases Nat.eq_zero_or_pos (headPower ahead) with h0 | h0
  · rw [h0]
    exact Nat.zero_le _
  · obtain ⟨op', -, hop'⟩ := next_of_headPower h0
    rw [hop'] at h ⊢
    revert h
    cases op <;> cases op' <;> decide

/-! ## Parts of a parse -/

/-- What holds of expressions that are parsed within `n` steps. -/
def Finds (g : Grammar Value) (perform : Operation → Value → Value → Option Value) (input : String)
    (n : Nat) : Prop :=
  ∀ {least v s s' N}, g.expression (g.context input) n least s = some (.ok v, s') → Proper s →
    N.bottom ≤ least → least < 80 →
    ∃ s₁, g.Covers perform N v s.enter s₁ ∧ s' = s₁.leave ∧ headPower s'.ahead ≤ least

/-- What holds of continuations that are parsed within `n` steps. -/
def Continues (g : Grammar Value) (perform : Operation → Value → Value → Option Value)
    (input : String) (n : Nat) : Prop :=
  ∀ {least left v s₀ s s' M N}, g.resume (g.context input) n left least s = some (.ok v, s') →
    Proper s₀ → g.Covers perform M left s₀ s → least < M.floor → headPower s.ahead ≤ M.cap →
    N.bottom ≤ least → least < 80 →
    g.Covers perform N v s₀ s' ∧ headPower s'.ahead ≤ least

theorem Covers.proper (h : g.Covers perform N v s s') (hs : Proper s) : Proper s' := by
  obtain ⟨e, -, hp, -⟩ := h
  exact hp.proper hs

theorem ahead_of_alike (h : Session.Alike s s') : s'.ahead = s.ahead := by
  rw [Session.ahead, Session.ahead, h.upcoming]

/-- A token that binds an operand is an operation that is ahead, and is taken. -/
theorem exists_passes_led (hg : Calculates g perform) {t t' : Token} (hs : Proper s)
    (hpeek : s.peek (g.context input) = (.ok t, s₁))
    (hlt : least < (g.context input).power t.symbol)
    (htake : s₁.take (g.context input) = (.ok t', s₂)) :
    ∃ op, t'.terminal? = some (.sign op) ∧ headPower s.ahead = op.leftPower ∧
      least < op.leftPower ∧ Passes [.sign op] .operator s s₂.countLed := by
  obtain ⟨ht, ha⟩ := hs.of_peek hpeek
  rw [hg.power, Token.power, ht] at hlt
  have hlt' : least < headPower s.ahead := hlt
  obtain ⟨op, hop, hpower⟩ := next_of_headPower hlt'
  have hs₁ := (Passes.of_alike hs ha).proper hs
  obtain ⟨ht', hp₂⟩ := hs₁.of_take htake
  have hop' : t'.terminal? = some (.sign op) := by
    rw [ht', Session.next?, ahead_of_alike ha]
    exact hop
  have hp₁ := (Passes.of_alike hs ha).trans (hp₂ _ hop')
  have hp := hp₁.trans (Session.passes_countLed (hp₁.proper hs))
  exact ⟨op, hop', hpower, hpower ▸ hlt', by simpa using hp⟩

/-- An operation behind a phrase, and its right operand. -/
theorem Covers.turn {op : Operation} (hleft : g.Covers perform M left s₀ s)
    (hf : g.Finds perform input n) (hs₀ : Proper s₀) (hcap : op.leftPower ≤ M.cap)
    (hp : Passes [.sign op] .operator s s₂)
    (hright : g.expression (g.context input) n op.rightPower s₂ = some (.ok right, s'))
    (hw : perform op left right = some w) :
    g.Covers perform (.of op) w s₀ s' ∧ headPower s'.ahead ≤ (Level.of op).cap := by
  have hs₂ := hp.proper (hleft.proper hs₀)
  obtain ⟨hbottom, hlt, -⟩ := Level.right_bounds op
  obtain ⟨s₄, hcovers, rfl, hle⟩ := hf hright hs₂ hbottom hlt
  have happlied := (hleft.widen (Level.bottom_left_lt hcap)).applied hp hs₂ hcovers hw
  exact ⟨happlied, headPower_le_cap_of hle⟩

/-- One step of a continuation. -/
theorem continues_succ (hg : Calculates g perform) (hf : g.Finds perform input n)
    (hc : g.Continues perform input n) : g.Continues perform input (n + 1) := by
  intro least left v s₀ s s' M N h hs₀ hleft hfloor hcap hN hleast
  have hs := hleft.proper hs₀
  obtain ⟨t, s₁, hpeek, ⟨hle, rfl, rfl⟩ | ⟨hlt, t', s₂, w, s₃, htake, hled, hres⟩⟩ :=
    resume_eq_ok_iff.mp h
  · obtain ⟨ht, ha⟩ := hs.of_peek hpeek
    rw [hg.power, Token.power, ht] at hle
    refine ⟨(hleft.of_alike hs₀ ha).widen (Nat.lt_of_le_of_lt hN hfloor), ?_⟩
    rw [ahead_of_alike ha]
    exact hle
  · obtain ⟨op, hop, hpower, hlt', hp⟩ := exists_passes_led hg hs hpeek hlt htake
    obtain ⟨right, hright, hw⟩ := (hg.led_eq_ok_iff hop).mp hled
    obtain ⟨hcovers, hle⟩ := hleft.turn hf hs₀ (hpower ▸ hcap) hp hright hw
    exact hc hres hs₀ hcovers (Nat.lt_of_lt_of_le hlt' (Level.right_bounds op).2.2) hle hN hleast

/-- A token that is taken and begins an operand. -/
theorem passes_nud {t : Token} {x : Terminal} (hs : Proper s)
    (htake : s.take (g.context input) = (.ok t, s₁)) (ht : t.terminal? = some x) :
    Passes [x] .operand s s₁.countNud := by
  have hp := (hs.of_take htake).2 x ht
  simpa using hp.trans (Session.passes_countNud (hp.proper hs))

/-- Parentheses around an expression. -/
theorem finds_parentheses (hg : Calculates g perform) (hf : g.Finds perform input n) {t : Token}
    (hs : Proper s) (hp : Passes [.opening] .operand s s₁)
    (h : g.act (g.context input) n (parentheses (g.context input) t) s₁ = some (.ok v, s')) :
    g.Covers perform .atom v s s' := by
  have hs₁ := hp.proper hs
  obtain ⟨s₂, t', hexpr, hexpected⟩ := act_parentheses_iff.mp h
  obtain ⟨s₃, ⟨e, hv, hpe, hde⟩, rfl, -⟩ :=
    hf (N := .sum) hexpr hs₁ (Nat.le_refl 0) (by decide)
  obtain ⟨t'', s₄, hpeek, -, hid, htake⟩ := act_takeExpected_iff.mp hexpected
  have hclosing := (hg.id_eq_iff t'').mp hid
  have hp₂ := hpe.nested hs₁
  have hs₂ := hp₂.proper hs₁
  obtain ⟨hnext, ha⟩ := hs₂.of_peek hpeek
  have hp₃ := Passes.of_alike hs₂ ha
  have hs₃ := hp₃.proper hs₂
  obtain ⟨ht', htaken⟩ := hs₃.of_take htake
  have hclosing' : t'.terminal? = some .closing := by
    rw [ht', Session.next?, ahead_of_alike ha, ← hclosing, hnext, Session.next?]
  have hall := ((hp.trans hp₂).trans hp₃).trans (htaken _ hclosing')
  refine ⟨.group e, hv, by simpa [Phrase.terminals, Phrase.tally] using hall, ?_⟩
  rw [show s₁.enter.depth = s₁.depth + 1 from rfl, hp.depth] at hde
  simp only [Phrase.tally, Tally.and, Tally.operand, Tally.nested]
  omega

/-- A number behind a minus sign that nothing claims is part of its literal. `s₁` is the state
behind the sign, and `s₄` the one behind the number. -/
theorem covers_literal {text : String} (hd : s.depth ≤ g.maxDepth)
    (hp : Passes [.sign .subtract] .nothing s s₁) (hnumber : Passes [.number text] .operand s₁ s₄)
    (hv : (Value.readNumber ("-" ++ text)).toOption = some v) :
    g.Covers perform .signed v s s₄ :=
  ⟨.negated (.plain (.number text)), hv, hp.trans hnumber, hd⟩

/-- A number behind a minus sign that a power claims begins the operand. -/
theorem covers_continued (hc : g.Continues perform input n) {text : String} {m : Value}
    (hd : s.depth ≤ g.maxDepth) (hp : Passes [.sign .subtract] .nothing s s₁) (hs₁ : Proper s₁)
    (hnumber : Passes [.number text] .operand s₁ s₄)
    (hclaimed : signPower < headPower s₄.ahead)
    (hm : (Value.readNumber text).toOption = some m)
    (hres : g.resume (g.context input) n m signPower s₄ = some (.ok w, s'))
    (hv : w.negate.toOption = some v) :
    g.Covers perform .signed v s s' ∧ headPower s'.ahead ≤ signPower := by
  have hatom : g.Covers perform .atom m s₁ s₄ :=
    ⟨.number text, hm, hnumber, by rw [hp.depth]; exact hd⟩
  obtain ⟨⟨e, he, hpe, hde⟩, hle⟩ := hc (N := .signed) hres hs₁ hatom (by decide)
    (headPower_le_cap_atom _) (by decide) (by decide)
  have hahead : e.terminals.map some ++ s'.ahead = some (.number text) :: s₄.ahead := by
    rw [← hpe.ahead, hnumber.ahead]
    rfl
  have hhead : e.head? = some text := by
    obtain ⟨x, ts, hx, hx'⟩ := e.head?_eq (.inr rfl)
    rw [hx] at hahead
    exact (hx' _).mp (Option.some.inj (List.cons.inj hahead).1)
  have hliteral : e.literal? = none := by
    cases hlit : e.literal? with
    | none => rfl
    | some word =>
      rw [(Phrase.terminals_of_literal? e hlit).1] at hahead
      rw [← (List.cons.inj hahead).2] at hclaimed
      exact absurd hle (Nat.not_le.mpr hclaimed)
  refine ⟨⟨.negated e, ?_, ?_, ?_⟩, hle⟩
  · simp only [Phrase.value, hliteral, he]
    exact hv
  · simp only [Phrase.tally, hhead, Option.isSome_some, if_true]
    simpa [Phrase.terminals] using hp.trans hpe
  · simp only [Phrase.tally, hhead, Option.isSome_some, if_true]
    rw [← hp.depth]
    exact hde

/-- An expression behind a minus sign that begins with no number. `s₂` is the state before it. -/
theorem covers_opposite (hf : g.Finds perform input n)
    (hp : Passes [.sign .subtract] .operand s s₂) (hs₂ : Proper s₂)
    (hnumber : ∀ text, s₂.next? ≠ some (.number text))
    (hexpr : g.expression (g.context input) n signPower s₂ = some (.ok w, s'))
    (hv : w.negate.toOption = some v) :
    g.Covers perform .signed v s s' ∧ headPower s'.ahead ≤ signPower := by
  obtain ⟨s₃, ⟨e, he, hpe, hde⟩, rfl, hle⟩ :=
    hf (N := .signed) hexpr hs₂ (by decide) (by decide)
  have hnested := hpe.nested hs₂
  have hhead : e.head? = none := by
    cases hh : e.head? with
    | none => rfl
    | some text =>
      obtain ⟨x, ts, hx, hx'⟩ := e.head?_eq (.inr rfl)
      refine absurd ?_ (hnumber text)
      rw [Session.next?, hnested.ahead, hx, (hx' _).mpr hh]
      rfl
  have hliteral : e.literal? = none := by
    cases hlit : e.literal? with
    | none => rfl
    | some text =>
      rw [(Phrase.terminals_of_literal? e hlit).2] at hhead
      cases hhead
  refine ⟨⟨.negated e, ?_, ?_, ?_⟩, hle⟩
  · simp only [Phrase.value, hliteral, he]
    exact hv
  · simp only [Phrase.tally, hhead]
    simpa [Phrase.terminals] using hp.trans hnested
  · rw [show s₂.enter.depth = s₂.depth + 1 from rfl, hp.depth] at hde
    simp only [Phrase.tally, hhead, Tally.and, Tally.operand, Tally.nested]
    simp only [Option.isSome_none, Bool.false_eq_true, if_false]
    omega

/-- A number behind a minus sign, and a look at what follows it. `s₁` is the state behind the
sign. -/
theorem passes_number {number following : Token} (hs₁ : Proper s₁)
    (hpeek : s₁.countNud.peek (g.context input) = (.ok number, s₂)) (hnumber : number.symbol = 1)
    (htake : s₂.take (g.context input) = (.ok number, s₃))
    (hpeek' : s₃.peek (g.context input) = (.ok following, s₄)) :
    Passes [.number number.text] .operand s₁ s₄ ∧ following.power = headPower s₄.ahead := by
  have hp₂ := Session.passes_countNud hs₁
  obtain ⟨-, ha⟩ := (hp₂.proper hs₁).of_peek hpeek
  have hp₃ := hp₂.trans (Passes.of_alike (hp₂.proper hs₁) ha)
  have hp₄ := ((hp₃.proper hs₁).of_take htake).2 _ (Token.terminal?_number hnumber)
  have hs₄ := hp₄.proper (hp₃.proper hs₁)
  obtain ⟨hfollowing, ha'⟩ := hs₄.of_peek hpeek'
  refine ⟨by simpa using (hp₃.trans hp₄).trans (Passes.of_alike hs₄ ha'), ?_⟩
  rw [Token.power, hfollowing, ahead_of_alike ha']
  rfl

/-- A minus sign before an operand. What is found is a phrase below a sign, behind which no power
stands. `s₁` is the state behind the sign. -/
theorem finds_minus (hg : Calculates g perform) (hf : g.Finds perform input n)
    (hc : g.Continues perform input n) {t : Token} (hs : Proper s) (hd : s.depth ≤ g.maxDepth)
    (hp : Passes [.sign .subtract] .nothing s s₁)
    (h : g.act (g.context input) n (minus (g.context input) t) s₁.countNud = some (.ok v, s')) :
    g.Covers perform .signed v s s' ∧ headPower s'.ahead ≤ signPower := by
  have hs₁ := hp.proper hs
  obtain ⟨next, s₂, hpeek, hcases⟩ := (hg.act_minus_iff rfl).mp h
  rcases hcases with ⟨hnumber, number, s₃, following, s₄, htake, hpeek', hrest⟩ |
    ⟨hnumber, u, hexpr, hv⟩
  · obtain rfl := Session.take_of_peek hpeek htake
    -- The number and the sign in front of it are one operand.
    obtain ⟨hall, hpower⟩ := passes_number hs₁ hpeek hnumber htake hpeek'
    rcases hrest with ⟨hle, hv, rfl⟩ | ⟨hlt, m, u, hm, hres, hv⟩
    · exact ⟨covers_literal hd hp hall hv, hpower ▸ hle⟩
    · exact covers_continued hc hd hp hs₁ hall (hpower ▸ hlt) hm hres hv
  · have hp₂ := Session.passes_countNud hs₁
    obtain ⟨hnext, ha⟩ := (hp₂.proper hs₁).of_peek hpeek
    have hp₃ := Passes.of_alike (hp₂.proper hs₁) ha
    have hall : Passes [.sign .subtract] .operand s s₂ := by
      simpa using (hp.trans hp₂).trans hp₃
    refine covers_opposite hf hall (hall.proper hs) (fun text htext => ?_) hexpr hv
    rw [Session.next?, ahead_of_alike ha, ← Session.next?, ← hnext] at htext
    exact hnumber (Token.of_terminal?_number htext).1

/-- What begins an operand is a phrase below a sign or an atom. -/
theorem finds_nud (hg : Calculates g perform) (hf : g.Finds perform input n)
    (hc : g.Continues perform input n) {t : Token} (hs : Proper s) (hd : s.depth ≤ g.maxDepth)
    (htake : s.take (g.context input) = (.ok t, s₁))
    (h : g.act (g.context input) n (g.nudAction (g.context input) t) s₁.countNud =
      some (.ok v, s')) :
    ∃ M, g.Covers perform M v s s' ∧ 80 ≤ M.floor ∧ headPower s'.ahead ≤ M.cap := by
  cases hx : t.terminal?.bind Terminal.nud? with
  | none => exact absurd h (hg.nudAction_ne hx)
  | some nud =>
    obtain ⟨x, ht, hnud⟩ := Option.bind_eq_some_iff.mp hx
    rw [hg.nudAction_eq ht hnud] at h
    have hp := passes_nud hs htake ht
    cases x with
    | number text =>
      cases hnud
      obtain ⟨hv, rfl⟩ := act_number_iff.mp h
      rw [(Token.of_terminal?_number ht).2] at hv
      exact ⟨.atom, ⟨.number text, hv, hp, hd⟩, by decide, headPower_le_cap_atom _⟩
    | name text =>
      cases hnud
      obtain ⟨rfl, rfl⟩ := act_name_iff.mp h
      rw [(Token.of_terminal?_name ht).2]
      exact ⟨.atom, ⟨.name text, rfl, hp, hd⟩, by decide, headPower_le_cap_atom _⟩
    | opening =>
      cases hnud
      exact ⟨.atom, finds_parentheses hg hf hs hp h, by decide, headPower_le_cap_atom _⟩
    | closing => cases hnud
    | sign op =>
      cases op with
      | subtract =>
        cases hnud
        obtain ⟨hcovers, hle⟩ := finds_minus hg hf hc hs hd ((hs.of_take htake).2 _ ht) h
        exact ⟨.signed, hcovers, by decide, hle⟩
      | add | multiply | divide | power => cases hnud

/-- One step of an expression. -/
theorem finds_succ (hg : Calculates g perform) (hf : g.Finds perform input n)
    (hc : g.Continues perform input n) : g.Finds perform input (n + 1) := by
  intro least v s s' N h hs hN hleast
  obtain ⟨hd, s₁, hbegin, rfl⟩ := expression_eq_ok_iff.mp h
  obtain ⟨t, s₂, left, s₃, htake, hnud, hres⟩ := begin_eq_ok_iff.mp hbegin
  obtain ⟨M, hcovers, hfloor, hcap⟩ := finds_nud hg hf hc hs.enter hd htake hnud
  obtain ⟨hcovers', hle⟩ :=
    hc hres hs.enter hcovers (Nat.lt_of_lt_of_le hleast hfloor) hcap hN hleast
  exact ⟨s₁, hcovers', rfl, hle⟩

theorem finds_all (hg : Calculates g perform) (n : Nat) :
    g.Finds perform input n ∧ g.Continues perform input n := by
  induction n with
  | zero => exact ⟨fun h => (by cases h), fun h => (by cases h)⟩
  | succ n ih => exact ⟨finds_succ hg ih.1 ih.2, continues_succ hg ih.1 ih.2⟩

end Grammar

end Precedence
