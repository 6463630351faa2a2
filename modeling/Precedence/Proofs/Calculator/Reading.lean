import Precedence.Proofs.Calculator.Denotations
import Precedence.Proofs.Calculator.Passages

/-!
# Every phrase is read

Where a phrase of some kind lies ahead, an expression that operators of its kind continue begins
with it, whatever stands behind it.

-/

namespace Precedence

open Precedence.Source Calculator

namespace Grammar

open Session (Proper Passes)

variable {g : Grammar Value} {perform : Operation → Value → Value → Option Value} {input : String}
variable {N : Level} {least : Nat} {s s' : Session} {v : Value} {rest : List (Option Terminal)}

/-- An expression that begins where the phrase lies ahead reads it and goes on behind it. -/
def Reads (g : Grammar Value) (perform : Operation → Value → Value → Option Value) (input : String)
    (e : Phrase N) : Prop :=
  ∀ {v s least rest}, e.value perform = some v → Proper s → s.ahead = e.terminals.map some ++ rest →
    s.depth + e.tally.height ≤ g.maxDepth → least < N.floor → headPower rest ≤ N.cap →
    ∃ s', s'.ahead = rest ∧ Passes e.terminals e.tally s s' ∧
      ∀ {w s''}, Resumes g (g.context input) v least s' w s'' →
        Begins g (g.context input) least s w s''

variable {e : Phrase N}

/-- A continuation ends where the next terminal does not bind the operand. -/
theorem Calculates.resumes_stop (hg : Calculates g perform) (input : String) (hs : Proper s)
    (h : headPower s.ahead ≤ least) :
    ∃ s', Passes [] .nothing s s' ∧ Resumes g (g.context input) v least s v s' := by
  obtain ⟨t, s', hp, ht, ha⟩ := hs.peek (c := g.context input)
  refine ⟨s', Passes.of_alike hs ha, Resumes.stop hp ?_⟩
  rw [hg.power, Token.power, ht]
  exact h

/-- A phrase is an expression if no operator behind it binds it. -/
theorem Reads.expresses (least : Nat) (hg : Calculates g perform) (he : g.Reads perform input e)
    (hv : e.value perform = some v) (hs : Proper s) (ha : s.ahead = e.terminals.map some ++ rest)
    (hd : s.depth + e.tally.nested.height ≤ g.maxDepth) (hl : least < N.floor)
    (hcap : headPower rest ≤ N.cap) (hrest : headPower rest ≤ least) :
    ∃ s', s'.ahead = rest ∧ Passes e.terminals e.tally.nested s s' ∧
      Expresses g (g.context input) least s v s' := by
  rw [show e.tally.nested.height = e.tally.height + 1 from rfl] at hd
  obtain ⟨s₁, ha₁, hp₁, hbegin⟩ := he (s := s.enter) hv hs.enter ha
    (by rw [show s.enter.depth = s.depth + 1 from rfl]; omega) hl hcap
  obtain ⟨s₂, hp₂, hstop⟩ := hg.resumes_stop (v := v) input (hp₁.proper hs.enter)
    (ha₁ ▸ hrest)
  have hp := hp₁.trans hp₂
  rw [List.append_nil, Tally.and_nothing] at hp
  refine ⟨s₂.leave, ?_, hp.nested hs, Expresses.intro (by omega) (hbegin hstop)⟩
  rw [← ha₁, hp₂.ahead]
  rfl

/-- An operator that binds its left operand is read with its right operand. -/
theorem resumes_operation (hg : Calculates g perform) (op : Operation) (least : Nat)
    {b : Phrase (.right op)} {left right w : Value} (hb : g.Reads perform input b)
    (hright : b.value perform = some right) (hw : perform op left right = some w) (hs : Proper s)
    (ha : s.ahead = some (.sign op) :: (b.terminals.map some ++ rest))
    (hd : s.depth + b.tally.nested.height ≤ g.maxDepth) (hl : least < op.leftPower)
    (hcap : headPower rest ≤ (Level.of op).cap) :
    ∃ s', s'.ahead = rest ∧
      Passes (.sign op :: b.terminals) (Tally.operator.and b.tally.nested) s s' ∧
      ∀ {u s''}, Resumes g (g.context input) w least s' u s'' →
        Resumes g (g.context input) left least s u s'' := by
  obtain ⟨t, s₁, s₂, hpeek, htake, -, ht, ha₂, hp₂⟩ := hs.peek_take (c := g.context input) ha
  have hs₂ := hp₂.proper hs
  have hp₃ := Session.passes_countLed hs₂
  have hbounds : op.rightPower < (Level.right op).floor ∧
      (Level.of op).cap ≤ (Level.right op).cap ∧ (Level.of op).cap ≤ op.rightPower := by
    cases op <;> decide
  have hd₃ : s₂.countLed.depth = s.depth := by
    rw [hp₃.depth, hp₂.depth]
  obtain ⟨s', ha', hp₄, hexpr⟩ := hb.expresses op.rightPower hg hright (hp₃.proper hs₂)
    ha₂ (by rw [hd₃]; exact hd) hbounds.1 (Nat.le_trans hcap hbounds.2.1)
    (Nat.le_trans hcap hbounds.2.2)
  refine ⟨s', ha', ?_, fun {u s''} hu => ?_⟩
  · have hp := (hp₂.trans hp₃).trans hp₄
    simpa using hp
  · obtain ⟨n, hn⟩ := hexpr
    refine Resumes.step hpeek ?_ htake ⟨n, (hg.led_eq_ok_iff ht).mpr ⟨right, hn, hw⟩⟩ hu
    rw [hg.power, Token.power, ht]
    exact hl

/-- An operation is read if its operands are. -/
theorem reads_applied (hg : Calculates g perform) (op : Operation) {a : Phrase (.left op)}
    {b : Phrase (.right op)} (ha : g.Reads perform input a) (hb : g.Reads perform input b) :
    g.Reads perform input (Phrase.applied op a b) := by
  intro w s least rest hw hs hahead hd hl hcap
  obtain ⟨left, right, hleft, hright, hw⟩ := Phrase.value_applied_eq_some_iff.mp hw
  rw [Phrase.tally_applied] at hd ⊢
  simp only [Tally.and, Tally.operator] at hd
  rw [Phrase.terminals_applied] at hahead ⊢
  have hbounds : (Level.of op).floor ≤ (Level.left op).floor ∧
      (Level.of op).floor ≤ op.leftPower ∧ op.leftPower ≤ (Level.left op).cap := by
    cases op <;> decide
  have hahead' : s.ahead =
      a.terminals.map some ++ some (.sign op) :: (b.terminals.map some ++ rest) := by
    simpa using hahead
  obtain ⟨s₁, ha₁, hp₁, hbegin⟩ := ha hleft hs hahead' (by omega)
    (Nat.lt_of_lt_of_le hl hbounds.1) hbounds.2.2
  obtain ⟨s', ha', hp₂, hresume⟩ := resumes_operation hg op least hb hright hw
    (hp₁.proper hs) ha₁ (by rw [hp₁.depth]; omega) (Nat.lt_of_lt_of_le hl hbounds.2.1) hcap
  exact ⟨s', ha', hp₁.trans hp₂, fun hu => hbegin (hresume hu)⟩

/-! ## Operands -/

theorem reads_number (hg : Calculates g perform) (text : String) :
    g.Reads perform input (.number text) := by
  intro v s least rest hv hs hahead hd hl hcap
  obtain ⟨t, s₁, htake, ht, ha, hp⟩ := hs.take (c := g.context input) hahead
  have hp' := hp.trans (Session.passes_countNud (hp.proper hs))
  refine ⟨s₁.countNud, ha, hp', fun hu => Begins.intro htake ?_ hu⟩
  rw [hg.nudAction_eq ht rfl]
  exact ⟨0, act_number_iff.mpr ⟨by rw [(Token.of_terminal?_number ht).2]; exact hv, rfl⟩⟩

theorem reads_name (hg : Calculates g perform) (text : String) :
    g.Reads perform input (.name text) := by
  intro v s least rest hv hs hahead hd hl hcap
  obtain ⟨t, s₁, htake, ht, ha, hp⟩ := hs.take (c := g.context input) hahead
  have hp' := hp.trans (Session.passes_countNud (hp.proper hs))
  refine ⟨s₁.countNud, ha, hp', fun hu => Begins.intro htake ?_ hu⟩
  rw [hg.nudAction_eq ht rfl]
  refine ⟨0, act_name_iff.mpr ⟨?_, rfl⟩⟩
  rw [(Token.of_terminal?_name ht).2]
  exact (Option.some.inj hv).symm

/-- Parentheses are taken with the sum between them. -/
theorem acts_group (hg : Calculates g perform) {e : Phrase .sum} (he : g.Reads perform input e)
    (hv : e.value perform = some v) (hs : Proper s)
    (hahead : s.ahead = (Phrase.group e).terminals.map some ++ rest)
    (hd : s.depth + (Phrase.group e).tally.height ≤ g.maxDepth) :
    ∃ t s₁ s', s.take (g.context input) = (.ok t, s₁) ∧
      Acts g (g.context input) (g.nudAction (g.context input) t) s₁.countNud v s' ∧
      s'.ahead = rest ∧ Passes (Phrase.group e).terminals (Phrase.group e).tally s s' := by
  have hahead' : s.ahead =
      some .opening :: (e.terminals.map some ++ (some .closing :: rest)) := by
    simpa [Phrase.terminals] using hahead
  simp only [Phrase.tally, Tally.and, Tally.operand] at hd
  obtain ⟨t, s₁, htake, ht, ha₁, hp₁⟩ := hs.take (c := g.context input) hahead'
  have hs₁ := hp₁.proper hs
  have hp₂ := Session.passes_countNud hs₁
  have hd₂ : s₁.countNud.depth = s.depth := by rw [hp₂.depth, hp₁.depth]
  obtain ⟨s₂, ha₂, hp₃, hexpr⟩ := he.expresses 0 hg hv (hp₂.proper hs₁) ha₁
    (by rw [hd₂]; omega) (by decide) (by simp [headPower, Terminal.power])
    (by simp [headPower, Terminal.power])
  have hs₂ := hp₃.proper (hp₂.proper hs₁)
  -- The parenthesis at the end is looked at and then taken.
  obtain ⟨t', s₃, s₄, hpeek, htake', -, ht', ha₄, hp₄⟩ :=
    hs₂.peek_take (c := g.context input) ha₂
  have hend : t'.isEnd = false := by
    rw [Token.isEnd, beq_eq_false_iff_ne]
    intro h0
    simp [Token.terminal?, h0] at ht'
  obtain ⟨n, hn⟩ := hexpr
  refine ⟨t, s₁, s₄, htake, ?_, ha₄, ?_⟩
  · rw [hg.nudAction_eq ht rfl]
    refine ⟨n, act_parentheses_iff.mpr ⟨s₂, t', hn, act_takeExpected_iff.mpr ?_⟩⟩
    exact ⟨t', s₃, hpeek, hend, (hg.id_eq_iff t').mpr ht', htake'⟩
  · have hp := ((hp₁.trans hp₂).trans hp₃).trans hp₄
    simpa [Phrase.terminals, Phrase.tally] using hp

theorem reads_group (hg : Calculates g perform) {e : Phrase .sum} (he : g.Reads perform input e) :
    g.Reads perform input (.group e) := by
  intro v s least rest hv hs hahead hd hl hcap
  obtain ⟨t, s₁, s', htake, hact, ha, hp⟩ := acts_group hg he hv hs hahead hd
  exact ⟨s', ha, hp, fun hu => Begins.intro htake hact hu⟩

/-! ## The minus sign -/

/-- A minus sign before an operand is taken. -/
theorem take_minus (hg : Calculates g perform) (input : String) (hs : Proper s)
    (ha : s.ahead = some (.sign .subtract) :: rest) :
    ∃ t s', s'.ahead = rest ∧ Passes [.sign .subtract] .operand s s' ∧
      ∀ {least v s₁ w s₂}, Acts g (g.context input) (minus (g.context input) t) s' v s₁ →
        Resumes g (g.context input) v least s₁ w s₂ → Begins g (g.context input) least s w s₂ := by
  obtain ⟨t, s₁, htake, ht, ha₁, hp⟩ := hs.take (c := g.context input) ha
  refine ⟨t, s₁.countNud, ha₁, ?_, fun hact hu => Begins.intro htake ?_ hu⟩
  · exact hp.trans (Session.passes_countNud (hp.proper hs))
  · rw [hg.nudAction_eq ht rfl]
    exact hact

/-- A number behind a minus sign is looked at and taken, and then what is behind it is looked at. -/
theorem take_number (input : String) (hs : Proper s) {text : String}
    (ha : s.ahead = some (.number text) :: rest) :
    ∃ number s₁ s₂ following s', s.peek (g.context input) = (.ok number, s₁) ∧
      number.symbol = 1 ∧ s₁.take (g.context input) = (.ok number, s₂) ∧ number.text = text ∧
      s₂.peek (g.context input) = (.ok following, s') ∧ following.power = headPower rest ∧
      s'.ahead = rest ∧ Passes [.number text] .nothing s s' := by
  obtain ⟨number, s₁, s₂, hpeek, htake, -, hnumber, ha₂, hp₂⟩ :=
    hs.peek_take (c := g.context input) ha
  have hs₂ := hp₂.proper hs
  obtain ⟨following, s', hpeek', hfollowing, halike'⟩ := hs₂.peek (c := g.context input)
  have hp₃ := Passes.of_alike hs₂ halike'
  obtain ⟨hsymbol, htext⟩ := Token.of_terminal?_number hnumber
  refine ⟨number, s₁, s₂, following, s', hpeek, hsymbol, htake, htext, hpeek', ?_, ?_,
    by simpa using hp₂.trans hp₃⟩
  · rw [Token.power, hfollowing, Session.next?, ha₂]
    rfl
  · rw [← ha₂, hp₃.ahead]
    rfl

/-- A number behind a minus sign is part of its literal if no power claims it. -/
theorem reads_literal (hg : Calculates g perform) (text : String) :
    g.Reads perform input (.negated (.plain (.number text))) := by
  intro v s least rest hv hs hahead hd hl hcap
  obtain ⟨t, s₁, ha₁, hp₁, hbegin⟩ := take_minus hg input hs hahead
  obtain ⟨number, s₂, s₃, following, s', hpeek, hsymbol, htake, htext, hpeek', hfollowing, ha',
    hp₂⟩ := take_number (g := g) input (hp₁.proper hs) ha₁
  refine ⟨s', ha', hp₁.trans hp₂, fun hu => hbegin ⟨0, (hg.act_minus_iff rfl).mpr ?_⟩ hu⟩
  refine ⟨number, s₂, hpeek, .inl ⟨hsymbol, number, s₃, following, s', htake, hpeek', .inl ?_⟩⟩
  exact ⟨by rw [hfollowing]; exact hcap, by rw [htext]; exact hv, rfl⟩

/-- A power behind a minus sign claims its number, and the minus sign negates the power. -/
theorem reads_continued (hg : Calculates g perform) (text : String) {u : Phrase .signed}
    (hu : g.Reads perform input u) :
    g.Reads perform input (.negated (.raised (.number text) u)) := by
  intro v s least rest hv hs hahead hd hl hcap
  obtain ⟨w, hw, hv⟩ := Option.bind_eq_some_iff.mp hv
  obtain ⟨left, hleft, hw⟩ := Option.bind_eq_some_iff.mp hw
  obtain ⟨right, hright, hw⟩ := Option.bind_eq_some_iff.mp hw
  obtain ⟨t, s₁, ha₁, hp₁, hbegin⟩ := take_minus hg input hs hahead
  have hs₁ := hp₁.proper hs
  obtain ⟨number, s₂, s₃, following, s₄, hpeek, hsymbol, htake, htext, hpeek', hfollowing, ha₄,
    hp₂⟩ := take_number (g := g) input hs₁ ha₁
  have hs₄ := hp₂.proper hs₁
  have hd₄ : s₄.depth = s.depth := by rw [hp₂.depth, hp₁.depth]
  obtain ⟨s₅, ha₅, hp₃, hresume⟩ := resumes_operation hg .power signPower hu
    hright hw hs₄ ha₄ (by rw [hd₄]; exact hd) (by decide) hcap
  obtain ⟨s', hp₄, hstop⟩ := hg.resumes_stop (v := w) input (hp₃.proper hs₄)
    (show headPower s₅.ahead ≤ signPower from ha₅ ▸ hcap)
  obtain ⟨n, hn⟩ := hresume hstop
  refine ⟨s', ?_, ?_, fun hu => hbegin ⟨n, (hg.act_minus_iff rfl).mpr ?_⟩ hu⟩
  · rw [← ha₅, hp₄.ahead]
    rfl
  · have hp := ((hp₁.trans hp₂).trans hp₃).trans hp₄
    simp only [List.append_nil, List.cons_append, List.nil_append, Tally.and_nothing] at hp
    exact hp
  · refine ⟨number, s₂, hpeek, .inl ⟨hsymbol, number, s₃, following, s₄, htake, hpeek', .inr ?_⟩⟩
    rw [← htext] at hleft
    exact ⟨Nat.lt_of_lt_of_eq (by decide : signPower < 80) hfollowing.symm, left, w, hleft, hn, hv⟩

/-- Any other operand behind a minus sign is an expression of its own. -/
theorem reads_opposite (hg : Calculates g perform) {u : Phrase .signed}
    (hu : g.Reads perform input u) (hhead : u.head? = none) (hliteral : u.literal? = none) :
    g.Reads perform input (.negated u) := by
  intro v s least rest hv hs hahead hd hl hcap
  simp only [Phrase.value, hliteral] at hv
  obtain ⟨w, hw, hv⟩ := Option.bind_eq_some_iff.mp hv
  simp only [Phrase.tally, hhead] at hd ⊢
  have hahead' : s.ahead = some (.sign .subtract) :: (u.terminals.map some ++ rest) := hahead
  obtain ⟨t, s₁, ha₁, hp₁, hbegin⟩ := take_minus hg input hs hahead'
  have hs₁ := hp₁.proper hs
  obtain ⟨next, s₂, hpeek, hnext, halike⟩ := hs₁.peek (c := g.context input)
  have hp₂ := Passes.of_alike hs₁ halike
  have ha₂ : s₂.ahead = u.terminals.map some ++ rest := by
    rw [← ha₁, hp₂.ahead]
    rfl
  have hd₂ : s₂.depth = s.depth := by rw [hp₂.depth, hp₁.depth]
  obtain ⟨s', ha', hp₃, n, hn⟩ := hu.expresses signPower hg hw (hp₂.proper hs₁) ha₂
    (by rw [hd₂]; exact Nat.le_trans (Nat.add_le_add_left (Nat.le_max_right _ _) _) hd)
    (by decide) hcap hcap
  refine ⟨s', ha', ?_, fun hu => hbegin ⟨n, (hg.act_minus_iff rfl).mpr ?_⟩ hu⟩
  · have hp := (hp₁.trans hp₂).trans hp₃
    simpa [Phrase.terminals] using hp
  · refine ⟨next, s₂, hpeek, .inr ⟨?_, w, hn, hv⟩⟩
    intro h1
    obtain ⟨x, ts, hx, hnumber⟩ := u.head?_eq (.inr rfl)
    have hterm := Token.terminal?_number h1
    rw [hnext, Session.next?, ha₁, hx] at hterm
    have := (hnumber next.text).mp (Option.some.inj hterm)
    rw [hhead] at this
    cases this

/-- **Every phrase is read.** -/
theorem reads (hg : Calculates g perform) : {N : Level} → (e : Phrase N) → g.Reads perform input e
  | _, .number text => reads_number hg text
  | _, .name text => reads_name hg text
  | _, .group e => reads_group hg (reads hg e)
  | _, .plain a => fun hv hs ha hd hl hcap =>
    reads hg a hv hs ha hd (Nat.lt_trans hl (by decide)) (Nat.le_trans hcap (by decide))
  | _, .raised a u => reads_applied hg .power (reads hg a) (reads hg u)
  | _, .negated (.plain (.number text)) => reads_literal hg text
  | _, .negated (.plain (.name text)) => reads_opposite hg (reads hg (.plain (.name text))) rfl rfl
  | _, .negated (.plain (.group e)) => reads_opposite hg (reads hg (.plain (.group e))) rfl rfl
  | _, .negated (.raised (.number text) u) => reads_continued hg text (reads hg u)
  | _, .negated (.raised (.name text) u) =>
    reads_opposite hg (reads hg (.raised (.name text) u)) rfl rfl
  | _, .negated (.raised (.group e) u) =>
    reads_opposite hg (reads hg (.raised (.group e) u)) rfl rfl
  | _, .negated (.negated u) => reads_opposite hg (reads hg (.negated u)) rfl rfl
  | _, .factor u => fun hv hs ha hd hl hcap =>
    reads hg u hv hs ha hd (Nat.lt_trans hl (by decide)) (Nat.le_trans hcap (by decide))
  | _, .multiplied t u => reads_applied hg .multiply (reads hg t) (reads hg u)
  | _, .divided t u => reads_applied hg .divide (reads hg t) (reads hg u)
  | _, .term t => fun hv hs ha hd hl hcap =>
    reads hg t hv hs ha hd (Nat.lt_trans hl (by decide)) (Nat.le_trans hcap (by decide))
  | _, .added e t => reads_applied hg .add (reads hg e) (reads hg t)
  | _, .subtracted e t => reads_applied hg .subtract (reads hg e) (reads hg t)

end Grammar

end Precedence
