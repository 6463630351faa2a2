import Precedence.Proofs.Parsing.Blame

/-!
# What a parse takes

How many tokens a parse takes, and how many denotations it calls for them. Every call follows a token
that is taken for it. A token is taken once, apart from the end of the text, which is there as often
as it is asked for: where it neither begins an operand nor binds one, a parse that takes it fails.

* `Session.Pays`: what lies between two states, a call at most for every token and a number of
  tokens beyond those that were ahead.
* `Sparing.whole`: if denotations take no end of the text, a whole text takes it at most once.
-/

namespace Precedence

open Precedence.Source

variable {V α β : Type}

/-! ## Tokens and calls -/

namespace Session

variable {scan : Scan} {c : Context} {s s' s₁ s₂ : Session} {t : Token} {extra extra' : Nat}

/-- The calls of denotations. -/
def calls (s : Session) : Nat :=
  s.stats.nuds + s.stats.leds

/-- The tokens that were taken and those that are ahead. -/
def supply (s : Session) : Nat :=
  s.stats.tokens + s.upcoming.length

/-- Between the two states a token was taken for every call, and at most `extra` tokens beyond those
that were ahead. -/
structure Pays (extra : Nat) (s s' : Session) : Prop where
  calls : s'.calls + s.stats.tokens ≤ s.calls + s'.stats.tokens
  supply : s'.supply ≤ s.supply + extra

theorem Pays.refl (extra : Nat) (s : Session) : s.Pays extra s :=
  ⟨Nat.le_refl _, Nat.le_add_right _ _⟩

theorem Pays.trans (h : s.Pays extra s₁) (h' : s₁.Pays extra' s₂) :
    s.Pays (extra + extra') s₂ where
  calls := by
    have := h.calls
    have := h'.calls
    omega
  supply := by
    have := h.supply
    have := h'.supply
    omega

/-- What was paid without an extra token may be followed by what takes one. -/
theorem Pays.then (h : s.Pays 0 s₁) (h' : s₁.Pays extra s₂) : s.Pays extra s₂ := by
  have := h.trans h'
  rwa [Nat.zero_add] at this

theorem Alike.pays (h : Alike s s') : s.Pays 0 s' where
  calls := Nat.le_of_eq (by rw [Session.calls, Session.calls, h.stats])
  supply := Nat.le_of_eq (by
    rw [Session.supply, Session.supply, h.stats, h.upcoming, Nat.add_zero])

theorem pays_peek (s : Session) : s.Pays 0 (s.peek c).2 :=
  (alike_peek s).pays

/-- Where there is no token nothing is taken. -/
theorem pays_take_error {e : ParseError} (h : s.take c = (.error e, s')) : s.Pays 0 s' := by
  have hpays := pays_peek (c := c) s
  rw [take] at h
  rcases hp : s.peek c with ⟨e' | t, s₁⟩
  · rw [hp] at h hpays
    cases h
    exact hpays
  · rw [hp] at h
    cases h

/-- Between the two states one token was taken, and none was called for. -/
structure Takes (extra : Nat) (s s' : Session) : Prop where
  tokens : s'.stats.tokens = s.stats.tokens + 1
  calls : s'.calls = s.calls
  supply : s'.supply ≤ s.supply + extra

namespace Takes

theorem pays (h : s.Takes extra s') : s.Pays extra s' where
  calls := by
    rw [h.calls, h.tokens]
    omega
  supply := h.supply

theorem pays_countNud (h : s.Takes extra s') : s.Pays extra s'.countNud where
  calls := by
    have := h.calls
    have := h.tokens
    simp only [Session.calls, countNud] at *
    omega
  supply := h.supply

theorem pays_countLed (h : s.Takes extra s') : s.Pays extra s'.countLed where
  calls := by
    have := h.calls
    have := h.tokens
    simp only [Session.calls, countLed] at *
    omega
  supply := h.supply

end Takes

/-- A token is one of those that were ahead, unless it is the end of the text. -/
theorem Within.takes (hs : s.Within scan) (hscan : scan.Ends) (ht : s.take c = (.ok t, s')) :
    s.Takes (if t.symbol = 0 then 1 else 0) s' := by
  obtain ⟨s₁, hp, rfl⟩ := take_eq_ok_iff.mp ht
  have ha := alike_peek (c := c) s
  rw [hp] at ha
  have htokens : (s₁.drop t).stats.tokens = s.stats.tokens + 1 :=
    congrArg (·.tokens + 1) ha.stats
  have hcalls : (s₁.drop t).calls = s.calls :=
    congrArg (fun stats => stats.nuds + stats.leds) ha.stats
  have hupcoming : (s₁.drop t).upcoming = s.upcoming.tail := congrArg List.tail ha.upcoming
  refine ⟨htokens, hcalls, ?_⟩
  rw [supply, supply, htokens, hupcoming]
  rcases hs.of_peek hp with ⟨-, ts, hu⟩ | ⟨hend, hu⟩
  · rw [hu, List.tail_cons, List.length_cons]
    omega
  · rw [hu, if_pos (hscan.symbol_eq t hend)]
    exact Nat.le_refl _

theorem Within.takes_of_symbol_ne (hs : s.Within scan) (hscan : scan.Ends)
    (ht : s.take c = (.ok t, s')) (hsymbol : t.symbol ≠ 0) : s.Takes 0 s' := by
  have h := hs.takes hscan ht
  rwa [if_neg hsymbol] at h

end Session

namespace Outcome

variable {c : Context} {s s' s₁ : Session} {o : Outcome α} {f : α → Session → Outcome β}
variable {h : Token → Session → Outcome β}

/-- What began in the state `s` takes no token beyond those that were ahead, or one if it fails. -/
structure Spends (s : Session) (o : Outcome α) : Prop where
  ok : ∀ a s', o = some (.ok a, s') → s.Pays 0 s'
  error : ∀ e s', o = some (.error e, s') → s.Pays 1 s'

theorem spends_none : Spends s (none : Outcome α) :=
  ⟨fun _ _ h => (by cases h), fun _ _ h => (by cases h)⟩

theorem spends_ok (a : α) (h : s.Pays 0 s') : Spends s (some (.ok a, s')) where
  ok := by
    intro a' s₁ h'
    cases h'
    exact h
  error _ _ h' := by cases h'

theorem spends_error (e : ParseError) (h : s.Pays 1 s') :
    Spends s (some (.error e, s') : Outcome α) where
  ok _ _ h' := by cases h'
  error := by
    intro e' s₁ h'
    cases h'
    exact h

/-- What ends where it began takes nothing. -/
theorem spends_self (r : Except ParseError α) (s : Session) : Spends s (some (r, s)) := by
  cases r with
  | ok a => exact spends_ok a (.refl 0 s)
  | error e => exact spends_error e (.refl 1 s)

theorem Spends.of_pays (hs : s.Pays 0 s₁) (ho : Spends s₁ o) : Spends s o :=
  ⟨fun a s' h => hs.then (ho.ok a s' h), fun e s' h => hs.then (ho.error e s' h)⟩

theorem Spends.andThen (ho : Spends s o) (hf : ∀ a s₁, o = some (.ok a, s₁) → Spends s₁ (f a s₁)) :
    Spends s (Outcome.andThen o f) := by
  rcases o with _ | ⟨e | a, s₁⟩
  · exact spends_none
  · exact spends_error e (ho.error e s₁ rfl)
  · exact (hf a s₁ rfl).of_pays (ho.ok a s₁ rfl)

/-- To look at a token takes nothing. -/
theorem spends_peek_andThen (hf : ∀ t s₁, s.peek c = (.ok t, s₁) → Spends s₁ (h t s₁)) :
    Spends s (Outcome.andThen (some (s.peek c)) h) := by
  have hpays := Session.pays_peek (c := c) s
  rcases hp : s.peek c with ⟨e | t, s₁⟩
  · rw [hp] at hpays
    exact spends_error e (hpays.then (.refl 1 s₁))
  · rw [hp] at hpays
    exact (hf t s₁ hp).of_pays hpays

theorem spends_take (ht : ∀ t s₁, s.take c = (.ok t, s₁) → s.Pays 0 s₁) :
    Spends s (some (s.take c)) := by
  rcases h : s.take c with ⟨e | t, s₁⟩
  · exact spends_error e ((Session.pays_take_error h).then (.refl 1 s₁))
  · exact spends_ok t (ht t s₁ h)

/-- What follows a token accounts for the token as well. -/
theorem spends_take_andThen (hf : ∀ t s₁, s.take c = (.ok t, s₁) → Spends s (h t s₁)) :
    Spends s (Outcome.andThen (some (s.take c)) h) := by
  rcases ht : s.take c with ⟨e | t, s₁⟩
  · exact spends_error e ((Session.pays_take_error ht).then (.refl 1 s₁))
  · exact hf t s₁ ht

end Outcome

/-! ## Parses -/

namespace Grammar

open Outcome

variable {g : Grammar V} {c : Context} {scan : Scan} {n least : Nat} {left : V} {s s' : Session}

/-- What is parsed within `n` steps takes the end of the text at most once, and then fails. -/
structure SpendsWithin (g : Grammar V) (c : Context) (scan : Scan) (n : Nat) : Prop where
  expression : ∀ least s, s.Within scan → Spends s (g.expression c n least s)
  resume : ∀ left least s, s.Within scan → Spends s (g.resume c n left least s)

/-- The end of the text begins no operand and binds none, and denotations take it as seldom as their
requests do. -/
structure Sparing (g : Grammar V) (c : Context) (scan : Scan) : Prop where
  ends : scan.Ends
  power : ∀ t : Token, t.symbol = 0 → c.power t.symbol = 0
  nud_end : ∀ n t s, t.symbol = 0 →
    ∃ e, g.act c n (g.nudAction c t) s = some (.error e, s)
  nud : ∀ n t s, g.SpendsWithin c scan n → s.Within scan → t.symbol ≠ 0 →
    Spends s (g.act c n (g.nudAction c t) s)
  led : ∀ n t left s, g.SpendsWithin c scan n → s.Within scan → 0 < c.power t.symbol →
    Spends s (g.act c n (g.ledAction c t left) s)

namespace Sparing

theorem begin (h : g.Sparing c scan) (hn : g.SpendsWithin c scan n) (hs : s.Within scan) :
    Spends s (g.begin c n least s) := by
  have hkept := Session.isKept_within (c := c) scan
  rw [begin_eq]
  refine spends_take_andThen fun t s₁ ht => ?_
  have hs₁ := hs.of_take_ok ht
  have hs₁' : s₁.countNud.Within scan := ⟨hs₁.upcoming, hs₁.ending⟩
  by_cases hend : t.symbol = 0
  · have htakes := hs.takes h.ends ht
    rw [if_pos hend] at htakes
    obtain ⟨e, he⟩ := h.nud_end n t s₁.countNud hend
    rw [he, andThen_error]
    exact spends_error e htakes.pays_countNud
  · have htakes := hs.takes_of_symbol_ne h.ends ht hend
    refine Spends.of_pays htakes.pays_countNud ((h.nud n t s₁.countNud hn hs₁' hend).andThen ?_)
    intro left s₂ hleft
    exact hn.resume left least s₂ ((keeps g hkept n).act hkept hleft hs₁')

theorem expression_succ (h : g.Sparing c scan) (hn : g.SpendsWithin c scan n)
    (hs : s.Within scan) : Spends s (g.expression c (n + 1) least s) := by
  have hs' : s.enter.Within scan := ⟨hs.upcoming, hs.ending⟩
  have henter : s.Pays 0 s.enter := ⟨Nat.le_refl _, Nat.le_refl _⟩
  refine Spends.of_pays henter ?_
  by_cases hd : s.depth < g.maxDepth
  · rw [expression_of_le hd]
    exact (h.begin hn hs').andThen fun v s₁ _ => spends_ok v ⟨Nat.le_refl _, Nat.le_refl _⟩
  · rw [expression_of_ge (Nat.not_lt.mp hd)]
    exact spends_peek_andThen fun t s₁ _ => spends_self _ s₁

theorem resume_succ (h : g.Sparing c scan) (hn : g.SpendsWithin c scan n)
    (hs : s.Within scan) : Spends s (g.resume c (n + 1) left least s) := by
  have hkept := Session.isKept_within (c := c) scan
  rw [Grammar.resume_succ]
  refine spends_peek_andThen fun t s₁ hp => ?_
  split
  · exact spends_self _ s₁
  rename_i hpower
  have hs₁ := hs.of_peek_ok hp
  refine spends_take_andThen fun t' s₂ ht => ?_
  obtain rfl := Session.take_of_peek hp ht
  have hs₂ := hs₁.of_take_ok ht
  have hs₂' : s₂.countLed.Within scan := ⟨hs₂.upcoming, hs₂.ending⟩
  -- The end of the text binds no operand, so the token is one in front of it.
  have hsymbol : t'.symbol ≠ 0 := by
    intro h0
    rw [h.power t' h0] at hpower
    exact hpower (Nat.zero_le _)
  have htakes := hs₁.takes_of_symbol_ne h.ends ht hsymbol
  refine Spends.of_pays htakes.pays_countLed
    ((h.led n t' left s₂.countLed hn hs₂' (by omega)).andThen fun w s₃ hw => ?_)
  exact hn.resume w least s₃ ((keeps g hkept n).act hkept hw hs₂')

theorem spendsWithin (h : g.Sparing c scan) (n : Nat) : g.SpendsWithin c scan n := by
  induction n with
  | zero => exact ⟨fun _ _ _ => spends_none, fun _ _ _ _ => spends_none⟩
  | succ n ih =>
    exact ⟨fun _ _ hs => h.expression_succ ih hs, fun _ _ _ hs => h.resume_succ ih hs⟩

/-- **A whole text takes the end of the text at most once**, and only to fail. -/
theorem whole (h : g.Sparing c scan) (hs : s.Within scan) : Spends s (g.whole c n s) := by
  rw [Grammar.whole]
  refine ((h.spendsWithin n).expression 0 s hs).andThen fun v s₁ _ => ?_
  refine spends_peek_andThen fun t s₂ _ => ?_
  split
  · exact spends_self _ s₂
  · exact spends_self _ s₂

/-- What the parse of a scan has taken and called when it ends. -/
theorem counts_le (h : g.Sparing c scan) {length : Nat} {result : Except ParseError (V × Stats)}
    (hw : g.whole c n (Session.start scan length) = some (result, s')) :
    s'.stats.tokens ≤ scan.tokens.length + 1 ∧
      s'.stats.nuds + s'.stats.leds ≤ s'.stats.tokens := by
  have hspends := h.whole (n := n) (Session.within_start scan length)
  have hpays : (Session.start scan length).Pays 1 s' := by
    cases result with
    | error e => exact hspends.error e s' hw
    | ok a => exact (hspends.ok a s' hw).trans (.refl 1 s')
  have hsupply := hpays.supply
  have hcalls := hpays.calls
  simp only [Session.supply, Session.calls, Session.start] at hsupply hcalls
  omega

end Sparing

end Grammar

end Precedence
