import Precedence.Proofs.Parsing.Rules

/-!
# Rules of failure

What it takes for an action, an expression or a continuation to fail with a certain error, without
the bound on the nesting of steps. An error passes through all that it happens in, up to the parse
of the whole text.
-/

namespace Precedence

open Precedence.Source

variable {V α β : Type}

namespace Grammar

variable {g : Grammar V} {c : Context} {least : Nat} {s s₁ s₂ s₃ : Session} {left : V}
variable {t t' : Token} {e : ParseError}

/-- The action fails with the error. -/
def ActFails (g : Grammar V) (c : Context) (m : Action V α) (s : Session) (e : ParseError) : Prop :=
  ∃ n s', g.act c n m s = some (.error e, s')

/-- The expression whose operators bind tighter than `least` fails with the error. -/
def ExpressionFails (g : Grammar V) (c : Context) (least : Nat) (s : Session) (e : ParseError) :
    Prop :=
  ∃ n s', g.expression c n least s = some (.error e, s')

/-- The expression without the count of its nesting fails with the error. -/
def BeginFails (g : Grammar V) (c : Context) (least : Nat) (s : Session) (e : ParseError) : Prop :=
  ∃ n s', g.begin c n least s = some (.error e, s')

/-- The expression that begins with the operand `left` fails with the error. -/
def ResumeFails (g : Grammar V) (c : Context) (left : V) (least : Nat) (s : Session)
    (e : ParseError) : Prop :=
  ∃ n s', g.resume c n left least s = some (.error e, s')

/-! ## Actions -/

theorem ActFails.fail (e : ParseError) : ActFails g c (.fail e : Action V α) s e :=
  ⟨0, s, act_fail e⟩

/-- An action fails if what comes behind its first part does. -/
theorem ActFails.bind {m : Action V α} {f : α → Action V β} {a : α} (h : Acts g c m s a s₁)
    (hf : ActFails g c (f a) s₁ e) : ActFails g c (m >>= f) s e := by
  obtain ⟨n, hn⟩ := h
  obtain ⟨k, s', hk⟩ := hf
  refine ⟨max n k, s', ?_⟩
  rw [act_bind, act_mono (Nat.le_max_left n k) hn, Outcome.andThen_ok,
    act_mono (Nat.le_max_right n k) hk]

/-! ## Expressions -/

/-- An expression fails if its first operand does. -/
theorem BeginFails.nud (ht : s.take c = (.ok t, s₁))
    (hn : ActFails g c (g.nudAction c t) s₁.countNud e) : BeginFails g c least s e := by
  obtain ⟨n, s', hn⟩ := hn
  refine ⟨n, s', ?_⟩
  rw [begin, ht]
  simp only
  rw [hn, Outcome.andThen_error]

/-- An expression fails if what continues its first operand does. -/
theorem BeginFails.resume (ht : s.take c = (.ok t, s₁))
    (hn : Acts g c (g.nudAction c t) s₁.countNud left s₂) (hr : ResumeFails g c left least s₂ e) :
    BeginFails g c least s e := by
  obtain ⟨n, hn⟩ := hn
  obtain ⟨k, s', hk⟩ := hr
  refine ⟨max n k, s', ?_⟩
  rw [begin, ht]
  simp only
  rw [act_mono (Nat.le_max_left n k) hn, Outcome.andThen_ok, resume_mono (Nat.le_max_right n k) hk]

theorem ExpressionFails.intro (hd : s.depth < g.maxDepth) (h : BeginFails g c least s.enter e) :
    ExpressionFails g c least s e := by
  obtain ⟨n, s', hn⟩ := h
  exact ⟨n + 1, s', by rw [expression_of_le hd, hn, Outcome.andThen_error]⟩

/-- A continuation fails if the token that binds its operand does. -/
theorem ResumeFails.led (hp : s.peek c = (.ok t, s₁)) (hl : least < c.power t.symbol)
    (ht : s₁.take c = (.ok t', s₂)) (ha : ActFails g c (g.ledAction c t' left) s₂.countLed e) :
    ResumeFails g c left least s e := by
  obtain ⟨n, s', hn⟩ := ha
  refine ⟨n + 1, s', ?_⟩
  rw [act] at hn
  rw [Grammar.resume, hp]
  simp only [Nat.not_le.mpr hl, if_false, ht, hn]

/-! ## Texts -/

/-- **The parse of a text fails with the error of its one expression.** -/
theorem parse_eq_error {input : String} {r : Recognizer} (hr : g.recognizer = .ok r)
    (hi : EndIsInert (g.context input) (Session.start (r.scan input) (byteLength input.toList)))
    (h : ExpressionFails g (g.context input) 0
      (Session.start (r.scan input) (byteLength input.toList)) e) :
    g.parse input = some (.error e) := by
  obtain ⟨n, s', hn⟩ := h
  refine (parse_eq_iff hr hi).mpr ⟨n, s', ?_⟩
  rw [whole, hn, Outcome.andThen_error]

end Grammar

end Precedence
