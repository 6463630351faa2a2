import Precedence.Proofs.Parsing.Termination

/-!
# Rules of success

What it takes for an action, an expression or a continuation to succeed, without the bound on the
nesting of steps. Each judgement says that some bound gives the value and the state behind it; as
larger bounds agree, judgements combine. `parse_eq_ok_iff` leads from the parse of a text to the
judgement on its one expression.
-/

namespace Precedence

open Precedence.Source

variable {V α β : Type}

namespace Grammar

variable {g : Grammar V} {c : Context} {least : Nat} {s s₁ s₂ s₃ s' : Session} {left v w : V}

/-- The action ends with the value `a` in the state `s'`. -/
def Acts (g : Grammar V) (c : Context) (m : Action V α) (s : Session) (a : α) (s' : Session) :
    Prop :=
  ∃ n, g.act c n m s = some (.ok a, s')

/-- The expression whose operators bind tighter than `least` has the value `v`. -/
def Expresses (g : Grammar V) (c : Context) (least : Nat) (s : Session) (v : V) (s' : Session) :
    Prop :=
  ∃ n, g.expression c n least s = some (.ok v, s')

/-- The expression without the count of its nesting has the value `v`. -/
def Begins (g : Grammar V) (c : Context) (least : Nat) (s : Session) (v : V) (s' : Session) :
    Prop :=
  ∃ n, g.begin c n least s = some (.ok v, s')

/-- The expression that begins with the operand `left` has the value `v`. -/
def Resumes (g : Grammar V) (c : Context) (left : V) (least : Nat) (s : Session) (v : V)
    (s' : Session) : Prop :=
  ∃ n, g.resume c n left least s = some (.ok v, s')

theorem act_mono {n m : Nat} (h : n ≤ m) {a : Action V α} {o : Except ParseError α × Session}
    (ho : g.act c n a s = some o) : g.act c m a s = some o :=
  Action.run_mono (fun _ _ _ => expression_mono h) (fun _ _ _ _ => resume_mono h) a ho

/-! ## Actions -/

theorem Acts.pure (a : α) : Acts g c (pure a) s a s :=
  ⟨0, act_pure a⟩

theorem Acts.peekToken {t : Token} (h : s.peek c = (.ok t, s')) : Acts g c .peekToken s t s' :=
  ⟨0, by rw [act_peekToken, h]⟩

theorem Acts.operand (h : Expresses g c least s v s') : Acts g c (.operand least) s v s' := by
  obtain ⟨n, hn⟩ := h
  exact ⟨n, by rw [act_operand, hn]⟩

theorem Acts.bind {m : Action V α} {f : α → Action V β} {a : α} {b : β} (h : Acts g c m s a s₁)
    (hf : Acts g c (f a) s₁ b s') : Acts g c (m >>= f) s b s' := by
  obtain ⟨n, hn⟩ := h
  obtain ⟨k, hk⟩ := hf
  refine ⟨max n k, ?_⟩
  rw [act_bind, act_mono (Nat.le_max_left n k) hn, Outcome.andThen_ok,
    act_mono (Nat.le_max_right n k) hk]

/-! ## Expressions -/

theorem Begins.intro {t : Token} (ht : s.take c = (.ok t, s₁))
    (hn : Acts g c (g.nudAction c t) s₁.countNud left s₂) (hr : Resumes g c left least s₂ v s') :
    Begins g c least s v s' := by
  obtain ⟨n, hn⟩ := hn
  obtain ⟨k, hk⟩ := hr
  exact ⟨max n k, begin_eq_ok_iff.mpr ⟨t, s₁, left, s₂, ht, act_mono (Nat.le_max_left n k) hn,
    resume_mono (Nat.le_max_right n k) hk⟩⟩

theorem Expresses.intro (hd : s.depth < g.maxDepth) (h : Begins g c least s.enter v s₁) :
    Expresses g c least s v s₁.leave := by
  obtain ⟨n, hn⟩ := h
  exact ⟨n + 1, expression_eq_ok_iff.mpr ⟨hd, s₁, hn, rfl⟩⟩

/-- A continuation ends before a token that does not bind its operand. -/
theorem Resumes.stop {t : Token} (hp : s.peek c = (.ok t, s')) (ht : c.power t.symbol ≤ least) :
    Resumes g c left least s left s' :=
  ⟨1, resume_eq_ok_iff.mpr ⟨t, s', hp, .inl ⟨ht, rfl, rfl⟩⟩⟩

/-- A continuation takes a token that binds its operand, and goes on with the value of both. -/
theorem Resumes.step {t t' : Token} (hp : s.peek c = (.ok t, s₁)) (hl : least < c.power t.symbol)
    (ht : s₁.take c = (.ok t', s₂)) (ha : Acts g c (g.ledAction c t' left) s₂.countLed w s₃)
    (hr : Resumes g c w least s₃ v s') : Resumes g c left least s v s' := by
  obtain ⟨n, hn⟩ := ha
  obtain ⟨k, hk⟩ := hr
  refine ⟨max n k + 1, resume_eq_ok_iff.mpr ⟨t, s₁, hp, .inr ⟨hl, t', s₂, w, s₃, ht, ?_, ?_⟩⟩⟩
  · exact act_mono (Nat.le_max_left n k) hn
  · exact resume_mono (Nat.le_max_right n k) hk

/-! ## Texts -/

/-- The result of a text is that of one expression with nothing behind it, within the bound on the
steps. -/
theorem parse_eq_whole {input : String} {r : Recognizer} (hr : g.recognizer = .ok r) :
    g.parse input = (g.whole (g.context input) (g.stepBound (r.scan input))
      (Session.start (r.scan input) (byteLength input.toList))).map Prod.fst := by
  simp only [parse, hr, parseWith]
  exact parseScan_eq

/-- The parse of a text ends, with a result and in a state, if the end of the text binds no
operand. -/
theorem exists_outcome {input : String} {r : Recognizer} (hr : g.recognizer = .ok r)
    (hi : EndIsInert (g.context input)
      (Session.start (r.scan input) (byteLength input.toList))) :
    ∃ result s', g.parse input = some result ∧
      g.whole (g.context input) (g.stepBound (r.scan input))
        (Session.start (r.scan input) (byteLength input.toList)) = some (result, s') := by
  obtain ⟨⟨result, s'⟩, hx⟩ := Option.ne_none_iff_exists'.mp
    (whole_ne_none hi (remaining_start_lt (g := g) (r.scan input) (byteLength input.toList)))
  refine ⟨result, s', ?_, hx⟩
  rw [parse_eq_whole hr, hx]
  rfl

/-- **The result of a text is that of one expression with nothing behind it,** within any bound on
the steps that gives one. -/
theorem parse_eq_iff {input : String} {r : Recognizer} (hr : g.recognizer = .ok r)
    (hi : EndIsInert (g.context input) (Session.start (r.scan input) (byteLength input.toList)))
    {result : Except ParseError (V × Stats)} :
    g.parse input = some result ↔
      ∃ n s', g.whole (g.context input) n
        (Session.start (r.scan input) (byteLength input.toList)) = some (result, s') := by
  obtain ⟨result', s₁, hparse, hwhole⟩ := exists_outcome hr hi
  rw [hparse]
  constructor
  · intro h
    cases h
    exact ⟨_, s₁, hwhole⟩
  · rintro ⟨n, s', hn⟩
    cases whole_agree hwhole hn
    rfl

/-- A text has a result if its end binds no operand. -/
theorem exists_result {input : String} {r : Recognizer} (hr : g.recognizer = .ok r)
    (hi : EndIsInert (g.context input)
      (Session.start (r.scan input) (byteLength input.toList))) :
    ∃ result, g.parse input = some result := by
  obtain ⟨result, -, h, -⟩ := exists_outcome hr hi
  exact ⟨result, h⟩

/-- **The parse of a text succeeds if its one expression does and nothing stands behind it.** -/
theorem parse_eq_ok_iff {input : String} {r : Recognizer} (hr : g.recognizer = .ok r)
    (hi : EndIsInert (g.context input)
      (Session.start (r.scan input) (byteLength input.toList))) {stats : Stats} :
    g.parse input = some (.ok (v, stats)) ↔
      ∃ s t s', Expresses g (g.context input) 0
          (Session.start (r.scan input) (byteLength input.toList)) v s ∧
        s.peek (g.context input) = (.ok t, s') ∧ t.isEnd = true ∧ s'.stats = stats := by
  rw [parse_eq_iff hr hi]
  simp only [whole, Outcome.andThen_eq_ok_iff, Option.some.injEq]
  constructor
  · rintro ⟨n, s', w, s, hx, t, s₁, hp, h⟩
    split at h
    · cases h
      exact ⟨s, t, s', ⟨n, hx⟩, hp, by assumption, rfl⟩
    · cases h
  · rintro ⟨s, t, s', ⟨n, hn⟩, hp, ht, rfl⟩
    exact ⟨n, s', v, s, hn, t, s', hp, by rw [if_pos ht]⟩

end Grammar

end Precedence
