import Precedence.Grammar.Parse

/-!
# Running actions

How the outcome of an action is put together from the outcomes of its parts, and how the bound on
the nesting of steps enters into it. `Grammar.act` is an action carried out with the answers that
the grammar itself gives to requests for operands.

* `act_bind`: one action and then another one is the outcome of the first handed to the second.
* `expression_eq_ok_iff`, `resume_eq_ok_iff`: what it takes for an expression to succeed, one step
  at a time.
* `expression_mono`, `resume_mono`: a larger bound on the steps gives the same outcome, if the
  smaller one gives any. `whole_agree`: so any two bounds that suffice for a text agree.
-/

namespace Precedence

open Precedence.Source

variable {V α β : Type}

namespace Outcome

/-- The outcome of a part of a parse, followed by another part unless the first one failed. -/
def andThen (o : Outcome α) (f : α → Session → Outcome β) : Outcome β :=
  match o with
  | none => none
  | some (.error e, s) => some (.error e, s)
  | some (.ok a, s) => f a s

@[simp] theorem andThen_ok (a : α) (s : Session) (f : α → Session → Outcome β) :
    andThen (some (.ok a, s)) f = f a s := rfl

@[simp] theorem andThen_error (e : ParseError) (s : Session) (f : α → Session → Outcome β) :
    andThen (some (.error e, s)) f = some (.error e, s) := rfl

/-- Two parts succeed one after the other if each of them does. -/
theorem andThen_eq_ok_iff {o : Outcome α} {f : α → Session → Outcome β} {b : β} {s' : Session} :
    andThen o f = some (.ok b, s') ↔ ∃ a s, o = some (.ok a, s) ∧ f a s = some (.ok b, s') := by
  constructor
  · intro h
    rcases o with _ | ⟨e | a, s⟩
    · cases h
    · cases h
    · exact ⟨a, s, rfl, h⟩
  · rintro ⟨a, s, rfl, h⟩
    exact h

/-- Parts that say at least as much say at least as much one after the other. -/
theorem andThen_mono {o o' : Outcome α} {f f' : α → Session → Outcome β}
    (ho : ∀ x, o = some x → o' = some x) (hf : ∀ a s y, f a s = some y → f' a s = some y)
    {y : Except ParseError β × Session} (h : andThen o f = some y) : andThen o' f' = some y := by
  rcases o with _ | ⟨e | a, s⟩
  · cases h
  · rw [ho _ rfl]
    exact h
  · rw [ho _ rfl]
    exact hf a s y h

end Outcome

namespace Action

variable {c : Context} {e e' : Nat → Session → Outcome V} {r r' : V → Nat → Session → Outcome V}

/-- The outcome of two actions one after the other. -/
theorem run_bind (m : Action V α) (f : α → Action V β) (s : Session) :
    (m.bind f).run c e r s = Outcome.andThen (m.run c e r s) fun a s => (f a).run c e r s := by
  induction m generalizing s with
  | done result => cases result <;> rfl
  | peek k ih => exact ih _ _
  | take k ih => exact ih _ _
  | expression least k ih =>
    simp only [bind, run]
    cases e least s with
    | none => rfl
    | some o => exact ih _ _
  | resume left least k ih =>
    simp only [bind, run]
    cases r left least s with
    | none => rfl
    | some o => exact ih _ _
  | progress k ih => exact ih _ _

/-- Answers that say at least as much leave an outcome as it is. -/
theorem run_mono (he : ∀ least s o, e least s = some o → e' least s = some o)
    (hr : ∀ left least s o, r left least s = some o → r' left least s = some o)
    (m : Action V α) {s : Session} {o : Except ParseError α × Session}
    (h : m.run c e r s = some o) : m.run c e' r' s = some o := by
  induction m generalizing s with
  | done result => exact h
  | peek k ih => exact ih _ h
  | take k ih => exact ih _ h
  | expression least k ih =>
    simp only [run] at h ⊢
    cases hx : e least s with
    | none => rw [hx] at h; cases h
    | some x => rw [hx] at h; rw [he _ _ _ hx]; exact ih _ h
  | resume left least k ih =>
    simp only [run] at h ⊢
    cases hx : r left least s with
    | none => rw [hx] at h; cases h
    | some x => rw [hx] at h; rw [hr _ _ _ _ hx]; exact ih _ h
  | progress k ih => exact ih _ h

/-- A relation between states that looking at a token, taking one and the answers to requests keep
is kept by a whole action. -/
theorem run_induction {R : Session → Session → Prop} (refl : ∀ s, R s s)
    (trans : ∀ s₁ s₂ s₃, R s₁ s₂ → R s₂ s₃ → R s₁ s₃)
    (hpeek : ∀ s, R s (s.peek c).2) (htake : ∀ s, R s (s.take c).2)
    (he : ∀ least s o, e least s = some o → R s o.2)
    (hr : ∀ left least s o, r left least s = some o → R s o.2)
    (m : Action V α) {s : Session} {o : Except ParseError α × Session}
    (h : m.run c e r s = some o) : R s o.2 := by
  induction m generalizing s with
  | done result => cases h; exact refl s
  | peek k ih => exact trans _ _ _ (hpeek s) (ih _ h)
  | take k ih => exact trans _ _ _ (htake s) (ih _ h)
  | expression least k ih =>
    simp only [run] at h
    cases hx : e least s with
    | none => rw [hx] at h; cases h
    | some x => rw [hx] at h; exact trans _ _ _ (he _ _ _ hx) (ih _ h)
  | resume left least k ih =>
    simp only [run] at h
    cases hx : r left least s with
    | none => rw [hx] at h; cases h
    | some x => rw [hx] at h; exact trans _ _ _ (hr _ _ _ _ hx) (ih _ h)
  | progress k ih => exact ih _ h

/-- An action has an outcome if its requests do in every state that it can get to. -/
theorem run_ne_none {R : Session → Session → Prop} (refl : ∀ s, R s s)
    (trans : ∀ s₁ s₂ s₃, R s₁ s₂ → R s₂ s₃ → R s₁ s₃)
    (hpeek : ∀ s, R s (s.peek c).2) (htake : ∀ s, R s (s.take c).2)
    (he : ∀ least s o, e least s = some o → R s o.2)
    (hr : ∀ left least s o, r left least s = some o → R s o.2)
    (m : Action V α) {s : Session}
    (he' : ∀ least s', R s s' → e least s' ≠ none)
    (hr' : ∀ left least s', R s s' → r left least s' ≠ none) : m.run c e r s ≠ none := by
  induction m generalizing s with
  | done result => simp [run]
  | peek k ih =>
    exact ih _ (fun l s' h => he' l s' (trans _ _ _ (hpeek s) h))
      fun v l s' h => hr' v l s' (trans _ _ _ (hpeek s) h)
  | take k ih =>
    exact ih _ (fun l s' h => he' l s' (trans _ _ _ (htake s) h))
      fun v l s' h => hr' v l s' (trans _ _ _ (htake s) h)
  | expression least k ih =>
    simp only [run]
    cases hx : e least s with
    | none => exact absurd hx (he' least s (refl s))
    | some x =>
      have hs := he _ _ _ hx
      exact ih _ (fun l s' h => he' l s' (trans _ _ _ hs h))
        fun v l s' h => hr' v l s' (trans _ _ _ hs h)
  | resume left least k ih =>
    simp only [run]
    cases hx : r left least s with
    | none => exact absurd hx (hr' left least s (refl s))
    | some x =>
      have hs := hr _ _ _ _ hx
      exact ih _ (fun l s' h => he' l s' (trans _ _ _ hs h))
        fun v l s' h => hr' v l s' (trans _ _ _ hs h)
  | progress k ih => exact ih _ he' hr'

end Action

namespace Grammar

variable {g : Grammar V} {c : Context} {n m : Nat} {least : Nat} {left v : V} {s s' : Session}

/-- Carries out an action within a bound on the nesting of steps. -/
def act (g : Grammar V) (c : Context) (steps : Nat) (a : Action V α) (s : Session) : Outcome α :=
  a.run c (g.expression c steps) (g.resume c steps) s

@[simp] theorem act_done (r : Except ParseError α) : g.act c n (.done r) s = some (r, s) := rfl

@[simp] theorem act_pure (a : α) : g.act c n (pure a) s = some (.ok a, s) := rfl

@[simp] theorem act_fail (e : ParseError) :
    g.act c n (.fail e : Action V α) s = some (.error e, s) := rfl

@[simp] theorem act_peekToken : g.act c n .peekToken s = some (s.peek c) := rfl

@[simp] theorem act_takeToken : g.act c n .takeToken s = some (s.take c) := rfl

@[simp] theorem act_operand : g.act c n (.operand least) s = g.expression c n least s := by
  simp only [act, Action.operand, Action.run]
  cases g.expression c n least s <;> rfl

@[simp] theorem act_continued :
    g.act c n (.continued left least) s = g.resume c n left least s := by
  simp only [act, Action.continued, Action.run]
  cases g.resume c n left least s <;> rfl

/-- The outcome of two actions one after the other. -/
@[simp] theorem act_bind (a : Action V α) (f : α → Action V β) :
    g.act c n (a >>= f) s = Outcome.andThen (g.act c n a s) fun x s => g.act c n (f x) s :=
  Action.run_bind a f s

/-- An expression without the count of its nesting: an operand, and what continues it. -/
def begin (g : Grammar V) (c : Context) (steps least : Nat) (s : Session) : Outcome V :=
  match s.take c with
  | (.error e, s) => some (.error e, s)
  | (.ok t, s) =>
    Outcome.andThen (g.act c steps (g.nudAction c t) s.countNud) fun left s =>
      g.resume c steps left least s

/-- An expression begins with a token that is taken, and goes on with what the token does. -/
theorem begin_eq :
    g.begin c n least s = Outcome.andThen (some (s.take c)) fun t s =>
      Outcome.andThen (g.act c n (g.nudAction c t) s.countNud) fun left s =>
        g.resume c n left least s := by
  rw [begin]
  rcases s.take c with ⟨e | t, s₁⟩ <;> rfl

/-- An expression that the limit to the depth allows. -/
theorem expression_of_le (h : s.depth < g.maxDepth) :
    g.expression c (n + 1) least s =
      Outcome.andThen (g.begin c n least s.enter) fun v s => some (.ok v, s.leave) := by
  have hd : ¬ g.maxDepth < s.enter.depth := by simp only [Session.enter]; omega
  rw [expression]
  simp only [hd, if_false, begin]
  rcases s.enter.take c with ⟨e | t, s₁⟩
  · rfl
  · simp only [act]
    rcases (g.nudAction c t).run c (g.expression c n) (g.resume c n) s₁.countNud with
      _ | ⟨e | left, s₂⟩
    · rfl
    · rfl
    · simp only [Outcome.andThen_ok]
      rcases g.resume c n left least s₂ with _ | ⟨e | v, s₃⟩ <;> rfl

/-- An expression that the limit to the depth does not allow fails after a look at its token. -/
theorem expression_of_ge (h : g.maxDepth ≤ s.depth) :
    g.expression c (n + 1) least s = Outcome.andThen (some (s.enter.peek c)) fun t s =>
      some (.error (c.errorAt .tooDeep "expression nested too deeply" t.span), s) := by
  have hd : g.maxDepth < s.enter.depth := by simp only [Session.enter]; omega
  rw [expression]
  simp only [hd, if_true]
  rcases s.enter.peek c with ⟨e | t, s₁⟩ <;> rfl

/-- **What it takes for an expression to succeed.** -/
theorem expression_eq_ok_iff :
    g.expression c (n + 1) least s = some (.ok v, s') ↔
      s.depth < g.maxDepth ∧
        ∃ s₁, g.begin c n least s.enter = some (.ok v, s₁) ∧ s' = s₁.leave := by
  by_cases h : s.depth < g.maxDepth
  · rw [expression_of_le h, Outcome.andThen_eq_ok_iff]
    constructor
    · rintro ⟨w, s₁, hw, he⟩
      cases he
      exact ⟨h, s₁, hw, rfl⟩
    · rintro ⟨-, s₁, hw, rfl⟩
      exact ⟨v, s₁, hw, rfl⟩
  · rw [expression_of_ge (Nat.not_lt.mp h), Outcome.andThen_eq_ok_iff]
    simp [h]

/-- What it takes for the beginning of an expression to succeed. -/
theorem begin_eq_ok_iff :
    g.begin c n least s = some (.ok v, s') ↔
      ∃ t s₁ left s₂, s.take c = (.ok t, s₁) ∧
        g.act c n (g.nudAction c t) s₁.countNud = some (.ok left, s₂) ∧
        g.resume c n left least s₂ = some (.ok v, s') := by
  simp only [begin_eq, Outcome.andThen_eq_ok_iff, Option.some.injEq]
  constructor
  · rintro ⟨t, s₁, ht, left, s₂, h, h'⟩
    exact ⟨t, s₁, left, s₂, ht, h, h'⟩
  · rintro ⟨t, s₁, left, s₂, ht, h, h'⟩
    exact ⟨t, s₁, ht, left, s₂, h, h'⟩

/-- A continuation looks at the next token, and goes on with what the token does if that binds the
operand. -/
theorem resume_succ :
    g.resume c (n + 1) left least s = Outcome.andThen (some (s.peek c)) fun t s =>
      if c.power t.symbol ≤ least then some (.ok left, s)
      else Outcome.andThen (some (s.take c)) fun t s =>
        Outcome.andThen (g.act c n (g.ledAction c t left) s.countLed) fun left s =>
          g.resume c n left least s := by
  rw [resume]
  rcases s.peek c with ⟨e | t, s₁⟩
  · rfl
  · rw [Outcome.andThen_ok]
    by_cases hp : c.power t.symbol ≤ least
    · simp only [hp, if_true]
    · simp only [hp, if_false]
      rcases s₁.take c with ⟨e | t', s₂⟩
      · rfl
      · simp only [act, Outcome.andThen_ok]
        rcases (g.ledAction c t' left).run c (g.expression c n) (g.resume c n) s₂.countLed with
          _ | ⟨e | w, s₃⟩ <;> rfl

/-- **What it takes for a continuation to succeed.** -/
theorem resume_eq_ok_iff :
    g.resume c (n + 1) left least s = some (.ok v, s') ↔
      ∃ t s₁, s.peek c = (.ok t, s₁) ∧
        ((c.power t.symbol ≤ least ∧ v = left ∧ s' = s₁) ∨
          (least < c.power t.symbol ∧ ∃ t' s₂ w s₃, s₁.take c = (.ok t', s₂) ∧
            g.act c n (g.ledAction c t' left) s₂.countLed = some (.ok w, s₃) ∧
            g.resume c n w least s₃ = some (.ok v, s'))) := by
  rw [resume_succ, Outcome.andThen_eq_ok_iff]
  refine exists_congr fun t => exists_congr fun s₁ => ?_
  rw [Option.some.injEq]
  refine and_congr_right fun _ => ?_
  by_cases hp : c.power t.symbol ≤ least
  · simp only [hp, if_true, true_and, Nat.not_lt.mpr hp, false_and, or_false, Option.some.injEq,
      Prod.mk.injEq, Except.ok.injEq]
    exact and_congr eq_comm eq_comm
  · simp only [hp, if_false, Outcome.andThen_eq_ok_iff, Option.some.injEq, false_and, false_or,
      Nat.not_le.mp hp, true_and]
    constructor
    · rintro ⟨t', s₂, ht, w, s₃, hw, h⟩
      exact ⟨t', s₂, w, s₃, ht, hw, h⟩
    · rintro ⟨t', s₂, w, s₃, ht, hw, h⟩
      exact ⟨t', s₂, ht, w, s₃, hw, h⟩

/-- A whole text: one expression, with nothing behind it. -/
def whole (g : Grammar V) (c : Context) (steps : Nat) (s : Session) : Outcome (V × Stats) :=
  Outcome.andThen (g.expression c steps 0 s) fun v s =>
    Outcome.andThen (some (s.peek c)) fun t s =>
      if t.isEnd then some (.ok (v, s.stats), s)
      else some (.error (c.errorAt .unexpectedToken "unexpected token" t.span), s)

/-- The result of a text is that of one expression with nothing behind it. -/
theorem parseScan_eq {scan : Scan} :
    g.parseScan c n scan =
      (g.whole c n (Session.start scan (byteLength c.input.toList))).map Prod.fst := by
  rw [parseScan, whole]
  rcases g.expression c n 0 (Session.start scan (byteLength c.input.toList)) with
    _ | ⟨e | v, s⟩
  · rfl
  · rfl
  · simp only [Outcome.andThen_ok]
    rcases s.peek c with ⟨e | t, s₁⟩
    · rfl
    · simp only [Outcome.andThen_ok]
      split <;> rfl

/-! ## The bound on the steps -/

/-- What has an outcome within `n` steps has the same one within `n + 1`. -/
structure Settles (g : Grammar V) (c : Context) (n : Nat) : Prop where
  expression : ∀ least s o, g.expression c n least s = some o →
    g.expression c (n + 1) least s = some o
  resume : ∀ left least s o, g.resume c n left least s = some o →
    g.resume c (n + 1) left least s = some o

theorem Settles.act (h : g.Settles c n) {a : Action V α} {o : Except ParseError α × Session}
    (ha : g.act c n a s = some o) : g.act c (n + 1) a s = some o :=
  Action.run_mono h.expression h.resume a ha

theorem Settles.begin (h : g.Settles c n) {o : Except ParseError V × Session}
    (ho : g.begin c n least s = some o) : g.begin c (n + 1) least s = some o := by
  rw [begin_eq] at ho ⊢
  refine Outcome.andThen_mono (fun _ => id) (fun t s y hy => ?_) ho
  exact Outcome.andThen_mono (fun _ => h.act) (fun left s y => h.resume left least s y) hy

theorem Settles.expression_succ (hs : g.Settles c n) {o : Except ParseError V × Session}
    (h : g.expression c (n + 1) least s = some o) : g.expression c (n + 2) least s = some o := by
  by_cases hd : s.depth < g.maxDepth
  · rw [expression_of_le hd] at h ⊢
    exact Outcome.andThen_mono (fun _ => hs.begin) (fun _ _ _ => id) h
  · rw [expression_of_ge (Nat.not_lt.mp hd)] at h ⊢
    exact h

theorem Settles.resume_succ (hs : g.Settles c n) {o : Except ParseError V × Session}
    (h : g.resume c (n + 1) left least s = some o) :
    g.resume c (n + 2) left least s = some o := by
  rw [Grammar.resume_succ] at h ⊢
  refine Outcome.andThen_mono (fun _ => id) (fun t s y hy => ?_) h
  split at hy
  · rename_i hp
    rw [if_pos hp]
    exact hy
  · rename_i hp
    rw [if_neg hp]
    refine Outcome.andThen_mono (fun _ => id) (fun t s y hy => ?_) hy
    exact Outcome.andThen_mono (fun _ => hs.act) (fun w s y => hs.resume w least s y) hy

/-- One step more changes no outcome. -/
theorem settles (g : Grammar V) (c : Context) (n : Nat) : g.Settles c n := by
  induction n with
  | zero => exact ⟨fun _ _ _ h => (by cases h), fun _ _ _ _ h => (by cases h)⟩
  | succ n ih => exact ⟨fun _ _ _ h => ih.expression_succ h, fun _ _ _ _ h => ih.resume_succ h⟩

/-- **A larger bound on the steps gives the same outcome** of an expression. -/
theorem expression_mono (h : n ≤ m) {o : Except ParseError V × Session}
    (ho : g.expression c n least s = some o) : g.expression c m least s = some o := by
  induction h with
  | refl => exact ho
  | step _ ih => exact (settles g c _).expression _ _ _ ih

/-- **A larger bound on the steps gives the same outcome** of a continuation. -/
theorem resume_mono (h : n ≤ m) {o : Except ParseError V × Session}
    (ho : g.resume c n left least s = some o) : g.resume c m left least s = some o := by
  induction h with
  | refl => exact ho
  | step _ ih => exact (settles g c _).resume _ _ _ _ ih

/-- A larger bound on the steps gives the same outcome of a whole text. -/
theorem whole_mono (h : n ≤ m) {o : Except ParseError (V × Stats) × Session}
    (ho : g.whole c n s = some o) : g.whole c m s = some o :=
  Outcome.andThen_mono (fun _ => expression_mono h) (fun _ _ _ => id) ho

/-- Any two bounds that suffice agree. -/
theorem whole_agree {o o' : Except ParseError (V × Stats) × Session}
    (h : g.whole c n s = some o) (h' : g.whole c m s = some o') : o = o' := by
  rcases Nat.le_total n m with hle | hle
  · exact Option.some.inj ((whole_mono hle h).symm.trans h')
  · exact Option.some.inj (h.symm.trans (whole_mono hle h'))

end Grammar

end Precedence
