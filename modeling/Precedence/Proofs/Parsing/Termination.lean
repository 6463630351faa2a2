import Precedence.Proofs.Parsing.Running

/-!
# Every parse ends

A parse goes on for ever only if the token at the end of the text binds an operand. Where its
binding power is 0, every step on the way inward takes a token or uses up some of the depth, so
that `remaining` bounds the nesting of steps.

* `expression_later`, `resume_later`: a state behind a part of a parse has a rest of the tokens
  left, is at least as deep, and has the same symbol at the end.
* `keeps`: more generally, a part of a parse keeps every relation between states that its steps
  keep.
* `expression_ne_none`, `whole_ne_none`: with more steps than `remaining` there is an outcome. By
  `whole_agree` it is that under any other bound that gives one.
-/

namespace Precedence

open Precedence.Source

variable {V α : Type}

/-- The symbol that is found any number of times at the end, if there is one. -/
def Ending.symbol? : Ending → Option Nat
  | endless t => some t.symbol
  | unrecognized _ => none

namespace Session

variable {c : Context} {s s' s₁ s₂ s₃ : Session}

/-- What holds of every state behind another one. -/
structure Later (s s' : Session) : Prop where
  upcoming : s'.upcoming <:+ s.upcoming
  depth : s.depth ≤ s'.depth
  ending : s'.ending.symbol? = s.ending.symbol?

theorem Later.refl (s : Session) : Later s s :=
  ⟨List.suffix_refl _, Nat.le_refl _, rfl⟩

theorem Later.trans (h₁ : Later s₁ s₂) (h₂ : Later s₂ s₃) : Later s₁ s₃ :=
  ⟨h₂.upcoming.trans h₁.upcoming, Nat.le_trans h₁.depth h₂.depth, h₂.ending.trans h₁.ending⟩

theorem later_peek (s : Session) : Later s (s.peek c).2 := by
  unfold peek
  split
  · exact ⟨List.suffix_refl _, Nat.le_refl _, rfl⟩
  · split
    · exact ⟨List.suffix_refl _, Nat.le_refl _, rfl⟩
    · exact Later.refl s

theorem later_drop (s : Session) (t : Token) : Later s (s.drop t) := by
  refine ⟨List.tail_suffix _, Nat.le_refl _, ?_⟩
  unfold drop
  cases s.upcoming with
  | nil => cases s.ending <;> rfl
  | cons t ts => rfl

theorem later_take (s : Session) : Later s (s.take c).2 := by
  unfold take
  have h := later_peek (c := c) s
  rcases hp : s.peek c with ⟨e | t, s₁⟩
  · rw [hp] at h
    exact h
  · rw [hp] at h
    exact h.trans (later_drop s₁ t)

theorem later_enter (s : Session) : Later s s.enter :=
  ⟨List.suffix_refl _, Nat.le_succ _, rfl⟩

theorem later_countNud (s : Session) : Later s s.countNud :=
  ⟨List.suffix_refl _, Nat.le_refl _, rfl⟩

theorem later_countLed (s : Session) : Later s s.countLed :=
  ⟨List.suffix_refl _, Nat.le_refl _, rfl⟩

/-- To leave what was entered does not get below where it was entered. -/
theorem Later.leave (h : Later s.enter s') : Later s s'.leave := by
  refine ⟨h.upcoming, ?_, h.ending⟩
  have hd := h.depth
  simp only [enter, Session.leave] at hd ⊢
  omega

/-- A relation between states that all steps of a parse keep. -/
structure IsKept (c : Context) (R : Session → Session → Prop) : Prop where
  refl : ∀ s, R s s
  trans : ∀ s₁ s₂ s₃, R s₁ s₂ → R s₂ s₃ → R s₁ s₃
  peek : ∀ s, R s (s.peek c).2
  take : ∀ s, R s (s.take c).2
  enter : ∀ s, R s s.enter
  leave : ∀ s s', R s.enter s' → R s s'.leave
  countNud : ∀ s, R s s.countNud
  countLed : ∀ s, R s s.countLed

theorem isKept_later : IsKept c Later where
  refl := Later.refl
  trans _ _ _ := Later.trans
  peek := later_peek
  take := later_take
  enter := later_enter
  leave _ _ := Later.leave
  countNud := later_countNud
  countLed := later_countLed

end Session

namespace Outcome

variable {β : Type} {R : Session → Session → Prop} {s : Session}

/-- What holds behind each of two parts holds behind both. -/
theorem andThen_rel (trans : ∀ s₁ s₂ s₃, R s₁ s₂ → R s₂ s₃ → R s₁ s₃) {o : Outcome α}
    {f : α → Session → Outcome β} (ho : ∀ x, o = some x → R s x.2)
    (hf : ∀ a s₁ y, f a s₁ = some y → R s₁ y.2) {y : Except ParseError β × Session}
    (h : andThen o f = some y) : R s y.2 := by
  rcases o with _ | ⟨e | a, s₁⟩
  · cases h
  · cases h
    exact ho _ rfl
  · exact trans _ _ _ (ho _ rfl) (hf _ _ _ h)

end Outcome

namespace Grammar

open Session (Later)

variable {g : Grammar V} {c : Context} {n : Nat} {least : Nat} {left : V} {s : Session}
variable {R : Session → Session → Prop}

/-- What is parsed within `n` steps keeps a relation between states. -/
structure Keeps (g : Grammar V) (c : Context) (R : Session → Session → Prop) (n : Nat) : Prop where
  expression : ∀ least s o, g.expression c n least s = some o → R s o.2
  resume : ∀ left least s o, g.resume c n left least s = some o → R s o.2

theorem Keeps.act (hR : Session.IsKept c R) (h : g.Keeps c R n) {a : Action V α}
    {o : Except ParseError α × Session} (ha : g.act c n a s = some o) : R s o.2 :=
  Action.run_induction hR.refl hR.trans hR.peek hR.take h.expression h.resume a ha

theorem Keeps.begin (hR : Session.IsKept c R) (h : g.Keeps c R n)
    {o : Except ParseError V × Session} (ho : g.begin c n least s = some o) : R s o.2 := by
  rw [begin_eq] at ho
  refine Outcome.andThen_rel hR.trans (fun x hx => ?_) (fun t s₁ y hy => ?_) ho
  · cases hx
    exact hR.take s
  · refine Outcome.andThen_rel hR.trans (fun x hx => ?_) (h.resume · least) hy
    exact hR.trans _ _ _ (hR.countNud s₁) (h.act hR hx)

theorem Keeps.expression_succ (hR : Session.IsKept c R) (h : g.Keeps c R n)
    {o : Except ParseError V × Session} (ho : g.expression c (n + 1) least s = some o) :
    R s o.2 := by
  by_cases hd : s.depth < g.maxDepth
  · rw [expression_of_le hd] at ho
    rcases hx : g.begin c n least s.enter with _ | ⟨e | v, s₁⟩
    · rw [hx] at ho
      cases ho
    · rw [hx] at ho
      cases ho
      exact hR.trans _ _ _ (hR.enter s) (h.begin hR hx)
    · rw [hx] at ho
      cases ho
      exact hR.leave _ _ (h.begin hR hx)
  · rw [expression_of_ge (Nat.not_lt.mp hd)] at ho
    refine Outcome.andThen_rel hR.trans (fun x hx => ?_) (fun t s₁ y hy => ?_) ho
    · cases hx
      exact hR.trans _ _ _ (hR.enter s) (hR.peek s.enter)
    · cases hy
      exact hR.refl s₁

theorem Keeps.resume_succ (hR : Session.IsKept c R) (h : g.Keeps c R n)
    {o : Except ParseError V × Session} (ho : g.resume c (n + 1) left least s = some o) :
    R s o.2 := by
  rw [Grammar.resume_succ] at ho
  refine Outcome.andThen_rel hR.trans (fun x hx => ?_) (fun t s₁ y hy => ?_) ho
  · cases hx
    exact hR.peek s
  · split at hy
    · cases hy
      exact hR.refl s₁
    · refine Outcome.andThen_rel hR.trans (fun x hx => ?_) (fun t s₂ y hy => ?_) hy
      · cases hx
        exact hR.take s₁
      · refine Outcome.andThen_rel hR.trans (fun x hx => ?_) (h.resume · least) hy
        exact hR.trans _ _ _ (hR.countLed s₂) (h.act hR hx)

/-- **What the steps of a parse keep, its parts keep.** -/
theorem keeps (g : Grammar V) (hR : Session.IsKept c R) (n : Nat) : g.Keeps c R n := by
  induction n with
  | zero => exact ⟨fun _ _ _ h => (by cases h), fun _ _ _ _ h => (by cases h)⟩
  | succ n ih =>
    exact ⟨fun _ _ _ h => ih.expression_succ hR h, fun _ _ _ _ h => ih.resume_succ hR h⟩

/-- A state behind an expression. -/
theorem expression_later {o : Except ParseError V × Session}
    (h : g.expression c n least s = some o) : Later s o.2 :=
  (keeps g Session.isKept_later n).expression _ _ _ h

/-- A state behind a continuation. -/
theorem resume_later {o : Except ParseError V × Session}
    (h : g.resume c n left least s = some o) : Later s o.2 :=
  (keeps g Session.isKept_later n).resume _ _ _ _ h

/-- A state behind an action. -/
theorem act_later {a : Action V α} {o : Except ParseError α × Session}
    (h : g.act c n a s = some o) : Later s o.2 :=
  (keeps g Session.isKept_later n).act Session.isKept_later h

/-! ## Enough steps -/

/-- The tokens and the depth that are left to a parse. -/
def remaining (g : Grammar V) (s : Session) : Nat :=
  s.upcoming.length + (g.maxDepth - s.depth)

/-- The end of the text binds no operand. -/
def EndIsInert (c : Context) (s : Session) : Prop :=
  ∀ symbol, s.ending.symbol? = some symbol → c.power symbol = 0

theorem EndIsInert.later {s s' : Session} (h : EndIsInert c s) (hs : Later s s') :
    EndIsInert c s' :=
  fun symbol he => h symbol (hs.ending.symm.trans he)

theorem remaining_later {s s' : Session} (h : Later s s') : g.remaining s' ≤ g.remaining s := by
  have hl := h.upcoming.length_le
  have hd := h.depth
  unfold remaining
  omega

/-- A token that binds an operand is one of those that are left, if the end binds none. -/
theorem remaining_take {t t' : Token} {s₁ s₂ : Session} (hi : EndIsInert c s)
    (hp : s.peek c = (.ok t, s₁)) (hl : 0 < c.power t.symbol) (ht : s₁.take c = (.ok t', s₂)) :
    g.remaining s₂ < g.remaining s := by
  cases hu : s.upcoming with
  | cons u us =>
    simp only [Session.peek, hu, Prod.mk.injEq, Except.ok.injEq] at hp
    obtain ⟨rfl, rfl⟩ := hp
    simp only [Session.take, Session.peek, Prod.mk.injEq, Except.ok.injEq] at ht
    obtain ⟨rfl, rfl⟩ := ht
    simp [remaining, Session.drop, hu]
  | nil =>
    cases he : s.ending with
    | unrecognized span => simp [Session.peek, hu, he] at hp
    | endless u =>
      simp only [Session.peek, hu, he, Prod.mk.injEq, Except.ok.injEq] at hp
      obtain ⟨rfl, -⟩ := hp
      have h0 := hi u.symbol (by rw [he]; rfl)
      omega

/-- Where less than `n` remains, what is parsed within `n` steps has an outcome. -/
structure Suffices (g : Grammar V) (c : Context) (n : Nat) : Prop where
  expression : ∀ least s, EndIsInert c s → g.remaining s < n → g.expression c n least s ≠ none
  resume : ∀ left least s, EndIsInert c s → g.remaining s < n →
    g.resume c n left least s ≠ none

theorem Suffices.act (h : g.Suffices c n) (hi : EndIsInert c s) (hs : g.remaining s < n)
    (a : Action V α) : g.act c n a s ≠ none := by
  refine Action.run_ne_none Later.refl (fun _ _ _ => Later.trans) Session.later_peek
    Session.later_take (fun _ _ _ => expression_later) (fun _ _ _ _ => resume_later) a ?_ ?_
  · intro least s' hl
    exact h.expression least s' (hi.later hl) (Nat.lt_of_le_of_lt (remaining_later hl) hs)
  · intro left least s' hl
    exact h.resume left least s' (hi.later hl) (Nat.lt_of_le_of_lt (remaining_later hl) hs)

theorem Suffices.begin (h : g.Suffices c n) (hi : EndIsInert c s) (hs : g.remaining s < n) :
    g.begin c n least s ≠ none := by
  have ht := Session.later_take (c := c) s
  rw [Grammar.begin]
  rcases htk : s.take c with ⟨e | t, s₁⟩
  · simp
  · rw [htk] at ht
    have h₁ := ht.trans (Session.later_countNud s₁)
    have hi₁ := hi.later h₁
    have hr₁ := Nat.lt_of_le_of_lt (remaining_later h₁) hs
    simp only
    rcases hx : g.act c n (g.nudAction c t) s₁.countNud with _ | ⟨e | left, s₂⟩
    · exact absurd hx (h.act hi₁ hr₁ _)
    · simp
    · have h₂ := act_later hx
      exact h.resume left least s₂ (hi₁.later h₂) (Nat.lt_of_le_of_lt (remaining_later h₂) hr₁)

theorem Suffices.expression_succ (h : g.Suffices c n) (hi : EndIsInert c s)
    (hs : g.remaining s < n + 1) : g.expression c (n + 1) least s ≠ none := by
  by_cases hd : s.depth < g.maxDepth
  · -- Inside of the expression one level of depth less is left.
    have hrem : g.remaining s.enter < n := by
      simp only [remaining, Session.enter] at hs ⊢
      omega
    rw [expression_of_le hd]
    rcases hx : g.begin c n least s.enter with _ | ⟨e | v, s₁⟩
    · exact absurd hx (h.begin (hi.later (Session.later_enter s)) hrem)
    · simp
    · simp
  · have hd' : g.maxDepth < s.enter.depth := by
      simp only [Session.enter]
      omega
    rw [Grammar.expression]
    simp only [hd', if_true]
    rcases s.enter.peek c with ⟨e | t, s₁⟩ <;> simp

theorem Suffices.resume_succ (h : g.Suffices c n) (hi : EndIsInert c s)
    (hs : g.remaining s < n + 1) : g.resume c (n + 1) left least s ≠ none := by
  have hp := Session.later_peek (c := c) s
  rw [Grammar.resume]
  rcases hx : s.peek c with ⟨e | t, s₁⟩
  · simp
  · rw [hx] at hp
    simp only
    split
    · simp
    · rename_i hlt
      have ht := Session.later_take (c := c) s₁
      rcases htk : s₁.take c with ⟨e | t', s₂⟩
      · simp
      · -- The end binds no operand, so one of the tokens that were left is taken.
        rw [htk] at ht
        have hrem := remaining_take (g := g) hi hx (by omega) htk
        have h₂ := (hp.trans ht).trans (Session.later_countLed s₂)
        have hi₂ := hi.later h₂
        have hr₂ : g.remaining s₂.countLed < n :=
          Nat.lt_of_lt_of_le hrem (Nat.lt_succ_iff.mp hs)
        simp only
        rcases hw : (g.ledAction c t' left).run c (g.expression c n) (g.resume c n) s₂.countLed
          with _ | ⟨e | w, s₃⟩
        · exact absurd hw (h.act hi₂ hr₂ _)
        · simp
        · have h₃ := act_later (g := g) hw
          exact h.resume w least s₃ (hi₂.later h₃)
            (Nat.lt_of_le_of_lt (remaining_later h₃) hr₂)

theorem suffices_all (g : Grammar V) (c : Context) (n : Nat) : g.Suffices c n := by
  induction n with
  | zero =>
    exact ⟨fun _ _ _ h => absurd h (Nat.not_lt_zero _),
      fun _ _ _ _ h => absurd h (Nat.not_lt_zero _)⟩
  | succ n ih =>
    exact ⟨fun _ _ hi hs => ih.expression_succ hi hs, fun _ _ _ hi hs => ih.resume_succ hi hs⟩

/-- **An expression has an outcome** with more steps than remain, if the end binds no operand. -/
theorem expression_ne_none (least : Nat) (hi : EndIsInert c s) (h : g.remaining s < n) :
    g.expression c n least s ≠ none :=
  (suffices_all g c n).expression least s hi h

/-- A whole text has an outcome with more steps than remain, if its end binds no operand. -/
theorem whole_ne_none (hi : EndIsInert c s) (h : g.remaining s < n) : g.whole c n s ≠ none := by
  rw [whole]
  rcases hx : g.expression c n 0 s with _ | ⟨e | v, s₁⟩
  · exact absurd hx (expression_ne_none 0 hi h)
  · simp
  · rw [Outcome.andThen_ok]
    rcases s₁.peek c with ⟨e | t, s₂⟩
    · simp
    · rw [Outcome.andThen_ok]
      split <;> simp

/-- The steps of a parse suffice. -/
theorem remaining_start_lt (scan : Scan) (length : Nat) :
    g.remaining (Session.start scan length) < g.stepBound scan := by
  simp only [remaining, Session.start, stepBound, spareSteps]
  omega

end Grammar

end Precedence
