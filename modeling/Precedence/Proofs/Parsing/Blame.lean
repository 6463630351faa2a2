import Precedence.Proofs.Parsing.Tokens

/-!
# Where the blame goes

Which errors the parse of a scan can end with. The parse itself blames a text that no pattern
matches, a token for standing too deep, and one behind the whole expression; denotations blame what
they like. Every state of the parse is `Within` the scan: a rest of its tokens is ahead, and then
its end.

* `Blamed.whole`: what holds of the errors of the parse itself, and of those of denotations as long
  as it holds of those of their requests, holds of every error of a whole text.
-/

namespace Precedence

open Precedence.Source

variable {V α β : Type}

namespace Outcome

variable {P : ParseError → Prop} {o : Outcome α} {f : α → Session → Outcome β}

/-- The outcome, if it is an error, is one for which `P` holds. -/
def Blames (P : ParseError → Prop) (o : Outcome α) : Prop :=
  ∀ e s, o = some (.error e, s) → P e

theorem blames_none : Blames P (none : Outcome α) :=
  fun _ _ h => by cases h

theorem blames_ok (a : α) (s : Session) : Blames P (some (.ok a, s)) :=
  fun _ _ h => by cases h

theorem blames_error {e : ParseError} (h : P e) (s : Session) :
    Blames P (some (.error e, s) : Outcome α) := by
  intro e' s' h'
  cases h'
  exact h

theorem Blames.mono {Q : ParseError → Prop} (h : ∀ e, P e → Q e) (ho : Blames P o) : Blames Q o :=
  fun e s he => h e (ho e s he)

theorem Blames.andThen (h : Blames P o) (hf : ∀ a s, o = some (.ok a, s) → Blames P (f a s)) :
    Blames P (Outcome.andThen o f) := by
  rcases o with _ | ⟨e | a, s⟩
  · exact blames_none
  · exact blames_error (h e s rfl) s
  · exact hf a s rfl

end Outcome

/-! ## Within a scan -/

/-- What is found at the end from the second time on: without blanks in front of it. -/
def Ending.again : Ending → Ending
  | endless t => endless { t with consumed := 0 }
  | unrecognized span => unrecognized span

/-- The token is found at the end of the scan. -/
def Scan.EndsWith (scan : Scan) (t : Token) : Prop :=
  ∃ u, scan.ending = .endless u ∧ t.symbol = u.symbol ∧ t.span = u.span

/-- Only the end of the scan is of the symbol for the end of the text. -/
structure Scan.Ends (scan : Scan) : Prop where
  symbol_ne : ∀ t ∈ scan.tokens, t.symbol ≠ 0
  symbol_eq : ∀ t, scan.EndsWith t → t.symbol = 0

namespace Session

variable {scan : Scan} {c : Context} {s s' s₁ s₂ : Session} {t t' : Token}

/-- A rest of the tokens of the scan is ahead, and then its end. -/
structure Within (scan : Scan) (s : Session) : Prop where
  upcoming : s.upcoming <:+ scan.tokens
  ending : s.ending.again = scan.ending.again

theorem within_start (scan : Scan) (length : Nat) : (start scan length).Within scan :=
  ⟨List.suffix_refl _, rfl⟩

theorem Within.of_alike (hs : s.Within scan) (h : Alike s s') : s'.Within scan :=
  ⟨h.upcoming ▸ hs.upcoming, h.ending ▸ hs.ending⟩

theorem again_drop (s : Session) (t : Token) : (s.drop t).ending.again = s.ending.again := by
  unfold drop
  cases s.upcoming with
  | nil => cases s.ending <;> rfl
  | cons u us => rfl

theorem Within.drop (hs : s.Within scan) (t : Token) : (s.drop t).Within scan :=
  ⟨(List.tail_suffix _).trans hs.upcoming, (again_drop s t).trans hs.ending⟩

/-- Every state of the parse is within the scan. -/
theorem isKept_within (scan : Scan) :
    IsKept c fun s s' => s.Within scan → s'.Within scan where
  refl _ := id
  trans _ _ _ h h' := h' ∘ h
  peek s hs := hs.of_alike (alike_peek s)
  take s hs := by
    have hs' := hs.of_alike (alike_peek (c := c) s)
    rw [take]
    rcases hp : s.peek c with ⟨e | t, s₁⟩
    · rw [hp] at hs'
      exact hs'
    · rw [hp] at hs'
      exact hs'.drop t
  enter _ hs := ⟨hs.upcoming, hs.ending⟩
  leave _ _ h hs := have h' := h ⟨hs.upcoming, hs.ending⟩; ⟨h'.upcoming, h'.ending⟩
  countNud _ hs := ⟨hs.upcoming, hs.ending⟩
  countLed _ hs := ⟨hs.upcoming, hs.ending⟩

theorem Within.of_unrecognized (hs : s.Within scan) {span : Span}
    (h : s.ending = .unrecognized span) : scan.ending = .unrecognized span := by
  have hagain := hs.ending
  rw [h] at hagain
  cases hending : scan.ending with
  | endless t =>
    rw [hending] at hagain
    cases hagain
  | unrecognized span' =>
    rw [hending] at hagain
    cases hagain
    rfl

theorem Within.of_endless (hs : s.Within scan) (h : s.ending = .endless t) :
    scan.EndsWith t := by
  have hagain := hs.ending
  rw [h] at hagain
  cases hending : scan.ending with
  | unrecognized span =>
    rw [hending] at hagain
    cases hagain
  | endless u =>
    rw [hending] at hagain
    injection hagain with hagain
    injection hagain with hsymbol htext hspan
    exact ⟨u, hending, hsymbol, hspan⟩

/-- The token comes next: it is one of the scan, or the one at its end. -/
def Faces (scan : Scan) (s : Session) (t : Token) : Prop :=
  (t ∈ scan.tokens ∧ ∃ ts, s.upcoming = t :: ts) ∨ scan.EndsWith t ∧ s.upcoming = []

/-- What is looked at comes next. -/
theorem Within.of_peek (hs : s.Within scan) (hp : s.peek c = (.ok t, s')) : s.Faces scan t := by
  rw [peek] at hp
  cases hu : s.upcoming with
  | cons u us =>
    rw [hu] at hp
    cases hp
    exact .inl ⟨hs.upcoming.subset (hu ▸ List.mem_cons_self), us, hu⟩
  | nil =>
    rw [hu] at hp
    cases he : s.ending with
    | endless u =>
      rw [he] at hp
      cases hp
      exact .inr ⟨hs.of_endless he, hu⟩
    | unrecognized span =>
      rw [he] at hp
      cases hp

/-- Where nothing can be looked at no pattern matches the rest of the text. -/
theorem Within.of_peek_error (hs : s.Within scan) {e : ParseError}
    (hp : s.peek c = (.error e, s')) : ∃ span, scan.ending = .unrecognized span ∧
      e = c.errorAt .unrecognizedInput "unrecognized input" span := by
  rw [peek] at hp
  cases hu : s.upcoming with
  | cons u us =>
    rw [hu] at hp
    cases hp
  | nil =>
    rw [hu] at hp
    cases he : s.ending with
    | endless u =>
      rw [he] at hp
      cases hp
    | unrecognized span =>
      rw [he] at hp
      cases hp
      exact ⟨span, hs.of_unrecognized he, rfl⟩

/-- What is taken next is a token of the scan, with a rest of its tokens behind, or its end. -/
theorem Within.of_take (hs : s.Within scan) (ht : s.take c = (.ok t, s')) :
    t :: s'.upcoming <:+ scan.tokens ∨ scan.EndsWith t := by
  obtain ⟨s₁, hp, rfl⟩ := take_eq_ok_iff.mp ht
  rcases hs.of_peek hp with ⟨-, ts, hu⟩ | ⟨hend, -⟩
  · have ha := alike_peek (c := c) s
    rw [hp] at ha
    refine .inl ?_
    rw [show (s₁.drop t).upcoming = s₁.upcoming.tail from rfl, ha.upcoming, hu, List.tail_cons,
      ← hu]
    exact hs.upcoming
  · exact .inr hend

theorem Within.of_peek_ok (hs : s.Within scan) (hp : s.peek c = (.ok t, s')) : s'.Within scan := by
  have h := hs.of_alike (alike_peek (c := c) s)
  rwa [hp] at h

theorem Within.of_take_ok (hs : s.Within scan) (ht : s.take c = (.ok t, s')) :
    s'.Within scan := by
  obtain ⟨s₁, hp, rfl⟩ := take_eq_ok_iff.mp ht
  exact (hs.of_peek_ok hp).drop t

variable {P : ParseError → Prop} {f : Token → Session → Outcome α}

theorem Within.blames_take (hs : s.Within scan)
    (h : ∀ span, scan.ending = .unrecognized span →
      P (c.errorAt .unrecognizedInput "unrecognized input" span)) :
    Outcome.Blames P (some (s.take c)) := by
  rw [take]
  rcases hp : s.peek c with ⟨e | t, s₁⟩
  · obtain ⟨span, hspan, rfl⟩ := hs.of_peek_error hp
    exact Outcome.blames_error (h span hspan) s₁
  · exact Outcome.blames_ok t (s₁.drop t)

/-- A look at the next token fails where no pattern matches, and else goes on with the token. -/
theorem Within.blames_peek_andThen (hs : s.Within scan)
    (h : ∀ span, scan.ending = .unrecognized span →
      P (c.errorAt .unrecognizedInput "unrecognized input" span))
    (hf : ∀ t s₁, s.peek c = (.ok t, s₁) → s₁.Within scan → Outcome.Blames P (f t s₁)) :
    Outcome.Blames P (Outcome.andThen (some (s.peek c)) f) := by
  rcases hp : s.peek c with ⟨e | t, s₁⟩
  · obtain ⟨span, hspan, rfl⟩ := hs.of_peek_error hp
    exact Outcome.blames_error (h span hspan) s₁
  · exact hf t s₁ hp (hs.of_peek_ok hp)

/-- The next token is not there where no pattern matches, and is else taken. -/
theorem Within.blames_take_andThen (hs : s.Within scan)
    (h : ∀ span, scan.ending = .unrecognized span →
      P (c.errorAt .unrecognizedInput "unrecognized input" span))
    (hf : ∀ t s₁, s.take c = (.ok t, s₁) → s₁.Within scan → Outcome.Blames P (f t s₁)) :
    Outcome.Blames P (Outcome.andThen (some (s.take c)) f) :=
  (hs.blames_take h).andThen fun t s₁ ht =>
    hf t s₁ (Option.some.inj ht) (hs.of_take_ok (Option.some.inj ht))

end Session

/-! ## Parses -/

namespace Grammar

open Outcome

variable {g : Grammar V} {c : Context} {scan : Scan} {P : ParseError → Prop} {n : Nat}
variable {least : Nat} {left : V} {s : Session} {t : Token}

/-- `P` holds of the errors of what is parsed within `n` steps. -/
structure BlamesWithin (g : Grammar V) (c : Context) (scan : Scan) (P : ParseError → Prop)
    (n : Nat) : Prop where
  expression : ∀ least s, s.Within scan → Blames P (g.expression c n least s)
  resume : ∀ left least s, s.Within scan → Blames P (g.resume c n left least s)

/-- `P` holds of the errors that the parse of the scan itself ends with, and of those that
denotations do if it holds of the errors of their requests. -/
structure Blamed (g : Grammar V) (c : Context) (scan : Scan) (P : ParseError → Prop) : Prop where
  unrecognized : ∀ span, scan.ending = .unrecognized span →
    P (c.errorAt .unrecognizedInput "unrecognized input" span)
  tooDeep : ∀ t, t ∈ scan.tokens ∨ scan.EndsWith t →
    P (c.errorAt .tooDeep "expression nested too deeply" t.span)
  unexpected : ∀ t ∈ scan.tokens, P (c.errorAt .unexpectedToken "unexpected token" t.span)
  nud : ∀ n t s, g.BlamesWithin c scan P n → s.Within scan →
    t :: s.upcoming <:+ scan.tokens ∨ scan.EndsWith t → Blames P (g.act c n (g.nudAction c t) s)
  led : ∀ n t left s, g.BlamesWithin c scan P n → s.Within scan → t ∈ scan.tokens →
    0 < c.power t.symbol → Blames P (g.act c n (g.ledAction c t left) s)
  /-- The end of the scan binds no operand. -/
  power : ∀ t, scan.EndsWith t → c.power t.symbol = 0
  /-- Only the end of the scan is the end of the text. -/
  isEnd : ∀ t, scan.EndsWith t → t.isEnd = true

namespace Blamed

theorem begin (h : g.Blamed c scan P) (hn : g.BlamesWithin c scan P n) (hs : s.Within scan) :
    Blames P (g.begin c n least s) := by
  have hkept := Session.isKept_within (c := c) scan
  rw [begin_eq]
  refine hs.blames_take_andThen h.unrecognized fun t s₁ ht hs₁ => ?_
  have hs₁' : s₁.countNud.Within scan := ⟨hs₁.upcoming, hs₁.ending⟩
  have htoken : t :: s₁.upcoming <:+ scan.tokens ∨ scan.EndsWith t := hs.of_take ht
  refine (h.nud n t s₁.countNud hn hs₁' htoken).andThen fun left s₂ hleft => ?_
  exact hn.resume left least s₂ ((keeps g hkept n).act hkept hleft hs₁')

theorem expression_succ (h : g.Blamed c scan P) (hn : g.BlamesWithin c scan P n)
    (hs : s.Within scan) : Blames P (g.expression c (n + 1) least s) := by
  have hs' : s.enter.Within scan := ⟨hs.upcoming, hs.ending⟩
  by_cases hd : s.depth < g.maxDepth
  · rw [expression_of_le hd]
    exact (h.begin hn hs').andThen fun v s₁ _ => blames_ok v s₁.leave
  · rw [expression_of_ge (Nat.not_lt.mp hd)]
    refine hs'.blames_peek_andThen h.unrecognized fun t s₁ hp _ =>
      blames_error (h.tooDeep t ?_) s₁
    exact (hs'.of_peek hp).imp And.left And.left

theorem resume_succ (h : g.Blamed c scan P) (hn : g.BlamesWithin c scan P n)
    (hs : s.Within scan) : Blames P (g.resume c (n + 1) left least s) := by
  have hkept := Session.isKept_within (c := c) scan
  rw [Grammar.resume_succ]
  refine hs.blames_peek_andThen h.unrecognized fun t s₁ hp hs₁ => ?_
  split
  · exact blames_ok left s₁
  rename_i hpower
  refine hs₁.blames_take_andThen h.unrecognized fun t' s₂ ht hs₂ => ?_
  obtain rfl := Session.take_of_peek hp ht
  have hs₂' : s₂.countLed.Within scan := ⟨hs₂.upcoming, hs₂.ending⟩
  -- The end of the scan binds no operand, so the token is one in front of it.
  have hmem : t' ∈ scan.tokens := by
    rcases hs₁.of_take ht with hsuffix | hend
    · exact hsuffix.subset List.mem_cons_self
    · rw [h.power t' hend] at hpower
      exact absurd (Nat.zero_le _) hpower
  refine (h.led n t' left s₂.countLed hn hs₂' hmem (by omega)).andThen fun w s₃ hw => ?_
  exact hn.resume w least s₃ ((keeps g hkept n).act hkept hw hs₂')

theorem blamesWithin (h : g.Blamed c scan P) (n : Nat) : g.BlamesWithin c scan P n := by
  induction n with
  | zero => exact ⟨fun _ _ _ => blames_none, fun _ _ _ _ => blames_none⟩
  | succ n ih =>
    exact ⟨fun _ _ hs => h.expression_succ ih hs, fun _ _ _ hs => h.resume_succ ih hs⟩

/-- **What holds of the errors of the parse itself and of denotations holds of every error.** -/
theorem whole (h : g.Blamed c scan P) (hs : s.Within scan) : Blames P (g.whole c n s) := by
  have hkept := Session.isKept_within (c := c) scan
  rw [Grammar.whole]
  refine ((h.blamesWithin n).expression 0 s hs).andThen fun v s₁ hv => ?_
  have hs₁ := (keeps g hkept n).expression _ _ _ hv hs
  refine hs₁.blames_peek_andThen h.unrecognized fun t s₂ hp _ => ?_
  split
  · exact blames_ok _ s₂
  · rename_i hend
    rcases hs₁.of_peek hp with ⟨hmem, -⟩ | ⟨hends, -⟩
    · exact blames_error (h.unexpected t hmem) s₂
    · exact absurd (h.isEnd t hends) hend

/-- What holds of the errors of the parse itself and of denotations holds of the error for a
text. -/
theorem parse {input : String} {r : Recognizer} {e : ParseError} (hr : g.recognizer = .ok r)
    (hi : EndIsInert (g.context input) (Session.start (r.scan input) (byteLength input.toList)))
    (h : g.Blamed (g.context input) (r.scan input) P) (hp : g.parse input = some (.error e)) :
    P e := by
  obtain ⟨n, s', hn⟩ := (parse_eq_iff hr hi).mp hp
  exact h.whole (Session.within_start _ _) e s' hn

end Blamed

end Grammar

end Precedence
