import Precedence.Proofs.Parsing.Termination

/-!
# What a parse depends on

A parse depends on what its grammar says of the symbols of the tokens, and on nothing else that the
grammar says. Here some symbols are known, the tokens of a text are all of known symbols, and two
grammars agree on these: they give them the same binding powers, and actions that ask for the same
and go on alike, whatever known tokens they see. Then both parse the text alike.

* `Action.AgreesOn.run_eq`: actions that agree have one outcome.
* `Grammar.AgreesOn.parsesAlike`: expressions have, by induction on the bound on the steps.
* `Grammar.AgreesOn.parse_eq`: so texts have, also if the parse fails.
-/

namespace Precedence

open Precedence.Source

variable {V α β : Type} {known : Nat → Prop}

/-! ## States -/

/-- All tokens of a scan are of known symbols, the one at the end included. -/
structure Scan.Knows (known : Nat → Prop) (scan : Scan) : Prop where
  tokens : ∀ t ∈ scan.tokens, known t.symbol
  ending : ∀ symbol, scan.ending.symbol? = some symbol → known symbol

namespace Session

variable {c c' : Context} {s s' : Session} {t : Token}

/-- All tokens that are left are of known symbols. -/
def Knows (known : Nat → Prop) (s : Session) : Prop :=
  Scan.Knows known ⟨s.upcoming, s.ending⟩

theorem Knows.later (h : s.Knows known) (hl : Later s s') : s'.Knows known where
  tokens t ht := h.tokens t (hl.upcoming.subset ht)
  ending symbol he := h.ending symbol (hl.ending.symm.trans he)

theorem Knows.of_peek (h : s.Knows known) (hp : s.peek c = (.ok t, s')) : known t.symbol := by
  rw [peek] at hp
  cases hu : s.upcoming with
  | cons u us =>
    rw [hu] at hp
    cases hp
    exact h.tokens t (by rw [hu]; exact List.mem_cons_self)
  | nil =>
    rw [hu] at hp
    cases he : s.ending with
    | endless u =>
      rw [he] at hp
      cases hp
      exact h.ending t.symbol (by rw [he]; rfl)
    | unrecognized span =>
      rw [he] at hp
      cases hp

theorem Knows.of_take (h : s.Knows known) (ht : s.take c = (.ok t, s')) : known t.symbol := by
  rw [take] at ht
  rcases hp : s.peek c with ⟨e | u, s₁⟩
  · rw [hp] at ht
    cases ht
  · rw [hp] at ht
    cases ht
    exact h.of_peek hp

end Session

namespace Context

variable {c c' : Context}

/-- An error shows the text only. -/
theorem errorAt_eq (h : c.input = c'.input) : c.errorAt = c'.errorAt := by
  funext kind message span
  rw [errorAt, errorAt, h]

end Context

namespace Session

variable {c c' : Context}

theorem peek_eq (h : c.input = c'.input) (s : Session) : s.peek c = s.peek c' := by
  rw [peek, peek, Context.errorAt_eq h]

theorem take_eq (h : c.input = c'.input) (s : Session) : s.take c = s.take c' := by
  rw [take, take, peek_eq h]

end Session

open Session (Later)

/-! ## Actions -/

namespace Action

/-- Two actions ask for the same, and go on alike after the same answers, as long as the tokens
among these are of known symbols. -/
inductive AgreesOn (known : Nat → Prop) : Action V α → Action V α → Prop where
  | done (r : Except ParseError α) : AgreesOn known (done r) (done r)
  | peek {k k' : Except ParseError Token → Action V α}
      (error : ∀ e, AgreesOn known (k (.error e)) (k' (.error e)))
      (ok : ∀ t, known t.symbol → AgreesOn known (k (.ok t)) (k' (.ok t))) :
      AgreesOn known (peek k) (peek k')
  | take {k k' : Except ParseError Token → Action V α}
      (error : ∀ e, AgreesOn known (k (.error e)) (k' (.error e)))
      (ok : ∀ t, known t.symbol → AgreesOn known (k (.ok t)) (k' (.ok t))) :
      AgreesOn known (take k) (take k')
  | expression (least : Nat) {k k' : Except ParseError V → Action V α}
      (answer : ∀ r, AgreesOn known (k r) (k' r)) :
      AgreesOn known (expression least k) (expression least k')
  | resume (left : V) (least : Nat) {k k' : Except ParseError V → Action V α}
      (answer : ∀ r, AgreesOn known (k r) (k' r)) :
      AgreesOn known (resume left least k) (resume left least k')
  | progress {k k' : Progress → Action V α} (answer : ∀ p, AgreesOn known (k p) (k' p)) :
      AgreesOn known (progress k) (progress k')

namespace AgreesOn

theorem refl (m : Action V α) : AgreesOn known m m := by
  induction m with
  | done r => exact .done r
  | peek k ih => exact .peek (fun e => ih (.error e)) fun t _ => ih (.ok t)
  | take k ih => exact .take (fun e => ih (.error e)) fun t _ => ih (.ok t)
  | expression least k ih => exact .expression least ih
  | resume left least k ih => exact .resume left least ih
  | progress k ih => exact .progress ih

theorem of_eq {m m' : Action V α} (h : m = m') : AgreesOn known m m' :=
  h ▸ refl m

/-- One action and then another one. -/
theorem bind {m m' : Action V α} {f f' : α → Action V β} (h : AgreesOn known m m')
    (hf : ∀ a, AgreesOn known (f a) (f' a)) : AgreesOn known (m >>= f) (m' >>= f') := by
  show AgreesOn known (m.bind f) (m'.bind f')
  induction h with
  | done r =>
    cases r with
    | error e => exact .done (.error e)
    | ok a => exact hf a
  | peek _ _ herror hok => exact .peek herror hok
  | take _ _ herror hok => exact .take herror hok
  | expression least _ ih => exact .expression least ih
  | resume left least _ ih => exact .resume left least ih
  | progress _ ih => exact .progress ih

/-- What is done with the next token matters only if its symbol is known. -/
theorem peekToken_bind {f f' : Token → Action V α}
    (h : ∀ t, known t.symbol → AgreesOn known (f t) (f' t)) :
    AgreesOn known (peekToken >>= f) (peekToken >>= f') :=
  .peek (fun e => .done (.error e)) h

variable {c c' : Context} {e e' : Nat → Session → Outcome V} {m m' : Action V α} {s : Session}
variable {r r' : V → Nat → Session → Outcome V}

/-- **Actions that agree have one outcome** where all tokens are of known symbols, if the answers to
their requests agree there. -/
theorem run_eq (h : AgreesOn known m m') (hinput : c.input = c'.input)
    (he : ∀ least s o, e least s = some o → Later s o.2)
    (hr : ∀ left least s o, r left least s = some o → Later s o.2)
    (hee : ∀ least s, s.Knows known → e least s = e' least s)
    (hrr : ∀ left least s, s.Knows known → r left least s = r' left least s)
    (hs : s.Knows known) : m.run c e r s = m'.run c' e' r' s := by
  induction h generalizing s with
  | done result => rfl
  | peek _ _ herror hok =>
    have hl := Session.later_peek (c := c) s
    simp only [run, ← Session.peek_eq hinput]
    rcases hp : s.peek c with ⟨err | t, s₁⟩
    · rw [hp] at hl
      exact herror err (hs.later hl)
    · rw [hp] at hl
      exact hok t (hs.of_peek hp) (hs.later hl)
  | take _ _ herror hok =>
    have hl := Session.later_take (c := c) s
    simp only [run, ← Session.take_eq hinput]
    rcases ht : s.take c with ⟨err | t, s₁⟩
    · rw [ht] at hl
      exact herror err (hs.later hl)
    · rw [ht] at hl
      exact hok t (hs.of_take ht) (hs.later hl)
  | expression least _ ih =>
    simp only [run, ← hee least s hs]
    cases hx : e least s with
    | none => rfl
    | some o => exact ih _ (hs.later (he _ _ _ hx))
  | resume left least _ ih =>
    simp only [run, ← hrr left least s hs]
    cases hx : r left least s with
    | none => rfl
    | some o => exact ih _ (hs.later (hr _ _ _ _ hx))
  | progress _ ih => exact ih _ hs

end AgreesOn

end Action

/-- Two parts of a parse have one outcome one after the other if the first ones have, and the second
ones behind that. -/
theorem Outcome.andThen_congr {o o' : Outcome α} {f f' : α → Session → Outcome β} (h : o = o')
    (hf : ∀ a s, o = some (.ok a, s) → f a s = f' a s) :
    Outcome.andThen o f = Outcome.andThen o' f' := by
  subst h
  rcases o with _ | ⟨e | a, s⟩
  · rfl
  · rfl
  · exact hf a s rfl

/-! ## Grammars -/

namespace Grammar

variable {g g' : Grammar V} {c c' : Context} {n least : Nat} {left : V} {s : Session}

/-- Two grammars agree on what known symbols mean, each in its own context. -/
structure AgreesOn (known : Nat → Prop) (g g' : Grammar V) (c c' : Context) : Prop where
  maxDepth : g.maxDepth = g'.maxDepth
  input : c.input = c'.input
  power : ∀ i, known i → c.power i = c'.power i
  nud : ∀ t, known t.symbol → (g.nudAction c t).AgreesOn known (g'.nudAction c' t)
  led : ∀ t left, known t.symbol →
    (g.ledAction c t left).AgreesOn known (g'.ledAction c' t left)

/-- What is parsed within `n` steps is parsed alike where all tokens are of known symbols. -/
structure ParsesAlike (known : Nat → Prop) (g g' : Grammar V) (c c' : Context) (n : Nat) :
    Prop where
  expression : ∀ least s, s.Knows known → g.expression c n least s = g'.expression c' n least s
  resume : ∀ left least s, s.Knows known →
    g.resume c n left least s = g'.resume c' n left least s

namespace ParsesAlike

theorem act (hn : ParsesAlike known g g' c c' n) (hinput : c.input = c'.input)
    {m m' : Action V V} (hm : m.AgreesOn known m') (hs : s.Knows known) :
    g.act c n m s = g'.act c' n m' s :=
  hm.run_eq hinput (fun _ _ _ => expression_later) (fun _ _ _ _ => resume_later) hn.expression
    hn.resume hs

/-- The action of a token, and the operand that it makes continued. -/
theorem act_resume (hn : ParsesAlike known g g' c c' n) (hinput : c.input = c'.input)
    {m m' : Action V V} (hm : m.AgreesOn known m') (hs : s.Knows known) (least : Nat) :
    Outcome.andThen (g.act c n m s) (fun left s => g.resume c n left least s) =
      Outcome.andThen (g'.act c' n m' s) fun left s => g'.resume c' n left least s :=
  Outcome.andThen_congr (hn.act hinput hm hs) fun left s₁ hact =>
    hn.resume left least s₁ (hs.later (act_later hact))

theorem begin (h : AgreesOn known g g' c c') (hn : ParsesAlike known g g' c c' n)
    (hs : s.Knows known) : g.begin c n least s = g'.begin c' n least s := by
  rw [begin_eq, begin_eq]
  refine Outcome.andThen_congr (by rw [Session.take_eq h.input]) fun t s₁ ht => ?_
  have htake : s.take c = (.ok t, s₁) := Option.some.inj ht
  have hl := Session.later_take (c := c) s
  rw [htake] at hl
  exact hn.act_resume h.input (h.nud t (hs.of_take htake))
    (hs.later (hl.trans (Session.later_countNud s₁))) least

theorem expression_succ (h : AgreesOn known g g' c c') (hn : ParsesAlike known g g' c c' n)
    (hs : s.Knows known) :
    g.expression c (n + 1) least s = g'.expression c' (n + 1) least s := by
  by_cases hd : s.depth < g.maxDepth
  · rw [expression_of_le hd, expression_of_le (h.maxDepth ▸ hd),
      hn.begin h (hs.later (Session.later_enter s))]
  · have hd := Nat.not_lt.mp hd
    rw [expression_of_ge hd, expression_of_ge (h.maxDepth ▸ hd), Session.peek_eq h.input,
      Context.errorAt_eq h.input]

theorem resume_succ (h : AgreesOn known g g' c c') (hn : ParsesAlike known g g' c c' n)
    (hs : s.Knows known) :
    g.resume c (n + 1) left least s = g'.resume c' (n + 1) left least s := by
  rw [Grammar.resume_succ, Grammar.resume_succ]
  refine Outcome.andThen_congr (by rw [Session.peek_eq h.input]) fun t s₁ hp => ?_
  have hpeek : s.peek c = (.ok t, s₁) := Option.some.inj hp
  have hl := Session.later_peek (c := c) s
  rw [hpeek] at hl
  rw [← h.power t.symbol (hs.of_peek hpeek)]
  by_cases hp : c.power t.symbol ≤ least
  · rw [if_pos hp, if_pos hp]
  · rw [if_neg hp, if_neg hp]
    refine Outcome.andThen_congr (by rw [Session.take_eq h.input]) fun t' s₂ ht => ?_
    have htake : s₁.take c = (.ok t', s₂) := Option.some.inj ht
    have hl' := Session.later_take (c := c) s₁
    rw [htake] at hl'
    exact hn.act_resume h.input (h.led t' left ((hs.later hl).of_take htake))
      (hs.later ((hl.trans hl').trans (Session.later_countLed s₂))) least

end ParsesAlike

namespace AgreesOn

/-- **What is parsed is parsed alike** where all tokens are of known symbols. -/
theorem parsesAlike (h : AgreesOn known g g' c c') (n : Nat) : ParsesAlike known g g' c c' n := by
  induction n with
  | zero => exact ⟨fun _ _ _ => rfl, fun _ _ _ _ => rfl⟩
  | succ n ih => exact ⟨fun _ _ => ih.expression_succ h, fun _ _ _ => ih.resume_succ h⟩

theorem parseScan_eq (h : AgreesOn known g g' c c') {scan : Scan} (hs : scan.Knows known)
    (steps : Nat) : g.parseScan c steps scan = g'.parseScan c' steps scan := by
  have hx := (h.parsesAlike steps).expression 0 (Session.start scan (byteLength c.input.toList)) hs
  rw [parseScan, parseScan, ← h.input, hx, Context.errorAt_eq h.input]
  simp only [Session.peek_eq h.input]

/-- **A text is parsed alike** by grammars that find the same tokens in it, all of known symbols,
and agree on these. -/
theorem parse_eq {input : String} {r r' : Recognizer}
    (h : AgreesOn known g g' (g.context input) (g'.context input)) (hr : g.recognizer = .ok r)
    (hr' : g'.recognizer = .ok r') (hscan : r.scan input = r'.scan input)
    (hknows : (r.scan input).Knows known) : g.parse input = g'.parse input := by
  have hsteps : g.stepBound (r.scan input) = g'.stepBound (r.scan input) := by
    rw [stepBound, stepBound, h.maxDepth]
  rw [parse, parse, hr, hr']
  simp only [parseWith, ← hscan, ← hsteps]
  exact h.parseScan_eq hknows _

end AgreesOn

end Grammar

end Precedence
