import Precedence.Proofs.Parsing.Tokens

/-!
# Two parses side by side

Two parses go the same way as long as the same tokens lie ahead of both. A `Comparison` says when
that is, and what the second parse may miss: the first one may get to a place where nothing is said
of it any more, and it may fail with an error that is excused.

Denotations take part if they ask the same of both parses, pass the errors of their requests on, and
blame no token for standing where it does but the one that they got last.

* `Compares.whole`: the outcomes of two such parses match, unless the first one is lost.
* `Compares.parse`: the same of the results for two texts.
-/

namespace Precedence

open Precedence.Source

variable {V α β : Type}

/-! ## Tokens and errors -/

/-- Tokens of one symbol with one text; also of one place, if places count. -/
structure Token.Alike (placed : Prop) (t t' : Token) : Prop where
  symbol : t'.symbol = t.symbol
  text : t'.text = t.text
  span : placed → t'.span = t.span

theorem Token.Alike.refl (placed : Prop) (t : Token) : t.Alike placed t :=
  ⟨rfl, rfl, fun _ => rfl⟩

theorem Token.Alike.isEnd {placed : Prop} {t t' : Token} (h : t.Alike placed t') :
    t'.isEnd = t.isEnd := by
  rw [Token.isEnd, Token.isEnd, h.symbol]

/-- Errors of the kind name a token that cannot stand where it does. -/
def Source.ErrorKind.BlamesToken : ErrorKind → Prop
  | .syntaxError | .unexpectedToken | .expectedToken => True
  | _ => False

/-- Errors of one kind with one message; also at one place, if places count. -/
inductive Context.FailsAlike (placed : Prop) (c c' : Context) : ParseError → ParseError → Prop
  | errorAt (kind : ErrorKind) (message : String) {span span' : Span} (h : placed → span' = span) :
    FailsAlike placed c c' (c.errorAt kind message span) (c'.errorAt kind message span')

/-! ## What lies ahead -/

namespace Scan

/-- The token that comes next, or the text that no pattern matches. -/
def next (scan : Scan) : Except Span Token :=
  match scan.tokens, scan.ending with
  | t :: _, _ => .ok t
  | [], .endless t => .ok t
  | [], .unrecognized span => .error span

/-- What lies behind the token that comes next. -/
def behind (scan : Scan) : Scan where
  tokens := scan.tokens.tail
  ending := match scan.tokens, scan.ending with
    | [], .endless t => .endless { t with consumed := 0 }
    | _, ending => ending

end Scan

namespace Session

variable {c : Context} {s : Session} {t : Token} {span : Span}

/-- What lies ahead of a parse. -/
def rest (s : Session) : Scan :=
  ⟨s.upcoming, s.ending⟩

theorem Alike.rest {s s' : Session} (h : Alike s s') : s'.rest = s.rest := by
  rw [Session.rest, Session.rest, h.upcoming, h.ending]

theorem peek_of_next (h : s.rest.next = .ok t) : ∃ s', s.peek c = (.ok t, s') ∧ Alike s s' := by
  unfold Scan.next rest at h
  cases hu : s.upcoming with
  | cons u us =>
    rw [hu] at h
    cases h
    exact peek_of_cons hu
  | nil =>
    cases he : s.ending with
    | endless u =>
      rw [hu, he] at h
      cases h
      exact peek_of_end hu he
    | unrecognized span =>
      rw [hu, he] at h
      cases h

theorem peek_of_next_error (h : s.rest.next = .error span) :
    s.peek c = (.error (c.errorAt .unrecognizedInput "unrecognized input" span), s) := by
  unfold Scan.next rest at h
  cases hu : s.upcoming with
  | cons u us =>
    rw [hu] at h
    cases h
  | nil =>
    cases he : s.ending with
    | endless u =>
      rw [hu, he] at h
      cases h
    | unrecognized span' =>
      rw [hu, he] at h
      cases h
      rw [peek, hu, he]

theorem rest_drop (s : Session) (t : Token) : (s.drop t).rest = s.rest.behind := by
  obtain ⟨upcoming, ending⟩ := s
  rcases upcoming with _ | ⟨u, us⟩
  · rcases ending with u | span <;> rfl
  · rfl

theorem take_of_next (h : s.rest.next = .ok t) :
    ∃ s', s.take c = (.ok t, s') ∧ s'.rest = s.rest.behind ∧ s'.depth = s.depth ∧
      s'.stats = s.pass.stats := by
  obtain ⟨s₁, hp, ha⟩ := peek_of_next (c := c) h
  refine ⟨s₁.drop t, by rw [take, hp], ?_, ha.depth, by simp only [drop, pass, ha.stats]⟩
  rw [rest_drop, ha.rest]

theorem take_of_next_error (h : s.rest.next = .error span) :
    s.take c = (.error (c.errorAt .unrecognizedInput "unrecognized input" span), s) := by
  rw [take, peek_of_next_error h]

end Session

/-! ## Comparisons -/

/-- How two parses relate, by what lies ahead of them. -/
structure Comparison where
  /-- The places of tokens and errors count. -/
  placed : Prop
  /-- The same lies ahead of both parses. -/
  Abreast : Scan → Scan → Prop
  /-- The first parse is at a place where nothing is said of it any more. -/
  Gone : Scan → Prop
  /-- The token is one that the first parse finds at such a place. -/
  Past : Token → Prop
  /-- The error of the first parse says nothing of the second one. -/
  Excused : ParseError → Prop
  next_of_abreast : ∀ {a a'}, Abreast a a' →
    Gone a ∨
      (∃ t t', a.next = .ok t ∧ a'.next = .ok t' ∧ t.Alike placed t' ∧
        Abreast a.behind a'.behind) ∨
      ∃ span span', a.next = .error span ∧ a'.next = .error span' ∧ (placed → span' = span)
  next_of_gone : ∀ {a t}, Gone a → a.next = .ok t → Past t ∧ Gone a.behind
  excused_of_gone : ∀ {a} {e : ParseError}, Gone a →
    (e.kind.BlamesToken → ∃ t, Past t ∧ e.span = t.span) → Excused e

namespace Comparison

variable {K : Comparison} {c c' : Context} {s s' : Session}

/-- Two states with the same ahead of them, at one depth, with the same counts. -/
structure Together (K : Comparison) (s s' : Session) : Prop where
  rest : K.Abreast s.rest s'.rest
  depth : s'.depth = s.depth
  stats : s'.stats = s.stats

/-- The first parse got to a place where nothing is said of it, or failed with an error that is
excused. -/
inductive Lost (K : Comparison) (P : α → Prop) : Except ParseError α × Session → Prop
  | gone {a : α} {s : Session} (ha : P a) (hs : K.Gone s.rest) : Lost K P (.ok a, s)
  | excused {e : ParseError} {s : Session} (he : K.Excused e) : Lost K P (.error e, s)

/-- Both parses got on, or both failed. -/
inductive Matches (K : Comparison) (c c' : Context) (A : α → α → Prop) :
    Except ParseError α × Session → Except ParseError α × Session → Prop
  | value {a a' : α} {s s' : Session} (ha : A a a') (hs : K.Together s s') :
    Matches K c c' A (.ok a, s) (.ok a', s')
  | failure {e e' : ParseError} {s s' : Session} (he : c.FailsAlike K.placed c' e e') :
    Matches K c c' A (.error e, s) (.error e', s')

/-- A part of the first parse that is lost stays lost. -/
def Stays (K : Comparison) (P : α → Prop) (o : Outcome α) : Prop :=
  ∀ x, o = some x → K.Lost P x

/-- A part of the first parse is lost, or the second parse has one that matches. -/
def Follows (K : Comparison) (c c' : Context) (P : α → Prop) (A : α → α → Prop)
    (o o' : Outcome α) : Prop :=
  ∀ x, o = some x → K.Lost P x ∨ ∃ x', o' = some x' ∧ K.Matches c c' A x x'

section Outcomes

variable {P : α → Prop} {Q : β → Prop} {A : α → α → Prop} {B : β → β → Prop} {o o' : Outcome α}
variable {f f' : α → Session → Outcome β} {a a' : α} {e e' : ParseError}

theorem stays_ok (ha : P a) (hs : K.Gone s.rest) : K.Stays P (some (.ok a, s)) := by
  intro x hx
  cases hx
  exact .gone ha hs

theorem stays_error (he : K.Excused e) : K.Stays P (some (.error e, s)) := by
  intro x hx
  cases hx
  exact .excused he

theorem Stays.follows (h : K.Stays P o) : K.Follows c c' P A o o' :=
  fun x hx => .inl (h x hx)

theorem follows_ok (ha : A a a') (hs : K.Together s s') :
    K.Follows c c' P A (some (.ok a, s)) (some (.ok a', s')) := by
  intro x hx
  cases hx
  exact .inr ⟨_, rfl, .value ha hs⟩

theorem follows_error (he : c.FailsAlike K.placed c' e e') :
    K.Follows c c' P A (some (.error e, s)) (some (.error e', s')) := by
  intro x hx
  cases hx
  exact .inr ⟨_, rfl, .failure he⟩

theorem Stays.andThen (h : K.Stays P o) (hf : ∀ a s, P a → K.Gone s.rest → K.Stays Q (f a s)) :
    K.Stays Q (Outcome.andThen o f) := by
  intro y hy
  rcases o with _ | x
  · cases hy
  · cases h x rfl with
    | gone ha hs => exact hf _ _ ha hs y hy
    | excused he =>
      cases hy
      exact .excused he

theorem Follows.andThen (h : K.Follows c c' P A o o')
    (hstays : ∀ a s, P a → K.Gone s.rest → K.Stays Q (f a s))
    (hf : ∀ a a' s s', A a a' → K.Together s s' → K.Follows c c' Q B (f a s) (f' a' s')) :
    K.Follows c c' Q B (Outcome.andThen o f) (Outcome.andThen o' f') := by
  intro y hy
  rcases o with _ | x
  · cases hy
  · rcases h x rfl with hlost | ⟨x', rfl, hmatches⟩
    · cases hlost with
      | gone ha hs => exact .inl (hstays _ _ ha hs y hy)
      | excused he =>
        cases hy
        exact .inl (.excused he)
    · cases hmatches with
      | value ha hs => exact hf _ _ _ _ ha hs y hy
      | failure he =>
        cases hy
        exact .inr ⟨_, rfl, .failure he⟩

end Outcomes

/-! ## Looking and taking -/

theorem Together.of_alike {s₁ s₁' : Session} (h : K.Together s s') (ha : Session.Alike s s₁)
    (ha' : Session.Alike s' s₁') : K.Together s₁ s₁' where
  rest := by
    rw [ha.rest, ha'.rest]
    exact h.rest
  depth := by rw [ha.depth, ha'.depth, h.depth]
  stats := by rw [ha.stats, ha'.stats, h.stats]

theorem excused_unrecognized {span : Span} (hs : K.Gone s.rest) :
    K.Excused (c.errorAt .unrecognizedInput "unrecognized input" span) :=
  K.excused_of_gone hs fun h => h.elim

theorem stays_peek (c : Context) (hs : K.Gone s.rest) : K.Stays K.Past (some (s.peek c)) := by
  cases hn : s.rest.next with
  | error span =>
    rw [Session.peek_of_next_error hn]
    exact stays_error (excused_unrecognized hs)
  | ok t =>
    obtain ⟨s₁, hp, ha⟩ := Session.peek_of_next (c := c) hn
    rw [hp]
    exact stays_ok (K.next_of_gone hs hn).1 (ha.rest ▸ hs)

theorem stays_take (c : Context) (hs : K.Gone s.rest) : K.Stays K.Past (some (s.take c)) := by
  cases hn : s.rest.next with
  | error span =>
    rw [Session.take_of_next_error hn]
    exact stays_error (excused_unrecognized hs)
  | ok t =>
    obtain ⟨s₁, ht, hrest, -⟩ := Session.take_of_next (c := c) hn
    obtain ⟨hpast, hbehind⟩ := K.next_of_gone hs hn
    rw [ht]
    exact stays_ok hpast (hrest ▸ hbehind)

theorem follows_peek (c c' : Context) (h : K.Together s s') :
    K.Follows c c' K.Past (Token.Alike K.placed) (some (s.peek c)) (some (s'.peek c')) := by
  rcases K.next_of_abreast h.rest with hs | ⟨t, t', hn, hn', ht, -⟩ | ⟨span, span', hn, hn', hspan⟩
  · exact (stays_peek c hs).follows
  · obtain ⟨s₁, hp, ha⟩ := Session.peek_of_next (c := c) hn
    obtain ⟨s₁', hp', ha'⟩ := Session.peek_of_next (c := c') hn'
    rw [hp, hp']
    exact follows_ok ht (h.of_alike ha ha')
  · rw [Session.peek_of_next_error hn, Session.peek_of_next_error hn']
    exact follows_error (.errorAt _ _ hspan)

theorem follows_take (c c' : Context) (h : K.Together s s') :
    K.Follows c c' K.Past (Token.Alike K.placed) (some (s.take c)) (some (s'.take c')) := by
  rcases K.next_of_abreast h.rest with
    hs | ⟨t, t', hn, hn', ht, hbehind⟩ | ⟨span, span', hn, hn', hspan⟩
  · exact (stays_take c hs).follows
  · obtain ⟨s₁, htake, hrest, hdepth, hstats⟩ := Session.take_of_next (c := c) hn
    obtain ⟨s₁', htake', hrest', hdepth', hstats'⟩ := Session.take_of_next (c := c') hn'
    rw [htake, htake']
    refine follows_ok ht ⟨?_, ?_, ?_⟩
    · rw [hrest, hrest']
      exact hbehind
    · rw [hdepth, hdepth', h.depth]
    · rw [hstats, hstats', Session.pass, Session.pass, h.stats]
  · rw [Session.take_of_next_error hn, Session.take_of_next_error hn']
    exact follows_error (.errorAt _ _ hspan)

end Comparison

/-! ## Actions -/

/-- Two actions that ask the same of two parses, pass the errors of their requests on, and end with
the same. The first one blames no token for standing where it does but the one that it got last:
`now`, as long as it got none. -/
inductive Action.InStep (placed : Prop) (c c' : Context) :
    Option Token → Action V α → Action V α → Prop
  | value {now : Option Token} (a : α) : InStep placed c c' now (.done (.ok a)) (.done (.ok a))
  | failure {now : Option Token} {e e' : ParseError} (he : c.FailsAlike placed c' e e')
    (hb : e.kind.BlamesToken → ∃ t, now = some t ∧ e.span = t.span) :
    InStep placed c c' now (.done (.error e)) (.done (.error e'))
  | peek {now : Option Token} {k k' : Except ParseError Token → Action V α}
    (he : ∀ e, k (.error e) = .done (.error e)) (he' : ∀ e, k' (.error e) = .done (.error e))
    (hk : ∀ t t', t.Alike placed t' → InStep placed c c' (some t) (k (.ok t)) (k' (.ok t'))) :
    InStep placed c c' now (.peek k) (.peek k')
  | take {now : Option Token} {k k' : Except ParseError Token → Action V α}
    (he : ∀ e, k (.error e) = .done (.error e)) (he' : ∀ e, k' (.error e) = .done (.error e))
    (hk : ∀ t t', t.Alike placed t' → InStep placed c c' (some t) (k (.ok t)) (k' (.ok t'))) :
    InStep placed c c' now (.take k) (.take k')
  | expression {now : Option Token} (least : Nat) {k k' : Except ParseError V → Action V α}
    (he : ∀ e, k (.error e) = .done (.error e)) (he' : ∀ e, k' (.error e) = .done (.error e))
    (hk : ∀ v, InStep placed c c' none (k (.ok v)) (k' (.ok v))) :
    InStep placed c c' now (.expression least k) (.expression least k')
  | resume {now : Option Token} (left : V) (least : Nat) {k k' : Except ParseError V → Action V α}
    (he : ∀ e, k (.error e) = .done (.error e)) (he' : ∀ e, k' (.error e) = .done (.error e))
    (hk : ∀ v, InStep placed c c' none (k (.ok v)) (k' (.ok v))) :
    InStep placed c c' now (.resume left least k) (.resume left least k')

namespace Action.InStep

variable {placed : Prop} {c c' : Context} {now : Option Token}

theorem peekToken {f f' : Token → Action V α}
    (h : ∀ t t', t.Alike placed t' → (f t).InStep placed c c' (some t) (f' t')) :
    (Action.peekToken >>= f).InStep placed c c' now (Action.peekToken >>= f') :=
  .peek (fun _ => rfl) (fun _ => rfl) h

theorem takeToken {f f' : Token → Action V α}
    (h : ∀ t t', t.Alike placed t' → (f t).InStep placed c c' (some t) (f' t')) :
    (Action.takeToken >>= f).InStep placed c c' now (Action.takeToken >>= f') :=
  .take (fun _ => rfl) (fun _ => rfl) h

theorem operand (least : Nat) {f f' : V → Action V α}
    (h : ∀ v, (f v).InStep placed c c' none (f' v)) :
    (Action.operand least >>= f).InStep placed c c' now (Action.operand least >>= f') :=
  .expression least (fun _ => rfl) (fun _ => rfl) h

theorem continued (left : V) (least : Nat) {f f' : V → Action V α}
    (h : ∀ v, (f v).InStep placed c c' none (f' v)) :
    (Action.continued left least >>= f).InStep placed c c' now
      (Action.continued left least >>= f') :=
  .resume left least (fun _ => rfl) (fun _ => rfl) h

/-- An error of a kind that blames no token. -/
theorem fail {kind : ErrorKind} (message : String) {span span' : Span}
    (hspan : placed → span' = span) (hkind : ¬ kind.BlamesToken) :
    (Action.fail (c.errorAt kind message span) : Action V α).InStep placed c c' now
      (Action.fail (c'.errorAt kind message span')) :=
  .failure (.errorAt _ _ hspan) fun h => absurd h hkind

/-- An error that blames the token that was got last. -/
theorem failAt {t t' : Token} (kind : ErrorKind) (message : String) (ht : t.Alike placed t') :
    (Action.fail (c.errorAt kind message t.span) : Action V α).InStep placed c c' (some t)
      (Action.fail (c'.errorAt kind message t'.span)) :=
  .failure (.errorAt _ _ ht.span) fun _ => ⟨t, rfl, rfl⟩

/-- A certain token is required of both. -/
theorem takeExpected {id : String} (hid : ∀ symbol, c'.id symbol = c.id symbol)
    {f f' : Token → Action V α}
    (h : ∀ t t', t.Alike placed t' → (f t).InStep placed c c' (some t) (f' t')) :
    (Action.takeExpected c id >>= f).InStep placed c c' now (Action.takeExpected c' id >>= f') := by
  refine .peek (fun _ => rfl) (fun _ => rfl) fun t t' ht => ?_
  simp only [Action.bind]
  rw [ht.isEnd, ht.symbol, hid]
  split
  · exact .fail _ ht.span fun h => h.elim
  · split
    · exact .failAt _ _ ht
    · exact .takeToken h

end Action.InStep

namespace Action

variable {c : Context} {e : Nat → Session → Outcome V} {r : V → Nat → Session → Outcome V}
variable {s : Session}

theorem run_peek {k : Except ParseError Token → Action V α}
    (hk : ∀ x, k (.error x) = .done (.error x)) :
    (Action.peek k).run c e r s =
      Outcome.andThen (some (s.peek c)) fun t s => (k (.ok t)).run c e r s := by
  rw [run]
  rcases s.peek c with ⟨x | t, s₁⟩
  · simp only [hk]
    rfl
  · rfl

theorem run_take {k : Except ParseError Token → Action V α}
    (hk : ∀ x, k (.error x) = .done (.error x)) :
    (Action.take k).run c e r s =
      Outcome.andThen (some (s.take c)) fun t s => (k (.ok t)).run c e r s := by
  rw [run]
  rcases s.take c with ⟨x | t, s₁⟩
  · simp only [hk]
    rfl
  · rfl

theorem run_expression {least : Nat} {k : Except ParseError V → Action V α}
    (hk : ∀ x, k (.error x) = .done (.error x)) :
    (Action.expression least k).run c e r s =
      Outcome.andThen (e least s) fun v s => (k (.ok v)).run c e r s := by
  rw [run]
  rcases e least s with _ | ⟨x | v, s₁⟩
  · rfl
  · simp only [hk]
    rfl
  · rfl

theorem run_resume {left : V} {least : Nat} {k : Except ParseError V → Action V α}
    (hk : ∀ x, k (.error x) = .done (.error x)) :
    (Action.resume left least k).run c e r s =
      Outcome.andThen (r left least s) fun v s => (k (.ok v)).run c e r s := by
  rw [run]
  rcases r left least s with _ | ⟨x | v, s₁⟩
  · rfl
  · simp only [hk]
    rfl
  · rfl

end Action

namespace Action.InStep

variable {K : Comparison} {c c' : Context} {now : Option Token} {m m' : Action V α}
variable {e e' : Nat → Session → Outcome V} {r r' : V → Nat → Session → Outcome V}
variable {s s' : Session}

/-- A parse that is lost before an action is lost behind it, if it is where operands are parsed. -/
theorem stays (h : m.InStep K.placed c c' now m') (hs : K.Gone s.rest)
    (hnow : ∀ t, now = some t → K.Past t)
    (he : ∀ least s, K.Gone s.rest → K.Stays (fun _ => True) (e least s))
    (hr : ∀ left least s, K.Gone s.rest → K.Stays (fun _ => True) (r left least s)) :
    K.Stays (fun _ => True) (m.run c e r s) := by
  induction h generalizing s with
  | value a => exact Comparison.stays_ok trivial hs
  | failure herror hb =>
    refine Comparison.stays_error (K.excused_of_gone hs fun hkind => ?_)
    obtain ⟨t, ht, hspan⟩ := hb hkind
    exact ⟨t, hnow t ht, hspan⟩
  | peek hk hk' _ ih =>
    rw [run_peek hk]
    refine (Comparison.stays_peek c hs).andThen fun t s₁ ht hs₁ => ?_
    exact ih t t (.refl _ t) hs₁ fun u hu => Option.some.inj hu ▸ ht
  | take hk hk' _ ih =>
    rw [run_take hk]
    refine (Comparison.stays_take c hs).andThen fun t s₁ ht hs₁ => ?_
    exact ih t t (.refl _ t) hs₁ fun u hu => Option.some.inj hu ▸ ht
  | expression least hk hk' _ ih =>
    rw [run_expression hk]
    exact (he least s hs).andThen fun v s₁ _ hs₁ => ih v hs₁ fun u hu => by cases hu
  | resume left least hk hk' _ ih =>
    rw [run_resume hk]
    exact (hr left least s hs).andThen fun v s₁ _ hs₁ => ih v hs₁ fun u hu => by cases hu

/-- **The outcomes of two actions in step match,** if those of their requests do. -/
theorem follows (h : m.InStep K.placed c c' now m') (hs : K.Together s s')
    (he : ∀ least s, K.Gone s.rest → K.Stays (fun _ => True) (e least s))
    (hr : ∀ left least s, K.Gone s.rest → K.Stays (fun _ => True) (r left least s))
    (hee : ∀ least s s', K.Together s s' →
      K.Follows c c' (fun _ => True) Eq (e least s) (e' least s'))
    (hrr : ∀ left least s s', K.Together s s' →
      K.Follows c c' (fun _ => True) Eq (r left least s) (r' left least s')) :
    K.Follows c c' (fun _ => True) Eq (m.run c e r s) (m'.run c' e' r' s') := by
  induction h generalizing s s' with
  | value a => exact Comparison.follows_ok rfl hs
  | failure herror hb => exact Comparison.follows_error herror
  | peek hk hk' hstep ih =>
    rw [run_peek hk, run_peek hk']
    refine (Comparison.follows_peek c c' hs).andThen (fun t s₁ ht hs₁ => ?_)
      fun t t' s₁ s₁' ht hs₁ => ih t t' ht hs₁
    exact (hstep t t (.refl _ t)).stays hs₁ (fun u hu => Option.some.inj hu ▸ ht) he hr
  | take hk hk' hstep ih =>
    rw [run_take hk, run_take hk']
    refine (Comparison.follows_take c c' hs).andThen (fun t s₁ ht hs₁ => ?_)
      fun t t' s₁ s₁' ht hs₁ => ih t t' ht hs₁
    exact (hstep t t (.refl _ t)).stays hs₁ (fun u hu => Option.some.inj hu ▸ ht) he hr
  | expression least hk hk' hstep ih =>
    rw [run_expression hk, run_expression hk']
    refine (hee least s s' hs).andThen (fun v s₁ _ hs₁ => ?_) fun v v' s₁ s₁' hv hs₁ => ?_
    · exact (hstep v).stays hs₁ (fun u hu => by cases hu) he hr
    · cases hv
      exact ih v hs₁
  | resume left least hk hk' hstep ih =>
    rw [run_resume hk, run_resume hk']
    refine (hrr left least s s' hs).andThen (fun v s₁ _ hs₁ => ?_) fun v v' s₁ s₁' hv hs₁ => ?_
    · exact (hstep v).stays hs₁ (fun u hu => by cases hu) he hr
    · cases hv
      exact ih v hs₁

end Action.InStep

/-! ## Parses -/

/-- What the symbol does goes in step in any two texts. -/
structure Symbol.GoesInStep (placed : Prop) (s : Symbol V) : Prop where
  nud : ∀ f, s.nud? = some f → ∀ c c' t t', c'.entries = c.entries → t.Alike placed t' →
    (f c t).InStep placed c c' (some t) (f c' t')
  led : ∀ f, s.led? = some f → ∀ c c' t t' left, c'.entries = c.entries → t.Alike placed t' →
    (f c t left).InStep placed c c' (some t) (f c' t' left)

namespace Comparison

variable {K : Comparison} {g g' : Grammar V} {c c' : Context} {n : Nat} {least : Nat} {left : V}
variable {s s' : Session}

/-- Two grammars have tables of the same binding powers, and denotations that go in step. The second
one allows as much nesting as the first one; if it allows more, errors of the limit are excused. -/
structure Compares (K : Comparison) (g g' : Grammar V) (c c' : Context) : Prop where
  power : ∀ symbol, c'.power symbol = c.power symbol
  nud : ∀ t t', t.Alike K.placed t' →
    (g.nudAction c t).InStep K.placed c c' (some t) (g'.nudAction c' t')
  led : ∀ t t' left, t.Alike K.placed t' →
    (g.ledAction c t left).InStep K.placed c c' (some t) (g'.ledAction c' t' left)
  limit : g.maxDepth ≤ g'.maxDepth
  excused : g.maxDepth < g'.maxDepth → ∀ e : ParseError, e.kind = .tooDeep → K.Excused e

/-- Two grammars with one table of symbols that go in step. -/
theorem compares {input input' : String} (hsymbols : g'.symbols = g.symbols)
    (h : ∀ s ∈ g.symbols, s.GoesInStep K.placed) (limit : g.maxDepth ≤ g'.maxDepth)
    (excused : g.maxDepth < g'.maxDepth → ∀ e : ParseError, e.kind = .tooDeep → K.Excused e) :
    K.Compares g g' (g.context input) (g'.context input') where
  power symbol := by
    simp only [Context.power, Context.entry, Grammar.context, Grammar.entries, hsymbols]
  nud t t' ht := by
    rw [Grammar.nudAction, Grammar.nudAction, hsymbols, ht.symbol, ht.isEnd]
    cases hs : g.symbols[t.symbol]?.bind (·.nud?) with
    | some f =>
      obtain ⟨s, hs, hf⟩ := Option.bind_eq_some_iff.mp hs
      refine (h s (List.mem_of_getElem? hs)).nud f hf _ _ t t' ?_ ht
      simp only [Grammar.context, Grammar.entries, hsymbols]
    | none =>
      simp only
      split
      · exact .fail _ ht.span fun hkind => hkind.elim
      · exact .failAt _ _ ht
  led t t' left ht := by
    rw [Grammar.ledAction, Grammar.ledAction, hsymbols, ht.symbol]
    cases hs : g.symbols[t.symbol]?.bind (·.led?) with
    | some f =>
      obtain ⟨s, hs, hf⟩ := Option.bind_eq_some_iff.mp hs
      refine (h s (List.mem_of_getElem? hs)).led f hf _ _ t t' left ?_ ht
      simp only [Grammar.context, Grammar.entries, hsymbols]
    | none => exact .failAt _ _ ht
  limit := limit
  excused := excused

/-- What is parsed within `n` steps is lost where the first parse is. -/
structure StaysWithin (K : Comparison) (g : Grammar V) (c : Context) (n : Nat) : Prop where
  expression : ∀ least s, K.Gone s.rest → K.Stays (fun _ => True) (g.expression c n least s)
  resume : ∀ left least s, K.Gone s.rest → K.Stays (fun _ => True) (g.resume c n left least s)

/-- What is parsed within `n` steps matches where the same lies ahead. -/
structure FollowsWithin (K : Comparison) (g g' : Grammar V) (c c' : Context) (n : Nat) : Prop where
  expression : ∀ least s s', K.Together s s' →
    K.Follows c c' (fun _ => True) Eq (g.expression c n least s) (g'.expression c' n least s')
  resume : ∀ left least s s', K.Together s s' →
    K.Follows c c' (fun _ => True) Eq (g.resume c n left least s) (g'.resume c' n left least s')

theorem Together.enter (h : K.Together s s') : K.Together s.enter s'.enter where
  rest := h.rest
  depth := congrArg (· + 1) h.depth
  stats := by simp only [Session.enter, h.depth, h.stats]

theorem Together.leave (h : K.Together s s') : K.Together s.leave s'.leave where
  rest := h.rest
  depth := congrArg (· - 1) h.depth
  stats := h.stats

theorem Together.countNud (h : K.Together s s') : K.Together s.countNud s'.countNud where
  rest := h.rest
  depth := h.depth
  stats := by simp only [Session.countNud, h.stats]

theorem Together.countLed (h : K.Together s s') : K.Together s.countLed s'.countLed where
  rest := h.rest
  depth := h.depth
  stats := by simp only [Session.countLed, h.stats]

/-! ### A parse that is lost -/

/-- What a token does that begins an operand, and what continues it. -/
theorem StaysWithin.operand {t : Token} (hn : K.StaysWithin g c n) (h : K.Compares g g' c c')
    (ht : K.Past t) (hs : K.Gone s.rest) :
    K.Stays (fun _ => True) (Outcome.andThen (g.act c n (g.nudAction c t) s.countNud)
      fun left s => g.resume c n left least s) := by
  have hact := (h.nud t t (.refl _ t)).stays (s := s.countNud) hs
    (fun u hu => Option.some.inj hu ▸ ht) hn.expression hn.resume
  exact hact.andThen fun left s₁ _ hs₁ => hn.resume left least s₁ hs₁

/-- What a token does that binds an operand, and what continues it. -/
theorem StaysWithin.operation {t : Token} (hn : K.StaysWithin g c n) (h : K.Compares g g' c c')
    (ht : K.Past t) (hs : K.Gone s.rest) :
    K.Stays (fun _ => True) (Outcome.andThen (g.act c n (g.ledAction c t left) s.countLed)
      fun left s => g.resume c n left least s) := by
  have hact := (h.led t t left (.refl _ t)).stays (s := s.countLed) hs
    (fun u hu => Option.some.inj hu ▸ ht) hn.expression hn.resume
  exact hact.andThen fun w s₁ _ hs₁ => hn.resume w least s₁ hs₁

/-- What follows the look at the next token. -/
theorem StaysWithin.continuation {power : Nat} (hn : K.StaysWithin g c n)
    (h : K.Compares g g' c c') (hs : K.Gone s.rest) :
    K.Stays (fun _ => True) (if power ≤ least then some (.ok left, s)
      else Outcome.andThen (some (s.take c)) fun t s =>
        Outcome.andThen (g.act c n (g.ledAction c t left) s.countLed) fun left s =>
          g.resume c n left least s) := by
  split
  · exact stays_ok trivial hs
  · exact (stays_take c hs).andThen fun t s₁ ht hs₁ => hn.operation h ht hs₁

theorem StaysWithin.begin (hn : K.StaysWithin g c n) (h : K.Compares g g' c c')
    (hs : K.Gone s.rest) : K.Stays (fun _ => True) (g.begin c n least s) := by
  rw [Grammar.begin_eq]
  exact (stays_take c hs).andThen fun t s₁ ht hs₁ => hn.operand h ht hs₁

theorem stays_tooDeep {t : Token} (hs : K.Gone s.rest) : K.Stays (fun _ => True)
    (some (.error (c.errorAt .tooDeep "expression nested too deeply" t.span), s) : Outcome V) :=
  stays_error (K.excused_of_gone hs fun hkind => hkind.elim)

theorem StaysWithin.expression_succ (hn : K.StaysWithin g c n) (h : K.Compares g g' c c')
    (hs : K.Gone s.rest) : K.Stays (fun _ => True) (g.expression c (n + 1) least s) := by
  by_cases hd : s.depth < g.maxDepth
  · rw [Grammar.expression_of_le hd]
    have hbegin : K.Stays (fun _ => True) (g.begin c n least s.enter) := hn.begin h hs
    exact hbegin.andThen fun v s₁ _ hs₁ => stays_ok trivial hs₁
  · rw [Grammar.expression_of_ge (Nat.not_lt.mp hd)]
    exact (stays_peek (s := s.enter) c hs).andThen fun t s₁ _ hs₁ => stays_tooDeep hs₁

theorem StaysWithin.resume_succ (hn : K.StaysWithin g c n) (h : K.Compares g g' c c')
    (hs : K.Gone s.rest) : K.Stays (fun _ => True) (g.resume c (n + 1) left least s) := by
  rw [Grammar.resume_succ]
  exact (stays_peek c hs).andThen fun t s₁ _ hs₁ => hn.continuation h hs₁

theorem Compares.staysWithin (h : K.Compares g g' c c') (n : Nat) : K.StaysWithin g c n := by
  induction n with
  | zero => exact ⟨fun _ _ _ _ h => (by cases h), fun _ _ _ _ _ h => (by cases h)⟩
  | succ n ih =>
    exact ⟨fun _ _ hs => ih.expression_succ h hs, fun _ _ _ hs => ih.resume_succ h hs⟩

/-! ### Two parses that go on -/

theorem FollowsWithin.begin (hn : K.FollowsWithin g g' c c' n) (h : K.Compares g g' c c')
    (hs : K.Together s s') :
    K.Follows c c' (fun _ => True) Eq (g.begin c n least s) (g'.begin c' n least s') := by
  have hstays := h.staysWithin n
  rw [Grammar.begin_eq, Grammar.begin_eq]
  refine (follows_take c c' hs).andThen (fun t s₁ ht hs₁ => hstays.operand h ht hs₁) ?_
  intro t t' s₁ s₁' ht hs₁
  have hact := (h.nud t t' ht).follows hs₁.countNud hstays.expression hstays.resume
    hn.expression hn.resume
  refine hact.andThen (fun left s₂ _ hs₂ => hstays.resume left least s₂ hs₂) ?_
  rintro left _ s₂ s₂' rfl hs₂
  exact hn.resume left least s₂ s₂' hs₂

/-- The first parse comes to its limit, and the second one goes on. -/
theorem Compares.follows_limit (h : K.Compares g g' c c') (hs : K.Together s s')
    (hd : g.maxDepth ≤ s.depth) (hd' : s'.depth < g'.maxDepth) :
    K.Follows c c' (fun _ => True) Eq (g.expression c (n + 1) least s)
      (g'.expression c' (n + 1) least s') := by
  have hlt : g.maxDepth < g'.maxDepth := Nat.lt_of_le_of_lt (hs.depth ▸ hd) hd'
  rcases K.next_of_abreast hs.rest with hgone | ⟨t, -, hn, -⟩ | ⟨span, span', hn, hn', hspan⟩
  · exact ((h.staysWithin (n + 1)).expression least s hgone).follows
  · obtain ⟨s₁, hp, -⟩ := Session.peek_of_next (c := c) (s := s.enter) hn
    rw [Grammar.expression_of_ge hd, hp, Outcome.andThen_ok]
    exact (stays_error (h.excused hlt _ rfl)).follows
  · -- Where no pattern matches both parses fail with the same error.
    rw [Grammar.expression_of_ge hd, Session.peek_of_next_error (s := s.enter) hn,
      Outcome.andThen_error, Grammar.expression_of_le hd', Grammar.begin_eq,
      Session.take_of_next_error (s := s'.enter) hn', Outcome.andThen_error, Outcome.andThen_error]
    exact follows_error (.errorAt _ _ hspan)

theorem FollowsWithin.expression_succ (hn : K.FollowsWithin g g' c c' n)
    (h : K.Compares g g' c c') (hs : K.Together s s') :
    K.Follows c c' (fun _ => True) Eq (g.expression c (n + 1) least s)
      (g'.expression c' (n + 1) least s') := by
  by_cases hd : s.depth < g.maxDepth
  · have hd' : s'.depth < g'.maxDepth := by
      rw [hs.depth]
      exact Nat.lt_of_lt_of_le hd h.limit
    rw [Grammar.expression_of_le hd, Grammar.expression_of_le hd']
    refine (hn.begin h hs.enter).andThen (fun v s₁ _ hs₁ => stays_ok trivial hs₁) ?_
    rintro v _ s₁ s₁' rfl hs₁
    exact follows_ok rfl hs₁.leave
  by_cases hd' : s'.depth < g'.maxDepth
  · exact h.follows_limit hs (Nat.not_lt.mp hd) hd'
  · rw [Grammar.expression_of_ge (Nat.not_lt.mp hd), Grammar.expression_of_ge (Nat.not_lt.mp hd')]
    refine (follows_peek c c' hs.enter).andThen (fun t s₁ _ hs₁ => stays_tooDeep hs₁) ?_
    exact fun t t' s₁ s₁' ht hs₁ => follows_error (.errorAt _ _ ht.span)

theorem FollowsWithin.resume_succ (hn : K.FollowsWithin g g' c c' n) (h : K.Compares g g' c c')
    (hs : K.Together s s') :
    K.Follows c c' (fun _ => True) Eq (g.resume c (n + 1) left least s)
      (g'.resume c' (n + 1) left least s') := by
  have hstays := h.staysWithin n
  rw [Grammar.resume_succ, Grammar.resume_succ]
  refine (follows_peek c c' hs).andThen (fun t s₁ _ hs₁ => hstays.continuation h hs₁) ?_
  intro t t' s₁ s₁' ht hs₁
  rw [ht.symbol, h.power]
  split
  · exact follows_ok rfl hs₁
  · refine (follows_take c c' hs₁).andThen (fun t s₂ ht hs₂ => hstays.operation h ht hs₂) ?_
    intro t t' s₂ s₂' ht hs₂
    have hact := (h.led t t' left ht).follows hs₂.countLed hstays.expression hstays.resume
      hn.expression hn.resume
    refine hact.andThen (fun w s₃ _ hs₃ => hstays.resume w least s₃ hs₃) ?_
    rintro w _ s₃ s₃' rfl hs₃
    exact hn.resume w least s₃ s₃' hs₃

theorem Compares.followsWithin (h : K.Compares g g' c c') (n : Nat) :
    K.FollowsWithin g g' c c' n := by
  induction n with
  | zero => exact ⟨fun _ _ _ _ _ h => (by cases h), fun _ _ _ _ _ _ h => (by cases h)⟩
  | succ n ih =>
    exact ⟨fun _ _ _ hs => ih.expression_succ h hs, fun _ _ _ _ hs => ih.resume_succ h hs⟩

/-! ## Texts -/

/-- What a parse says of the token behind its one expression. -/
theorem stays_close {v : V} {t : Token} (ht : K.Past t) (hs : K.Gone s.rest) :
    K.Stays (fun _ => True) (if t.isEnd then some (.ok (v, s.stats), s)
      else some (.error (c.errorAt .unexpectedToken "unexpected token" t.span), s)) := by
  split
  · exact stays_ok trivial hs
  · exact stays_error (K.excused_of_gone hs fun _ => ⟨t, ht, rfl⟩)

/-- **The outcomes of two parses match,** unless the first one is lost. -/
theorem Compares.whole (h : K.Compares g g' c c') (hs : K.Together s s') :
    K.Follows c c' (fun _ => True) Eq (g.whole c n s) (g'.whole c' n s') := by
  rw [Grammar.whole, Grammar.whole]
  refine ((h.followsWithin n).expression 0 s s' hs).andThen (fun v s₁ _ hs₁ => ?_) ?_
  · exact (stays_peek c hs₁).andThen fun t s₂ ht hs₂ => stays_close ht hs₂
  rintro v _ s₁ s₁' rfl hs₁
  refine (follows_peek c c' hs₁).andThen (fun t s₂ ht hs₂ => stays_close ht hs₂) ?_
  intro t t' s₂ s₂' ht hs₂
  rw [ht.isEnd]
  split
  · exact follows_ok (by rw [hs₂.stats]) hs₂
  · exact follows_error (.errorAt _ _ ht.span)

/-- **The results for two texts match,** unless the first parse is lost. -/
theorem Compares.parse {input input' : String} {r r' : Recognizer}
    (h : K.Compares g g' (g.context input) (g'.context input'))
    (hr : g.recognizer = .ok r) (hr' : g'.recognizer = .ok r')
    (hi : Grammar.EndIsInert (g.context input)
      (Session.start (r.scan input) (byteLength input.toList)))
    (hi' : Grammar.EndIsInert (g'.context input')
      (Session.start (r'.scan input') (byteLength input'.toList)))
    (ha : K.Abreast (r.scan input) (r'.scan input')) {result : Except ParseError (V × Stats)}
    (hp : g.parse input = some result) :
    ∃ s, K.Lost (fun _ => True) (result, s) ∨ ∃ result' s', g'.parse input' = some result' ∧
      K.Matches (g.context input) (g'.context input') Eq (result, s) (result', s') := by
  obtain ⟨n, s, hn⟩ := (Grammar.parse_eq_iff hr hi).mp hp
  refine ⟨s, ?_⟩
  have hs : K.Together (Session.start (r.scan input) (byteLength input.toList))
      (Session.start (r'.scan input') (byteLength input'.toList)) := ⟨ha, rfl, rfl⟩
  rcases h.whole hs _ hn with hlost | ⟨⟨result', s'⟩, hn', hmatches⟩
  · exact .inl hlost
  · exact .inr ⟨result', s', (Grammar.parse_eq_iff hr' hi').mpr ⟨n, s', hn'⟩, hmatches⟩

end Comparison

end Precedence
