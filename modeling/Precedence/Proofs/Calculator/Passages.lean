import Precedence.Proofs.Calculator.Phrases
import Precedence.Proofs.Parsing.Tokens

/-!
# Passages of a parse

A passage leads from one state of a parse to a later one. `Passes` says which terminals lie between
the two and what the parse has done meanwhile, as far as its statistics show it. Passages are put
together with `trans`, and `nested` puts one inside of an expression.
-/

namespace Precedence

open Precedence.Source Calculator

/-- How tightly the first of the terminals binds. -/
def Calculator.headPower (ahead : List (Option Terminal)) : Nat :=
  (ahead.head?.join.map Terminal.power).getD 0

namespace Session

variable {c : Context} {s s' s₁ s₂ : Session} {t : Token} {x : Terminal}
variable {ts ts' : List Terminal} {k k' : Tally}

/-- The terminals ahead. A token that is no terminal is kept as a gap. -/
def ahead (s : Session) : List (Option Terminal) :=
  s.upcoming.map Token.terminal?

/-- The terminal that comes next. -/
def next? (s : Session) : Option Terminal :=
  s.ahead.head?.join

/-- The tokens end with the token for the end of the text, and the deepest nesting so far is
recorded. -/
structure Proper (s : Session) : Prop where
  ends : s.ending.symbol? = some 0
  recorded : s.depth ≤ s.stats.depth

/-- The terminals `ts` lie between two states, and `k` is what the parse has done there. -/
structure Passes (ts : List Terminal) (k : Tally) (s s' : Session) : Prop where
  ahead : s.ahead = ts.map some ++ s'.ahead
  ending : s'.ending = s.ending
  depth : s'.depth = s.depth
  stats : s'.stats = ⟨s.stats.tokens + ts.length, s.stats.nuds + k.nuds, s.stats.leds + k.leds,
    max s.stats.depth (s.depth + k.height)⟩

theorem Proper.enter (hs : Proper s) : Proper s.enter :=
  ⟨hs.ends, Nat.le_max_right _ _⟩

theorem Passes.proper (h : Passes ts k s s') (hs : Proper s) : Proper s' := by
  refine ⟨by rw [h.ending]; exact hs.ends, ?_⟩
  rw [h.depth, h.stats]
  exact Nat.le_trans hs.recorded (Nat.le_max_left _ _)

theorem Passes.trans (h : Passes ts k s s₁) (h' : Passes ts' k' s₁ s₂) :
    Passes (ts ++ ts') (k.and k') s s₂ := by
  refine ⟨?_, h'.ending.trans h.ending, h'.depth.trans h.depth, ?_⟩
  · rw [h.ahead, h'.ahead, List.map_append, List.append_assoc]
  · rw [h'.stats, h.stats, h.depth]
    simp only [List.length_append, Tally.and, Stats.mk.injEq]
    omega

/-- A passage inside of an expression. -/
theorem Passes.nested (hs : Proper s) (h : Passes ts k s.enter s') :
    Passes ts k.nested s s'.leave := by
  refine ⟨h.ahead, h.ending, ?_, ?_⟩
  · rw [show s'.leave.depth = s'.depth - 1 from rfl, h.depth]
    rfl
  · have hr := hs.recorded
    rw [show s'.leave.stats = s'.stats from rfl, h.stats]
    simp only [enter, Tally.nested, Stats.mk.injEq, true_and]
    omega

theorem Passes.of_alike (hs : Proper s) (h : Alike s s') : Passes [] .nothing s s' := by
  refine ⟨by simp [Session.ahead, h.upcoming], h.ending, h.depth, ?_⟩
  have hr := hs.recorded
  rw [h.stats]
  simp [Tally.nothing, Nat.max_eq_left hr]

theorem passes_countNud (hs : Proper s) : Passes [] .operand s s.countNud := by
  refine ⟨rfl, rfl, rfl, ?_⟩
  simp [countNud, Tally.operand, Nat.max_eq_left hs.recorded]

theorem passes_countLed (hs : Proper s) : Passes [] .operator s s.countLed := by
  refine ⟨rfl, rfl, rfl, ?_⟩
  simp [countLed, Tally.operator, Nat.max_eq_left hs.recorded]

/-! ## Looking and taking -/

/-- The token that comes next can be looked at. -/
theorem Proper.peek (hs : Proper s) :
    ∃ t s', s.peek c = (.ok t, s') ∧ t.terminal? = s.next? ∧ Alike s s' := by
  rcases hu : s.upcoming with _ | ⟨t, ts⟩
  · rcases he : s.ending with t | span
    · obtain ⟨s', hp, ha⟩ := peek_of_end (c := c) hu he
      have h0 : t.symbol = 0 := by simpa [he, Ending.symbol?] using hs.ends
      exact ⟨t, s', hp, by simp [Token.terminal?, next?, ahead, hu, h0], ha⟩
    · have := hs.ends
      simp [he, Ending.symbol?] at this
  · obtain ⟨s', hp, ha⟩ := peek_of_cons (c := c) hu
    exact ⟨t, s', hp, by simp [next?, ahead, hu], ha⟩

theorem Proper.of_peek (hs : Proper s) (hp : s.peek c = (.ok t, s')) :
    t.terminal? = s.next? ∧ Alike s s' := by
  obtain ⟨t', s'', hp', h⟩ := hs.peek (c := c)
  rw [hp] at hp'
  cases hp'
  exact h

/-- A terminal is taken. -/
theorem Proper.of_take (hs : Proper s) (ht : s.take c = (.ok t, s')) :
    t.terminal? = s.next? ∧ ∀ x, t.terminal? = some x → Passes [x] .nothing s s' := by
  rw [take] at ht
  obtain ⟨t', s₁, hp, hn, ha⟩ := hs.peek (c := c)
  rw [hp] at ht
  cases ht
  refine ⟨hn, fun x hx => ?_⟩
  rcases hu : s.upcoming with _ | ⟨u, us⟩
  · rw [hn] at hx
    simp [next?, ahead, hu] at hx
  · have hu₁ := ha.upcoming.trans hu
    have htu : t.terminal? = u.terminal? := by rw [hn]; simp [next?, ahead, hu]
    refine ⟨?_, ?_, ha.depth, ?_⟩
    · simp [ahead, hu, drop, hu₁, ← htu, hx]
    · simp only [drop, hu₁, ha.ending]
    · simp [drop, ha.stats, Tally.nothing, Nat.max_eq_left hs.recorded]

/-- A token that comes next and is a terminal can be taken. -/
theorem Proper.take_cons (hs : Proper s) {us : List Token} (hu : s.upcoming = t :: us)
    (ht : t.terminal? = some x) :
    ∃ s', s.take c = (.ok t, s') ∧ Proper s' ∧ s'.upcoming = us ∧ s'.depth = s.depth := by
  obtain ⟨s', htake, h⟩ := take_of_cons (c := c) hu
  refine ⟨s', htake, ((hs.of_take htake).2 x ht).proper hs, ?_, h.depth⟩
  rw [h.upcoming, pass, hu]
  rfl

/-- The terminal that comes next can be taken. -/
theorem Proper.take (hs : Proper s) {rest : List (Option Terminal)}
    (h : s.ahead = some x :: rest) :
    ∃ t s', s.take c = (.ok t, s') ∧ t.terminal? = some x ∧ s'.ahead = rest ∧
      Passes [x] .nothing s s' := by
  obtain ⟨t, s₁, hp, hn, ha⟩ := hs.peek (c := c)
  have ht : s.take c = (.ok t, s₁.drop t) := by rw [Session.take, hp]
  have hx : t.terminal? = some x := by rw [hn, next?, h]; rfl
  have hpass := (hs.of_take ht).2 x hx
  refine ⟨t, _, ht, hx, ?_, hpass⟩
  have hahead := hpass.ahead
  rw [h] at hahead
  simpa [eq_comm] using hahead

/-- The terminal that comes next can be looked at and then taken. -/
theorem Proper.peek_take (hs : Proper s) {rest : List (Option Terminal)}
    (h : s.ahead = some x :: rest) :
    ∃ t s₁ s', s.peek c = (.ok t, s₁) ∧ s₁.take c = (.ok t, s') ∧ s.upcoming.head? = some t ∧
      t.terminal? = some x ∧ s'.ahead = rest ∧ Passes [x] .nothing s s' := by
  obtain ⟨t, us, hu, ht, -⟩ := List.map_eq_cons_iff.mp h
  obtain ⟨s₁, hpeek, halike⟩ := peek_of_cons (c := c) hu
  have hp := Passes.of_alike hs halike
  have h₁ : s₁.ahead = some x :: rest := by rw [← h, hp.ahead]; rfl
  obtain ⟨t', s', htake, -, hs', hp'⟩ := (hp.proper hs).take (c := c) h₁
  obtain ⟨s'', htake', -⟩ := take_of_cons (c := c) (halike.upcoming.trans hu)
  cases htake.symm.trans htake'
  exact ⟨t, s₁, s', hpeek, htake, by rw [hu]; rfl, ht, hs', by simpa using hp.trans hp'⟩

/-- Where no terminal is left the end of the text comes next. -/
theorem Proper.isEnd_of_peek (hs : Proper s) (ha : s.ahead = []) (hp : s.peek c = (.ok t, s')) :
    t.isEnd = true := by
  have hu : s.upcoming = [] := List.map_eq_nil_iff.mp ha
  have he := hs.ends
  rw [Session.peek, hu] at hp
  cases hending : s.ending with
  | unrecognized span =>
    rw [hending] at he
    cases he
  | endless u =>
    rw [hending] at he hp
    cases hp
    simpa [Token.isEnd, Ending.symbol?] using he

/-- The end of the text is not among the tokens that are left. -/
theorem of_peek_isEnd (hp : s.peek c = (.ok t, s')) (ht : t.isEnd = true)
    (hs : ∀ t ∈ s.upcoming, t.symbol ≠ 0) : s.upcoming = [] ∧ s.ending.symbol? = some 0 := by
  have h0 : t.symbol = 0 := by simpa [Token.isEnd] using ht
  rw [peek] at hp
  cases hu : s.upcoming with
  | cons u us =>
    rw [hu] at hp
    cases hp
    exact absurd h0 (hs t (by rw [hu]; exact List.mem_cons_self))
  | nil =>
    rw [hu] at hp
    cases hending : s.ending with
    | unrecognized span =>
      rw [hending] at hp
      cases hp
    | endless u =>
      rw [hending] at hp
      cases hp
      exact ⟨rfl, by rw [Ending.symbol?, h0]⟩

end Session

end Precedence
