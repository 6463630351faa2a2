import Precedence.Proofs.Parsing.Rules

/-!
# Tokens ahead

What looking at a token and taking one do to the state of a parse, and what the table says of a
token. `Alike` states differ at most in what they say of the text behind them, which the shipped
denotations never ask for.
-/

namespace Precedence

open Precedence.Source

namespace Session

variable {c : Context} {s s' s₁ s₂ : Session} {t t' : Token} {ts : List Token}

/-- States that differ at most in what they say of the text behind them. -/
structure Alike (s s' : Session) : Prop where
  upcoming : s'.upcoming = s.upcoming
  ending : s'.ending = s.ending
  depth : s'.depth = s.depth
  stats : s'.stats = s.stats

/-- The state behind the next token. -/
def pass (s : Session) : Session :=
  { s with
    upcoming := s.upcoming.tail
    stats := { s.stats with tokens := s.stats.tokens + 1 } }

theorem alike_peek (s : Session) : Alike s (s.peek c).2 := by
  unfold peek
  split
  · exact ⟨rfl, rfl, rfl, rfl⟩
  · split <;> exact ⟨rfl, rfl, rfl, rfl⟩

/-- The token that comes next is looked at. -/
theorem peek_of_cons (h : s.upcoming = t :: ts) : ∃ s', s.peek c = (.ok t, s') ∧ Alike s s' := by
  refine ⟨(s.peek c).2, ?_, alike_peek s⟩
  rw [peek, h]

/-- Where no token is left the one that comes again and again is looked at. -/
theorem peek_of_end (h : s.upcoming = []) (he : s.ending = .endless t) :
    ∃ s', s.peek c = (.ok t, s') ∧ Alike s s' := by
  refine ⟨(s.peek c).2, ?_, alike_peek s⟩
  rw [peek, h, he]

/-- The token that comes next is taken. -/
theorem take_of_cons (h : s.upcoming = t :: ts) :
    ∃ s', s.take c = (.ok t, s') ∧ Alike s.pass s' := by
  obtain ⟨s₁, hp, ha⟩ := peek_of_cons (c := c) h
  refine ⟨s₁.drop t, by rw [take, hp], ?_⟩
  have hu := ha.upcoming
  refine ⟨by simp only [drop, pass, hu], ?_, ha.depth, ?_⟩
  · simp only [drop, pass, hu, h, ha.ending]
  · simp only [drop, pass, ha.stats]

/-- To take a token is to look at it and to drop it. -/
theorem take_eq_ok_iff :
    s.take c = (.ok t, s') ↔ ∃ s₁, s.peek c = (.ok t, s₁) ∧ s' = s₁.drop t := by
  rw [take]
  rcases s.peek c with ⟨e | u, s₁⟩
  · simp
  · simp only [Prod.mk.injEq, Except.ok.injEq]
    constructor
    · rintro ⟨rfl, rfl⟩
      exact ⟨s₁, ⟨rfl, rfl⟩, rfl⟩
    · rintro ⟨s₂, ⟨rfl, rfl⟩, rfl⟩
      exact ⟨rfl, rfl⟩

/-- The token that is taken is the one that was looked at. -/
theorem take_of_peek (hp : s.peek c = (.ok t, s₁)) (ht : s₁.take c = (.ok t', s₂)) : t' = t := by
  obtain ⟨s₃, hp', -⟩ := take_eq_ok_iff.mp ht
  have ha := alike_peek (c := c) s
  rw [hp] at ha
  rw [peek] at hp hp'
  rw [ha.upcoming, ha.ending] at hp'
  cases hu : s.upcoming with
  | cons u us =>
    rw [hu] at hp hp'
    cases hp
    cases hp'
    rfl
  | nil =>
    rw [hu] at hp hp'
    cases he : s.ending with
    | endless u =>
      rw [he] at hp hp'
      cases hp
      cases hp'
      rfl
    | unrecognized span =>
      rw [he] at hp
      cases hp

end Session

namespace Grammar

variable {V : Type} {g : Grammar V} {input : String} {i : Nat} {s : Symbol V}

theorem setMaxDepth_maxDepth (g : Grammar V) : g.setMaxDepth g.maxDepth = g := rfl

theorem maxDepth_setMaxDepth (g : Grammar V) (depth : Nat) :
    (g.setMaxDepth depth).maxDepth = depth := rfl

theorem symbols_setMaxDepth (g : Grammar V) (depth : Nat) :
    (g.setMaxDepth depth).symbols = g.symbols := rfl

theorem recognizer_setMaxDepth (g : Grammar V) (depth : Nat) :
    (g.setMaxDepth depth).recognizer = g.recognizer := rfl

theorem recognizer_eq_ok_of_toOption {r : Recognizer} (h : g.recognizer.toOption = some r) :
    g.recognizer = .ok r := by
  cases hr : g.recognizer with
  | error e =>
    rw [hr] at h
    cases h
  | ok r' =>
    rw [hr] at h
    cases h
    rfl

theorem entry_context (h : g.symbols[i]? = some s) :
    (g.context input).entry i = s.toEntry := by
  simp [Context.entry, context, entries, List.getD_eq_getElem?_getD, h]

theorem power_context (h : g.symbols[i]? = some s) : (g.context input).power i = s.power := by
  rw [Context.power, entry_context h]

end Grammar

end Precedence
