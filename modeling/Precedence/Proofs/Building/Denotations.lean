import Precedence.Proofs.Building.Calls
import Precedence.Proofs.Parsing.Absence

/-!
# Denotations that ignore operators

A denotation can look up the operators of a table. Only one that was given as such does so: those
that come with operators and literals ask for none. Grammars that are built of registrations whose
denotations ask for none have no others.

* `ignoresOperators`: registrations of operators, literals, token classes and symbols.
* `IgnoresOperators.after`: what any sequence of calls preserves.
-/

namespace Precedence

variable {V : Type}

/-! ## Tables -/

namespace Grammar

variable {g : Grammar V} {i : Nat} {f : Symbol V → Symbol V}

/-- No denotation of the table depends on operators. -/
def IgnoresOperators (g : Grammar V) : Prop :=
  ∀ s ∈ g.symbols, s.IgnoresOperators

namespace IgnoresOperators

theorem change (h : g.IgnoresOperators) (hf : ∀ s, s.IgnoresOperators → (f s).IgnoresOperators) :
    (g.change i f).IgnoresOperators := by
  intro s hs
  rcases mem_change hs with hs | ⟨s', hs', rfl⟩
  · exact h s hs
  · exact hf s' (h s' hs')

theorem append (h : g.IgnoresOperators) {s : Symbol V} (hs : s.IgnoresOperators) :
    (g.append s).IgnoresOperators := by
  intro s' hs'
  rcases List.mem_append.mp hs' with hs' | hs'
  · exact h s' hs'
  · rw [List.mem_singleton.mp hs']
    exact hs

theorem raise (h : g.IgnoresOperators) (i power : Nat) : (g.raise i power).IgnoresOperators := by
  unfold Grammar.raise
  split
  · exact h.change (f := fun s => { s with power := power }) fun s hs => ⟨hs.nud, hs.led⟩
  · exact h

theorem fresh (id : String) (pattern? : Option TokenPattern) :
    (Symbol.fresh id pattern? : Symbol V).IgnoresOperators := by
  constructor <;> intro f hf <;> cases hf

theorem known (h : g.IgnoresOperators) (id : String) : (g.known id).IgnoresOperators := by
  unfold Grammar.known
  cases hf : g.find? id with
  | some s => exact h s (List.mem_of_find?_eq_some hf)
  | none => exact fresh id _

theorem symbol (h : g.IgnoresOperators) (id : String) (power : Nat) :
    ((Build.symbol id power).on g).2.IgnoresOperators :=
  Build.symbol_preserves (fun i _ _ => h.raise i power)
    (fun _ _ => (h.append (h.known id)).raise _ power) h

theorem token (h : g.IgnoresOperators) (name source : String) :
    ((Build.token name source).on g).2.IgnoresOperators :=
  Build.token_preserves (fun _ _ _ => h.change fun _ hs => ⟨hs.nud, hs.led⟩)
    (fun _ => h.append (fresh _ _)) h

end IgnoresOperators

end Grammar

theorem Grammar.ignoresOperators_initial : (initial : Grammar V).IgnoresOperators := by
  intro s hs
  rw [List.mem_singleton.mp hs]
  exact IgnoresOperators.fresh _ _

/-! ## Registrations -/

variable [Term V] {q : Registration V}

/-- The denotations that a registration installs do not depend on the operators of a table. -/
structure Registration.IgnoresOperators (q : Registration V) : Prop where
  nud : ∀ f, q.nud? = some f → Context.IgnoresOperators f
  led : ∀ f, q.led? = some f → Context.IgnoresOperators f

/-- Denotations may depend on operators only if they are given as such. -/
theorem Registration.ignoresOperators
    (hnud : ∀ id f, q = .nud id f → Context.IgnoresOperators f)
    (hled : ∀ id power f, q = .led id power f → Context.IgnoresOperators f) :
    q.IgnoresOperators := by
  constructor <;> intro f hf <;> cases q <;> cases hf <;>
    first | exact hnud _ _ rfl | exact hled _ _ _ rfl | exact fun c => rfl

/-- Registrations of such denotations only keep a table that has no others. -/
theorem Registration.IgnoresOperators.build (hq : q.IgnoresOperators)
    {g : Grammar V} (h : g.IgnoresOperators) : (q.build.on g).2.IgnoresOperators := by
  refine q.build_preserves (fun i f hf g h => h.change fun s hs => ?_)
    (fun power _ g h => h.symbol q.target power) (fun name source _ _ g h => h.token name source) h
  cases hf with
  | operator op => exact ⟨hs.nud, hs.led⟩
  | nud hnud => exact ⟨fun f hf => hq.nud f (hf ▸ hnud), hs.led⟩
  | led hled => exact ⟨hs.nud, fun f hf => hq.led f (hf ▸ hled)⟩

/-- **Any sequence of calls keeps a table without such denotations.** -/
theorem Grammar.IgnoresOperators.after {calls : List (Call V)}
    (hcalls : ∀ q, .register q ∈ calls → q.IgnoresOperators) {g : Grammar V}
    (h : g.IgnoresOperators) : (g.after calls).IgnoresOperators :=
  after_preserves (fun q hq _ h => (hcalls q hq).build h) (fun _ _ hs h s hmem => h s (hs ▸ hmem)) h

end Precedence
