import Precedence.Grammar.Parse
import Precedence.Proofs.Building.Registrations

/-!
# Recognizers kept in grammars

A grammar keeps the recognizer that was made for its table, and whatever may change what is
recognized has to drop it. `Grammar.IsCurrent` says that a recognizer that is kept is the one that
would be made now. `Build.IsSafe` says of a program that it keeps a grammar current and that it does
not depend on whether a recognizer is kept.

* `isSafe_build`: all registrations are safe, those that fail included.
* `parse_congr`: current grammars with one table parse alike.
-/

namespace Precedence

variable {V α β : Type}

/-! ## What a recognizer depends on -/

namespace Recognizer

/-- What a recognizer is made of. -/
def sources (entries : List Entry) : List (String × Option TokenPattern) :=
  entries.map fun e => (e.id, e.pattern?)

theorem literals_congr : ∀ {es es' : List Entry} (index : Nat) (sofar : List (Nat × List Char)),
    sources es = sources es' → literals index sofar es = literals index sofar es'
  | [], [], _, _, _ => rfl
  | e :: es, e' :: es', index, sofar, h => by
    obtain ⟨he, hes⟩ := List.cons.inj h
    rw [literals, literals, (Prod.mk.inj he).2]
    split
    · exact literals_congr _ _ hes
    · exact literals_congr _ _ hes

theorem classes_congr : ∀ {es es' : List Entry} (index : Nat),
    sources es = sources es' → classes index es = classes index es'
  | [], [], _, _ => rfl
  | e :: es, e' :: es', index, h => by
    obtain ⟨he, hes⟩ := List.cons.inj h
    rw [classes, classes, (Prod.mk.inj he).1, (Prod.mk.inj he).2, classes_congr _ hes]

/-- **A recognizer depends on ids and patterns only.** -/
theorem ofEntries_congr {es es' : List Entry} (h : sources es = sources es') :
    ofEntries es = ofEntries es' := by
  rw [ofEntries, ofEntries, literals_congr _ _ h, classes_congr _ h]

end Recognizer

namespace Grammar

variable {g g' : Grammar V} {i power : Nat} {s : Symbol V} {f : Symbol V → Symbol V}

/-! ## Current grammars -/

/-- A recognizer that is kept is the one that would be made of the table. -/
def IsCurrent (g : Grammar V) : Prop :=
  ∀ r, g.recognizer? = some r → Recognizer.ofEntries g.entries = .ok r

theorem isCurrent_of_none (h : g.recognizer? = none) : g.IsCurrent := by
  intro r hr
  rw [h] at hr
  cases hr

theorem isCurrent_initial : (initial : Grammar V).IsCurrent :=
  isCurrent_of_none rfl

theorem isCurrent_append : (g.append s).IsCurrent :=
  isCurrent_of_none rfl

theorem isCurrent_invalidate : g.invalidate.IsCurrent :=
  isCurrent_of_none rfl

theorem IsCurrent.setMaxDepth (h : g.IsCurrent) (depth : Nat) : (g.setMaxDepth depth).IsCurrent :=
  h

/-- What a recognizer is made of does not change with what symbols do. -/
theorem sources_change (hf : Symbol.ChangesActions f) (g : Grammar V) (i : Nat) :
    Recognizer.sources (g.change i f).entries = Recognizer.sources g.entries := by
  have hmodify : ∀ (l : List (Symbol V)) (i : Nat),
      Recognizer.sources ((l.modify i f).map (·.toEntry)) =
        Recognizer.sources (l.map (·.toEntry)) := by
    intro l
    induction l with
    | nil => intro i; cases i <;> rfl
    | cons s l ih =>
      intro i
      cases i with
      | zero => simp [Recognizer.sources, hf.id s, hf.pattern? s]
      | succ i => simpa [Recognizer.sources] using ih i
  exact hmodify g.symbols i

/-- A change that leaves alone what a recognizer is made of. -/
theorem IsCurrent.change (h : g.IsCurrent) (hf : Symbol.ChangesActions f) (i : Nat) :
    (g.change i f).IsCurrent := by
  intro r hr
  exact (Recognizer.ofEntries_congr (sources_change hf g i)).trans (h r hr)

/-- A symbol that is raised drops the recognizer, and one that is not leaves all as it was. -/
theorem IsCurrent.raise (h : g.IsCurrent) (i power : Nat) : (g.raise i power).IsCurrent := by
  unfold Grammar.raise
  split
  · exact isCurrent_invalidate
  · exact h

/-- The recognizer of a current grammar does not depend on whether one is kept. -/
theorem IsCurrent.recognizer_eq (h : g.IsCurrent) :
    g.recognizer = Recognizer.ofEntries g.entries := by
  unfold recognizer
  cases hr : g.recognizer? with
  | none => rfl
  | some r => exact (h r hr).symm

/-! ## Grammars with one table -/

/-- The grammars differ in nothing but the recognizers that they keep. -/
structure SameTable (g g' : Grammar V) : Prop where
  symbols : g.symbols = g'.symbols
  maxDepth : g.maxDepth = g'.maxDepth

namespace SameTable

theorem refl (g : Grammar V) : SameTable g g :=
  ⟨rfl, rfl⟩

theorem symm (h : SameTable g g') : SameTable g' g :=
  ⟨h.symbols.symm, h.maxDepth.symm⟩

theorem trans {g₁ g₂ g₃ : Grammar V} (h : SameTable g₁ g₂) (h' : SameTable g₂ g₃) :
    SameTable g₁ g₃ :=
  ⟨h.symbols.trans h'.symbols, h.maxDepth.trans h'.maxDepth⟩

theorem entries (h : SameTable g g') : g.entries = g'.entries := by
  rw [Grammar.entries, Grammar.entries, h.symbols]

theorem index? (h : SameTable g g') (id : String) : g.index? id = g'.index? id := by
  rw [Grammar.index?, Grammar.index?, h.symbols]

theorem find? (h : SameTable g g') (id : String) : g.find? id = g'.find? id := by
  rw [Grammar.find?, Grammar.find?, h.symbols]

theorem size (h : SameTable g g') : g.size = g'.size := by
  rw [Grammar.size, Grammar.size, h.symbols]

theorem known (h : SameTable g g') (id : String) : g.known id = g'.known id := by
  rw [Grammar.known, Grammar.known, h.find?]

theorem setMaxDepth (h : SameTable g g') (depth : Nat) :
    SameTable (g.setMaxDepth depth) (g'.setMaxDepth depth) :=
  ⟨h.symbols, rfl⟩

theorem invalidate (h : SameTable g g') : SameTable g.invalidate g'.invalidate :=
  ⟨h.symbols, h.maxDepth⟩

theorem change (h : SameTable g g') (i : Nat) (f : Symbol V → Symbol V) :
    SameTable (g.change i f) (g'.change i f) :=
  ⟨congrArg (·.modify i f) h.symbols, h.maxDepth⟩

theorem append (h : SameTable g g') (s : Symbol V) : SameTable (g.append s) (g'.append s) :=
  ⟨congrArg (· ++ [s]) h.symbols, h.maxDepth⟩

theorem raise (h : SameTable g g') (i power : Nat) :
    SameTable (g.raise i power) (g'.raise i power) := by
  unfold Grammar.raise
  rw [h.symbols]
  split
  · exact (h.change _ _).invalidate
  · exact h

end SameTable

/-! ## Parses -/

/-- Expressions do not depend on the recognizer that is kept. -/
theorem expression_congr (h : SameTable g g') (c : Context) (n : Nat) :
    g.expression c n = g'.expression c n ∧ g.resume c n = g'.resume c n := by
  have hnud : g.nudAction = g'.nudAction := by
    funext c t
    rw [nudAction, nudAction, h.symbols]
  have hled : g.ledAction = g'.ledAction := by
    funext c t left
    rw [ledAction, ledAction, h.symbols]
  induction n with
  | zero => exact ⟨rfl, rfl⟩
  | succ n ih =>
    obtain ⟨he, hr⟩ := ih
    constructor
    · funext least s
      rw [expression, expression, hnud, he, hr, h.maxDepth]
    · funext left least s
      rw [resume, resume, hled, he, hr]

theorem parseWith_congr (h : SameTable g g') (r : Recognizer) (input : String) :
    g.parseWith r input = g'.parseWith r input := by
  have hcontext : g.context input = g'.context input := by
    rw [context, context, h.entries]
  have hbound : g.stepBound (r.scan input) = g'.stepBound (r.scan input) := by
    rw [stepBound, stepBound, h.maxDepth]
  rw [parseWith, parseWith, hcontext, hbound, parseScan, parseScan, (expression_congr h _ _).1]

/-- **Current grammars with one table parse alike.** -/
theorem parse_congr (h : SameTable g g') (hg : g.IsCurrent) (hg' : g'.IsCurrent)
    (input : String) : g.parse input = g'.parse input := by
  rw [parse, parse, hg.recognizer_eq, hg'.recognizer_eq, context, context, h.entries]
  cases Recognizer.ofEntries g'.entries with
  | error e => rfl
  | ok r => exact parseWith_congr h r input

end Grammar

/-! ## Programs -/

namespace Build

open Grammar (SameTable)

variable {b : Build V α} {id : String} {power i : Nat} {f : Symbol V → Symbol V}

/-- The program keeps a grammar current, and what it does does not depend on whether a recognizer
is kept. -/
structure IsSafe (b : Build V α) : Prop where
  current : ∀ g : Grammar V, g.IsCurrent → (b.on g).2.IsCurrent
  same : ∀ g g' : Grammar V, SameTable g g' →
    (b.on g).1 = (b.on g').1 ∧ SameTable (b.on g).2 (b.on g').2

theorem isSafe_pure (a : α) : (pure a : Build V α).IsSafe where
  current _ h := h
  same _ _ h := ⟨rfl, h⟩

/-- A program that fails at once. -/
theorem isSafe_of_on_eq_error {e : GrammarError} (h : ∀ g, b.on g = (.error e, g)) :
    b.IsSafe where
  current g hg := by
    rw [h]
    exact hg
  same g g' hs := by
    rw [h, h]
    exact ⟨rfl, hs⟩

/-- Programs that are safe are safe one after the other. -/
theorem IsSafe.bind {k : α → Build V β} (hb : b.IsSafe) (hk : ∀ a, (k a).IsSafe) :
    (b >>= k).IsSafe := by
  refine ⟨fun g hg => ?_, fun g g' h => ?_⟩
  · have hcurrent := hb.current g hg
    rw [on_bind]
    generalize b.on g = r at hcurrent
    obtain ⟨e | a, g₁⟩ := r
    · exact hcurrent
    · exact (hk a).current g₁ hcurrent
  · have hsame := hb.same g g' h
    rw [on_bind, on_bind]
    generalize b.on g = r at hsame
    generalize b.on g' = r' at hsame
    obtain ⟨x, g₁⟩ := r
    obtain ⟨x', g₁'⟩ := r'
    obtain ⟨rfl, htable⟩ : x = x' ∧ SameTable g₁ g₁' := hsame
    cases x with
    | error e => exact ⟨rfl, htable⟩
    | ok a => exact (hk a).same g₁ g₁' htable

/-- A change of what a symbol does. -/
theorem isSafe_change (i : Nat) (hf : Symbol.ChangesActions f) : (Build.change i f).IsSafe where
  current _ h := h.change hf i
  same _ _ h := ⟨rfl, h.change i f⟩

/-- **A symbol** that is new or raised drops the recognizer. -/
theorem isSafe_symbol (id : String) (power : Nat) :
    (Build.symbol id power : Build V Nat).IsSafe := by
  by_cases he : id.isEmpty
  · exact isSafe_of_on_eq_error fun g => symbol_on_empty he
  have he : id.isEmpty = false := by simpa using he
  refine ⟨fun g hg => ?_, fun g g' h => ?_⟩
  · rw [symbol_on he]
    cases g.index? id with
    | some i => exact hg.raise i power
    | none => exact Grammar.isCurrent_append.raise _ power
  · rw [symbol_on he, symbol_on he, h.index?, h.size, h.known]
    cases g'.index? id with
    | some i => exact ⟨rfl, h.raise i power⟩
    | none => exact ⟨rfl, (h.append _).raise _ power⟩

/-- **A token class** that is new or gets its pattern drops the recognizer. -/
theorem isSafe_token (name source : String) : (Build.token name source : Build V Nat).IsSafe := by
  by_cases hn : name.isEmpty
  · exact isSafe_of_on_eq_error fun g => token_on_empty hn
  have hn : name.isEmpty = false := by simpa using hn
  by_cases he : classId name = endId
  · exact isSafe_of_on_eq_error fun g => token_on_end hn he
  cases hr : Recognizer.checkRegex (classId name) source with
  | error e => exact isSafe_of_on_eq_error fun g => by rw [token_on hn he, hr]
  | ok r =>
    refine ⟨fun g hg => ?_, fun g g' h => ?_⟩
    · rw [token_on hn he, hr]
      simp only
      split
      · split
        · split
          · exact hg
          · exact hg
        · exact Grammar.isCurrent_invalidate
      · exact Grammar.isCurrent_append
    · rw [token_on hn he, token_on hn he, hr, h.index?, h.find?, h.size]
      simp only
      split
      · split
        · split
          · exact ⟨rfl, h⟩
          · exact ⟨rfl, h⟩
        · exact ⟨rfl, (h.change _ _).invalidate⟩
      · exact ⟨rfl, h.append _⟩

end Build

/-- **All registrations are safe,** those that fail included. -/
theorem Registration.isSafe_build [Term V] (r : Registration V) : r.build.IsSafe :=
  r.build_induction (Q := fun _ b => b.IsSafe) Build.isSafe_pure (fun hb hk => hb.bind hk)
    (fun i _ hf => Build.isSafe_change i hf.changesActions)
    (fun power _ => Build.isSafe_symbol _ power) fun name source _ _ => Build.isSafe_token name source

end Precedence
