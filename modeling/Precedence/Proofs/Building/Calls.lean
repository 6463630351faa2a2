import Precedence.Proofs.Building.Compilation

/-!
# Sequences of calls

A grammar is used by calls in any order: registrations, another limit to the nesting, requests for
the recognizer, and parses, which make and keep the recognizer. `Grammar.answers` are the answers to
a sequence of calls.

* `Call.isCurrent_on`, `Call.sameTable_on`: every call keeps a grammar current, and those that do
  not build leave its table as it is.
* `answers_kept`: so a recognizer that is kept is never out of date. To leave out requests for the
  recognizer and parses changes none of the other answers.
-/

namespace Precedence

open Precedence.Source

variable {V α : Type}

/-- A call of a grammar. -/
inductive Call (V : Type) where
  /-- Registers a symbol. -/
  | register (r : Registration V)
  | setMaxDepth (depth : Nat)
  /-- Asks for the recognizer. -/
  | compile
  | parse (input : String)

/-- The answer to a call. -/
inductive Answer (V : Type) where
  | registered (index : Except GrammarError Nat)
  | limited
  | compiled (r : Except GrammarError Recognizer)
  | parsed (result : Option (Except ParseError (V × Stats)))

namespace Call

/-- Whether a call is one of those that grammars are built by. -/
def builds : Call V → Bool
  | register _ => true
  | setMaxDepth _ => true
  | compile => false
  | parse _ => false

variable [Term V]

/-- The answer to a call and the grammar that it leaves behind. -/
def on : Call V → Grammar V → Answer V × Grammar V
  | register r, g => ((r.build.on g).map .registered id)
  | setMaxDepth depth, g => (.limited, g.setMaxDepth depth)
  | compile, g => ((Build.compile.on g).map .compiled id)
  | parse input, g => ((g.parseAndKeep input).map .parsed id)

end Call

namespace Grammar

variable {g g' : Grammar V}

/-- The recognizer is made if there is none, and kept. -/
theorem compile_on (g : Grammar V) :
    Build.compile.on g =
      match g.recognizer with
      | .error e => (.error e, g)
      | .ok r => (.ok r, { g with recognizer? := some r }) := by
  unfold Build.compile
  simp only [Build.on_bind, Build.on_get, Build.on_liftM]
  cases g.recognizer <;> rfl

/-- To make a recognizer leaves the table as it is. -/
theorem sameTable_compile (g : Grammar V) : SameTable g (Build.compile.on g).2 := by
  rw [compile_on]
  cases g.recognizer <;> exact ⟨rfl, rfl⟩

theorem IsCurrent.compile (h : g.IsCurrent) : (Build.compile.on g).2.IsCurrent := by
  rw [compile_on]
  cases hr : g.recognizer with
  | error e => exact h
  | ok r =>
    intro r' hr'
    cases hr'
    exact h.recognizer_eq.symm.trans hr

theorem compile_congr (h : SameTable g g') (hg : g.IsCurrent) (hg' : g'.IsCurrent) :
    (Build.compile.on g).1 = (Build.compile.on g').1 := by
  rw [compile_on, compile_on, hg.recognizer_eq, hg'.recognizer_eq, h.entries]
  cases Recognizer.ofEntries g'.entries <;> rfl

end Grammar

namespace Call

open Grammar (SameTable)

variable [Term V] {g g' : Grammar V}

/-! ## One call -/

/-- **Every call keeps a grammar current.** -/
theorem isCurrent_on (c : Call V) (h : g.IsCurrent) : (c.on g).2.IsCurrent := by
  cases c with
  | register r => exact r.isSafe_build.current g h
  | setMaxDepth depth => exact h.setMaxDepth depth
  | compile => exact h.compile
  | parse input => exact h.compile

/-- Calls that do not build leave the table as it is. -/
theorem sameTable_on {c : Call V} (hc : c.builds = false) (g : Grammar V) :
    SameTable g (c.on g).2 := by
  cases c with
  | register r => cases hc
  | setMaxDepth depth => cases hc
  | compile => exact g.sameTable_compile
  | parse input => exact g.sameTable_compile

/-- **Current grammars with one table answer alike,** and have one table afterwards. -/
theorem on_congr (c : Call V) (h : SameTable g g') (hg : g.IsCurrent) (hg' : g'.IsCurrent) :
    (c.on g).1 = (c.on g').1 ∧ SameTable (c.on g).2 (c.on g').2 := by
  have hcompile : SameTable (Build.compile.on g).2 (Build.compile.on g').2 :=
    (g.sameTable_compile.symm.trans h).trans g'.sameTable_compile
  cases c with
  | register r =>
    obtain ⟨hanswer, htable⟩ := r.isSafe_build.same g g' h
    exact ⟨congrArg Answer.registered hanswer, htable⟩
  | setMaxDepth depth => exact ⟨rfl, h.setMaxDepth depth⟩
  | compile => exact ⟨congrArg Answer.compiled (Grammar.compile_congr h hg hg'), hcompile⟩
  | parse input => exact ⟨congrArg Answer.parsed (Grammar.parse_congr h hg hg' input), hcompile⟩

end Call

/-! ## Sequences -/

namespace Grammar

/-- What belongs to the calls that are kept: those that are marked and those that build. -/
def kept (marked : List (Bool × Call V)) (xs : List α) : List α :=
  ((marked.zip xs).filter fun p => p.1.1 || p.1.2.builds).map (·.2)

theorem kept_cons (m : Bool × Call V) (marked : List (Bool × Call V)) (x : α) (xs : List α) :
    kept (m :: marked) (x :: xs) =
      if m.1 || m.2.builds then x :: kept marked xs else kept marked xs := by
  unfold kept
  rw [List.zip_cons_cons, List.filter_cons]
  split <;> rfl

variable [Term V] {g g' : Grammar V}

/-- The grammar that calls leave behind. -/
def after (g : Grammar V) : List (Call V) → Grammar V
  | [] => g
  | c :: calls => (c.on g).2.after calls

/-- The grammar that calls build from the one that has only the symbol for the end of the text. -/
def built (calls : List (Call V)) : Grammar V :=
  initial.after calls

/-- The answers to calls. -/
def answers (g : Grammar V) : List (Call V) → List (Answer V)
  | [] => []
  | c :: calls => (c.on g).1 :: (c.on g).2.answers calls

/-- What holds of a table is preserved by calls if it is by their registrations. -/
theorem after_preserves {P : Grammar V → Prop} {calls : List (Call V)}
    (hregister : ∀ r, .register r ∈ calls → ∀ g, P g → P (r.build.on g).2)
    (hsymbols : ∀ g g' : Grammar V, g.symbols = g'.symbols → P g → P g') (h : P g) :
    P (g.after calls) := by
  induction calls generalizing g with
  | nil => exact h
  | cons c calls ih =>
    refine ih (fun r hr => hregister r (List.mem_cons_of_mem _ hr)) ?_
    cases c with
    | register r => exact hregister r List.mem_cons_self g h
    | setMaxDepth depth => exact hsymbols g _ rfl h
    | compile => exact hsymbols g _ g.sameTable_compile.symbols h
    | parse input => exact hsymbols g _ g.sameTable_compile.symbols h

theorem after_append (g : Grammar V) (calls calls' : List (Call V)) :
    g.after (calls ++ calls') = (g.after calls).after calls' := by
  induction calls generalizing g with
  | nil => rfl
  | cons c calls ih => exact ih (c.on g).2

/-- **Any sequence of calls keeps a grammar current.** -/
theorem IsCurrent.after (h : g.IsCurrent) (calls : List (Call V)) : (g.after calls).IsCurrent := by
  induction calls generalizing g with
  | nil => exact h
  | cons c calls ih => exact ih (c.isCurrent_on h)

/-- Calls that are left out do not count. The grammars that are called all of them and only the
ones that are kept have one table all the way, and both are current. -/
theorem answers_kept_of_current (marked : List (Bool × Call V)) (h : SameTable g g')
    (hg : g.IsCurrent) (hg' : g'.IsCurrent) :
    g'.answers (kept marked (marked.map (·.2))) = kept marked (g.answers (marked.map (·.2))) := by
  induction marked generalizing g g' with
  | nil => rfl
  | cons m marked ih =>
    obtain ⟨mark, c⟩ := m
    have hcurrent := c.isCurrent_on hg
    rw [List.map_cons, answers, kept_cons, kept_cons]
    by_cases hkept : (mark || c.builds) = true
    · rw [if_pos hkept, if_pos hkept, answers]
      obtain ⟨hanswer, htable⟩ := c.on_congr h hg hg'
      rw [ih htable hcurrent (c.isCurrent_on hg'), hanswer]
    · rw [if_neg hkept, if_neg hkept]
      have hbuilds : c.builds = false := by
        cases hb : c.builds with
        | false => rfl
        | true => simp [hb] at hkept
      exact ih ((Call.sameTable_on hbuilds g).symm.trans h) hcurrent hg'

/-- **A recognizer is never out of date.** Whatever calls have been made, a recognizer that is kept
is the one that would be made of the table, and no answer depends on the requests for recognizers
and the parses that are left out. -/
theorem answers_kept (marked : List (Bool × Call V)) :
    (∀ r, (built (marked.map (·.2))).recognizer? = some r →
      Recognizer.ofEntries (built (marked.map (·.2))).entries = .ok r) ∧
    (initial : Grammar V).answers (kept marked (marked.map (·.2))) =
      kept marked ((initial : Grammar V).answers (marked.map (·.2))) :=
  ⟨isCurrent_initial.after _,
    answers_kept_of_current marked (SameTable.refl _) isCurrent_initial isCurrent_initial⟩

end Grammar

end Precedence
