import Precedence.Proofs.Building.Calls
import Precedence.Value.Basic

/-!
# Calls that fail

A registration that fails and a recognizer that cannot be made leave a grammar as it is. So all that
is asked of the grammar later on is answered as if the call had not been made.

* `eq_of_error?`: a call that fails leaves the grammar as it is.
* `built_refused`: nor does it change what later calls are answered.
-/

namespace Precedence

variable {V : Type}

/-- The error that a registration or a request for the recognizer ends with. -/
def Answer.error? : Answer V → Option GrammarError
  | registered (.error e) => some e
  | compiled (.error e) => some e
  | _ => none

namespace Registration

variable [Term V] {r : Registration V} {g g' : Grammar V} {e : GrammarError}

theorem ne_tooLarge_of_checkRegex {id source : String}
    (h : Recognizer.checkRegex id source = .error e) : e ≠ .tooLarge := by
  unfold Recognizer.checkRegex at h
  repeat' split at h
  all_goals cases h
  all_goals exact nofun

/-- What a registration complains of is its id or its pattern. The size of the automaton is not its
matter. -/
theorem ne_tooLarge_of_error (h : r.build.on g = (.error e, g')) : e ≠ .tooLarge := by
  refine r.build_induction
    (Q := fun _ b => ∀ g e g', b.on g = (.error e, g') → e ≠ GrammarError.tooLarge)
    ?_ ?_ ?_ ?_ ?_ g e g' h
  -- The programs that registrations are made of: nothing, two in a row, a change of a symbol, the
  -- registration of an id, and that of a token class.
  · exact fun _ _ _ _ h => nomatch h
  · intro _ _ b k hb hk g e g' h
    rw [Build.on_bind] at h
    split at h
    · exact hk _ _ _ _ h
    · rename_i herror
      cases h
      exact hb _ _ _ herror
  · exact fun _ _ _ _ _ _ h => nomatch h
  · intro power _ g e g' h
    by_cases he : r.target.isEmpty
    · rw [Build.symbol_on_empty he] at h
      cases h
      exact nofun
    · rw [Build.symbol_on (by simpa using he)] at h
      split at h <;> cases h
  · intro name source _ _ g e g' h
    by_cases hn : name.isEmpty
    · rw [Build.token_on_empty hn] at h
      cases h
      exact nofun
    by_cases he : classId name = endId
    · rw [Build.token_on_end (by simpa using hn) he] at h
      cases h
      exact nofun
    rw [Build.token_on (by simpa using hn) he] at h
    split at h
    · rename_i hcheck
      cases h
      exact ne_tooLarge_of_checkRegex hcheck
    · repeat' split at h
      all_goals cases h
      all_goals exact nofun

end Registration

namespace Grammar

open Registration

variable [Term V] {g : Grammar V} {c : Call V} {e : GrammarError}

/-- **A call that fails leaves the grammar as it is,** and none for the recognizer fails once there
is one. -/
theorem eq_of_error? (h : (c.on g).1.error? = some e) :
    (c.on g).2 = g ∧ (c = .compile → g.isCompiled = false) ∧
      ∀ r, c = .register r → e ≠ .tooLarge := by
  cases c with
  | setMaxDepth depth => cases h
  | parse input => cases h
  | register r =>
    rcases hb : r.build.on g with ⟨e' | i, g'⟩
    · simp only [Call.on, hb] at h
      cases h
      refine ⟨by simpa [Call.on, hb] using r.eq_of_error hb, nofun, fun r' hr => ?_⟩
      cases hr
      exact ne_tooLarge_of_error hb
    · simp only [Call.on, hb] at h
      cases h
  | compile =>
    rw [Call.on, compile_on] at h ⊢
    cases hr : g.recognizer with
    | ok r =>
      rw [hr] at h
      cases h
    | error e' =>
      refine ⟨rfl, fun _ => ?_, nofun⟩
      cases hkept : g.recognizer? with
      | none => simp [isCompiled, hkept]
      | some r => simp [recognizer, hkept] at hr

theorem answers_append (g : Grammar V) (calls calls' : List (Call V)) :
    g.answers (calls ++ calls') = g.answers calls ++ (g.after calls).answers calls' := by
  induction calls generalizing g with
  | nil => rfl
  | cons c calls ih => exact congrArg _ (ih (c.on g).2)

/-- **A call that fails changes nothing.** Whatever calls have built a grammar, a registration that
ends with an error leaves its table as it is, its recognizer, and the answers to whatever is asked
later; the error is about the id or the pattern. The same is true of a recognizer that cannot be
made, which the grammar goes without. -/
theorem built_refused (earlier later : List (Call V))
    (h : (c.on (built earlier)).1.error? = some e) :
    built (earlier ++ [c]) = built earlier ∧
    (c = .compile → (built (earlier ++ [c])).isCompiled = false) ∧
    (∀ r, c = .register r → e ≠ .tooLarge) ∧
    (initial : Grammar V).answers (earlier ++ c :: later) =
      (initial : Grammar V).answers earlier ++
        (c.on (built earlier)).1 :: (built earlier).answers later := by
  obtain ⟨hsame, hcompiled, hkind⟩ := eq_of_error? h
  have hbuilt : built (earlier ++ [c]) = built earlier := by
    rw [built, after_append]
    exact hsame
  refine ⟨hbuilt, fun hc => hbuilt ▸ hcompiled hc, hkind, ?_⟩
  rw [answers_append, answers]
  exact congrArg (fun g => _ ++ _ :: g.answers later) hsame

/-- Numbers and their sums, with a recognizer. -/
def numberCalls : List (Call Value) :=
  [.register (.token "n" "[0-9]+"), .register (.leftward "+" 50), .compile]

/-- A token class the automaton of which is too large. -/
def wideCalls : List (Call Value) :=
  [.register (.token "wide" "(?:[a-z]{1000}){1000}")]

theorem built_refused_numberCalls :
    ((Call.register (.token "n" "[0-9]")).on (built numberCalls)).1.error? =
        some (.patternConflict "(n)" "[0-9]+") ∧
      built (numberCalls ++ [.register (.token "n" "[0-9]")]) = built numberCalls ∧
      (Call.compile.on (built wideCalls)).1.error? = some .tooLarge ∧
      (built (wideCalls ++ [.compile])).isCompiled = false := by
  have hconflict : ((Call.register (.token "n" "[0-9]")).on (built numberCalls)).1.error? =
      some (.patternConflict "(n)" "[0-9]+") := by
    decide +kernel
  have hwide : (Call.compile.on (built wideCalls)).1.error? = some .tooLarge := by
    decide +kernel
  exact ⟨hconflict, (built_refused numberCalls [] hconflict).1, hwide,
    (built_refused wideCalls [] hwide).2.1 rfl⟩

end Grammar

end Precedence
