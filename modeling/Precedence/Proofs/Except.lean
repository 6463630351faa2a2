/-!
# Steps that may fail

When a step that may fail succeeds: `bind_eq_ok` peels a computation apart, one step at a time. Two
runs `FailAlike` if they fail with the same error or not at all: `FailAlike.bind` puts two runs
together, one step at a time.
-/

namespace Precedence

variable {α β γ δ ε : Type}

theorem bind_eq_ok {x : Except ε α} {f : α → Except ε β} {b : β} (h : (x >>= f) = .ok b) :
    ∃ a, x = .ok a ∧ f a = .ok b := by
  cases x with
  | error e => cases h
  | ok a => exact ⟨a, rfl, h⟩

theorem toOption_eq_some_iff {x : Except ε α} {a : α} : x.toOption = some a ↔ x = .ok a := by
  cases x <;> simp [Except.toOption]

/-- The error of a result, if it has one. -/
def error? : Option (Except ε α) → Option ε
  | some (.error e) => some e
  | _ => none

theorem error?_eq_some_iff {r : Option (Except ε α)} {e : ε} :
    error? r = some e ↔ r = some (.error e) := by
  rcases r with _ | e' | a <;> simp [error?]

/-! ## Two runs -/

/-- Both runs succeed, or both fail with the same error. -/
def FailAlike (r : Except ε α) (r' : Except ε β) : Prop :=
  (∃ x x', r = .ok x ∧ r' = .ok x') ∨ ∃ e, r = .error e ∧ r' = .error e

namespace FailAlike

variable {r : Except ε α} {r' : Except ε β}

protected theorem ok (x : α) (x' : β) : @FailAlike α β ε (.ok x) (.ok x') :=
  .inl ⟨x, x', rfl, rfl⟩

protected theorem refl (r : Except ε α) : FailAlike r r := by
  cases r with
  | error e => exact .inr ⟨e, rfl, rfl⟩
  | ok x => exact .ok x x

theorem bind {f : α → Except ε γ} {f' : β → Except ε δ} (h : FailAlike r r')
    (hf : ∀ x x', r = .ok x → r' = .ok x' → FailAlike (f x) (f' x')) :
    FailAlike (r >>= f) (r' >>= f') := by
  obtain ⟨x, x', rfl, rfl⟩ | ⟨e, rfl, rfl⟩ := h
  · exact hf x x' rfl rfl
  · exact .inr ⟨e, rfl, rfl⟩

theorem map (f : α → γ) (f' : β → δ) (h : FailAlike r r') : FailAlike (r.map f) (r'.map f') := by
  obtain ⟨x, x', rfl, rfl⟩ | ⟨e, rfl, rfl⟩ := h
  · exact .ok (f x) (f' x')
  · exact .inr ⟨e, rfl, rfl⟩

theorem eq_error_iff (h : FailAlike r r') {e : ε} : r = .error e ↔ r' = .error e := by
  obtain ⟨x, x', rfl, rfl⟩ | ⟨e', rfl, rfl⟩ := h
  · exact ⟨nofun, nofun⟩
  · rw [Except.error.injEq, Except.error.injEq]

theorem exists_ok (h : FailAlike r r') {x : α} (hx : r = .ok x) : ∃ x', r' = .ok x' := by
  obtain ⟨-, x', -, hx'⟩ | ⟨e, he, -⟩ := h
  · exact ⟨x', hx'⟩
  · cases hx.symm.trans he

end FailAlike

end Precedence
