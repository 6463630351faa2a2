import Precedence.Proofs.Building.Programs

/-!
# Registrations of new ids

What a registration does to a grammar that does not know its id: it adds one symbol, and the
grammar is the one before with that symbol behind all others. Tables that are built of new ids can
be written down one symbol after the other.
-/

namespace Precedence

namespace Grammar

variable {V : Type} {g : Grammar V} {id : String} {s : Symbol V}

/-- To change the symbol that was added is to add another one. -/
theorem append_change (f : Symbol V → Symbol V) :
    (g.append s).change g.size f = g.append (f s) := by
  have h : ∀ l : List (Symbol V), (l ++ [s]).modify l.length f = l ++ [f s] := by
    intro l
    induction l with
    | nil => rfl
    | cons x l ih => simp [ih]
  simp [change, append, size, h]

theorem append_raise (power : Nat) :
    (g.append s).raise g.size power = g.append (s.raised power) := by
  by_cases h : s.power < power
  · have he : s.raised power = { s with power := power } := by
      rw [Symbol.raised, Nat.max_eq_right (Nat.le_of_lt h)]
    rw [he, ← append_change (s := s) fun s => { s with power := power }]
    simp [raise, append, size, h, change, invalidate]
  · simp [raise, append, size, h, Symbol.raised, Nat.max_eq_left (Nat.not_lt.mp h)]

theorem index?_append (hi : g.index? s.id = none) : (g.append s).index? s.id = some g.size :=
  (amends_append hi).index

/-- What a new id that is no class begins with. -/
theorem known_of_index? (hi : g.index? id = none) (hc : isClassId id = false) :
    g.known id = Symbol.fresh id (some (.literal id)) := by
  rw [known, index?_eq_none_iff.mp hi, hc]
  rfl

end Grammar

namespace Build

open Grammar

variable {V : Type} {g : Grammar V} {id : String}

theorem symbol_on_new (id : String) (he : id.isEmpty = false) (hi : g.index? id = none)
    (power : Nat) :
    (Build.symbol id power).on g = (.ok g.size, g.append ((g.known id).raised power)) := by
  rw [symbol_on he, hi, ← append_raise]

theorem symbol_on_append {s : Symbol V} (he : id.isEmpty = false) (hi : g.index? id = none)
    (hs : s.id = id) (power : Nat) :
    (Build.symbol id power).on (g.append s) = (.ok g.size, g.append (s.raised power)) := by
  subst hs
  rw [symbol_on he, index?_append hi, ← append_raise]

theorem symbol_on_known (id : String) {i : Nat} (he : id.isEmpty = false)
    (hi : g.index? id = some i) (power : Nat) :
    (Build.symbol id power).on g = (.ok i, g.raise i power) := by
  rw [symbol_on he, hi]

theorem led_on_known (id : String) {i : Nat} (he : id.isEmpty = false)
    (hi : g.index? id = some i) (power : Nat) (f : Led V) :
    (Build.led id power f).on g =
      (.ok i, (g.raise i power).change i fun s => { s with led? := some f }) := by
  unfold Build.led
  simp only [on_bind, symbol_on_known _ he hi, on_change, on_pure]

theorem nud_on_new (id : String) (he : id.isEmpty = false) (hi : g.index? id = none)
    (f : Nud V) :
    (Build.nud id f).on g = (.ok g.size, g.append { g.known id with nud? := some f }) := by
  unfold Build.nud
  simp only [on_bind, symbol_on_new _ he hi, on_change, append_change, on_pure]
  simp [Symbol.raised]

theorem led_on_new (id : String) (he : id.isEmpty = false) (hi : g.index? id = none)
    (power : Nat) (f : Led V) :
    (Build.led id power f).on g =
      (.ok g.size, g.append { (g.known id).raised power with led? := some f }) := by
  unfold Build.led
  simp only [on_bind, symbol_on_new _ he hi, on_change, append_change, on_pure]

theorem token_on_new {name source : String} (hn : name.isEmpty = false)
    (he : classId name ≠ endId)
    (hc : (Recognizer.checkRegex (classId name) source).toOption.isSome = true)
    (hi : g.index? (classId name) = none) :
    (Build.token name source).on g =
      (.ok g.size, g.append (Symbol.fresh (classId name) (some (.regex source)))) := by
  obtain ⟨r, hr⟩ : ∃ r, Recognizer.checkRegex (classId name) source = .ok r := by
    cases h : Recognizer.checkRegex (classId name) source with
    | error e =>
      rw [h] at hc
      cases hc
    | ok r => exact ⟨r, rfl⟩
  rw [token_on hn he, hr, hi, index?_eq_none_iff.mp hi]

theorem literal_on_new (name : String) {source : String} {convert : String → Except String V}
    (hn : name.isEmpty = false) (he : classId name ≠ endId)
    (hc : (Recognizer.checkRegex (classId name) source).toOption.isSome = true)
    (hi : g.index? (classId name) = none) :
    (Build.literal name source convert).on g =
      (.ok g.size, g.append
        { Symbol.fresh (classId name) (some (.regex source)) with
          nud? := some (literalNud convert) }) := by
  have hne : (classId name).isEmpty = false := by simp [classId]
  unfold Build.literal Build.nud
  simp only [on_bind, token_on_new hn he hc hi]
  rw [symbol_on_append hne hi rfl]
  simp only [on_change, append_change, on_pure]
  simp [Symbol.raised]

variable [Term V]

theorem between_on_known (op : Operator) {i : Nat} (he : op.symbol.isEmpty = false)
    (hi : g.index? op.symbol = some i) :
    (Build.between op).on g =
      (.ok i, (((g.raise i op.power).change i fun s => { s with operator? := some op }).raise i
        op.power).change i fun s => { s with led? := some (betweenLed op) }) := by
  have hg : (Build.attach op op.power).on g =
      (.ok (), (g.raise i op.power).change i fun s => { s with operator? := some op }) := by
    unfold Build.attach
    simp only [on_bind, symbol_on_known _ he hi, on_change]
  obtain ⟨j, ha⟩ := attach_amends hg
  unfold Build.between
  rw [on_bind, hg]
  simp only
  rw [led_on_known _ he (ha.kept _ _ hi)]

theorem between_on_new (op : Operator) (he : op.symbol.isEmpty = false)
    (hi : g.index? op.symbol = none) :
    (Build.between op).on g =
      (.ok g.size, g.append
        { (g.known op.symbol).raised op.power with
          operator? := some op
          led? := some (betweenLed op) }) := by
  unfold Build.between Build.attach Build.led
  simp only [on_bind, symbol_on_new _ he hi, on_change, append_change]
  rw [symbol_on_append he hi]
  · simp only [append_change, on_pure]
    simp [Symbol.raised]
  · exact id_known g op.symbol

end Build

end Precedence
