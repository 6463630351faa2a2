import Precedence.Grammar.Basic

/-!
# Programs that build grammars

What a registration does to the table, symbol by symbol. A registration names one id. It leaves
the symbols of all other ids and all indices as they are, and says of the symbol of its own id what
`Amends` states.

* `symbol_amends`, `nud_amends`, `led_amends`, `between_amends`, `literal_amends`: one for each way
  to register.
* `getElem?_of_index?`: the symbol at the index of an id is the symbol of the id.
-/

namespace Precedence

variable {V α β : Type}

/-- A symbol with at least the binding power `power`. -/
def Symbol.raised (s : Symbol V) (power : Nat) : Symbol V :=
  { s with power := max s.power power }

namespace Grammar

variable {g g' : Grammar V} {id id' : String} {i j : Nat} {s : Symbol V} {f : Symbol V → Symbol V}

/-! ## Looking up ids -/

theorem find?_eq_bind (g : Grammar V) (id : String) :
    g.find? id = (g.index? id).bind (g.symbols[·]?) :=
  List.find?_eq_bind_findIdx?_getElem?

/-- The symbol at the index of an id is the symbol of the id. -/
theorem getElem?_of_index? (h : g.index? id = some i) : g.symbols[i]? = g.find? id := by
  rw [find?_eq_bind, h]
  rfl

theorem id_of_find? (h : g.find? id = some s) : s.id = id := by
  simpa using List.find?_some h

theorem index?_eq_none_iff : g.index? id = none ↔ g.find? id = none := by
  unfold index? find?
  simp

theorem find?_of_index? (h : g.index? id = some i) : ∃ s, g.find? id = some s := by
  cases hf : g.find? id with
  | some s => exact ⟨s, rfl⟩
  | none =>
    rw [index?_eq_none_iff.mpr hf] at h
    cases h

/-- No two ids have one index. -/
theorem index?_ne (h : g.index? id = some i) (h' : g.index? id' = some j) (hne : id ≠ id') :
    i ≠ j := by
  rintro rfl
  obtain ⟨s, hs⟩ := find?_of_index? h
  have hs' := getElem?_of_index? h'
  rw [getElem?_of_index? h, hs] at hs'
  exact hne ((id_of_find? hs).symm.trans (id_of_find? hs'.symm))

/-! ## Changing one symbol -/

theorem map_id_modify (hf : ∀ s : Symbol V, (f s).id = s.id) :
    ∀ (l : List (Symbol V)) (i : Nat), (l.modify i f).map (·.id) = l.map (·.id)
  | [], i => by cases i <;> rfl
  | s :: l, 0 => by simp [hf]
  | s :: l, i + 1 => by simp [map_id_modify hf l i]

/-- A change that keeps ids keeps every index. -/
theorem index?_change (hf : ∀ s : Symbol V, (f s).id = s.id) :
    (g.change i f).index? id = g.index? id := by
  have h : ∀ l : List (Symbol V),
      l.findIdx? (·.id == id) = (l.map (·.id)).findIdx? (· == id) := by
    intro l
    rw [List.findIdx?_map]
    rfl
  unfold index? change
  rw [h, h, map_id_modify hf]

/-- The symbols of a changed table are those it had, one of them changed. -/
theorem mem_change (h : s ∈ (g.change i f).symbols) :
    s ∈ g.symbols ∨ ∃ s' ∈ g.symbols, s = f s' := by
  obtain ⟨j, hj⟩ := List.mem_iff_getElem?.mp h
  rw [change, List.getElem?_modify] at hj
  obtain ⟨s', hs', rfl⟩ := Option.map_eq_some_iff.mp hj
  have hmem := List.mem_of_getElem? hs'
  split
  · exact .inr ⟨s', hmem, rfl⟩
  · exact .inl hmem

theorem find?_change (hf : ∀ s : Symbol V, (f s).id = s.id) (hi : g.index? id = some i) :
    (g.change i f).find? id = (g.find? id).map f := by
  rw [find?_eq_bind, index?_change hf, hi, ← getElem?_of_index? hi]
  simp [change]

theorem find?_change_of_ne (hf : ∀ s : Symbol V, (f s).id = s.id) (hi : g.index? id = some i)
    (hne : id' ≠ id) : (g.change i f).find? id' = g.find? id' := by
  rw [find?_eq_bind, find?_eq_bind, index?_change hf]
  cases hj : g.index? id' with
  | none => rfl
  | some j => simp [change, List.getElem?_modify_ne f g.symbols (index?_ne hi hj (Ne.symm hne))]

/-! ## What a registration says of a symbol -/

/-- The symbol of an id as a registration finds it, which adds it if need be. -/
def known (g : Grammar V) (id : String) : Symbol V :=
  (g.find? id).getD (Symbol.fresh id (if isClassId id then none else some (.literal id)))

/-- A registration of `id` at index `i` turns `g` into `g'`, in which `s` is the symbol of the id
and all else is as it was. -/
structure Amends (g : Grammar V) (id : String) (i : Nat) (s : Symbol V) (g' : Grammar V) :
    Prop where
  index : g'.index? id = some i
  found : g'.find? id = some s
  others : ∀ id', id' ≠ id → g'.find? id' = g.find? id'
  kept : ∀ id' j, g.index? id' = some j → g'.index? id' = some j

theorem Amends.trans {g₁ g₂ g₃ : Grammar V} {s s' : Symbol V} (h : Amends g₁ id i s g₂)
    (h' : Amends g₂ id j s' g₃) : Amends g₁ id j s' g₃ where
  index := h'.index
  found := h'.found
  others id' hne := (h'.others id' hne).trans (h.others id' hne)
  kept id' k hk := h'.kept id' k (h.kept id' k hk)

/-- A change of the symbol that was amended. -/
theorem Amends.change (h : Amends g id i s g') (hf : ∀ s : Symbol V, (f s).id = s.id) :
    Amends g id i (f s) (g'.change i f) where
  index := (index?_change hf).trans h.index
  found := by rw [find?_change hf h.index, h.found]; rfl
  others id' hne := (find?_change_of_ne hf h.index hne).trans (h.others id' hne)
  kept id' k hk := (index?_change hf).trans (h.kept id' k hk)

theorem Amends.known (h : Amends g id i s g') : g'.known id = s := by
  rw [Grammar.known, h.found]
  rfl

theorem Amends.invalidate (h : Amends g id i s g') : Amends g id i s g'.invalidate where
  index := h.index
  found := h.found
  others := h.others
  kept := h.kept

theorem Amends.raise (h : Amends g id i s g') (power : Nat) :
    Amends g id i (s.raised power) (g'.raise i power) := by
  have hs : g'.symbols[i]? = some s := (getElem?_of_index? h.index).trans h.found
  unfold Grammar.raise
  rw [hs]
  by_cases hp : s.power < power
  · have he : s.raised power = { s with power := power } := by
      rw [Symbol.raised, Nat.max_eq_right (Nat.le_of_lt hp)]
    simp only [Option.any_some, hp, decide_true, if_true, he]
    exact (h.change (f := fun s => { s with power := power }) fun _ => rfl).invalidate
  · have he : s.raised power = s := by
      rw [Symbol.raised, Nat.max_eq_left (Nat.not_lt.mp hp)]
    simp only [Option.any_some, hp, decide_false, he]
    exact h

/-- The registration of an id that is known already. -/
theorem amends_known (h : g.index? id = some i) (hs : g.find? id = some s) : Amends g id i s g :=
  ⟨h, hs, fun _ _ => rfl, fun _ _ hk => hk⟩

/-- The registration of a new id. -/
theorem amends_append (h : g.index? s.id = none) : Amends g s.id g.size s (g.append s) := by
  have hn := index?_eq_none_iff.mp h
  refine ⟨?_, ?_, fun id' hne => ?_, fun id' k hk => ?_⟩
  · unfold index? at h
    simp [index?, append, h, size, List.findIdx?_cons]
  · unfold find? at hn
    simp [find?, append, hn]
  · simp [find?, append, Ne.symm hne]
  · unfold index? at hk
    simp [index?, append, hk]

theorem id_known (g : Grammar V) (id : String) : (g.known id).id = id := by
  unfold known
  cases h : g.find? id with
  | some s => exact id_of_find? h
  | none => rfl

end Grammar

/-! ## Registrations -/

namespace Build

open Grammar (Amends)

variable {g g' : Grammar V} {id : String} {power i : Nat}

@[simp] theorem on_pure (a : α) : (pure a : Build V α).on g = (.ok a, g) := rfl

@[simp] theorem on_throw (e : GrammarError) : (throw e : Build V α).on g = (.error e, g) := rfl

@[simp] theorem on_get : (get : Build V (Grammar V)).on g = (.ok g, g) := rfl

@[simp] theorem on_modify (f : Grammar V → Grammar V) :
    (modify f : Build V Unit).on g = (.ok (), f g) := rfl

@[simp] theorem on_change (i : Nat) (f : Symbol V → Symbol V) :
    (Build.change i f).on g = (.ok (), g.change i f) := rfl

/-- A program that begins with another one goes on if that one does not fail. -/
theorem on_bind (b : Build V α) (f : α → Build V β) :
    (b >>= f).on g =
      match b.on g with
      | (.ok a, g') => (f a).on g'
      | (.error e, g') => (.error e, g') := by
  simp only [on, bind, ExceptT.bind, ExceptT.mk, ExceptT.run, StateT.run, StateT.bind]
  rcases b g with ⟨e | a, g'⟩ <;> rfl

/-- A program that begins with another one succeeds if both do. -/
theorem on_bind_eq_ok_iff {b : Build V α} {f : α → Build V β} {x : β} :
    (b >>= f).on g = (.ok x, g') ↔ ∃ a g₁, b.on g = (.ok a, g₁) ∧ (f a).on g₁ = (.ok x, g') := by
  rw [on_bind]
  rcases b.on g with ⟨e | a, g₁⟩
  · simp
  · constructor
    · exact fun h => ⟨a, g₁, rfl, h⟩
    · rintro ⟨_, _, he, h⟩
      cases he
      exact h

theorem on_liftM (x : Except GrammarError α) : (liftM x : Build V α).on g = (x, g) := by
  cases x <;> rfl

/-- What registering an id with a binding power does. -/
theorem symbol_on (h : id.isEmpty = false) :
    (Build.symbol id power).on g =
      match g.index? id with
      | some i => (.ok i, g.raise i power)
      | none => (.ok g.size, (g.append (g.known id)).raise g.size power) := by
  unfold Build.symbol
  simp only [h, Bool.false_eq_true, if_false, on_bind, on_get, on_modify, on_pure]
  cases hi : g.index? id with
  | some i => rfl
  | none =>
    have hf := Grammar.index?_eq_none_iff.mp hi
    simp only [on_bind, on_get, on_modify, on_pure, Grammar.known, hf, Option.getD_none]

theorem symbol_on_empty (h : id.isEmpty = true) :
    (Build.symbol id power).on g = (.error .emptyId, g) := by
  unfold Build.symbol
  simp only [h, if_true, on_bind, on_throw]

/-- What registering an id with a binding power preserves: a known symbol is raised, an unknown one
is added. -/
theorem symbol_preserves {P : Grammar V → Prop}
    (hknown : ∀ i, id.isEmpty = false → g.index? id = some i → P (g.raise i power))
    (hnew : id.isEmpty = false → g.index? id = none →
      P ((g.append (g.known id)).raise g.size power)) (h : P g) :
    P ((Build.symbol id power).on g).2 := by
  by_cases he : id.isEmpty
  · rw [symbol_on_empty he]
    exact h
  have he : id.isEmpty = false := by simpa using he
  rw [symbol_on he]
  cases hi : g.index? id with
  | some i => exact hknown i he hi
  | none => exact hnew he hi

/-- **A symbol** keeps what was known of it and is raised. -/
theorem symbol_amends (h : (Build.symbol id power).on g = (.ok i, g')) :
    Amends g id i ((g.known id).raised power) g' := by
  by_cases he : id.isEmpty
  · rw [symbol_on_empty he] at h
    cases h
  · rw [symbol_on (by simpa using he)] at h
    cases hi : g.index? id with
    | some j =>
      rw [hi] at h
      cases h
      obtain ⟨s, hs⟩ := Grammar.find?_of_index? hi
      have hk : g.known id = s := by rw [Grammar.known, hs]; rfl
      rw [hk]
      exact (Grammar.amends_known hi hs).raise power
    | none =>
      rw [hi] at h
      cases h
      have ha := Grammar.amends_append (g := g) (s := g.known id) (by rw [Grammar.id_known, hi])
      rw [Grammar.id_known] at ha
      exact ha.raise power

/-- **A null denotation** is installed and nothing else. -/
theorem nud_amends {f : Nud V} (h : (Build.nud id f).on g = (.ok i, g')) :
    Amends g id i { g.known id with nud? := some f } g' := by
  obtain ⟨j, g₁, hs, h⟩ := on_bind_eq_ok_iff.mp h
  rw [on_bind, on_change] at h
  cases h
  have ha := (symbol_amends hs).change (f := fun s => { s with nud? := some f }) fun _ => rfl
  simpa [Symbol.raised] using ha

/-- **A left denotation** is installed, and the symbol raised. -/
theorem led_amends {f : Led V} (h : (Build.led id power f).on g = (.ok i, g')) :
    Amends g id i { (g.known id).raised power with led? := some f } g' := by
  obtain ⟨j, g₁, hs, h⟩ := on_bind_eq_ok_iff.mp h
  rw [on_bind, on_change] at h
  cases h
  exact (symbol_amends hs).change (f := fun s => { s with led? := some f }) fun _ => rfl

theorem isClassId_classId {name : String} (h : name.isEmpty = false) :
    isClassId (classId name) = true := by
  have hne : name ≠ "" := by simpa using h
  have hs : 0 < name.utf8ByteSize := by
    rcases Nat.eq_zero_or_pos name.utf8ByteSize with h0 | h0
    · exact absurd (String.utf8ByteSize_eq_zero_iff.mp h0) hne
    · exact h0
  have h1 : "(".utf8ByteSize = 1 := by decide
  have h2 : ")".utf8ByteSize = 1 := by decide
  have hl : 2 < (classId name).utf8ByteSize := by
    rw [classId, String.utf8ByteSize_append, String.utf8ByteSize_append, h1, h2]
    omega
  have hf : (classId name).toList.head? = some '(' := by simp [classId]
  have hb : (classId name).toList.getLast? = some ')' := by
    have ht : (classId name).toList = ('(' :: name.toList) ++ [')'] := by simp [classId]
    rw [ht, List.getLast?_concat]
  simp [isClassId, hl, hf, hb]

/-- What registering a token class does. -/
theorem token_on {name source : String} (hn : name.isEmpty = false) (he : classId name ≠ endId) :
    (Build.token name source).on g =
      match Recognizer.checkRegex (classId name) source with
      | .error e => (.error e, g)
      | .ok _ =>
        match g.index? (classId name), g.find? (classId name) with
        | some i, some s =>
          match s.pattern? with
          | some existing =>
            if existing ≠ .regex source then
              (.error (.patternConflict (classId name) existing.source), g)
            else (.ok i, g)
          | none =>
            (.ok i, (g.change i fun s => { s with pattern? := some (.regex source) }).invalidate)
        | _, _ =>
          (.ok g.size, g.append (Symbol.fresh (classId name) (some (.regex source)))) := by
  unfold Build.token
  simp only [hn, Bool.false_eq_true, if_false, he, on_bind, on_liftM]
  cases Recognizer.checkRegex (classId name) source with
  | error e => rfl
  | ok r =>
    simp only [on_get]
    cases g.index? (classId name) with
    | none => rfl
    | some i =>
      cases g.find? (classId name) with
      | none => rfl
      | some s =>
        simp only
        cases s.pattern? with
        | none => rfl
        | some existing =>
          simp only
          split <;> rfl

theorem token_on_empty {name source : String} (hn : name.isEmpty = true) :
    (Build.token name source).on g = (.error .emptyId, g) := by
  unfold Build.token
  simp only [hn, if_true, on_bind, on_throw]

theorem token_on_end {name source : String} (hn : name.isEmpty = false)
    (he : classId name = endId) :
    (Build.token name source).on g = (.error (.reserved (classId name)), g) := by
  unfold Build.token
  simp only [hn, Bool.false_eq_true, if_false, he, if_true, on_bind, on_throw]

/-- What registering a token class preserves: a known class without a pattern gets it, an unknown
one is added. -/
theorem token_preserves {name source : String} {P : Grammar V → Prop}
    (hknown : ∀ i, classId name ≠ endId → g.index? (classId name) = some i →
      P (g.change i fun s => { s with pattern? := some (.regex source) }).invalidate)
    (hnew : g.index? (classId name) = none →
      P (g.append (Symbol.fresh (classId name) (some (.regex source))))) (h : P g) :
    P ((Build.token name source).on g).2 := by
  by_cases hn : name.isEmpty
  · rw [token_on_empty hn]
    exact h
  have hn : name.isEmpty = false := by simpa using hn
  by_cases he : classId name = endId
  · rw [token_on_end hn he]
    exact h
  rw [token_on hn he]
  cases Recognizer.checkRegex (classId name) source with
  | error e => exact h
  | ok r =>
    cases hi : g.index? (classId name) with
    | none => exact hnew hi
    | some i =>
      obtain ⟨s, hs⟩ := Grammar.find?_of_index? hi
      simp only [hs]
      split
      · split <;> exact h
      · exact hknown i he hi

/-- **A token class** keeps what was known of it, its first pattern included. -/
theorem token_amends {name source : String} (h : (Build.token name source).on g = (.ok i, g')) :
    isClassId (classId name) = true ∧ classId name ≠ endId ∧
      Amends g (classId name) i
        { g.known (classId name) with
          pattern? := (g.known (classId name)).pattern?.or (some (.regex source)) } g' := by
  by_cases hn : name.isEmpty
  · rw [token_on_empty hn] at h
    cases h
  have hn : name.isEmpty = false := by simpa using hn
  by_cases he : classId name = endId
  · rw [token_on_end hn he] at h
    cases h
  refine ⟨isClassId_classId hn, he, ?_⟩
  rw [token_on hn he] at h
  cases hr : Recognizer.checkRegex (classId name) source with
  | error e =>
    rw [hr] at h
    cases h
  | ok r =>
    rw [hr] at h
    cases hi : g.index? (classId name) with
    | none =>
      have hf := Grammar.index?_eq_none_iff.mp hi
      have hk : g.known (classId name) = Symbol.fresh (classId name) none := by
        simp [Grammar.known, hf, isClassId_classId hn]
      rw [hi, hf] at h
      cases h
      rw [hk]
      exact Grammar.amends_append
        (s := Symbol.fresh (classId name) (some (TokenPattern.regex source))) hi
    | some j =>
      obtain ⟨s, hs⟩ := Grammar.find?_of_index? hi
      have hk : g.known (classId name) = s := by simp [Grammar.known, hs]
      rw [hi, hs] at h
      rw [hk]
      cases hp : s.pattern? with
      | some existing =>
        have hsame : { s with pattern? := some existing } = s := by rw [← hp]
        simp only [hp] at h
        split at h
        · cases h
        · cases h
          simp only [Option.some_or, hsame]
          exact Grammar.amends_known hi hs
      | none =>
        simp only [hp] at h
        cases h
        exact ((Grammar.amends_known hi hs).change
          (f := fun s => { s with pattern? := some (.regex source) }) fun _ => rfl).invalidate

/-- **A literal** is a token class with a null denotation that converts its text. -/
theorem literal_amends {name source : String} {convert : String → Except String V}
    (h : (Build.literal name source convert).on g = (.ok i, g')) :
    isClassId (classId name) = true ∧ classId name ≠ endId ∧
      Amends g (classId name) i
        { g.known (classId name) with
          pattern? := (g.known (classId name)).pattern?.or (some (.regex source))
          nud? := some (literalNud convert) } g' := by
  obtain ⟨j, g₁, ht, hn⟩ := on_bind_eq_ok_iff.mp h
  obtain ⟨hc, hne, ha⟩ := token_amends ht
  refine ⟨hc, hne, ?_⟩
  have hk := nud_amends hn
  rw [ha.known] at hk
  exact ha.trans hk

/-- An operator is recorded, and its symbol raised. -/
theorem attach_amends {op : Operator} {u : Unit} (h : (Build.attach op power).on g = (.ok u, g')) :
    ∃ j, Amends g op.symbol j
      { (g.known op.symbol).raised power with operator? := some op } g' := by
  obtain ⟨j, g₁, hs, hc⟩ := on_bind_eq_ok_iff.mp h
  rw [on_change] at hc
  obtain ⟨-, rfl⟩ := Prod.mk.inj hc
  exact ⟨j, (symbol_amends hs).change (f := fun s => { s with operator? := some op }) fun _ => rfl⟩

variable [Term V]

/-- **An operator before its operand** is recorded and given a null denotation. -/
theorem before_amends (h : (Build.before id power).on g = (.ok i, g')) :
    Amends g id i
      { g.known id with
        operator? := some (Operator.before id power)
        nud? := some (beforeNud (Operator.before id power)) } g' := by
  obtain ⟨_, g₁, ha, hn⟩ := on_bind_eq_ok_iff.mp h
  obtain ⟨j, h₁⟩ := attach_amends ha
  have h₂ := nud_amends hn
  have hk : g₁.known id = _ := h₁.known
  rw [hk] at h₂
  have h₃ := h₁.trans h₂
  simpa [Symbol.raised, Operator.before] using h₃

/-- **An operator behind its operand** is recorded, raised and given a left denotation. -/
theorem after_amends (h : (Build.after id power).on g = (.ok i, g')) :
    Amends g id i
      { (g.known id).raised power with
        operator? := some (Operator.after id power)
        led? := some (afterLed (Operator.after id power)) } g' := by
  obtain ⟨_, g₁, ha, hl⟩ := on_bind_eq_ok_iff.mp h
  obtain ⟨j, h₁⟩ := attach_amends ha
  have h₂ := led_amends hl
  have hk : g₁.known id = _ := h₁.known
  rw [hk] at h₂
  have h₃ := h₁.trans h₂
  simpa [Symbol.raised, Operator.after, Nat.max_assoc] using h₃

/-- **An operator between operands** is recorded, raised and given the left denotation that takes
the second operand. -/
theorem between_amends {op : Operator} (h : (Build.between op).on g = (.ok i, g')) :
    Amends g op.symbol i
      { (g.known op.symbol).raised op.power with
        operator? := some op
        led? := some (betweenLed op) } g' := by
  obtain ⟨_, g₁, ha, hl⟩ := on_bind_eq_ok_iff.mp h
  obtain ⟨j, h₁⟩ := attach_amends ha
  have h₂ := led_amends hl
  rw [h₁.known] at h₂
  have h₃ := h₁.trans h₂
  simpa [Symbol.raised, Nat.max_assoc] using h₃

end Build

end Precedence
