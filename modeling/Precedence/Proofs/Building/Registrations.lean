import Precedence.Proofs.Building.Programs

/-!
# Lists of registrations

A grammar is built by registrations one after the other.

* `build_induction`: every registration is put together from a few programs, so that it has what
  these have and what programs one after the other preserve.
* `amends`: every registration names one id and leaves all others alone. `revise` is what it makes
  of the symbol of its id.
* `eq_of_error`: a registration that fails changes nothing.
* `all_of_mem`: where the ids of a list differ, the symbol of an id is what its own registration
  makes of a symbol that nothing was known of before.
-/

namespace Precedence

variable {V : Type}

/-- The change is one of what a symbol does, not of how it is recognized or binds. -/
structure Symbol.ChangesActions (f : Symbol V → Symbol V) : Prop where
  id : ∀ s, (f s).id = s.id
  power : ∀ s, (f s).power = s.power
  pattern? : ∀ s, (f s).pattern? = s.pattern?

namespace Registration

open Grammar (Amends)

variable {g g' : Grammar V} {r : Registration V} {rs : List (Registration V)} {id : String}
variable {i : Nat}

/-- The id that a registration names. -/
def target : Registration V → String
  | symbol id _ => id
  | token name _ => classId name
  | literal name _ _ => classId name
  | nud id _ => id
  | led id _ _ => id
  | before id _ => id
  | after id _ => id
  | leftward id _ => id
  | rightward id _ => id
  | algebraic id _ _ _ => id

/-- The binding power that a registration gives to its id at least. -/
def power : Registration V → Nat
  | symbol _ power => power
  | led _ power _ => power
  | after _ power => power
  | leftward _ power => power
  | rightward _ power => power
  | algebraic _ power _ _ => power
  | token _ _ | literal _ _ _ | nud _ _ | before _ _ => 0

/-- The regular expression that a registration gives to its token class. -/
def source? : Registration V → Option String
  | token _ source => some source
  | literal _ source _ => some source
  | _ => none

/-- The operator between operands that a registration is about. -/
def operator? : Registration V → Option Operator
  | leftward id power => some (Operator.between id power .left)
  | rightward id power => some (Operator.between id power .right)
  | algebraic id power associative commutative =>
    some ((Operator.between id power .left).withFlags associative commutative)
  | _ => none

theorem symbol_of_operator? {op : Operator} (h : r.operator? = some op) : op.symbol = r.target := by
  cases r <;> cases h <;> rfl

variable [Term V]

theorem build_of_operator? {op : Operator} (h : r.operator? = some op) :
    r.build = Build.between op := by
  cases r <;> cases h <;> rfl

/-- The operator that a registration gives to its id. -/
def attached? : Registration V → Option Operator
  | before id power => some (Operator.before id power)
  | after id power => some (Operator.after id power)
  | r => r.operator?

/-- What a registration makes its id do where an operand begins. -/
def nud? : Registration V → Option (Nud V)
  | literal _ _ convert => some (Build.literalNud convert)
  | nud _ f => some f
  | before id power => some (Build.beforeNud (Operator.before id power))
  | _ => none

/-- What a registration makes its id do behind an operand. -/
def led? : Registration V → Option (Led V)
  | led _ _ f => some f
  | after id power => some (Build.afterLed (Operator.after id power))
  | r => r.operator?.map Build.betweenLed

/-- What a registration makes of the symbol of its id. The binding power is raised, a pattern is
kept, and what the registration says nothing of stays. -/
def revise (r : Registration V) (s : Symbol V) : Symbol V where
  id := s.id
  power := max s.power r.power
  pattern? := s.pattern?.or (r.source?.map .regex)
  operator? := r.attached?.or s.operator?
  nud? := r.nud?.or s.nud?
  led? := r.led?.or s.led?

/-- A change that a registration makes of what a symbol does. -/
inductive Installs (r : Registration V) : (Symbol V → Symbol V) → Prop where
  | operator (op : Operator) : Installs r fun s => { s with operator? := some op }
  | nud {f : Nud V} (h : r.nud? = some f) : Installs r fun s => { s with nud? := some f }
  | led {f : Led V} (h : r.led? = some f) : Installs r fun s => { s with led? := some f }

theorem Installs.changesActions {f : Symbol V → Symbol V} (h : r.Installs f) :
    Symbol.ChangesActions f := by
  cases h <;> exact ⟨fun _ => rfl, fun _ => rfl, fun _ => rfl⟩

/-- **Every registration is put together** from symbols of its id, token classes and changes of what
a symbol does. -/
theorem build_induction {Q : (α : Type) → Build V α → Prop} (r : Registration V)
    (pure : ∀ {α} (a : α), Q α (pure a))
    (bind : ∀ {α β} {b : Build V α} {k : α → Build V β}, Q α b → (∀ a, Q β (k a)) →
      Q β (b >>= k))
    (change : ∀ i f, r.Installs f → Q Unit (Build.change i f))
    (symbol : ∀ power, power ≤ r.power → Q Nat (Build.symbol r.target power))
    (token : ∀ name source, r.source? = some source → classId name = r.target →
      Q Nat (Build.token name source)) : Q Nat r.build := by
  have hnud : ∀ f, r.nud? = some f → Q Nat (Build.nud r.target f) := fun f hf =>
    bind (symbol 0 (Nat.zero_le _)) fun i => bind (change i _ (.nud hf)) fun _ => pure i
  have hled : ∀ f, r.led? = some f → Q Nat (Build.led r.target r.power f) := fun f hf =>
    bind (symbol r.power (Nat.le_refl _)) fun i => bind (change i _ (.led hf)) fun _ => pure i
  have hattach : ∀ (op : Operator) power, op.symbol = r.target → power ≤ r.power →
      Q Unit (Build.attach op power) := by
    intro op power hop hpower
    unfold Build.attach
    rw [hop]
    exact bind (symbol power hpower) fun i => change i _ (.operator op)
  cases r with
  | symbol id power => exact symbol power (Nat.le_refl _)
  | token name source => exact token name source rfl rfl
  | literal name source convert => exact bind (token name source rfl rfl) fun _ => hnud _ rfl
  | nud id f => exact hnud f rfl
  | led id power f => exact hled f rfl
  | before id power =>
    exact bind (hattach _ _ rfl (Nat.zero_le _)) fun _ => hnud _ rfl
  | after id power => exact bind (hattach _ _ rfl (Nat.le_refl _)) fun _ => hled _ rfl
  | leftward id power => exact bind (hattach _ _ rfl (Nat.le_refl _)) fun _ => hled _ rfl
  | rightward id power => exact bind (hattach _ _ rfl (Nat.le_refl _)) fun _ => hled _ rfl
  | algebraic id power associative commutative =>
    exact bind (hattach _ _ rfl (Nat.le_refl _)) fun _ => hled _ rfl

theorem revise_of_operator? {op : Operator} (h : r.operator? = some op) (s : Symbol V) :
    r.revise s =
      { s.raised op.power with
        operator? := some op
        led? := some (Build.betweenLed op) } := by
  cases r <;> cases h <;>
    simp [revise, Symbol.raised, Operator.between, Operator.withFlags, Registration.power, source?,
      attached?, operator?, nud?, led?]

/-- What the parts of a registration preserve the registration preserves, also if it fails. -/
theorem build_preserves {P : Grammar V → Prop} (r : Registration V)
    (change : ∀ i f, r.Installs f → ∀ g, P g → P (g.change i f))
    (symbol : ∀ power, power ≤ r.power → ∀ g, P g → P ((Build.symbol r.target power).on g).2)
    (token : ∀ name source, r.source? = some source → classId name = r.target → ∀ g, P g →
      P ((Build.token name source).on g).2) {g : Grammar V} (h : P g) : P (r.build.on g).2 := by
  refine r.build_induction (Q := fun _ b => ∀ g, P g → P (b.on g).2) (fun _ _ h => h) ?_ change
    symbol token g h
  intro _ _ b k hb hk g h
  have hg := hb g h
  rw [Build.on_bind]
  generalize b.on g = x at hg
  obtain ⟨e | a, g₁⟩ := x
  · exact hg
  · exact hk a g₁ hg

/-- **A registration changes the symbol of its id only.** -/
theorem amends (h : r.build.on g = (.ok i, g')) :
    Amends g r.target i (r.revise (g.known r.target)) g' := by
  have heq : ∀ {s s' : Symbol V}, Amends g r.target i s g' → s = s' → Amends g r.target i s' g' :=
    fun ha hs => hs ▸ ha
  cases r with
  | symbol id power =>
    exact heq (Build.symbol_amends h) (by
      simp [revise, Symbol.raised, target, Registration.power, source?, attached?, operator?, nud?,
        led?])
  | token name source =>
    exact heq (Build.token_amends h).2.2 (by
      simp [revise, target, Registration.power, source?, attached?, operator?, nud?, led?])
  | literal name source convert =>
    exact heq (Build.literal_amends h).2.2 (by
      simp [revise, target, Registration.power, source?, attached?, operator?, nud?, led?])
  | nud id f =>
    exact heq (Build.nud_amends h) (by
      simp [revise, target, Registration.power, source?, attached?, operator?, nud?, led?])
  | led id power f =>
    exact heq (Build.led_amends h) (by
      simp [revise, Symbol.raised, target, Registration.power, source?, attached?, operator?, nud?,
        led?])
  | before id power =>
    exact heq (Build.before_amends h) (by
      simp [revise, target, Registration.power, source?, attached?, operator?, nud?, led?])
  | after id power =>
    exact heq (Build.after_amends h) (by
      simp [revise, Symbol.raised, target, Registration.power, source?, attached?, nud?, led?])
  | leftward id power => exact heq (Build.between_amends h) (revise_of_operator? rfl _).symm
  | rightward id power => exact heq (Build.between_amends h) (revise_of_operator? rfl _).symm
  | algebraic id power associative commutative =>
    exact heq (Build.between_amends h) (revise_of_operator? rfl _).symm

/-! ## Failures -/

theorem isEmpty_classId (name : String) : (classId name).isEmpty = false := by
  simp [classId]

/-- A registration that is not of a token class fails only if its id is empty. -/
theorem exists_build (r : Registration V) (hs : r.source? = none) (he : r.target.isEmpty = false)
    (g : Grammar V) : ∃ i g', r.build.on g = (.ok i, g') := by
  refine r.build_induction (Q := fun _ b => ∀ g : Grammar V, ∃ i g', b.on g = (.ok i, g'))
    (fun a g => ⟨a, g, rfl⟩) ?_ (fun i f _ g => ⟨(), g.change i f, rfl⟩) ?_ ?_ g
  · intro _ _ b k hb hk g
    obtain ⟨a, g₁, h⟩ := hb g
    obtain ⟨x, g₂, h'⟩ := hk a g₁
    exact ⟨x, g₂, Build.on_bind_eq_ok_iff.mpr ⟨a, g₁, h, h'⟩⟩
  · intro power _ g
    rw [Build.symbol_on he]
    cases g.index? r.target with
    | some i => exact ⟨_, _, rfl⟩
    | none => exact ⟨_, _, rfl⟩
  · intro name source hsource
    rw [hs] at hsource
    cases hsource

theorem build_on_empty (he : r.target.isEmpty = true) (g : Grammar V) :
    r.build.on g = (.error .emptyId, g) := by
  have hattach : ∀ (op : Operator) power, op.symbol.isEmpty = true →
      (Build.attach op power).on g = (.error .emptyId, g) := by
    intro op power hop
    unfold Build.attach
    rw [Build.on_bind, Build.symbol_on_empty hop]
  have hbetween : ∀ op : Operator, op.symbol.isEmpty = true →
      (Build.between op).on g = (.error .emptyId, g) := by
    intro op hop
    unfold Build.between
    rw [Build.on_bind, hattach op _ hop]
  cases r with
  | symbol id power => exact Build.symbol_on_empty he
  | token name source => exact absurd he (by simp [target, isEmpty_classId])
  | literal name source convert => exact absurd he (by simp [target, isEmpty_classId])
  | nud id f =>
    have hid : id.isEmpty = true := he
    rw [build, Build.nud, Build.on_bind, Build.symbol_on_empty hid]
  | led id power f =>
    have hid : id.isEmpty = true := he
    rw [build, Build.led, Build.on_bind, Build.symbol_on_empty hid]
  | before id power =>
    rw [build, Build.before, Build.on_bind, hattach _ _ he]
  | after id power =>
    rw [build, Build.after, Build.on_bind, hattach _ _ he]
  | leftward id power => exact hbetween _ he
  | rightward id power => exact hbetween _ he
  | algebraic id power associative commutative => exact hbetween _ he

/-- **A registration that fails changes nothing.** -/
theorem eq_of_error {e : GrammarError} (h : r.build.on g = (.error e, g')) : g' = g := by
  have htoken : ∀ name source, (Build.token name source).on g = (.error e, g') → g' = g := by
    intro name source h
    by_cases hn : name.isEmpty
    · rw [Build.token_on_empty hn] at h
      exact (Prod.mk.inj h).2.symm
    by_cases he : classId name = endId
    · rw [Build.token_on_end (by simpa using hn) he] at h
      exact (Prod.mk.inj h).2.symm
    rw [Build.token_on (by simpa using hn) he] at h
    repeat' split at h
    all_goals cases h <;> rfl
  by_cases he : r.target.isEmpty
  · rw [build_on_empty he] at h
    exact (Prod.mk.inj h).2.symm
  have hcontra : ∀ r' : Registration V, r'.source? = none → r'.target.isEmpty = false →
      ∀ g₁, r'.build.on g₁ ≠ (.error e, g') := by
    intro r' hs he g₁ h
    obtain ⟨i, g₂, h'⟩ := exists_build r' hs he g₁
    cases h.symm.trans h'
  cases r with
  | token name source => exact htoken name source h
  | literal name source convert =>
    rw [build, Build.literal, Build.on_bind] at h
    split at h
    · rename_i hok
      exact absurd h (hcontra (.nud (classId name) _) rfl (isEmpty_classId name) _)
    · rename_i herror
      cases h
      exact htoken name source herror
  | symbol | nud | led | before | after | leftward | rightward | algebraic =>
    exact absurd h (hcontra _ rfl (by simpa using he) g)

/-! ## Registrations one after the other -/

/-- The program of registrations one after the other. -/
def all : List (Registration V) → Build V Unit
  | [] => return ()
  | r :: rs => do
    let _ ← r.build
    all rs

theorem all_cons_eq_ok_iff {r : Registration V} :
    (all (r :: rs)).on g = (.ok (), g') ↔
      ∃ i g₁, r.build.on g = (.ok i, g₁) ∧ (all rs).on g₁ = (.ok (), g') :=
  Build.on_bind_eq_ok_iff

theorem all_append_eq_ok_iff {rs' : List (Registration V)} :
    (all (rs ++ rs')).on g = (.ok (), g') ↔
      ∃ g₁, (all rs).on g = (.ok (), g₁) ∧ (all rs').on g₁ = (.ok (), g') := by
  induction rs generalizing g with
  | nil =>
    constructor
    · exact fun h => ⟨g, rfl, h⟩
    · rintro ⟨g₁, h, h'⟩
      cases h
      exact h'
  | cons r rs ih =>
    simp only [List.cons_append, all_cons_eq_ok_iff, ih]
    constructor
    · rintro ⟨i, g₁, hr, g₂, h, h'⟩
      exact ⟨g₂, ⟨i, g₁, hr, h⟩, h'⟩
    · rintro ⟨g₂, ⟨i, g₁, hr, h⟩, h'⟩
      exact ⟨i, g₁, hr, g₂, h, h'⟩

/-- Registrations leave the symbols of other ids as they are. -/
theorem all_others (h : (all rs).on g = (.ok (), g')) (hid : ∀ r ∈ rs, r.target ≠ id) :
    g'.find? id = g.find? id := by
  induction rs generalizing g with
  | nil => cases h; rfl
  | cons r rs ih =>
    obtain ⟨i, g₁, hr, hrs⟩ := all_cons_eq_ok_iff.mp h
    have ha := amends hr
    rw [ih hrs fun r' hr' => hid r' (List.mem_cons_of_mem _ hr')]
    exact ha.others id (Ne.symm (hid r List.mem_cons_self))

/-- Registrations leave indices as they are. -/
theorem all_kept (h : (all rs).on g = (.ok (), g')) {j : Nat} (hj : g.index? id = some j) :
    g'.index? id = some j := by
  induction rs generalizing g with
  | nil => cases h; exact hj
  | cons r rs ih =>
    obtain ⟨i, g₁, hr, hrs⟩ := all_cons_eq_ok_iff.mp h
    have ha := amends hr
    exact ih hrs (ha.kept id j hj)

/-- **The only registration of an id** makes its symbol of what was known before all of them. -/
theorem all_of_mem {r : Registration V} (h : (all rs).on g = (.ok (), g'))
    (hn : (rs.map (·.target)).Nodup) (hr : r ∈ rs) :
    ∃ g₁ i g₂, r.build.on g₁ = (.ok i, g₂) ∧ g₁.known r.target = g.known r.target ∧
      g'.index? r.target = some i ∧ g'.find? r.target = g₂.find? r.target := by
  obtain ⟨rs₁, rs₂, rfl⟩ := List.append_of_mem hr
  rw [List.map_append, List.map_cons, List.nodup_append, List.nodup_cons] at hn
  obtain ⟨-, ⟨hr₂, -⟩, hr₁⟩ := hn
  have hid : ∀ r' ∈ rs₁ ++ rs₂, r'.target ≠ r.target := by
    intro r' hr' he
    rcases List.mem_append.mp hr' with hr' | hr'
    · exact hr₁ _ (List.mem_map_of_mem hr') _ List.mem_cons_self he
    · exact hr₂ (he ▸ List.mem_map_of_mem hr')
  obtain ⟨g₁, h₁, h⟩ := all_append_eq_ok_iff.mp h
  obtain ⟨i, g₂, hb, h₂⟩ := all_cons_eq_ok_iff.mp h
  have ha := amends hb
  refine ⟨g₁, i, g₂, hb, ?_, all_kept h₂ ha.index, ?_⟩
  · have hf := all_others h₁ fun r' hr' => hid r' (List.mem_append_left _ hr')
    simp only [Grammar.known, hf]
  · exact all_others h₂ fun r' hr' => hid r' (List.mem_append_right _ hr')

end Registration

end Precedence
