import Precedence.Proofs.Calculator.Phrases

/-!
# The language is unambiguous

A text has one derivation at most. A phrase ends where no terminal follows that could go on with it,
and the first terminals of a phrase say how it is derived. Sums and products are taken apart from
the left, as chains of what they are made of: their derivations grow at the other end.

* `Separates`: phrases of a kind are told apart by their terminals, whatever follows them.
* `eq_of_terminals`: so a phrase is determined by its kind and its terminals.
-/

namespace Precedence

namespace Calculator

/-- No terminal follows that binds as tightly as the power. -/
def Ends (power : Nat) (ts : List Terminal) : Prop :=
  ∀ x ∈ ts.head?, x.power < power

theorem Ends.mono {p q : Nat} {ts : List Terminal} (h : Ends p ts) (hpq : p ≤ q) : Ends q ts :=
  fun x hx => Nat.lt_of_lt_of_le (h x hx) hpq

theorem ends_of_power_zero {x : Terminal} {p : Nat} (hx : x.power = 0) (hp : 0 < p)
    (ts : List Terminal) : Ends p (x :: ts) := by
  intro y hy
  cases hy
  rwa [hx]

theorem ends_floor_atom (ts : List Terminal) : Ends Level.atom.floor ts := by
  intro x _
  cases x with
  | sign op => cases op <;> decide
  | number _ | name _ | opening | closing => exact Nat.succ_pos _

/-- Phrases of the kind with no more terminals than that are told apart by their terminals, whatever
follows them. -/
def Separates (N : Level) (n : Nat) : Prop :=
  ∀ (e e' : Phrase N) (ts ts' : List Terminal), e.terminals.length ≤ n →
    Ends N.floor ts → Ends N.floor ts' → e.terminals ++ ts = e'.terminals ++ ts' →
      e = e' ∧ ts = ts'

namespace Phrase

variable {M : Level} {n : Nat}

/-! ## Atoms and signed phrases -/

theorem separates_atom (hsum : ∀ m < n, Separates .sum m) : Separates .atom n := by
  intro e e' ts ts' hn _ _ h
  cases e with
  | number text =>
    cases e' <;> simp_all [terminals]
  | name text =>
    cases e' <;> simp_all [terminals]
  | group e =>
    cases e' with
    | number text => simp [terminals] at h
    | name text => simp [terminals] at h
    | group e' =>
      simp only [terminals, List.cons_append, List.append_assoc, List.nil_append,
        List.cons.injEq, true_and] at h
      rw [terminals, List.cons_append, List.length_cons, List.length_append] at hn
      have hclosing : ∀ us, Ends Level.sum.floor (.closing :: us) :=
        ends_of_power_zero rfl (by decide)
      obtain ⟨rfl, hts⟩ := hsum _ (Nat.lt_of_succ_le (by omega)) e e' _ _ (Nat.le_refl _)
        (hclosing ts) (hclosing ts') h
      exact ⟨rfl, (List.cons.inj hts).2⟩

/-- An atom does not begin with a sign. -/
theorem terminals_atom_ne (a : Phrase .atom) (op : Operation) (us ts : List Terminal) :
    a.terminals ++ ts ≠ .sign op :: us := by
  cases a <;> simp [terminals]

theorem separates_signed (hatom : Separates .atom n) (hsigned : ∀ m < n, Separates .signed m) :
    Separates .signed n := by
  intro e e' ts ts' hn hts hts' h
  -- A power sign goes on with an atom, so it does not follow a phrase that is one.
  have hpower : ∀ us, ¬ Ends Level.signed.floor (.sign .power :: us) := fun us hus =>
    absurd (hus _ rfl) (by decide)
  cases e with
  | plain a =>
    cases e' with
    | plain a' =>
      obtain ⟨rfl, rfl⟩ := hatom a a' ts ts' hn (ends_floor_atom _) (ends_floor_atom _) h
      exact ⟨rfl, rfl⟩
    | raised a' u' =>
      rw [terminals, terminals, List.append_assoc] at h
      obtain ⟨-, rfl⟩ := hatom a a' _ _ hn (ends_floor_atom _) (ends_floor_atom _) h
      exact absurd hts (hpower _)
    | negated u' => exact absurd h (terminals_atom_ne a _ _ _)
  | raised a u =>
    rw [terminals, List.length_append, List.length_cons] at hn
    cases e' with
    | plain a' =>
      rw [terminals, terminals, List.append_assoc] at h
      obtain ⟨-, rfl⟩ := hatom a a' _ _ (by omega) (ends_floor_atom _) (ends_floor_atom _) h
      exact absurd hts' (hpower _)
    | raised a' u' =>
      rw [terminals, terminals, List.append_assoc, List.append_assoc] at h
      obtain ⟨rfl, hu⟩ := hatom a a' _ _ (by omega) (ends_floor_atom _) (ends_floor_atom _) h
      obtain ⟨rfl, rfl⟩ := hsigned _ (by omega) u u' ts ts' (Nat.le_refl _) hts hts'
        (List.cons.inj hu).2
      exact ⟨rfl, rfl⟩
    | negated u' =>
      rw [terminals, List.append_assoc] at h
      exact absurd h (terminals_atom_ne a _ _ _)
  | negated u =>
    rw [terminals, List.length_cons] at hn
    cases e' with
    | plain a' => exact absurd h.symm (terminals_atom_ne a' _ _ _)
    | raised a' u' =>
      rw [terminals, terminals, List.append_assoc] at h
      exact absurd h.symm (terminals_atom_ne a' _ _ _)
    | negated u' =>
      obtain ⟨rfl, rfl⟩ := hsigned _ hn u u' ts ts' (Nat.le_refl _) hts hts' (List.cons.inj h).2
      exact ⟨rfl, rfl⟩

/-! ## Chains -/

/-- The terminals of a chain of operations, each with its right operand. -/
def links (l : List (Operation × Phrase M)) : List Terminal :=
  l.flatMap fun x => .sign x.1 :: x.2.terminals

theorem links_cons (op : Operation) (u : Phrase M) (l : List (Operation × Phrase M)) :
    links ((op, u) :: l) = .sign op :: (u.terminals ++ links l) := by
  simp [links]

theorem ends_links {p : Nat} {l : List (Operation × Phrase M)} {ts : List Terminal}
    (hl : ∀ x ∈ l, x.1.leftPower = p) (hp : p < M.floor) (hts : Ends p ts) :
    Ends M.floor (links l ++ ts) := by
  cases l with
  | nil => exact hts.mono (Nat.le_of_lt hp)
  | cons x l =>
    obtain ⟨op, u⟩ := x
    rw [links_cons]
    intro y hy
    cases hy
    rw [Terminal.power, hl (op, u) List.mem_cons_self]
    exact hp

/-- Chains of operations of one power are told apart if their operands are. -/
theorem links_inj (hM : Separates M n) {p : Nat} (hp : p < M.floor)
    {l l' : List (Operation × Phrase M)} (hl : ∀ x ∈ l, x.1.leftPower = p)
    (hl' : ∀ x ∈ l', x.1.leftPower = p) (hn : (links l).length ≤ n) {ts ts' : List Terminal}
    (hts : Ends p ts) (hts' : Ends p ts') (h : links l ++ ts = links l' ++ ts') :
    l = l' ∧ ts = ts' := by
  -- No link follows where the chain ends.
  have hlink : ∀ (op : Operation) us, op.leftPower = p → ¬ Ends p (.sign op :: us) :=
    fun op us hop hus => absurd (hus _ rfl) (by rw [Terminal.power, hop]; exact Nat.lt_irrefl p)
  induction l generalizing l' with
  | nil =>
    cases l' with
    | nil => exact ⟨rfl, h⟩
    | cons x' l' =>
      obtain ⟨op', u'⟩ := x'
      rw [links_cons] at h
      rw [show ts = _ from h] at hts
      exact absurd hts (hlink op' _ (hl' (op', u') List.mem_cons_self))
  | cons x l ih =>
    obtain ⟨op, u⟩ := x
    cases l' with
    | nil =>
      rw [links_cons] at h
      rw [show ts' = _ from h.symm] at hts'
      exact absurd hts' (hlink op _ (hl (op, u) List.mem_cons_self))
    | cons x' l' =>
      obtain ⟨op', u'⟩ := x'
      have htail : ∀ x ∈ l, x.1.leftPower = p := fun x hx => hl x (List.mem_cons_of_mem _ hx)
      have htail' : ∀ x ∈ l', x.1.leftPower = p := fun x hx => hl' x (List.mem_cons_of_mem _ hx)
      rw [links_cons, List.length_cons, List.length_append] at hn
      rw [links_cons, links_cons, List.cons_append, List.cons_append, List.append_assoc,
        List.append_assoc] at h
      obtain ⟨hsign, hu⟩ := List.cons.inj h
      cases hsign
      obtain ⟨rfl, hrest⟩ := hM u u' _ _ (by omega) (ends_links htail hp hts)
        (ends_links htail' hp hts') hu
      obtain ⟨rfl, rfl⟩ := ih htail htail' (by omega) hrest
      exact ⟨rfl, rfl⟩

/-- Goes on with a product. -/
def extendProduct (t : Phrase .product) : Operation × Phrase .signed → Phrase .product
  | (.divide, u) => divided t u
  | (_, u) => multiplied t u

/-- Goes on with a sum. -/
def extendSum (e : Phrase .sum) : Operation × Phrase .product → Phrase .sum
  | (.subtract, t) => subtracted e t
  | (_, t) => added e t

/-- A product is a chain of signed phrases. -/
theorem exists_chain_product : (e : Phrase .product) → ∃ u l,
    (∀ x ∈ l, x.1.leftPower = 60) ∧ e.terminals = u.terminals ++ links l ∧
      l.foldl extendProduct (factor u) = e
  | factor u => ⟨u, [], by simp, (List.append_nil _).symm, rfl⟩
  | multiplied t u => by
    obtain ⟨u₀, l, hl, hterminals, rfl⟩ := exists_chain_product t
    refine ⟨u₀, l ++ [(.multiply, u)], ?_, ?_, ?_⟩
    · simpa [or_imp, forall_and, Operation.leftPower] using hl
    · simp [terminals, hterminals, links]
    · simp [extendProduct]
  | divided t u => by
    obtain ⟨u₀, l, hl, hterminals, rfl⟩ := exists_chain_product t
    refine ⟨u₀, l ++ [(.divide, u)], ?_, ?_, ?_⟩
    · simpa [or_imp, forall_and, Operation.leftPower] using hl
    · simp [terminals, hterminals, links]
    · simp [extendProduct]

/-- A sum is a chain of products. -/
theorem exists_chain_sum : (e : Phrase .sum) → ∃ t l,
    (∀ x ∈ l, x.1.leftPower = 50) ∧ e.terminals = t.terminals ++ links l ∧
      l.foldl extendSum (term t) = e
  | term t => ⟨t, [], by simp, (List.append_nil _).symm, rfl⟩
  | added e t => by
    obtain ⟨t₀, l, hl, hterminals, rfl⟩ := exists_chain_sum e
    refine ⟨t₀, l ++ [(.add, t)], ?_, ?_, ?_⟩
    · simpa [or_imp, forall_and, Operation.leftPower] using hl
    · simp [terminals, hterminals, links]
    · simp [extendSum]
  | subtracted e t => by
    obtain ⟨t₀, l, hl, hterminals, rfl⟩ := exists_chain_sum e
    refine ⟨t₀, l ++ [(.subtract, t)], ?_, ?_, ?_⟩
    · simpa [or_imp, forall_and, Operation.leftPower] using hl
    · simp [terminals, hterminals, links]
    · simp [extendSum]

/-- A first operand and a chain of further ones are told apart if the operands are. -/
theorem chain_inj (hM : Separates M n) {p : Nat} (hp : p < M.floor) {u u' : Phrase M}
    {l l' : List (Operation × Phrase M)} (hl : ∀ x ∈ l, x.1.leftPower = p)
    (hl' : ∀ x ∈ l', x.1.leftPower = p) (hn : (u.terminals ++ links l).length ≤ n)
    {ts ts' : List Terminal} (hts : Ends p ts) (hts' : Ends p ts')
    (h : u.terminals ++ links l ++ ts = u'.terminals ++ links l' ++ ts') :
    u = u' ∧ l = l' ∧ ts = ts' := by
  rw [List.append_assoc, List.append_assoc] at h
  rw [List.length_append] at hn
  obtain ⟨hu, h⟩ := hM u u' _ _ (by omega) (ends_links hl hp hts) (ends_links hl' hp hts') h
  exact ⟨hu, links_inj hM hp hl hl' (by omega) hts hts' h⟩

theorem separates_product (hsigned : Separates .signed n) : Separates .product n := by
  intro e e' ts ts' hn hts hts' h
  obtain ⟨u, l, hl, hterminals, rfl⟩ := exists_chain_product e
  obtain ⟨u', l', hl', hterminals', rfl⟩ := exists_chain_product e'
  rw [hterminals] at hn h
  rw [hterminals'] at h
  obtain ⟨rfl, rfl, rfl⟩ := chain_inj hsigned (by decide) hl hl' hn hts hts' h
  exact ⟨rfl, rfl⟩

theorem separates_sum (hproduct : Separates .product n) : Separates .sum n := by
  intro e e' ts ts' hn hts hts' h
  obtain ⟨t, l, hl, hterminals, rfl⟩ := exists_chain_sum e
  obtain ⟨t', l', hl', hterminals', rfl⟩ := exists_chain_sum e'
  rw [hterminals] at hn h
  rw [hterminals'] at h
  obtain ⟨rfl, rfl, rfl⟩ := chain_inj hproduct (by decide) hl hl' hn hts hts' h
  exact ⟨rfl, rfl⟩

/-! ## Phrases -/

theorem separates (N : Level) (n : Nat) : Separates N n := by
  induction n using Nat.strongRecOn generalizing N with
  | ind n ih =>
    have hatom : Separates .atom n := separates_atom fun m hm => ih m hm .sum
    have hsigned := separates_signed hatom fun m hm => ih m hm .signed
    have hproduct := separates_product hsigned
    cases N with
    | atom => exact hatom
    | signed => exact hsigned
    | product => exact hproduct
    | sum => exact separates_sum hproduct

/-- **A phrase is determined by its kind and its terminals.** -/
theorem eq_of_terminals {N : Level} {e e' : Phrase N} (h : e.terminals = e'.terminals) :
    e = e' := by
  have hnil : Ends N.floor [] := fun x hx => by cases hx
  exact (separates N _ e e' [] [] (Nat.le_refl _) hnil hnil (by rw [h])).1

end Phrase

end Calculator

end Precedence
