import Precedence.Proofs.Calculator.Recognition

/-!
# What terminals are for

A sign stands between operands or begins one, and a number stands for itself or belongs to the sign
in front of it. What stands in front of a terminal tells which: a terminal has a `Place`.

* `placed_group`, `placed_negated`, `placed_applied`: where the terminals of a phrase stand.
* `leds_eq`: a parse continues as many operands as there are signs between operands.
* `tally_balance`: every terminal of a phrase starts an operand, continues one, closes a parenthesis,
  or is a number that belongs to the sign in front of it.
-/

namespace Precedence

namespace Calculator

/-- The terminals of a scan. -/
def terminalsOf (scan : Scan) : List Terminal :=
  scan.tokens.filterMap Token.terminal?

theorem Terminals.terminalsOf_eq {scan : Scan} {ts : List Terminal} (h : Terminals scan ts) :
    terminalsOf scan = ts := by
  have hmap := congrArg (List.filterMap id) h.tokens
  rw [List.filterMap_map, List.filterMap_map] at hmap
  rw [terminalsOf]
  simpa using hmap

theorem Terminals.length_eq {scan : Scan} {ts : List Terminal} (h : Terminals scan ts) :
    ts.length = scan.tokens.length := by
  have hlength := congrArg List.length h.tokens
  rwa [List.length_map, List.length_map, eq_comm] at hlength

/-- Where a terminal stands. -/
inductive Place where
  /-- Where an operand begins, but not behind a sign that begins it. -/
  | fresh
  /-- Directly behind a sign that begins an operand. -/
  | signed
  /-- Directly behind an operand. -/
  | behind
deriving DecidableEq

/-- The place behind a terminal. -/
def Place.next (p : Place) : Terminal → Place
  | .number _ | .name _ | .closing => .behind
  | .opening => .fresh
  | .sign _ => if p = .behind then .fresh else .signed

/-- Terminals with their places, the first of them at a certain place. -/
def placed : Place → List Terminal → List (Place × Terminal)
  | _, [] => []
  | p, x :: ts => (p, x) :: placed (p.next x) ts

/-- The operation that a terminal with its place stands for: that of a sign between operands. -/
def operation? : Place × Terminal → Option Operation
  | (.behind, .sign op) => some op
  | _ => none

/-- The number that belongs to the sign in front of it. -/
def signedNumber? : Place × Terminal → Option String
  | (.signed, .number text) => some text
  | _ => none

/-- The operations of the signs between operands, from left to right. -/
def operations (p : Place) (ts : List Terminal) : List Operation :=
  (placed p ts).filterMap operation?

/-- The numbers directly behind a sign that begins an operand, from left to right. -/
def signedNumbers (p : Place) (ts : List Terminal) : List String :=
  (placed p ts).filterMap signedNumber?

/-- Whether the first terminal is a number. -/
def beginsWithNumber : List Terminal → Bool
  | .number _ :: _ => true
  | _ => false

theorem operation?_of_ne {p : Place} (hp : p ≠ .behind) (x : Terminal) :
    operation? (p, x) = none := by
  cases p with
  | behind => exact absurd rfl hp
  | fresh | signed => rfl

theorem placed_append (p : Place) (ts us : List Terminal) :
    placed p (ts ++ us) = placed p ts ++ placed (ts.foldl Place.next p) us := by
  induction ts generalizing p with
  | nil => rfl
  | cons x ts ih => rw [List.cons_append, placed, placed, ih, List.foldl_cons, List.cons_append]

namespace Phrase

variable {p : Place}

/-- Behind a phrase is behind an operand. -/
theorem foldl_next {N : Level} (e : Phrase N) (hp : p ≠ .behind) :
    e.terminals.foldl Place.next p = .behind := by
  induction e using inductionOn generalizing p with
  | number _ => rfl
  | name _ => rfl
  | group e _ =>
    rw [terminals, List.foldl_append]
    rfl
  | plain a ih => exact ih hp
  | negated u ih =>
    rw [terminals, List.foldl_cons, Place.next, if_neg hp]
    exact ih (by decide)
  | factor u ih => exact ih hp
  | term t ih => exact ih hp
  | applied op a b iha ihb =>
    rw [terminals_applied, List.foldl_append, iha hp, List.foldl_cons]
    exact ihb (p := .fresh) (by decide)

theorem placed_group (p : Place) (e : Phrase .sum) : placed p (group e).terminals =
    (p, .opening) :: placed .fresh e.terminals ++ [(.behind, .closing)] := by
  have he : e.terminals.foldl Place.next .fresh = .behind := e.foldl_next (by decide)
  rw [terminals, List.cons_append, placed, placed_append, Place.next, he]
  rfl

theorem placed_negated (u : Phrase .signed) (hp : p ≠ .behind) : placed p (negated u).terminals =
    (p, .sign .subtract) :: placed .signed u.terminals := by
  rw [terminals, placed, Place.next, if_neg hp]

theorem placed_applied (op : Operation) (a : Phrase (.left op)) (b : Phrase (.right op))
    (hp : p ≠ .behind) : placed p (applied op a b).terminals =
      placed p a.terminals ++ (.behind, .sign op) :: placed .fresh b.terminals := by
  rw [terminals_applied, placed_append, foldl_next a hp]
  rfl

/-! ## Signs between operands -/

theorem operations_literal (p : Place) (text : String) :
    operations p [.number text] = [] ∧ operations p [.name text] = [] := by
  cases p <;> exact ⟨rfl, rfl⟩

theorem operations_group (p : Place) (e : Phrase .sum) :
    operations p (group e).terminals = operations .fresh e.terminals := by
  rw [operations, placed_group, List.cons_append, List.filterMap_cons, List.filterMap_append]
  cases p <;> exact List.append_nil _

theorem operations_negated (u : Phrase .signed) (hp : p ≠ .behind) :
    operations p (negated u).terminals = operations .signed u.terminals := by
  rw [operations, placed_negated u hp, List.filterMap_cons, operation?_of_ne hp]
  rfl

theorem operations_applied (op : Operation) (a : Phrase (.left op)) (b : Phrase (.right op))
    (hp : p ≠ .behind) : operations p (applied op a b).terminals =
      operations p a.terminals ++ op :: operations .fresh b.terminals := by
  rw [operations, placed_applied op a b hp, List.filterMap_append]
  rfl

/-- **As many operands are continued as there are signs between operands.** -/
theorem leds_eq {N : Level} (e : Phrase N) (hp : p ≠ .behind) :
    e.tally.leds = (operations p e.terminals).length := by
  induction e using inductionOn generalizing p with
  | number text => rw [terminals, (operations_literal p text).1]; rfl
  | name text => rw [terminals, (operations_literal p text).2]; rfl
  | group e ih =>
    rw [operations_group, ← ih (by decide)]
    exact Nat.zero_add _
  | plain a ih => exact ih hp
  | negated u ih =>
    rw [operations_negated u hp, ← ih (by decide), tally]
    split
    · rfl
    · exact Nat.zero_add _
  | factor u ih => exact ih hp
  | term t ih => exact ih hp
  | applied op a b iha ihb =>
    rw [operations_applied op a b hp, tally_applied, List.length_append, List.length_cons,
      ← iha hp, ← ihb (by decide)]
    simp only [Tally.and, Tally.operator, Tally.nested]
    omega

/-! ## What every terminal is for -/

theorem signedNumbers_group (p : Place) (e : Phrase .sum) :
    signedNumbers p (group e).terminals = signedNumbers .fresh e.terminals := by
  rw [signedNumbers, placed_group, List.cons_append, List.filterMap_cons, List.filterMap_append]
  cases p <;> exact List.append_nil _

theorem signedNumbers_negated (u : Phrase .signed) (hp : p ≠ .behind) :
    signedNumbers p (negated u).terminals = signedNumbers .signed u.terminals := by
  rw [signedNumbers, placed_negated u hp, List.filterMap_cons]
  cases p <;> rfl

theorem signedNumbers_applied (op : Operation) (a : Phrase (.left op)) (b : Phrase (.right op))
    (hp : p ≠ .behind) : signedNumbers p (applied op a b).terminals =
      signedNumbers p a.terminals ++ signedNumbers .fresh b.terminals := by
  rw [signedNumbers, placed_applied op a b hp, List.filterMap_append]
  rfl

theorem terminals_ne_nil {N : Level} (e : Phrase N) : e.terminals ≠ [] := by
  intro hnil
  have hbehind := e.foldl_next (p := .fresh) (by decide)
  rw [hnil] at hbehind
  cases hbehind

theorem beginsWithNumber_append {N : Level} (e : Phrase N) (ts : List Terminal) :
    beginsWithNumber (e.terminals ++ ts) = beginsWithNumber e.terminals := by
  obtain ⟨x, rest, he⟩ := List.exists_cons_of_ne_nil e.terminals_ne_nil
  rw [he, List.cons_append]
  cases x <;> rfl

/-- The number of the sign is the one that the phrase begins with. -/
theorem isSome_head? (u : Phrase .signed) : u.head?.isSome = beginsWithNumber u.terminals := by
  obtain ⟨x, ts, hterminals, hx⟩ := u.head?_eq (.inr rfl)
  rw [hterminals]
  cases x with
  | number text => rw [(hx text).mp rfl]; rfl
  | name _ | opening | closing | sign _ =>
    cases hh : u.head? with
    | none => rfl
    | some text => cases (hx text).mpr hh

/-- **Every terminal of a phrase** starts an operand, continues one, closes a parenthesis, or is a
number that belongs to the sign in front of it. Where the phrase begins with such a number the sign
has started the operand that the number is. -/
theorem tally_balance {N : Level} (e : Phrase N) (hp : p ≠ .behind) :
    e.tally.nuds + e.tally.leds + e.terminals.count .closing +
        (signedNumbers p e.terminals).length =
      e.terminals.length + if p = .signed ∧ beginsWithNumber e.terminals then 1 else 0 := by
  induction e using inductionOn generalizing p with
  | number text =>
    cases p with
    | behind => exact absurd rfl hp
    | fresh | signed => rfl
  | name text =>
    cases p with
    | behind => exact absurd rfl hp
    | fresh | signed => rfl
  | group e ih =>
    have he := ih (p := .fresh) (by decide)
    have hcount : (group e).terminals.count .closing = e.terminals.count .closing + 1 := by
      simp [terminals]
    have hlength : (group e).terminals.length = e.terminals.length + 2 := by simp [terminals]
    have hnuds : (group e).tally.nuds = 1 + e.tally.nuds := rfl
    have hleds : (group e).tally.leds = 0 + e.tally.leds := rfl
    rw [signedNumbers_group, hcount, hlength, hnuds, hleds,
      if_neg (fun h => Bool.false_ne_true h.2)]
    rw [if_neg (fun h => by cases h.1)] at he
    omega
  | plain a ih => exact ih hp
  | negated u ih =>
    have hu := ih (p := .signed) (by decide)
    have hcount : (negated u).terminals.count .closing = u.terminals.count .closing := by
      simp [terminals]
    have hlength : (negated u).terminals.length = u.terminals.length + 1 := rfl
    have hsign : ¬ (p = .signed ∧ beginsWithNumber (negated u).terminals = true) :=
      fun h => Bool.false_ne_true h.2
    rw [signedNumbers_negated u hp, hcount, hlength, if_neg hsign, tally, isSome_head?]
    cases hnumber : beginsWithNumber u.terminals with
    | true =>
      rw [hnumber, if_pos ⟨rfl, rfl⟩] at hu
      exact hu
    | false =>
      rw [hnumber, if_neg (fun h => Bool.false_ne_true h.2)] at hu
      rw [if_neg Bool.false_ne_true]
      simp only [Tally.and, Tally.operand, Tally.nested]
      omega
  | factor u ih => exact ih hp
  | term t ih => exact ih hp
  | applied op a b iha ihb =>
    have ha := iha hp
    have hb := ihb (p := .fresh) (by decide)
    rw [if_neg (fun h => by cases h.1)] at hb
    have hcount : (applied op a b).terminals.count .closing =
        a.terminals.count .closing + b.terminals.count .closing := by
      simp [terminals_applied]
    have hlength : (applied op a b).terminals.length =
        a.terminals.length + (b.terminals.length + 1) := by
      simp [terminals_applied]
    rw [signedNumbers_applied op a b hp, hcount, hlength, List.length_append, terminals_applied,
      beginsWithNumber_append, tally_applied]
    simp only [Tally.and, Tally.operator, Tally.nested]
    omega

end Phrase

end Calculator

end Precedence
