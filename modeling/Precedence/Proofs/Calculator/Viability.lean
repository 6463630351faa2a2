import Precedence.Proofs.Calculator.Failures
import Precedence.Proofs.Calculator.Language

/-!
# Viable beginnings

Terminals are viable if they begin a phrase. What the calculator that keeps operations has read when
it blames a token for standing where it does, or the end of the text for coming too early, is
viable: an operand that is missing is a name, an open parenthesis is closed, and an operand that is
there already is made part of a sum. That way every value on the way has an opposite, and no minus
sign in front of it is in the way.

* `Viable`: with one lemma for each way to put a beginning behind what was read before it.
* `sticks_whole`: a parse that fails so has stopped behind a viable beginning.
-/

namespace Precedence

open Precedence.Source Calculator

/-- Errors of the kind say that a text does not go on as it does. -/
def Source.ErrorKind.IsSyntactic : ErrorKind → Prop
  | .syntaxError | .unexpectedToken | .expectedToken | .unexpectedEnd => True
  | _ => False

namespace Calculator

/-! ## Beginnings of phrases -/

/-- The terminals that complete beginnings. -/
def fillers : List Terminal :=
  [.name "x", .sign .add, .closing]

/-- The terminals begin a phrase of the kind that is completed by fillers, and whose value can be
negated. -/
def Viable (N : Level) (ts : List Terminal) : Prop :=
  ∃ (us : List Terminal) (e : Phrase N) (v : Value), us ≠ [] ∧ us ⊆ fillers ∧
    e.terminals = ts ++ us ∧ e.value kept = some v ∧ v.IsModest

namespace Viable

variable {M N : Level} {ts us : List Terminal} {x : Terminal} {v : Value}

/-- A beginning of a phrase of a tighter kind begins one of a looser kind. -/
theorem widen (h : Viable M ts) (hN : N.bottom < M.floor) : Viable N ts := by
  obtain ⟨us, e, v, hne, hus, hterminals, hv, hmodest⟩ := h
  obtain ⟨e', hterminals', -, hvalue⟩ := e.exists_widen hN
  refine ⟨us, e', v, hne, hus, hterminals'.trans hterminals, ?_, hmodest⟩
  rw [hvalue]
  exact hv

/-- Where a phrase is missing a name can stand. -/
theorem missing (N : Level) : Viable N [] := by
  have hname : Viable .atom [] :=
    ⟨[.name "x"], .name "x", .var "x", List.cons_ne_nil _ _, by decide, rfl, rfl, trivial⟩
  exact hname.widen (by cases N <;> decide)

/-- A beginning that ends with a filler is viable without it. -/
theorem of_snoc (h : Viable N (ts ++ [x])) (hx : x ∈ fillers) : Viable N ts := by
  obtain ⟨us, e, v, -, hus, hterminals, hv⟩ := h
  refine ⟨x :: us, e, v, List.cons_ne_nil _ _, List.cons_subset.mpr ⟨hx, hus⟩, ?_, hv⟩
  rw [hterminals, List.append_assoc, List.singleton_append]

/-- A beginning behind an operation. -/
theorem applied (op : Operation) {a : Phrase (.left op)} (ha : a.value kept = some v)
    (h : Viable (.right op) ts) : Viable (.of op) (a.terminals ++ .sign op :: ts) := by
  obtain ⟨us, e, w, hne, hus, hterminals, hw, -⟩ := h
  refine ⟨us, .applied op a e, Term.combine op.operator v w, hne, hus, ?_, ?_,
    (Value.isBare_combine _ _ _).isModest⟩
  · rw [Phrase.terminals_applied, hterminals, List.append_assoc, List.cons_append]
  · rw [Phrase.value_applied, ha, hw]
    rfl

/-- A whole sum can go on. -/
theorem whole {e : Phrase .sum} (he : e.value kept = some v) : Viable .sum e.terminals := by
  have hsum : Viable .sum (e.terminals ++ [.sign .add]) := applied .add he (missing .product)
  exact hsum.of_snoc (by decide)

/-- A beginning in parentheses. -/
theorem inside (h : Viable .sum ts) : Viable .atom (.opening :: ts) := by
  obtain ⟨us, e, v, hne, hus, hterminals, hv⟩ := h
  refine ⟨us ++ [.closing], .group e, v, by simp, ?_, ?_, hv⟩
  · exact List.append_subset.mpr ⟨hus, by decide⟩
  · rw [Phrase.terminals, hterminals, List.cons_append, List.cons_append, List.append_assoc]

/-- A beginning behind a minus sign. It is no number alone, so the sign negates its value. -/
theorem negated (h : Viable .signed ts) : Viable .signed (.sign .subtract :: ts) := by
  obtain ⟨us, e, v, hne, hus, hterminals, hv, hmodest⟩ := h
  obtain ⟨w, hw, hmodest'⟩ := hmodest.negate
  have hliteral : e.literal? = none := by
    cases hl : e.literal? with
    | none => rfl
    | some text =>
      obtain ⟨x, hx⟩ := List.exists_mem_of_ne_nil us hne
      have hmem : x ∈ ts ++ us := List.mem_append_right ts hx
      rw [← hterminals, (Phrase.terminals_of_literal? e hl).1, List.mem_singleton] at hmem
      rw [hmem] at hx
      have hnot : Terminal.number text ∉ fillers := by simp [fillers]
      exact absurd (hus hx) hnot
  refine ⟨us, .negated e, w, hne, hus, ?_, ?_, hmodest'⟩
  · rw [Phrase.terminals, hterminals, List.cons_append]
  · simp only [Phrase.value, hliteral, hv]
    simp [hw, Except.toOption]

end Viable

end Calculator

namespace Grammar

open Outcome
open Session (Proper Passes Within)

variable {g : Grammar Value} {input : String} {scan : Scan} {M N : Level} {n least : Nat}
variable {s s' s₀ s₁ s₂ : Session} {left v : Value} {t : Token} {us : List Terminal}
variable {e : ParseError}

/-! ## Where a parse stops -/

/-- If the error says that the text does not go on as it does, it is at the token that comes behind
a viable beginning. -/
def Sticks (scan : Scan) (N : Level) (s : Session) (e : ParseError) : Prop :=
  e.kind.IsSyntactic → ∃ (ts : List Terminal) (s' : Session) (t : Token), Viable N ts ∧
    s.ahead = ts.map some ++ s'.ahead ∧ s'.Within scan ∧ s'.Faces scan t ∧ e.span = t.span

/-- What was read before a part of a parse that stops comes before what the part has read. -/
theorem Sticks.behind (h : Sticks scan M s₁ e) (hus : s.ahead = us.map some ++ s₁.ahead)
    (hviable : ∀ ts, Viable M ts → Viable N (us ++ ts)) : Sticks scan N s e := by
  intro hkind
  obtain ⟨ts, s', t, hts, hahead, hs', hfaces, hspan⟩ := h hkind
  refine ⟨us ++ ts, s', t, hviable ts hts, ?_, hs', hfaces, hspan⟩
  rw [hus, hahead, List.map_append, List.append_assoc]

theorem Sticks.widen (h : Sticks scan M s e) (hN : N.bottom < M.floor) : Sticks scan N s e :=
  h.behind (show s.ahead = [].map some ++ s.ahead from rfl) fun _ hts => hts.widen hN

/-- A parse that stops at the next token, behind a viable beginning. -/
theorem sticks_at {c : Context} (kind : ErrorKind) (message : String) (hus : Viable N us)
    (hahead : s.ahead = us.map some ++ s₁.ahead) (hs₁ : s₁.Within scan)
    (hp : s₁.peek c = (.ok t, s')) : Sticks scan N s (c.errorAt kind message t.span) :=
  fun _ => ⟨us, s₁, t, hus, hahead, hs₁, hs₁.of_peek hp, rfl⟩

/-- What is parsed within `n` steps stops behind viable beginnings. -/
structure SticksWithin (g : Grammar Value) (scan : Scan) (input : String) (n : Nat) : Prop where
  expression : ∀ {least s N}, Proper s → s.Within scan → N.bottom ≤ least → least < 80 →
    Blames (Sticks scan N s) (g.expression (g.context input) n least s)
  resume : ∀ {least left s₀ s M N}, Proper s₀ → s.Within scan →
    g.Covers Calculator.kept M left s₀ s → least < M.floor → headPower s.ahead ≤ M.cap →
    N.bottom ≤ least → least < 80 →
    Blames (Sticks scan N s₀) (g.resume (g.context input) n left least s)

/-- A beginning in parentheses, or for want of the closing one a sum behind the opening one. -/
theorem sticks_parentheses (hg : Calculates g Calculator.kept) (hn : SticksWithin g scan input n)
    (hs : Proper s) (hp : Passes [.opening] .operand s s₁) (hs₁ : s₁.Within scan) :
    Blames (Sticks scan .atom s)
      (g.act (g.context input) n (parentheses (g.context input) t) s₁) := by
  have hproper := hp.proper hs
  refine blames_parentheses ?_ fun v s₂ hv => ?_
  · refine (hn.expression (N := .sum) hproper hs₁ (Nat.le_refl 0) (by decide)).mono fun e he => ?_
    exact he.behind hp.ahead fun _ hts => hts.inside
  · have hkept := Session.isKept_within (c := g.context input) scan
    have hs₂ := (keeps g hkept n).expression _ _ _ hv hs₁
    obtain ⟨s₃, ⟨e, he, hpe, -⟩, rfl, -⟩ :=
      (finds_all hg n).1 (N := .sum) hv hproper (Nat.le_refl 0) (by decide)
    have hviable : Viable .atom (.opening :: e.terminals) := (Viable.whole he).inside
    have hahead : s.ahead = (Terminal.opening :: e.terminals).map some ++ s₃.leave.ahead := by
      rw [hp.ahead, show s₁.ahead = _ from hpe.ahead]
      rfl
    exact blames_takeExpected ")" hs₂ (fun _ _ h => h.elim)
      (fun t s₄ message hpeek _ => sticks_at _ message hviable hahead hs₂ hpeek)
      fun t s₄ message hpeek _ => sticks_at _ message hviable hahead hs₂ hpeek

/-- A beginning behind a minus sign. `s₁` is the state behind the sign. -/
theorem sticks_minus (hg : Calculates g Calculator.kept) (hn : SticksWithin g scan input n)
    (hs : Proper s) (hd : s.depth ≤ g.maxDepth) (hp : Passes [.sign .subtract] .nothing s s₁)
    (hs₁ : s₁.Within scan) :
    Blames (Sticks scan .signed s)
      (g.act (g.context input) n (minus (g.context input) t) s₁.countNud) := by
  have hproper := hp.proper hs
  have hbehind : ∀ e, Sticks scan .signed s₁ e → Sticks scan .signed s e :=
    fun e he => he.behind hp.ahead fun _ hts => hts.negated
  refine blames_minus hg rfl ⟨hs₁.upcoming, hs₁.ending⟩ (fun _ _ h => h.elim)
    (fun _ h => h.elim) (fun _ _ _ _ _ _ h => h.elim) (fun _ _ _ _ _ _ h => h.elim) ?_ ?_
  · intro number s₂ s₃ following s₄ m hpeek hnumber htake hpeek' hlt hm hs₄
    obtain ⟨hpass, -⟩ := passes_number hproper hpeek hnumber htake hpeek'
    have hatom : g.Covers Calculator.kept .atom m s₁ s₄ :=
      ⟨.number number.text, toOption_eq_some_iff.mpr hm, hpass, by rw [hp.depth]; exact hd⟩
    exact (hn.resume hproper hs₄ hatom (by decide) (headPower_le_cap_atom _) (by decide)
      (by decide)).mono hbehind
  · intro next s₂ hpeek _ hs₂
    have hcount := Session.passes_countNud hproper
    obtain ⟨-, ha⟩ := (hcount.proper hproper).of_peek hpeek
    have hpass := hcount.trans (Passes.of_alike (hcount.proper hproper) ha)
    refine (hn.expression (N := .signed) (hpass.proper hproper) hs₂ (by decide)
      (by decide)).mono fun e he => hbehind e ?_
    exact he.behind hpass.ahead fun _ => id

/-- What begins an operand stops behind a viable beginning. -/
theorem sticks_nud (hg : Calculates g Calculator.kept) (hn : SticksWithin g scan input n)
    (hs : Proper s) (hd : s.depth ≤ g.maxDepth) (hwithin : s.Within scan)
    (htake : s.take (g.context input) = (.ok t, s₁)) :
    Blames (Sticks scan .signed s)
      (g.act (g.context input) n (g.nudAction (g.context input) t) s₁.countNud) := by
  obtain ⟨s₂, hpeek, -⟩ := Session.take_eq_ok_iff.mp htake
  have hs₁ := hwithin.of_take_ok htake
  refine blames_nudAction hg
    (fun _ => sticks_at _ _ (.missing _) rfl hwithin hpeek)
    (fun _ => sticks_at _ _ (.missing _) rfl hwithin hpeek) (fun _ _ _ h => h.elim)
    (fun ht => ?_) fun ht => sticks_minus hg hn hs hd ((hs.of_take htake).2 _ ht) hs₁
  exact (sticks_parentheses hg hn hs (passes_nud hs htake ht) ⟨hs₁.upcoming, hs₁.ending⟩).mono
    fun e he => he.widen (by decide)

theorem SticksWithin.expression_succ (hg : Calculates g Calculator.kept)
    (hn : SticksWithin g scan input n) (hs : Proper s) (hwithin : s.Within scan)
    (hN : N.bottom ≤ least) (hleast : least < 80) :
    Blames (Sticks scan N s) (g.expression (g.context input) (n + 1) least s) := by
  have hkept := Session.isKept_within (c := g.context input) scan
  have hwithin' : s.enter.Within scan := ⟨hwithin.upcoming, hwithin.ending⟩
  by_cases hd : s.depth < g.maxDepth
  · rw [expression_of_le hd, begin_eq]
    refine Blames.andThen ?_ fun v s₁ _ => blames_ok v s₁.leave
    refine hwithin'.blames_take_andThen (fun _ _ h => h.elim) fun t s₁ htake hs₁ => ?_
    refine Blames.andThen ?_ fun left s₂ hleft => ?_
    · exact (sticks_nud hg hn hs.enter hd hwithin' htake).mono fun e he =>
        he.widen (M := .signed) (Nat.lt_of_le_of_lt hN hleast)
    · have ⟨hf, hc⟩ : g.Finds Calculator.kept input n ∧ g.Continues Calculator.kept input n :=
        finds_all hg n
      obtain ⟨M, hcovers, hfloor, hcap⟩ := finds_nud hg hf hc hs.enter hd htake hleft
      have hs₂ := (keeps g hkept n).act hkept hleft ⟨hs₁.upcoming, hs₁.ending⟩
      exact (hn.resume hs.enter hs₂ hcovers (Nat.lt_of_lt_of_le hleast hfloor) hcap hN
        hleast).mono fun _ => id
  · rw [expression_of_ge (Nat.not_lt.mp hd)]
    exact hwithin'.blames_peek_andThen (fun _ _ h => h.elim)
      fun t s₁ _ _ => blames_error (fun h => h.elim) s₁

theorem SticksWithin.resume_succ (hg : Calculates g Calculator.kept)
    {operator? : Operation → Option Operator}
    (hsymbols : g.symbols = calculatorSymbols operator? fun op => Build.betweenLed op.operator)
    (hn : SticksWithin g scan input n) (hs₀ : Proper s₀) (hwithin : s.Within scan)
    (hleft : g.Covers Calculator.kept M left s₀ s) (hcap : headPower s.ahead ≤ M.cap)
    (hN : N.bottom ≤ least) (hleast : least < 80) :
    Blames (Sticks scan N s₀) (g.resume (g.context input) (n + 1) left least s) := by
  have hkept := Session.isKept_within (c := g.context input) scan
  have hs := hleft.proper hs₀
  rw [Grammar.resume_succ]
  refine hwithin.blames_peek_andThen (fun _ _ h => h.elim) fun t s₁ hpeek hs₁ => ?_
  split
  · exact blames_ok left s₁
  rename_i hpower
  refine hs₁.blames_take_andThen (fun _ _ h => h.elim) fun t' s₂ htake hs₂ => ?_
  obtain ⟨op, hop, hhead, hlt, hp⟩ :=
    exists_passes_led hg hs hpeek (Nat.not_le.mp hpower) htake
  obtain ⟨hbottom, hright, hfloor⟩ := Level.right_bounds op
  have hs₂' : s₂.countLed.Within scan := ⟨hs₂.upcoming, hs₂.ending⟩
  refine Blames.andThen ?_ fun w s₃ hw => ?_
  · -- The right operand stops behind a beginning; the left one and the operation come before it.
    rw [ledAction_eq hsymbols hop]
    refine blames_betweenLed ?_
    rw [op.rightPower_operator]
    refine (hn.expression (hp.proper hs) hs₂' hbottom hright).mono fun e he => ?_
    obtain ⟨a, ha, hpa, -⟩ := hleft.widen (Level.bottom_left_lt (hhead ▸ hcap))
    have hahead := (hpa.trans hp).ahead
    refine he.behind hahead fun ts hts => ?_
    rw [List.append_assoc, List.singleton_append]
    exact (Viable.applied op ha hts).widen
      (Nat.lt_of_le_of_lt hN (Nat.lt_of_lt_of_le hlt hfloor))
  · obtain ⟨right, hexpr, hperform⟩ := (hg.led_eq_ok_iff hop).mp hw
    obtain ⟨hcovers, hle⟩ :=
      hleft.turn (finds_all hg n).1 hs₀ (hhead ▸ hcap) hp hexpr hperform
    exact hn.resume hs₀ ((keeps g hkept n).act hkept hw hs₂') hcovers
      (Nat.lt_of_lt_of_le hlt hfloor) hle hN hleast

theorem sticksWithin (hg : Calculates g Calculator.kept) {operator? : Operation → Option Operator}
    (hsymbols : g.symbols = calculatorSymbols operator? fun op => Build.betweenLed op.operator)
    (n : Nat) : SticksWithin g scan input n := by
  induction n with
  | zero => exact ⟨fun _ _ _ _ => blames_none, fun _ _ _ _ _ _ _ => blames_none⟩
  | succ n ih =>
    exact ⟨fun hs hw hN hl => ih.expression_succ hg hs hw hN hl,
      fun hs₀ hw hleft _ hcap hN hl => ih.resume_succ hg hsymbols hs₀ hw hleft hcap hN hl⟩

/-- **A parse that fails for want of another token stops behind a viable beginning.** -/
theorem sticks_whole (hg : Calculates g Calculator.kept) {operator? : Operation → Option Operator}
    (hsymbols : g.symbols = calculatorSymbols operator? fun op => Build.betweenLed op.operator)
    (hs : Proper s) (hwithin : s.Within scan) :
    Blames (Sticks scan .sum s) (g.whole (g.context input) n s) := by
  have hkept := Session.isKept_within (c := g.context input) scan
  rw [Grammar.whole]
  refine Blames.andThen ?_ fun v s₁ hv => ?_
  · exact (sticksWithin hg hsymbols n).expression hs hwithin (Nat.le_refl 0) (by decide)
  have hs₁ := (keeps g hkept n).expression _ _ _ hv hwithin
  refine hs₁.blames_peek_andThen (fun _ _ h => h.elim) fun t s₂ hpeek _ => ?_
  split
  · exact blames_ok _ s₂
  · obtain ⟨s₃, ⟨e, he, hpe, -⟩, rfl, -⟩ :=
      (finds_all hg n).1 (N := .sum) hv hs (Nat.le_refl 0) (by decide)
    have hahead : s.ahead = e.terminals.map some ++ s₃.leave.ahead := hpe.ahead
    exact blames_error (sticks_at _ _ (Viable.whole he) hahead hs₁ hpeek) s₂

end Grammar

end Precedence
