import Precedence.Calculator.Grammars
import Precedence.Grammar.Stock
import Precedence.Proofs.Parsing.Running

/-!
# The depth that is counted and the nesting that there is

The depth of a parse goes up where an expression begins and down where one has a value. An
expression that fails leaves it as it is, and a denotation may go on after the failure. So the depth
is not the number of the expressions that are being parsed: it is that number and the number of the
expressions that have failed so far. Here a parse is recorded event by event, `Grammar.record`, and
the two numbers are read off the record.

* `Nesting.AdmitsAll`: how a record and the depth go together, for every event of the record.
* `tracksAll`: what an expression does to the depth, by induction on the bound on the steps.
* `depth_counts_failures`: what the depth is at every call of a denotation, when a parse is refused
  for its depth, and what depth an expression leaves behind.
* `depth_exceeds_nesting`: a parse that is refused although its expressions are not nested deeper
  than the limit.
-/

namespace Precedence

open Precedence.Source

variable {V α β : Type}

/-! ## Records -/

/-- What happens to the nesting of expressions in a parse. -/
inductive Event where
  /-- An expression begins. -/
  | enter
  /-- The denotation of a token is called, at a depth. -/
  | call (depth : Nat)
  /-- The innermost expression is refused for its depth. -/
  | refuse
  /-- The innermost expression ends, with a value or an error. -/
  | leave (succeeds : Bool)
deriving DecidableEq

namespace Outcome

/-- How the expression that has the outcome ends, if it ends. -/
def ends : Outcome α → List Event
  | none => []
  | some (.ok _, _) => [.leave true]
  | some (.error _, _) => [.leave false]

/-- An expression that has a value leaves its depth behind. -/
def close (o : Outcome α) : Outcome α :=
  andThen o fun v s => some (.ok v, s.leave)

theorem ends_close (o : Outcome α) : o.close.ends = o.ends := by
  rcases o with _ | ⟨e | v, s⟩ <;> rfl

/-- What is recorded behind a part of a parse that did not fail. -/
def behind (o : Outcome α) (f : α → Session → List Event) : List Event :=
  match o with
  | some (.ok a, s) => f a s
  | _ => []

end Outcome

/-- The record of an action. The first two functions are the answers to its requests for operands,
and the last two the records of those. -/
def Action.record (c : Context) (e : Nat → Session → Outcome V)
    (r : V → Nat → Session → Outcome V) (e' : Nat → Session → List Event)
    (r' : V → Nat → Session → List Event) : Action V α → Session → List Event
  | done _, _ => []
  | peek k, s => (k (s.peek c).1).record c e r e' r' (s.peek c).2
  | take k, s => (k (s.take c).1).record c e r e' r' (s.take c).2
  | .expression least k, s =>
    e' least s ++
      match e least s with
      | none => []
      | some (x, s) => (k x).record c e r e' r' s
  | .resume left least k, s =>
    r' left least s ++
      match r left least s with
      | none => []
      | some (x, s) => (k x).record c e r e' r' s
  | progress k, s => (k s.progress).record c e r e' r' s

namespace Grammar

mutual

/-- The record of an expression. -/
def expressionRecord (g : Grammar V) (c : Context) : Nat → Nat → Session → List Event
  | 0, _, _ => []
  | steps + 1, least, s =>
    (.enter ::
      if g.maxDepth < s.enter.depth then
        Outcome.behind (some (s.enter.peek c)) fun _ _ => [.refuse]
      else
        Outcome.behind (some (s.enter.take c)) fun t s =>
          .call s.depth ::
            (g.nudAction c t).record c (g.expression c steps) (g.resume c steps)
              (fun least s => expressionRecord g c steps least s)
              (fun left least s => resumeRecord g c steps left least s) s.countNud ++
            (g.act c steps (g.nudAction c t) s.countNud).behind fun left s =>
              resumeRecord g c steps left least s) ++
      (g.expression c (steps + 1) least s).ends

/-- The record of the continuation of an expression. -/
def resumeRecord (g : Grammar V) (c : Context) : Nat → V → Nat → Session → List Event
  | 0, _, _, _ => []
  | steps + 1, left, least, s =>
    Outcome.behind (some (s.peek c)) fun t s =>
      if c.power t.symbol ≤ least then []
      else
        Outcome.behind (some (s.take c)) fun t s =>
          .call s.depth ::
            (g.ledAction c t left).record c (g.expression c steps) (g.resume c steps)
              (fun least s => expressionRecord g c steps least s)
              (fun left least s => resumeRecord g c steps left least s) s.countLed ++
            (g.act c steps (g.ledAction c t left) s.countLed).behind fun left s =>
              resumeRecord g c steps left least s

end

/-- The record of the parse of a text. -/
def record (g : Grammar V) (input : String) : List Event :=
  match g.recognizer with
  | .error _ => []
  | .ok r =>
    g.expressionRecord (g.context input) (g.stepBound (r.scan input)) 0
      (Session.start (r.scan input) (byteLength input.toList))

end Grammar

/-! ## Reading a record -/

/-- How many expressions are being parsed, one inside of the other, and how many have failed. -/
structure Nesting where
  active : Nat
  failed : Nat

/-- The number of the expressions of a record that have failed. -/
def failures (record : List Event) : Nat :=
  record.count (.leave false)

namespace Nesting

variable {limit : Nat} {n : Nesting} {front back record : List Event} {event : Event}

/-- The nesting before a parse. -/
def origin : Nesting where
  active := 0
  failed := 0

/-- The nesting after an event. -/
def after (n : Nesting) : Event → Nesting
  | .enter => ⟨n.active + 1, n.failed⟩
  | .call _ => n
  | .refuse => n
  | .leave true => ⟨n.active - 1, n.failed⟩
  | .leave false => ⟨n.active - 1, n.failed + 1⟩

/-- The nesting after all events of a record. -/
def afterAll (n : Nesting) (record : List Event) : Nesting :=
  record.foldl after n

/-- The number of the expressions that have begun in a record, but not ended. -/
def activeAfter (record : List Event) : Nat :=
  (origin.afterAll record).active

/-- The depth that is counted: expressions that failed are never taken off it. -/
def depth (n : Nesting) : Nat :=
  n.active + n.failed

theorem failed_afterAll (n : Nesting) (record : List Event) :
    (n.afterAll record).failed = n.failed + failures record := by
  induction record generalizing n with
  | nil => rfl
  | cons event record ih =>
    have hevent : (n.after event).failed = n.failed + failures [event] := by
      rcases event with _ | depth | _ | ⟨_ | _⟩ <;> rfl
    rw [afterAll, List.foldl_cons, ← afterAll, ih, hevent, Nat.add_assoc, failures, failures,
      failures, ← List.count_append, List.singleton_append]

theorem depth_afterAll (record : List Event) :
    (origin.afterAll record).depth = activeAfter record + failures record := by
  rw [depth, failed_afterAll, origin, Nat.zero_add]
  rfl

/-- What is true of the nesting when the event happens. -/
def Admits (limit : Nat) (n : Nesting) : Event → Prop
  | .enter => True
  | .call depth => depth = n.depth
  | .refuse => limit < n.depth
  | .leave _ => 0 < n.active

/-- That is true of all events of a record. -/
def AdmitsAll (limit : Nat) (n : Nesting) : List Event → Prop
  | [] => True
  | event :: record => n.Admits limit event ∧ (n.after event).AdmitsAll limit record

theorem afterAll_append (n : Nesting) (front back : List Event) :
    n.afterAll (front ++ back) = (n.afterAll front).afterAll back :=
  List.foldl_append

theorem admitsAll_append :
    n.AdmitsAll limit (front ++ back) ↔
      n.AdmitsAll limit front ∧ (n.afterAll front).AdmitsAll limit back := by
  induction front generalizing n with
  | nil => exact (true_and _).to_iff.symm
  | cons event front ih =>
    rw [List.cons_append, AdmitsAll, ih, AdmitsAll, and_assoc]
    rfl

theorem AdmitsAll.admits (h : n.AdmitsAll limit record)
    (hrecord : record = front ++ event :: back) : (n.afterAll front).Admits limit event := by
  rw [hrecord, admitsAll_append, AdmitsAll] at h
  exact h.2.1

theorem active_leave (succeeds : Bool) :
    (n.after (.leave succeeds)).active = n.active - 1 := by
  cases succeeds <;> rfl

/-- An expression is taken off the depth where it has a value. Where it fails it is one that has
failed from then on. -/
theorem depth_leave (h : 0 < n.active) (succeeds : Bool) :
    (n.after (.leave succeeds)).depth = if succeeds then n.depth - 1 else n.depth := by
  cases succeeds with
  | true =>
    simp only [depth, after, if_true]
    omega
  | false =>
    simp only [depth, after, Bool.false_eq_true, if_false]
    omega

end Nesting

/-! ## Records of a parse -/

namespace Session

variable {c : Context} {s s' : Session}

theorem depth_peek (s : Session) : (s.peek c).2.depth = s.depth := by
  unfold peek
  split
  · rfl
  · split <;> rfl

theorem depth_take (s : Session) : (s.take c).2.depth = s.depth := by
  have h := depth_peek (c := c) s
  unfold take
  rcases hp : s.peek c with ⟨e | t, s₁⟩
  · rwa [hp] at h
  · rwa [hp] at h

end Session

/-- The record goes with what a part of a parse does in a state: every event is as the depth says,
and in the end as many expressions are active as before. -/
def Tracks (limit : Nat) (s : Session) (record : List Event) (o : Outcome α) : Prop :=
  ∀ n : Nesting, n.depth = s.depth → n.AdmitsAll limit record ∧
    ∀ x, o = some x →
      (n.afterAll record).active = n.active ∧ (n.afterAll record).depth = x.2.depth

namespace Tracks

variable {limit : Nat} {s s' : Session} {record record' : List Event} {o : Outcome α}
variable {o' : Outcome β}

theorem silent {r : Except ParseError α} (h : s'.depth = s.depth) :
    Tracks limit s [] (some (r, s')) := by
  rintro n hn
  refine ⟨trivial, ?_⟩
  rintro x ⟨⟩
  exact ⟨rfl, hn.trans h.symm⟩

theorem of_none : Tracks limit s [] (none : Outcome α) :=
  fun _ _ => ⟨trivial, nofun⟩

theorem of_depth (hs : s'.depth = s.depth) (h : Tracks limit s' record o) :
    Tracks limit s record o :=
  fun n hn => h n (hn.trans hs.symm)

/-- One part of a parse and then another one. -/
theorem append (h : Tracks limit s record o) (hnone : o = none → record' = [] ∧ o' = none)
    (hsome : ∀ x, o = some x → Tracks limit x.2 record' o') :
    Tracks limit s (record ++ record') o' := by
  intro n hn
  obtain ⟨hrecord, hend⟩ := h n hn
  rw [Nesting.admitsAll_append, Nesting.afterAll_append]
  cases o with
  | none =>
    obtain ⟨rfl, rfl⟩ := hnone rfl
    exact ⟨⟨hrecord, trivial⟩, fun x hx => by cases hx⟩
  | some x =>
    obtain ⟨hactive, hdepth⟩ := hend x rfl
    obtain ⟨hrecord', hend'⟩ := hsome x rfl _ hdepth
    refine ⟨⟨hrecord, hrecord'⟩, fun y hy => ?_⟩
    obtain ⟨hactive', hdepth'⟩ := hend' y hy
    exact ⟨hactive'.trans hactive, hdepth'⟩

theorem andThen {f : α → Session → Outcome β} {f' : α → Session → List Event}
    (h : Tracks limit s record o) (hf : ∀ a s', o = some (.ok a, s') →
      Tracks limit s' (f' a s') (f a s')) :
    Tracks limit s (record ++ o.behind f') (Outcome.andThen o f) := by
  refine h.append (fun hnone => by subst hnone; exact ⟨rfl, rfl⟩) ?_
  rintro ⟨e | a, s'⟩ rfl
  · exact silent rfl
  · exact hf a s' rfl

/-- To look at a token or to take one is not recorded. -/
theorem andThen_some {x : Except ParseError α × Session} {f : α → Session → Outcome β}
    {f' : α → Session → List Event} (hs : x.2.depth = s.depth)
    (hf : ∀ a s', s'.depth = s.depth → Tracks limit s' (f' a s') (f a s')) :
    Tracks limit s (Outcome.behind (some x) f') (Outcome.andThen (some x) f) := by
  refine (silent hs : Tracks limit s [] (some x)).andThen fun a s' hx => hf a s' ?_
  obtain rfl : x = (.ok a, s') := Option.some.inj hx
  exact hs

/-- The depth at which a denotation is called. -/
theorem call (hs : s'.depth = s.depth) (h : Tracks limit s' record o) :
    Tracks limit s (.call s.depth :: record) o := by
  intro n hn
  obtain ⟨hrecord, hend⟩ := h n (hn.trans hs.symm)
  exact ⟨⟨hn.symm, hrecord⟩, hend⟩

theorem refuse {e : ParseError} (h : limit < s.depth) :
    Tracks limit s [.refuse] (some ((.error e : Except ParseError α), s)) := by
  intro n hn
  refine ⟨⟨Nat.lt_of_lt_of_eq h hn.symm, trivial⟩, ?_⟩
  rintro x ⟨⟩
  exact ⟨rfl, hn⟩

/-- An expression is active from its beginning on. In the end it is taken off the depth, or it has
failed. -/
theorem enclose (h : Tracks limit s.enter record o) :
    Tracks limit s (.enter :: record ++ o.ends) o.close := by
  intro n hn
  have henter : (n.after .enter).depth = s.enter.depth := by
    simp only [Nesting.depth, Nesting.after, Session.enter] at hn ⊢
    omega
  obtain ⟨hrecord, hend⟩ := h _ henter
  rw [Nesting.admitsAll_append, Nesting.afterAll_append]
  -- the nesting before the expression ends
  generalize hm : (n.after .enter).afterAll record = m at hend
  have hm' : n.afterAll (.enter :: record) = m := hm
  rw [hm']
  have hactive : ∀ x, o = some x → m.active = n.active + 1 := fun x hx => (hend x hx).1
  rcases o with _ | ⟨e | v, s'⟩
  · exact ⟨⟨⟨trivial, hrecord⟩, trivial⟩, fun x hx => by cases hx⟩
  · have hpos : 0 < m.active := hactive _ rfl ▸ Nat.succ_pos _
    refine ⟨⟨⟨trivial, hrecord⟩, hpos, trivial⟩, ?_⟩
    rintro x ⟨⟩
    exact ⟨(Nesting.active_leave false).trans (congrArg (· - 1) (hactive _ rfl)),
      (Nesting.depth_leave hpos false).trans (hend _ rfl).2⟩
  · have hpos : 0 < m.active := hactive _ rfl ▸ Nat.succ_pos _
    refine ⟨⟨⟨trivial, hrecord⟩, hpos, trivial⟩, ?_⟩
    rintro x ⟨⟩
    exact ⟨(Nesting.active_leave true).trans (congrArg (· - 1) (hactive _ rfl)),
      (Nesting.depth_leave hpos true).trans (congrArg (· - 1) (hend _ rfl).2)⟩

end Tracks

/-- The record of an action goes with its outcome if those of the answers do. -/
theorem Action.tracks_record {limit : Nat} {c : Context} {e : Nat → Session → Outcome V}
    {r : V → Nat → Session → Outcome V} {e' : Nat → Session → List Event}
    {r' : V → Nat → Session → List Event}
    (he : ∀ least s, Tracks limit s (e' least s) (e least s))
    (hr : ∀ left least s, Tracks limit s (r' left least s) (r left least s))
    (m : Action V α) (s : Session) :
    Tracks limit s (m.record c e r e' r' s) (m.run c e r s) := by
  induction m generalizing s with
  | done result => exact Tracks.silent rfl
  | peek k ih => exact (ih _ _).of_depth (Session.depth_peek s)
  | take k ih => exact (ih _ _).of_depth (Session.depth_take s)
  | expression least k ih =>
    simp only [record, run]
    refine (he least s).append (fun hx => ?_) fun x hx => ?_
    · simp only [hx, and_self]
    · simp only [hx]
      exact ih _ _
  | resume left least k ih =>
    simp only [record, run]
    refine (hr left least s).append (fun hx => ?_) fun x hx => ?_
    · simp only [hx, and_self]
    · simp only [hx]
      exact ih _ _
  | progress k ih => exact ih _ s

namespace Grammar

variable {g : Grammar V} {c : Context} {n least : Nat} {left v : V} {s s' : Session}

/-- What is parsed within `n` steps goes with its records. -/
structure TracksAll (g : Grammar V) (c : Context) (n : Nat) : Prop where
  expression : ∀ least s,
    Tracks g.maxDepth s (g.expressionRecord c n least s) (g.expression c n least s)
  resume : ∀ left least s,
    Tracks g.maxDepth s (g.resumeRecord c n left least s) (g.resume c n left least s)

/-- The action of a token, and the operand that it makes continued. -/
theorem TracksAll.act_resume (h : g.TracksAll c n) (m : Action V V) (s₁ : Session)
    (hs : s₁.depth = s.depth) (least : Nat) :
    Tracks g.maxDepth s
      (.call s.depth ::
        m.record c (g.expression c n) (g.resume c n) (g.expressionRecord c n)
          (g.resumeRecord c n) s₁ ++
        (g.act c n m s₁).behind fun left s => g.resumeRecord c n left least s)
      (Outcome.andThen (g.act c n m s₁) fun left s => g.resume c n left least s) :=
  Tracks.call hs <| (m.tracks_record h.expression h.resume s₁).andThen fun left s' _ =>
    h.resume left least s'

theorem TracksAll.begin (h : g.TracksAll c n) (least : Nat) (s : Session) :
    Tracks g.maxDepth s
      (Outcome.behind (some (s.take c)) fun t s =>
        .call s.depth ::
          (g.nudAction c t).record c (g.expression c n) (g.resume c n) (g.expressionRecord c n)
            (g.resumeRecord c n) s.countNud ++
          (g.act c n (g.nudAction c t) s.countNud).behind fun left s =>
            g.resumeRecord c n left least s)
      (g.begin c n least s) := by
  rw [begin_eq]
  refine Tracks.andThen_some (Session.depth_take s) fun t s₁ _ => ?_
  exact h.act_resume (g.nudAction c t) s₁.countNud rfl least

theorem TracksAll.expression_succ (h : g.TracksAll c n) (least : Nat) (s : Session) :
    Tracks g.maxDepth s (g.expressionRecord c (n + 1) least s)
      (g.expression c (n + 1) least s) := by
  by_cases hd : s.depth < g.maxDepth
  · have hd' : ¬ g.maxDepth < s.enter.depth := by
      simp only [Session.enter]
      omega
    have hclose : g.expression c (n + 1) least s = (g.begin c n least s.enter).close :=
      expression_of_le hd
    rw [expressionRecord, if_neg hd', hclose, Outcome.ends_close]
    exact (h.begin least s.enter).enclose
  · have hd' : g.maxDepth < s.enter.depth := by
      simp only [Session.enter]
      omega
    -- what is refused has no value, so that it is its own close
    have hclose : g.expression c (n + 1) least s = (g.expression c (n + 1) least s).close := by
      rw [expression_of_ge (Nat.not_lt.mp hd)]
      rcases s.enter.peek c with ⟨e | t, s₁⟩ <;> rfl
    rw [expressionRecord, if_pos hd', hclose, Outcome.ends_close,
      expression_of_ge (Nat.not_lt.mp hd)]
    refine (Tracks.andThen_some (Session.depth_peek s.enter) fun t s₁ hs => ?_).enclose
    exact Tracks.refuse (hs ▸ hd')

theorem TracksAll.resume_succ (h : g.TracksAll c n) (left : V) (least : Nat) (s : Session) :
    Tracks g.maxDepth s (g.resumeRecord c (n + 1) left least s)
      (g.resume c (n + 1) left least s) := by
  rw [resumeRecord, Grammar.resume_succ]
  refine Tracks.andThen_some (Session.depth_peek s) fun t s₁ _ => ?_
  by_cases hp : c.power t.symbol ≤ least
  · rw [if_pos hp, if_pos hp]
    exact Tracks.silent rfl
  · rw [if_neg hp, if_neg hp]
    refine Tracks.andThen_some (Session.depth_take s₁) fun t' s₂ _ => ?_
    exact h.act_resume (g.ledAction c t' left) s₂.countLed rfl least

theorem tracksAll (g : Grammar V) (c : Context) (n : Nat) : g.TracksAll c n := by
  induction n with
  | zero => exact ⟨fun _ _ => Tracks.of_none, fun _ _ _ => Tracks.of_none⟩
  | succ n ih => exact ⟨ih.expression_succ, ih.resume_succ⟩

/-! ## Depth and nesting -/

theorem admitsAll_record (g : Grammar V) (input : String) :
    Nesting.origin.AdmitsAll g.maxDepth (g.record input) := by
  unfold record
  split
  · exact trivial
  · exact ((tracksAll g _ _).expression 0 _ _ rfl).1

/-- An expression that fails is one of the failures of its record. -/
theorem failures_pos {e : ParseError} (h : g.expression c n least s = some (.error e, s')) :
    0 < failures (g.expressionRecord c n least s) := by
  cases n with
  | zero => cases h
  | succ n =>
    rw [expressionRecord, h, failures, List.count_append]
    exact Nat.lt_add_left _ (List.count_pos_iff.mpr List.mem_cons_self)

/-- **The depth counts failures.** Whenever the denotation of a token is called, the depth of the
parse is the number of the expressions that are active and of those that have failed so far. An
expression is refused when the two together are more than the limit. Whatever an expression finds as
the depth, it leaves it higher by the number of the expressions that have failed in the meantime,
and one that fails is one of them. -/
theorem depth_counts_failures (g : Grammar V) (input : String) :
    (∀ front depth back, g.record input = front ++ .call depth :: back →
      depth = Nesting.activeAfter front + failures front) ∧
    (∀ front back, g.record input = front ++ .refuse :: back →
      g.maxDepth < Nesting.activeAfter front + failures front) ∧
    (∀ c n least s r s', g.expression c n least s = some (r, s') →
      s'.depth = s.depth + failures (g.expressionRecord c n least s) ∧
        ∀ e, r = .error e → s.depth < s'.depth) := by
  have hall := admitsAll_record g input
  refine ⟨fun front depth back hrecord => ?_, fun front back hrecord => ?_,
    fun c n least s r s' h => ?_⟩
  · exact (hall.admits hrecord).trans (Nesting.depth_afterAll front)
  · exact Nat.lt_of_lt_of_eq (hall.admits hrecord) (Nesting.depth_afterAll front)
  · obtain ⟨hactive, hdepth⟩ := ((tracksAll g c n).expression least s ⟨s.depth, 0⟩ rfl).2 _ h
    have hs' : s'.depth = s.depth + failures (g.expressionRecord c n least s) := by
      rw [← hdepth, Nesting.depth, hactive, Nesting.failed_afterAll, Nat.zero_add]
    refine ⟨hs', ?_⟩
    rintro e rfl
    have := failures_pos h
    omega

/-- The algebra with a sign that stands for its operand, or for the error in its place. Expressions
may be nested twice. -/
def tolerant : Grammar Value :=
  ((Registration.nud "?" (Stock.tolerant 0)).build.on Calculator.algebra).2.setMaxDepth 2

/-- The operand of the sign fails at the parenthesis, and the sign goes on. -/
theorem record_tolerant :
    tolerant.record "? ) + 1" =
      [.enter, .call 1, .enter, .call 2, .leave false, .call 2, .enter, .refuse, .leave false,
        .leave false] := by
  decide +kernel

/-- Where the plus sign is called, one expression is active and one has failed. -/
theorem depth_counts_failures_tolerant :
    ∃ front back, tolerant.record "? ) + 1" = front ++ .call 2 :: back ∧
      Nesting.activeAfter front = 1 ∧ failures front = 1 ∧
      2 = Nesting.activeAfter front + failures front := by
  obtain ⟨hcall, -, -⟩ := depth_counts_failures tolerant "? ) + 1"
  exact ⟨[.enter, .call 1, .enter, .call 2, .leave false], _, record_tolerant, by decide,
    by decide, hcall _ _ _ record_tolerant⟩

/-- From the failure on the depth is higher than the expressions are nested: where the plus sign is
called, and where the operand behind it, which is the second of two expressions, is refused. -/
theorem depth_exceeds_nesting :
    (∃ front back, tolerant.record "? ) + 1" = front ++ .call 2 :: back ∧
      Nesting.activeAfter front = 1) ∧
    (∃ front back, tolerant.record "? ) + 1" = front ++ .refuse :: back ∧
      Nesting.activeAfter front = tolerant.maxDepth) := by
  refine ⟨⟨[.enter, .call 1, .enter, .call 2, .leave false], _, record_tolerant, by decide⟩,
    ⟨[.enter, .call 1, .enter, .call 2, .leave false, .call 2, .enter], _, record_tolerant, ?_⟩⟩
  decide +kernel

end Grammar

end Precedence
