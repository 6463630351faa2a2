import Precedence.Proofs.Building.Tables
import Precedence.Proofs.Parsing.Scans
import Precedence.Proofs.Parsing.Tokens
import Precedence.Value.Basic

/-!
# The end of the text

What the table of a grammar means for its parses. If the patterns of token classes promise a length,
every match of its recognizer takes a character, so that only the end of the text is found any
number of times. If the symbol for the end binds no operand, either, every parse ends.

* `IsOrderly.isProgressive_of_boundsLength`, `IsOrderly.isProgressive`: the recognizer for a table
  takes a character with every match.
* `resume_of_isEnd`: an expression is not continued behind the end of the text.
* `parse_ends`: every parse ends, unless a registration names the end and gives it a binding power,
  or a token class has a pattern that promises no length.
* `parse_endless`: a grammar that has an operator for the end of the text, and a parse without end.
-/

namespace Precedence

open Precedence.Source Precedence.Pattern

namespace Grammar

variable {V : Type} {inert : Prop} {given : String → Prop} {g : Grammar V} {c : Context}
variable {n least : Nat} {left : V} {s s' : Session} {t : Token}

/-! ## Recognizers -/

theorem patternAt?_entries_iff {i : Nat} {p : TokenPattern} :
    Recognizer.patternAt? g.entries i = some p ↔
      ∃ s, g.symbols[i]? = some s ∧ s.pattern? = some p := by
  unfold Recognizer.patternAt? entries
  rw [List.getElem?_map, Option.bind_eq_some_iff]
  constructor
  · rintro ⟨e, he, hp⟩
    obtain ⟨s, hs, rfl⟩ := Option.map_eq_some_iff.mp he
    exact ⟨s, hs, hp⟩
  · rintro ⟨s, hs, hp⟩
    exact ⟨s.toEntry, by rw [hs, Option.map_some], hp⟩

/-- **Every match takes a character,** if the regular expressions of the table that promise no
length match nothing. -/
theorem IsOrderly.isProgressive_of_boundsLength (h : g.IsOrderly inert given)
    (hb : ∀ s ∈ g.symbols, ∀ source, s.pattern? = some (.regex source) →
      Recognizer.BoundsLength source) {r : Recognizer}
    (hr : Recognizer.ofEntries g.entries = .ok r) : r.IsProgressive := by
  constructor
  · rintro ⟨symbol, rule⟩ hrule rfl
    obtain ⟨p, hp, -⟩ := (Recognizer.mem_rules_iff hr).mp hrule
    obtain ⟨s, hs, hp⟩ := patternAt?_entries_iff.mp hp
    obtain ⟨e, he, hend⟩ := h.first
    cases he.symm.trans hs
    cases hend.pattern?.symm.trans hp
  · intro before text symbol n hf
    obtain ⟨p, hp, hm⟩ := Recognizer.exists_pattern_of_first? hr hf
    obtain ⟨s, hs, hpattern⟩ := patternAt?_entries_iff.mp hp
    have hmem := List.mem_of_getElem? hs
    refine Recognizer.pos_of_matchLength? hr hp ?_ ?_ hm
    · rintro rfl
      obtain ⟨hid, hne⟩ | ⟨source, hsource, -⟩ := h.patterns s hmem _ hpattern
      · exact hne (TokenPattern.literal.inj hid).symm
      · cases hsource
    · rintro source rfl
      exact hb s hmem source hpattern

/-- **Every match takes a character,** if the patterns of all token classes promise a length. -/
theorem IsOrderly.isProgressive (h : g.IsOrderly inert Recognizer.HasLength) {r : Recognizer}
    (hr : Recognizer.ofEntries g.entries = .ok r) : r.IsProgressive := by
  refine h.isProgressive_of_boundsLength (fun s hs source hp => ?_) hr
  obtain ⟨hid, -⟩ | ⟨source', hsource, hl⟩ := h.patterns s hs _ hp
  · cases hid
  · cases hsource
    exact hl.boundsLength

/-! ## Parses -/

/-- **An expression is not continued behind the end of the text,** if that binds no operand. -/
theorem resume_of_isEnd (hpower : c.power 0 = 0) (hp : s.peek c = (.ok t, s'))
    (ht : t.isEnd = true) : g.resume c (n + 1) left least s = some (.ok left, s') := by
  have hsymbol : t.symbol = 0 := by simpa [Token.isEnd] using ht
  rw [resume, hp]
  simp only [hsymbol, hpower, Nat.zero_le, if_true]

/-- **A parse ends** if its recognizer takes a character with every match and the end binds no
operand. -/
theorem parseWith_ne_none {r : Recognizer} {input : String} (hr : r.IsProgressive)
    (hpower : (g.context input).power 0 = 0) : g.parseWith r input ≠ none := by
  have hinert : EndIsInert (g.context input)
      (Session.start (r.scan input) (byteLength (g.context input).input.toList)) := by
    intro symbol hsymbol
    rw [Recognizer.symbol_eq_of_scan hr hsymbol, hpower]
  have hexpression := expression_ne_none 0 hinert (g.remaining_start_lt _ _)
  rw [parseWith, parseScan]
  split
  · rename_i hnone
    exact absurd hnone hexpression
  · simp
  · split
    · simp
    · split <;> simp

/-- **An operator for the end is applied for ever.** The end is found again however often it is
taken, so that no bound on the steps is enough. -/
theorem resume_eq_none {symbol : Nat} (hpower : least < c.power symbol)
    (hled : ∀ t left, t.symbol = symbol → ∃ v, g.ledAction c t left = pure v) (n : Nat) :
    ∀ left s t, s.upcoming = [] → s.ending = .endless t → t.symbol = symbol →
      g.resume c n left least s = none := by
  induction n with
  | zero => exact fun _ _ _ _ _ _ => rfl
  | succ n ih =>
    intro left s t hu he ht
    obtain ⟨s₁, hp, h₁⟩ := Session.peek_of_end (c := c) hu he
    have hu₁ := h₁.upcoming.trans hu
    have he₁ := h₁.ending.trans he
    obtain ⟨s₂, hp₂, h₂⟩ := Session.peek_of_end (c := c) hu₁ he₁
    have hu₂ := h₂.upcoming.trans hu₁
    have he₂ := h₂.ending.trans he₁
    have htake : s₁.take c = (.ok t, s₂.drop t) := by rw [Session.take, hp₂]
    obtain ⟨v, hv⟩ := hled t left ht
    have hlt : ¬ c.power t.symbol ≤ least := by
      rw [ht]
      omega
    rw [resume, hp]
    simp only [hlt, if_false, htake, hv]
    refine ih v (s₂.drop t).countLed { t with consumed := 0 } ?_ ?_ ht
    · rw [show (s₂.drop t).countLed.upcoming = s₂.upcoming.tail from rfl, hu₂]
      rfl
    · simp only [Session.countLed, Session.drop, hu₂, he₂]

/-- An expression that is one operand, and then the operator for the end. -/
theorem expression_eq_none {e : Token} {v : V} (hd : s.depth < g.maxDepth)
    (hu : s.upcoming = [t]) (he : s.ending = .endless e) (hnud : g.nudAction c t = pure v)
    (hpower : least < c.power e.symbol)
    (hled : ∀ t left, t.symbol = e.symbol → ∃ v, g.ledAction c t left = pure v) (n : Nat) :
    g.expression c n least s = none := by
  cases n with
  | zero => rfl
  | succ n =>
    have hu' : s.enter.upcoming = t :: [] := hu
    obtain ⟨s₁, ht, h₁⟩ := Session.take_of_cons (c := c) hu'
    have hu₁ : s₁.countNud.upcoming = [] := by
      rw [show s₁.countNud.upcoming = s₁.upcoming from rfl, h₁.upcoming, Session.pass, hu']
      rfl
    have he₁ : s₁.countNud.ending = .endless e := h₁.ending.trans he
    have hbegin : g.begin c n least s.enter = none := by
      rw [begin, ht]
      simp only [hnud, act_pure, Outcome.andThen_ok]
      exact resume_eq_none hpower hled n v _ e hu₁ he₁ rfl
    rw [expression_of_le hd, hbegin]
    rfl

/-! ## Calls -/

/-- No registration gives a binding power to the end of the text. -/
def LeavesEnd (calls : List (Call V)) : Prop :=
  ∀ r, .register r ∈ calls → r.target = endId → r.power = 0

/-- The patterns of all token classes promise the length of their matches. -/
def PromisesLengths (calls : List (Call V)) : Prop :=
  ∀ r, .register r ∈ calls → ∀ source, r.source? = some source → Recognizer.HasLength source

variable [Term V]

/-- **The end of the text stays inert, and every parse ends.** Whatever calls have built a grammar,
the symbol for the end comes first and has no pattern. Unless a registration named it and gave it a
binding power, no expression is continued behind it. If the patterns of all token classes promise a
length as well, every parse ends. -/
theorem parse_ends (calls : List (Call V)) :
    (∃ s, (built calls).symbols[0]? = some s ∧ s.id = endId ∧ s.pattern? = none) ∧
    (LeavesEnd calls →
      (∀ input, ((built calls).context input).power 0 = 0) ∧
      (∀ input n least left s t s',
        s.peek ((built calls).context input) = (.ok t, s') → t.isEnd = true →
        (built calls).resume ((built calls).context input) (n + 1) left least s =
          some (.ok left, s')) ∧
      (PromisesLengths calls → ∀ input, (built calls).parse input ≠ none)) := by
  have horderly : (built calls).IsOrderly (LeavesEnd calls) fun _ => True :=
    isOrderly_initial.after (fun hinert => hinert) fun _ _ _ _ => trivial
  obtain ⟨s, hs, hend⟩ := horderly.first
  refine ⟨⟨s, hs, hend.id, hend.pattern?⟩, fun hinert => ?_⟩
  have hpower : ∀ input, ((built calls).context input).power 0 = 0 := fun input => by
    rw [power_context hs, hend.power hinert]
  refine ⟨hpower, fun input n least left s t s' hp ht => resume_of_isEnd (hpower input) hp ht,
    fun hlengths input => ?_⟩
  have horderly' : (built calls).IsOrderly (LeavesEnd calls) Recognizer.HasLength :=
    isOrderly_initial.after (fun hinert => hinert) hlengths
  have hcurrent : (built calls).IsCurrent := isCurrent_initial.after calls
  rw [parse, hcurrent.recognizer_eq]
  cases hr : Recognizer.ofEntries (built calls).entries with
  | error e => simp
  | ok r => exact parseWith_ne_none (horderly'.isProgressive hr) (hpower input)

/-- Digits with a sum and a factorial, and an operator before the end of the text. -/
def digitCalls : List (Call Value) :=
  [.register (.literal "digit" "[0-9]" fun text => .ok (.var text)), .register (.leftward "+" 50),
    .compile, .register (.after "!" 60), .register (.before endId 7)]

theorem parse_ends_digitCalls :
    LeavesEnd digitCalls ∧ PromisesLengths digitCalls ∧
      (∃ s', (built digitCalls).resume ((built digitCalls).context "") 1 (.var "1") 0
        (Session.start ⟨[], .endless ⟨0, "", ⟨0, 0⟩, 0⟩⟩ 0) = some (.ok (.var "1"), s')) ∧
      (built digitCalls).parse "1+2!" ≠ none := by
  have hleaves : LeavesEnd digitCalls := by
    intro r hr hend
    simp only [digitCalls, List.mem_cons, Call.register.injEq, List.not_mem_nil, or_false,
      reduceCtorEq, false_or] at hr
    rcases hr with rfl | rfl | rfl | rfl
    · rfl
    · exact absurd hend (by decide)
    · exact absurd hend (by decide)
    · rfl
  have hlengths : PromisesLengths digitCalls := by
    intro r hr source hsource
    simp only [digitCalls, List.mem_cons, Call.register.injEq, List.not_mem_nil, or_false,
      reduceCtorEq, false_or] at hr
    rcases hr with rfl | rfl | rfl | rfl
    · cases hsource
      have hmin : (Regex.ofText? "[0-9]").bind (·.minLength) = some 1 := by decide +kernel
      intro regex hregex
      rw [hregex, Option.bind_some] at hmin
      simp [hmin]
    · cases hsource
    · cases hsource
    · cases hsource
  obtain ⟨-, hresume, hparse⟩ := (parse_ends digitCalls).2 hleaves
  exact ⟨hleaves, hlengths, ⟨_, hresume "" 0 0 (.var "1") _ _ _ rfl rfl⟩, hparse hlengths "1+2!"⟩

/-- An operand, and an operator that is behind its operand at the end of the text. -/
def endlessCalls : List (Call Value) :=
  [.register (.nud "x" fun _ _ => pure (.integer 1)), .register (.after endId 1)]

/-- The recognizer for the operand. -/
def endlessRecognizer : Recognizer :=
  ⟨[(1, .text ['x'])]⟩

/-- Registrations succeed that give a binding power to the end of the text, and then a parse has no
end: no bound on its steps is enough. -/
theorem parse_endless :
    initial.answers endlessCalls = [.registered (.ok 1), .registered (.ok 0)] ∧
      (built endlessCalls).recognizer = .ok endlessRecognizer ∧
      ((built endlessCalls).context "x").power 0 = 1 ∧
      (∀ steps, (built endlessCalls).parseScan ((built endlessCalls).context "x") steps
        (endlessRecognizer.scan "x") = none) ∧
      (built endlessCalls).parse "x" = none := by
  have hr : (built endlessCalls).recognizer = .ok endlessRecognizer :=
    recognizer_eq_ok_of_toOption (by decide +kernel)
  have hpower : ((built endlessCalls).context "x").power 0 = 1 := by decide +kernel
  have hscan : endlessRecognizer.scan "x" =
      ⟨[⟨1, "x", ⟨0, 1⟩, 1⟩], .endless ⟨0, "", ⟨1, 1⟩, 0⟩⟩ := by
    decide +kernel
  have hsteps : ∀ steps, (built endlessCalls).parseScan ((built endlessCalls).context "x") steps
      (endlessRecognizer.scan "x") = none := by
    intro steps
    rw [hscan, parseScan, expression_eq_none (t := ⟨1, "x", ⟨0, 1⟩, 1⟩)
      (e := ⟨0, "", ⟨1, 1⟩, 0⟩) (v := .integer 1) (Nat.succ_pos _) rfl rfl rfl]
    · rw [hpower]
      exact Nat.one_pos
    · exact fun t left ht => ⟨_, by rw [ledAction, ht]; rfl⟩
  refine ⟨rfl, hr, hpower, hsteps, ?_⟩
  rw [parse, hr]
  simp only [parseWith, hsteps]

end Grammar

end Precedence
