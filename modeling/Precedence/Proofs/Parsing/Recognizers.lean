import Precedence.Grammar.Recognizer
import Precedence.Proofs.Except
import Precedence.Proofs.Pattern.Matching

/-!
# The patterns of a recognizer

A recognizer tries the patterns of its table and no others, each of them for the symbol that it is
the pattern of. None of them takes the empty text, if the lengths that regular expressions promise
can be relied on: one that promises none has to be one that matches nothing.

* `mem_rules_iff`: the patterns of a recognizer are those of its table.
* `first?_eq_none_iff`, `exists_pattern_of_first?`: what is found is what the pattern of a symbol
  takes, and nothing is found where no pattern matches.
* `pos_of_matchLength?`: a pattern that passes the check takes a character.
-/

namespace Precedence

open Precedence.Source Precedence.Pattern

namespace TokenPattern

/-- What is tried for a pattern, if that is a regular expression or a text. -/
def rule? : TokenPattern → Option Rule
  | literal text => some (.text text.toList)
  | regex source => (Regex.ofText? source).map .regex

/-- The number of characters that a pattern takes from the beginning of a text. -/
def matchLength? (p : TokenPattern) (before : Option Char) (text : List Char) : Option Nat :=
  p.rule?.bind (·.matchLength? before text)

end TokenPattern

namespace Recognizer

variable {es : List Entry} {r : Recognizer} {symbol index i n : Nat} {chars text : List Char}
variable {before : Option Char} {id source : String} {regex : Regex} {e : Entry}

/-! ## Lengths -/

/-- The regular expression of a token class promises the length of its matches. -/
def HasLength (source : String) : Prop :=
  ∀ r, Regex.ofText? source = some r → r.minLength ≠ none

/-- A regular expression promises no length only if it matches nothing at all. -/
def BoundsLength (source : String) : Prop :=
  ∀ r, Regex.ofText? source = some r → r.minLength = none →
    ∀ before text, r.matchLength? before text = none

theorem hasLength_of_minLength {m : Nat}
    (h : (Regex.ofText? source).bind (·.minLength) = some m) : HasLength source := by
  intro r hr hnone
  rw [hr, Option.bind_some, hnone] at h
  cases h

theorem HasLength.boundsLength (h : HasLength source) : BoundsLength source :=
  fun r hr hnone => absurd hnone (h r hr)

/-- A repetition of nothing at all breaks this rule: it promises no length, so that it passes the
check, and matches the empty text. -/
example : ((checkRegex "(x)" "[a&&b]*").toOption.map (·.matchLength? none ['c'])) =
    some (some 0) := by
  decide +kernel

theorem checkRegex_eq_ok_iff :
    checkRegex id source = .ok regex ↔
      Regex.ofText? source = some regex ∧ regex.minLength ≠ some 0 := by
  unfold checkRegex
  cases Regex.ofText? source with
  | none => simp
  | some r =>
    simp only [Option.some.injEq]
    split
    · rename_i hzero
      simp only [reduceCtorEq, false_iff, not_and]
      rintro rfl
      exact fun hne => hne hzero
    · rename_i hne
      simp only [Except.ok.injEq]
      constructor
      · rintro rfl
        exact ⟨rfl, hne⟩
      · exact And.left

/-! ## Tables -/

/-- The pattern of the symbol with an index. -/
def patternAt? (es : List Entry) (i : Nat) : Option TokenPattern :=
  es[i]?.bind (·.pattern?)

theorem patternAt?_zero : patternAt? (e :: es) 0 = e.pattern? := rfl

theorem patternAt?_succ : patternAt? (e :: es) (i + 1) = patternAt? es i := rfl

theorem mem_insertLiteral {x : Nat × List Char} {l : List (Nat × List Char)} :
    x ∈ insertLiteral symbol chars l ↔ x = (symbol, chars) ∨ x ∈ l := by
  induction l with
  | nil => exact List.mem_cons
  | cons y l ih =>
    rw [insertLiteral]
    split
    · rw [List.mem_cons, List.mem_cons, ih, or_left_comm]
    · exact List.mem_cons

/-- The literal texts are those of the symbols with their indices. -/
theorem mem_literals {sofar : List (Nat × List Char)} :
    (symbol, chars) ∈ literals index sofar es ↔
      (symbol, chars) ∈ sofar ∨ ∃ i, symbol = index + i ∧
        ∃ text, patternAt? es i = some (.literal text) ∧ chars = text.toList := by
  induction es generalizing index sofar with
  | nil => simp [literals, patternAt?]
  | cons e es ih =>
    rw [← Nat.or_exists_add_one, literals]
    simp only [patternAt?_zero, patternAt?_succ, Nat.add_zero, ← Nat.add_assoc,
      Nat.add_right_comm index _ 1]
    split
    · rename_i text hp
      rw [ih, mem_insertLiteral, hp]
      grind
    · rw [ih]
      grind

/-- The token classes are those of the symbols with their indices. -/
theorem mem_classes {regexes : List (Nat × Regex)} (hc : classes index es = .ok regexes) :
    (symbol, regex) ∈ regexes ↔ ∃ i, symbol = index + i ∧
      ∃ source, patternAt? es i = some (.regex source) ∧ Regex.ofText? source = some regex := by
  induction es generalizing index regexes with
  | nil =>
    cases hc
    simp [patternAt?]
  | cons e es ih =>
    rw [← Nat.or_exists_add_one]
    simp only [patternAt?_zero, patternAt?_succ, Nat.add_zero, ← Nat.add_assoc,
      Nat.add_right_comm index _ 1]
    rw [classes] at hc
    split at hc
    · rename_i source hp
      obtain ⟨first, hfirst, hc⟩ := bind_eq_ok hc
      obtain ⟨others, ho, hc⟩ := bind_eq_ok hc
      cases hc
      have hregex := (checkRegex_eq_ok_iff.mp hfirst).1
      rw [List.mem_cons, ih ho, hp]
      grind
    · rw [ih hc]
      grind

/-- Every token class of a table that has a recognizer passes the check. -/
theorem exists_regex_of_classes {regexes : List (Nat × Regex)}
    (hc : classes index es = .ok regexes) (hp : patternAt? es i = some (.regex source)) :
    ∃ regex, Regex.ofText? source = some regex ∧ regex.minLength ≠ some 0 := by
  induction es generalizing index regexes i with
  | nil => simp [patternAt?] at hp
  | cons e es ih =>
    rw [classes] at hc
    cases i with
    | zero =>
      have hfirst : e.pattern? = some (.regex source) := hp
      rw [hfirst] at hc
      obtain ⟨regex, hregex, -⟩ := bind_eq_ok hc
      exact ⟨regex, checkRegex_eq_ok_iff.mp hregex⟩
    | succ i =>
      split at hc
      · obtain ⟨_, -, hc⟩ := bind_eq_ok hc
        obtain ⟨others, ho, -⟩ := bind_eq_ok hc
        exact ih ho hp
      · exact ih hc hp

variable {rule : Rule} {p : TokenPattern}

/-- **The patterns of a recognizer are those of its table.** -/
theorem mem_rules_iff (h : ofEntries es = .ok r) :
    (symbol, rule) ∈ r.rules ↔ ∃ p, patternAt? es symbol = some p ∧ p.rule? = some rule := by
  obtain ⟨regexes, hc, h⟩ := bind_eq_ok h
  simp only at h
  split at h
  · cases h
  cases h
  constructor
  · intro hrule
    rcases List.mem_append.mp hrule with hrule | hrule
    · obtain ⟨⟨i, chars⟩, hx, hrule⟩ := List.mem_map.mp hrule
      cases hrule
      rcases mem_literals.mp hx with hx | ⟨i, rfl, text, hp, rfl⟩
      · exact absurd hx List.not_mem_nil
      · rw [Nat.zero_add]
        exact ⟨_, hp, rfl⟩
    · obtain ⟨⟨i, regex⟩, hx, hrule⟩ := List.mem_map.mp hrule
      cases hrule
      obtain ⟨i, rfl, source, hp, hregex⟩ := (mem_classes hc).mp hx
      rw [Nat.zero_add]
      exact ⟨_, hp, by rw [TokenPattern.rule?, hregex]; rfl⟩
  · rintro ⟨text | source, hp, hrule⟩
    · cases hrule
      refine List.mem_append_left _ (List.mem_map.mpr ⟨(symbol, text.toList), ?_, rfl⟩)
      exact mem_literals.mpr (.inr ⟨symbol, (Nat.zero_add _).symm, text, hp, rfl⟩)
    · obtain ⟨regex, hregex, rfl⟩ := Option.map_eq_some_iff.mp hrule
      refine List.mem_append_right _ (List.mem_map.mpr ⟨(symbol, regex), ?_, rfl⟩)
      exact (mem_classes hc).mpr ⟨symbol, (Nat.zero_add _).symm, source, hp, hregex⟩

/-! ## Matches -/

/-- What is found first is what one of the rules takes. -/
theorem exists_rule_of_first? (h : r.first? before text = some (symbol, n)) :
    ∃ rule, (symbol, rule) ∈ r.rules ∧ rule.matchLength? before text = some n := by
  obtain ⟨rule, hmem, hrule⟩ := List.exists_of_findSome?_eq_some h
  obtain ⟨m, hm, hsymbol⟩ := Option.map_eq_some_iff.mp hrule
  cases hsymbol
  exact ⟨rule.2, hmem, hm⟩

/-- What is found is what the pattern of the symbol takes. -/
theorem exists_pattern_of_first? (h : ofEntries es = .ok r)
    (hf : r.first? before text = some (symbol, n)) :
    ∃ p, patternAt? es symbol = some p ∧ p.matchLength? before text = some n := by
  obtain ⟨rule, hmem, hrule⟩ := exists_rule_of_first? hf
  obtain ⟨p, hp, hpattern⟩ := (mem_rules_iff h).mp hmem
  exact ⟨p, hp, by rw [TokenPattern.matchLength?, hpattern, Option.bind_some, hrule]⟩

/-- **Nothing is found where no pattern of the table matches.** -/
theorem first?_eq_none_iff (h : ofEntries es = .ok r) :
    r.first? before text = none ↔
      ∀ i p, patternAt? es i = some p → p.matchLength? before text = none := by
  rw [first?, List.findSome?_eq_none_iff]
  constructor
  · intro hnone i p hp
    cases hrule : p.rule? with
    | none => rw [TokenPattern.matchLength?, hrule, Option.bind_none]
    | some rule =>
      rw [TokenPattern.matchLength?, hrule, Option.bind_some]
      exact Option.map_eq_none_iff.mp (hnone (i, rule) ((mem_rules_iff h).mpr ⟨p, hp, hrule⟩))
  · rintro hnone ⟨i, rule⟩ hmem
    obtain ⟨p, hp, hrule⟩ := (mem_rules_iff h).mp hmem
    have hp := hnone i p hp
    rw [TokenPattern.matchLength?, hrule, Option.bind_some] at hp
    rw [hp, Option.map_none]

/-- **Every pattern takes a character,** if those that promise no length match nothing. -/
theorem pos_of_matchLength? (h : ofEntries es = .ok r) (hp : patternAt? es i = some p)
    (hne : p ≠ .literal "") (hb : ∀ source, p = .regex source → BoundsLength source)
    (hm : p.matchLength? before text = some n) : 0 < n := by
  obtain ⟨regexes, hc, -⟩ := bind_eq_ok h
  obtain ⟨rule, hrule, hm⟩ := Option.bind_eq_some_iff.mp hm
  cases p with
  | literal own =>
    cases hrule
    rw [Rule.matchLength?] at hm
    split at hm
    · cases hm
      refine List.length_pos_iff.mpr fun hnil => hne ?_
      rw [String.toList_eq_nil_iff.mp hnil]
    · cases hm
  | regex source =>
    obtain ⟨regex, hregex, rfl⟩ := Option.map_eq_some_iff.mp hrule
    obtain ⟨regex', hregex', hzero⟩ := exists_regex_of_classes hc hp
    cases hregex.symm.trans hregex'
    rw [Rule.matchLength?] at hm
    cases hmin : regex.minLength with
    | none =>
      rw [hb source rfl regex hregex hmin] at hm
      cases hm
    | some m =>
      refine Regex.lt_of_matchLength? hmin (Nat.pos_of_ne_zero ?_) hm
      rintro rfl
      exact hzero hmin

end Recognizer

end Precedence
