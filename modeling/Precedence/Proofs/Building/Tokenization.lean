import Precedence.Proofs.Building.Contents
import Precedence.Proofs.Building.Endings
import Precedence.Proofs.Parsing.Partitions

/-!
# Texts that are recognized

Whatever calls have built a grammar, its recognizer finds what the patterns of the table take from
a text, and never the symbol for the end. To recognize a text again and again cuts it into tokens
and blanks, up to its end or to where no pattern matches.

That a match takes some of the text is checked by the length that a regular expression promises, so
it takes for granted that one without such a length matches nothing.

* `first?_eq_none_iff_matchesNothing`: nothing is found where no pattern of the table matches.
* `id_ne_endId`: what has a pattern is not the symbol for the end.
* `built_partition`: every text is partitioned.
-/

namespace Precedence

open Precedence.Source Precedence.Pattern Precedence.Text

namespace Grammar

variable {V : Type} {g : Grammar V} {r : Recognizer} {symbol n : Nat} {before : Option Char}
variable {text : List Char} {s : Symbol V} {p : TokenPattern}

/-- No symbol has a pattern that matches at the beginning of a text. -/
def MatchesNothing (g : Grammar V) (before : Option Char) (text : List Char) : Prop :=
  ∀ s ∈ g.symbols, ∀ p, s.pattern? = some p → p.matchLength? before text = none

/-- **Nothing is found where no pattern of the table matches.** -/
theorem first?_eq_none_iff_matchesNothing (hr : Recognizer.ofEntries g.entries = .ok r) :
    r.first? before text = none ↔ g.MatchesNothing before text := by
  rw [Recognizer.first?_eq_none_iff hr]
  constructor
  · intro h s hs p hp
    obtain ⟨i, hi⟩ := List.getElem?_of_mem hs
    exact h i p (patternAt?_entries_iff.mpr ⟨s, hi, hp⟩)
  · intro h i p hp
    obtain ⟨s, hs, hpattern⟩ := patternAt?_entries_iff.mp hp
    exact h s (List.mem_of_getElem? hs) p hpattern

/-- The symbol for the end is the only one with its id, and has no pattern. -/
theorem id_ne_endId {inert : Prop} {given : String → Prop} (h : g.IsOrderly inert given)
    (hn : g.ids.Nodup) (hs : s ∈ g.symbols) (hp : s.pattern? = some p) : s.id ≠ endId := by
  intro hid
  obtain ⟨e, he, hend⟩ := h.first
  have hfind := find?_of_mem hn (List.mem_of_getElem? he)
  rw [hend.id, ← hid, find?_of_mem hn hs] at hfind
  cases hfind
  cases hend.pattern?.symm.trans hp

variable [Term V]

/-- **To recognize a text is to partition it.** Whatever calls have built a grammar, if it has a
recognizer and its regular expressions that promise no length match nothing, then every match takes
some of the text, by a pattern of the table that is not that of the end. To recognize a text again
and again comes to an end in one way only, that of its scan. The tokens are not empty, they lie
between boundaries of characters and one behind the other, with nothing but blanks between them, and
what they consume adds up to where they stop. If all that is left is blank the token for the end
comes last. Otherwise the text from the first other character on is to blame, where no pattern
matches. -/
theorem built_partition (calls : List (Call V)) {r : Recognizer}
    (hb : ∀ s ∈ (built calls).symbols, ∀ source, s.pattern? = some (.regex source) →
      Recognizer.BoundsLength source)
    (hr : (built calls).recognizer = .ok r) :
    (∀ before text symbol n, r.first? before text = some (symbol, n) →
      0 < n ∧ symbol ≠ 0 ∧ ∃ s p, (built calls).symbols[symbol]? = some s ∧ s.id ≠ endId ∧
        s.pattern? = some p ∧ p.matchLength? before text = some n) ∧
    ∀ input : String,
      (∀ tokens ending, r.Runs ⟨none, input.toList, 0⟩ tokens ending ↔
        r.scan input = ⟨tokens, ending⟩) ∧
      (∀ t ∈ (r.scan input).tokens, t.symbol ≠ 0) ∧
      ∃ covered rest,
        IsPartition (built calls).MatchesNothing input.toList (r.scan input).tokens
          (r.scan input).ending covered rest ∧
        ((∃ t, (r.scan input).ending = .endless t) ↔ ∀ x ∈ rest, isBlank x = true) := by
  have horderly : (built calls).IsOrderly False fun _ => True :=
    isOrderly_initial.after nofun fun _ _ _ _ => trivial
  have htold := IsTold.initial.after calls
  have hcurrent : (built calls).IsCurrent := isCurrent_initial.after calls
  rw [hcurrent.recognizer_eq] at hr
  have hprogressive := horderly.isProgressive_of_boundsLength hb hr
  refine ⟨fun before text symbol n hf => ?_, fun input =>
    ⟨fun tokens ending => Recognizer.runs_iff_scan hprogressive input,
      fun t ht => Recognizer.symbol_ne_of_mem_scan hprogressive ht, ?_⟩⟩
  · obtain ⟨rule, hmem, -⟩ := Recognizer.exists_rule_of_first? hf
    obtain ⟨p, hp, hm⟩ := Recognizer.exists_pattern_of_first? hr hf
    obtain ⟨s, hs, hpattern⟩ := patternAt?_entries_iff.mp hp
    exact ⟨hprogressive.pos _ _ _ _ hf, hprogressive.ne_end _ hmem, s, p, hs,
      id_ne_endId horderly htold.nodup (List.mem_of_getElem? hs) hpattern, hpattern, hm⟩
  · have hfails : (fun before text => r.first? before text = none) =
        (built calls).MatchesNothing := by
      funext before text
      exact propext (first?_eq_none_iff_matchesNothing hr)
    obtain ⟨covered, rest, hpartition⟩ := Recognizer.exists_isPartition_scan hprogressive input
    rw [hfails] at hpartition
    exact ⟨covered, rest, hpartition, hpartition.stops.isEndless_iff⟩

/-- The recognizer for digits, sums and factorials. -/
def digitRecognizer : Recognizer :=
  (built digitCalls).recognizer.toOption.getD ⟨[]⟩

theorem built_partition_digitCalls :
    (∀ s ∈ (built digitCalls).symbols, ∀ source, s.pattern? = some (.regex source) →
      Recognizer.BoundsLength source) ∧
    (built digitCalls).recognizer = .ok digitRecognizer ∧
    ∃ covered rest, IsPartition (built digitCalls).MatchesNothing "1\u3000+ é".toList
      [⟨1, "1", ⟨0, 1⟩, 1⟩, ⟨2, "+", ⟨4, 5⟩, 4⟩] (.unrecognized ⟨6, 8⟩) covered rest := by
  have hpatterns : (built digitCalls).symbols.map (·.pattern?) =
      [none, some (.regex "[0-9]"), some (.literal "+"), some (.literal "!")] := by
    decide +kernel
  have hb : ∀ s ∈ (built digitCalls).symbols, ∀ source, s.pattern? = some (.regex source) →
      Recognizer.BoundsLength source := by
    intro s hs source hp
    have hmem := List.mem_map_of_mem (f := (·.pattern?)) hs
    rw [hpatterns, hp] at hmem
    obtain rfl : source = "[0-9]" := by simpa using hmem
    have hmin : (Regex.ofText? "[0-9]").bind (·.minLength) = some 1 := by decide +kernel
    exact (Recognizer.hasLength_of_minLength hmin).boundsLength
  have hr : (built digitCalls).recognizer = .ok digitRecognizer :=
    recognizer_eq_ok_of_toOption (by decide +kernel)
  have hscan : digitRecognizer.scan "1\u3000+ é" =
      ⟨[⟨1, "1", ⟨0, 1⟩, 1⟩, ⟨2, "+", ⟨4, 5⟩, 4⟩], .unrecognized ⟨6, 8⟩⟩ := by
    decide +kernel
  obtain ⟨-, -, covered, rest, hpartition, -⟩ := (built_partition digitCalls hb hr).2 "1\u3000+ é"
  rw [hscan] at hpartition
  exact ⟨hb, hr, covered, rest, hpartition⟩

end Grammar

end Precedence
