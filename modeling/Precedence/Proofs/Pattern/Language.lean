import Precedence.Proofs.Pattern.Matching

/-!
# The texts that patterns match

Which texts a pattern matches from end to end, whatever it prefers. Conditions on places take no
character and are left open, so for patterns that have such conditions these are all texts that they
could match.

* `matches_of_mem_paths`: what a path of a pattern takes is a text of the pattern.
* `matches_of_matchLength?`: the preferred match of a text is a text of the pattern.
-/

namespace Precedence.Pattern

open Precedence.Text

variable {s : CharSet} {c : Char} {u v w : List Char} {p : Place}
variable {greedy : Bool} {more : Option Nat} {least taken n : Nat} {best : Option Nat}

/-- The pattern matches the whole text. -/
inductive Regex.Matches : Regex → List Char → Prop
  | empty : Matches .empty []
  | char {s : CharSet} {c : Char} (h : s.contains c = true) : Matches (.chars s) [c]
  | edge (e : Edge) : Matches (.edge e) []
  | seq {a b : Regex} {u v : List Char} (ha : Matches a u) (hb : Matches b v) :
      Matches (.seq a b) (u ++ v)
  | first {a : Regex} {w : List Char} (b : Regex) (ha : Matches a w) : Matches (.alt a b) w
  | second (a : Regex) {b : Regex} {w : List Char} (hb : Matches b w) : Matches (.alt a b) w
  | stop (r : Regex) (more : Option Nat) (greedy : Bool) : Matches (.rep r 0 more greedy) []
  | round {r : Regex} {least : Nat} {more : Option Nat} {greedy : Bool} {u v : List Char}
      (hr : Matches r u) (h : Matches (.rep r least more greedy) v) :
      Matches (.rep r (least + 1) more greedy) (u ++ v)
  | upTo {r : Regex} {more : Nat} {greedy : Bool} {u v : List Char}
      (hr : Matches r u) (h : Matches (.rep r 0 (some more) greedy) v) :
      Matches (.rep r 0 (some (more + 1)) greedy) (u ++ v)
  | anyTimes {r : Regex} {greedy : Bool} {u v : List Char}
      (hr : Matches r u) (h : Matches (.rep r 0 none greedy) v) :
      Matches (.rep r 0 none greedy) (u ++ v)

/-! ## Paths -/

/-- The path takes the whole text and stops. -/
def Path.Takes : Path → List Char → Prop
  | stop, w => w = []
  | take s rest, w => ∃ c v, w = c :: v ∧ s.contains c = true ∧ rest.Matches v

/-- A path that is followed by a second pattern takes a text of its own and one of the pattern. -/
theorem Path.takes_of_mem_andThen {path q : Path} {second : Regex} {after : List Path}
    (hafter : ∀ q ∈ after, ∀ w, q.Takes w → second.Matches w) (hq : q ∈ path.andThen second after)
    (hw : q.Takes w) : ∃ u v, w = u ++ v ∧ path.Takes u ∧ second.Matches v := by
  cases path with
  | stop => exact ⟨[], w, rfl, rfl, hafter q hq w hw⟩
  | take s rest =>
    cases rest with
    | empty =>
      obtain rfl := List.mem_singleton.mp hq
      obtain ⟨c, v, rfl, hc, hv⟩ := hw
      exact ⟨[c], v, rfl, ⟨c, [], rfl, hc, .empty⟩, hv⟩
    | chars _ | edge _ | seq _ _ | alt _ _ | rep _ _ _ _ =>
      obtain rfl := List.mem_singleton.mp hq
      obtain ⟨c, v, rfl, hc, hv⟩ := hw
      cases hv with
      | @seq _ _ x y hx hy => exact ⟨c :: x, y, rfl, ⟨c, x, rfl, hc, hx⟩, hy⟩

namespace Regex

variable {r second : Regex} {rs : List Regex} {round : List Path} {before : Option Char}

theorem takes_of_mem_flatMap {after : List Path}
    (hround : ∀ q ∈ round, ∀ w, q.Takes w → r.Matches w)
    (hafter : ∀ q ∈ after, ∀ w, q.Takes w → second.Matches w) {q : Path}
    (hq : q ∈ round.flatMap (Path.andThen second after)) (hw : q.Takes w) :
    ∃ u v, w = u ++ v ∧ r.Matches u ∧ second.Matches v := by
  obtain ⟨path, hpath, hq⟩ := List.mem_flatMap.mp hq
  obtain ⟨u, v, rfl, hu, hv⟩ := Path.takes_of_mem_andThen hafter hq hw
  exact ⟨u, v, rfl, hround path hpath u hu, hv⟩

theorem matches_of_mem_upTo (hround : ∀ q ∈ round, ∀ w, q.Takes w → r.Matches w) (more : Nat) :
    ∀ q ∈ upTo r round greedy more, ∀ w, q.Takes w → (rep r 0 (some more) greedy).Matches w := by
  induction more with
  | zero =>
    intro q hq w hw
    obtain rfl := List.mem_singleton.mp hq
    obtain rfl : w = [] := hw
    exact .stop r _ greedy
  | succ more ih =>
    intro q hq w hw
    rcases mem_upTo_succ.mp hq with hq | rfl
    · obtain ⟨u, v, rfl, hu, hv⟩ := takes_of_mem_flatMap hround ih hq hw
      exact .upTo hu hv
    · obtain rfl : w = [] := hw
      exact .stop r _ greedy

theorem matches_of_mem_anyTimes (hround : ∀ q ∈ round, ∀ w, q.Takes w → r.Matches w) :
    ∀ q ∈ anyTimes r round greedy, ∀ w, q.Takes w → (rep r 0 none greedy).Matches w := by
  intro q hq w hw
  have hstop : ∀ q ∈ [Path.stop], ∀ w, q.Takes w → (rep r 0 none greedy).Matches w := by
    intro q hq w hw
    obtain rfl := List.mem_singleton.mp hq
    obtain rfl : w = [] := hw
    exact .stop r _ greedy
  rcases mem_anyTimes.mp hq with hq | rfl
  · obtain ⟨u, v, rfl, hu, hv⟩ := takes_of_mem_flatMap hround hstop hq hw
    exact .anyTimes hu hv
  · exact hstop .stop List.mem_cons_self w hw

theorem matches_of_mem_atLeast (hround : ∀ q ∈ round, ∀ w, q.Takes w → r.Matches w) (least : Nat) :
    ∀ q ∈ atLeast r round more greedy least, ∀ w, q.Takes w →
      (rep r least more greedy).Matches w := by
  induction least with
  | zero =>
    cases more with
    | none => exact matches_of_mem_anyTimes hround
    | some more => exact matches_of_mem_upTo hround more
  | succ least ih =>
    intro q hq w hw
    rw [atLeast, List.mem_eraseDups] at hq
    obtain ⟨u, v, rfl, hu, hv⟩ := takes_of_mem_flatMap hround ih hq hw
    exact .round hu hv

/-- **What a path of a pattern takes is a text of the pattern.** -/
theorem matches_of_mem_paths (p : Place) :
    ∀ q ∈ r.paths p, ∀ w, q.Takes w → r.Matches w := by
  induction r with
  | empty =>
    intro q hq w hw
    obtain rfl := List.mem_singleton.mp hq
    obtain rfl : w = [] := hw
    exact .empty
  | chars s =>
    intro q hq w hw
    obtain rfl := List.mem_singleton.mp hq
    obtain ⟨c, v, rfl, hc, hv⟩ := hw
    cases hv
    exact .char hc
  | edge e =>
    intro q hq w hw
    rw [paths] at hq
    split at hq
    · obtain rfl := List.mem_singleton.mp hq
      obtain rfl : w = [] := hw
      exact .edge e
    · cases hq
  | seq a b iha ihb =>
    intro q hq w hw
    obtain ⟨u, v, rfl, hu, hv⟩ := takes_of_mem_flatMap iha ihb hq hw
    exact .seq hu hv
  | alt a b iha ihb =>
    intro q hq w hw
    rcases List.mem_append.mp hq with hq | hq
    · exact .first b (iha q hq w hw)
    · exact .second a (ihb q hq w hw)
  | rep r least more greedy ih => exact matches_of_mem_atLeast ih least

/-! ## Matching -/

/-- Where a pattern can stop it matches the empty text. -/
theorem exists_matches_nil (h : Path.stop ∈ rs.flatMap (paths p)) : ∃ r ∈ rs, r.Matches [] := by
  obtain ⟨r, hr, hstop⟩ := List.mem_flatMap.mp h
  exact ⟨r, hr, matches_of_mem_paths p .stop hstop [] rfl⟩

/-- A match found on the way is the best one so far, or a text of one of the patterns. -/
theorem exists_matches_of_advance {text : List Char}
    (h : advance rs before taken best text = some n) :
    best = some n ∨ ∃ r ∈ rs, ∃ u v, text = u ++ v ∧ n = taken + u.length ∧ r.Matches u := by
  induction text generalizing rs before taken best with
  | nil =>
    rw [advance] at h
    split at h
    · rename_i hstop
      obtain ⟨r, hr, hnil⟩ := exists_matches_nil (List.contains_iff_mem.mp hstop)
      exact .inr ⟨r, hr, [], [], rfl, (Option.some.inj h).symm, hnil⟩
    · exact .inl h
  | cons c rest ih =>
    rw [advance_cons_of_paths rfl] at h
    have hbest : ∀ {best' : Option Nat}, best' = some n →
        best' = (if ((rs.flatMap (paths ⟨before, some c⟩)).eraseDups).contains .stop then some taken
          else best) →
        best = some n ∨
          ∃ r ∈ rs, ∃ u v, c :: rest = u ++ v ∧ n = taken + u.length ∧ r.Matches u := by
      rintro best' hn rfl
      split at hn
      · rename_i hstop
        obtain ⟨r, hr, hnil⟩ :=
          exists_matches_nil (List.mem_eraseDups.mp (List.contains_iff_mem.mp hstop))
        exact .inr ⟨r, hr, [], c :: rest, rfl, (Option.some.inj hn).symm, hnil⟩
      · exact .inl hn
    split at h
    · exact hbest h rfl
    · rcases ih h with hn | ⟨r, hr, u, v, rfl, rfl, hu⟩
      · exact hbest hn rfl
      · -- The pattern is what one of the paths leaves behind the character.
        rw [afterChar_eq, List.mem_eraseDups] at hr
        obtain ⟨path, hpath, hr⟩ := List.mem_filterMap.mp hr
        have hpath' := List.mem_eraseDups.mp ((List.takeWhile_sublist _).subset hpath)
        obtain ⟨r', hr', hmem⟩ := List.mem_flatMap.mp hpath'
        have htakes : path.Takes (c :: u) := by
          cases path with
          | stop => cases hr
          | take s rest =>
            rw [Path.after?] at hr
            split at hr
            · rename_i hc
              cases hr
              exact ⟨c, u, rfl, hc, hu⟩
            · cases hr
        refine .inr ⟨r', hr', c :: u, v, rfl, ?_, matches_of_mem_paths _ path hmem _ htakes⟩
        rw [List.length_cons]
        omega

/-- **The preferred match is a match.** -/
theorem matches_of_matchLength? {text : List Char} (h : r.matchLength? before text = some n) :
    r.Matches (text.take n) := by
  rcases exists_matches_of_advance h with hbest | ⟨r', hr, u, v, rfl, rfl, hu⟩
  · cases hbest
  · obtain rfl := List.mem_singleton.mp hr
    rwa [Nat.zero_add, List.take_left]

/-! ## Repeated characters -/

theorem matches_star_iff : (rep (.chars s) 0 none greedy).Matches w ↔
    ∀ c ∈ w, s.contains c = true := by
  constructor
  · intro h
    generalize hr : rep (.chars s) 0 none greedy = r at h
    induction h with
    | anyTimes hu _ _ ih =>
      cases hr
      cases hu with
      | char hc =>
        intro d hd
        rcases List.mem_cons.mp hd with rfl | hd
        · exact hc
        · exact ih rfl d hd
    | stop => simp
    | empty | char | edge | seq | first | second | round | upTo => cases hr
  · intro h
    induction w with
    | nil => exact .stop _ _ _
    | cons c w ih =>
      exact .anyTimes (u := [c]) (.char (h c List.mem_cons_self))
        (ih fun d hd => h d (List.mem_cons_of_mem c hd))

/-- One character of a set, and any number of others. -/
theorem matches_plus_iff : (rep (.chars s) 1 none greedy).Matches w ↔
    w ≠ [] ∧ ∀ c ∈ w, s.contains c = true := by
  constructor
  · intro h
    cases h with
    | @round _ _ _ _ u v hu hv =>
      cases hu with
      | @char _ c hc =>
        refine ⟨List.cons_ne_nil c v, fun d hd => ?_⟩
        rcases List.mem_cons.mp hd with rfl | hd
        · exact hc
        · exact matches_star_iff.mp hv d hd
  · rintro ⟨hne, h⟩
    obtain ⟨c, w, rfl⟩ := List.exists_cons_of_ne_nil hne
    exact .round (u := [c]) (.char (h c List.mem_cons_self))
      (matches_star_iff.mpr fun d hd => h d (List.mem_cons_of_mem c hd))

/-- A pattern that may be left out. -/
theorem matches_optional_iff : (rep r 0 (some 1) greedy).Matches w ↔ w = [] ∨ r.Matches w := by
  constructor
  · intro h
    cases h with
    | stop => exact .inl rfl
    | upTo hu hv =>
      cases hv
      rw [List.append_nil]
      exact .inr hu
  · rintro (rfl | h)
    · exact .stop _ _ _
    · rw [← List.append_nil w]
      exact .upTo h (.stop _ _ _)

theorem matches_seq_iff {a b : Regex} :
    (seq a b).Matches w ↔ ∃ u v, w = u ++ v ∧ a.Matches u ∧ b.Matches v := by
  constructor
  · intro h
    cases h with
    | seq ha hb => exact ⟨_, _, rfl, ha, hb⟩
  · rintro ⟨u, v, rfl, ha, hb⟩
    exact .seq ha hb

theorem matches_chars_iff : (chars s).Matches w ↔ ∃ c, w = [c] ∧ s.contains c = true := by
  constructor
  · intro h
    cases h with
    | char hc => exact ⟨_, rfl, hc⟩
  · rintro ⟨c, rfl, hc⟩
    exact .char hc

end Regex

end Precedence.Pattern
