import Precedence.Proofs.Pattern.Matching

/-!
# Characters that a pattern never takes

A character that no part of a pattern takes ends every match before it. If the pattern does not ask
either what stands at a place, then what begins with that character might as well not be there.

* `matchLength?_append`: so a match in a text is the same with such a character behind the text.
* `matchLength?_of_append`: it is also the same in a beginning of the text that holds it.
* `matchLength?_before`: and with any character in front of it.
-/

namespace Precedence.Pattern

/-- Whether no part of the pattern takes the character, or asks what stands at a place. -/
def Regex.avoids (c : Char) : Regex → Bool
  | empty => true
  | chars s => !s.contains c
  | edge _ => false
  | seq a b => a.avoids c && b.avoids c
  | alt a b => a.avoids c && b.avoids c
  | rep r _ _ _ => r.avoids c

variable {c : Char}

theorem Regex.avoids_seq (a b : Regex) : (seq a b).avoids c = (a.avoids c && b.avoids c) := rfl

namespace Path

/-- Whether neither the path takes the character nor what is left of it. -/
def avoids (c : Char) : Path → Bool
  | stop => true
  | take s rest => !s.contains c && rest.avoids c

variable {second : Regex} {after round : List Path} {path : Path}

theorem avoids_andThen (hsecond : second.avoids c = true) (hafter : ∀ q ∈ after, q.avoids c = true)
    (h : path.avoids c = true) : ∀ q ∈ path.andThen second after, q.avoids c = true := by
  cases path with
  | stop => exact hafter
  | take s rest =>
    rw [avoids, Bool.and_eq_true] at h
    cases rest with
    | empty => simp [andThen, avoids, h.1, hsecond]
    | chars _ | edge _ | seq _ _ | alt _ _ | rep _ _ _ _ =>
      simp [andThen, avoids, Regex.avoids_seq, h.1, h.2, hsecond]

theorem avoids_flatMap_andThen (hsecond : second.avoids c = true)
    (hafter : ∀ q ∈ after, q.avoids c = true) (h : ∀ q ∈ round, q.avoids c = true) :
    ∀ q ∈ round.flatMap (andThen second after), q.avoids c = true := by
  intro q hq
  obtain ⟨path, hpath, hq⟩ := List.mem_flatMap.mp hq
  exact avoids_andThen hsecond hafter (h path hpath) q hq

theorem after?_of_avoids (h : path.avoids c = true) : path.after? c = none := by
  cases path with
  | stop => rfl
  | take s rest =>
    rw [avoids, Bool.and_eq_true, Bool.not_eq_true'] at h
    simp [after?, h.1]

end Path

namespace Regex

variable {r : Regex} {rs : List Regex} {before : Option Char} {taken : Nat} {best : Option Nat}
variable {round : List Path} {greedy : Bool}

/-! ## Paths -/

theorem avoids_upTo (hr : r.avoids c = true) (h : ∀ q ∈ round, q.avoids c = true) (more : Nat) :
    ∀ q ∈ upTo r round greedy more, q.avoids c = true := by
  induction more with
  | zero => simp [upTo, Path.avoids]
  | succ more ih =>
    have hagain : (rep r 0 (some more) greedy).avoids c = true := hr
    have hon := Path.avoids_flatMap_andThen hagain ih h
    intro q hq
    rcases mem_upTo_succ.mp hq with hq | rfl
    · exact hon q hq
    · rfl

theorem avoids_anyTimes (hr : r.avoids c = true) (h : ∀ q ∈ round, q.avoids c = true) :
    ∀ q ∈ anyTimes r round greedy, q.avoids c = true := by
  have hagain : (rep r 0 none greedy).avoids c = true := hr
  have hstop : ∀ q ∈ [Path.stop], q.avoids c = true := by simp [Path.avoids]
  have hon := Path.avoids_flatMap_andThen hagain hstop h
  intro q hq
  rcases mem_anyTimes.mp hq with hq | rfl
  · exact hon q hq
  · rfl

theorem avoids_atLeast {more : Option Nat} (hr : r.avoids c = true)
    (h : ∀ q ∈ round, q.avoids c = true) (least : Nat) :
    ∀ q ∈ atLeast r round more greedy least, q.avoids c = true := by
  induction least with
  | zero =>
    cases more with
    | none => exact avoids_anyTimes hr h
    | some more => exact avoids_upTo hr h more
  | succ least ih =>
    intro q hq
    rw [atLeast, List.mem_eraseDups] at hq
    have hagain : (rep r least more greedy).avoids c = true := hr
    exact Path.avoids_flatMap_andThen hagain ih h q hq

/-- The paths of a pattern avoid what the pattern avoids. -/
theorem avoids_paths (h : r.avoids c = true) (p : Place) : ∀ q ∈ r.paths p, q.avoids c = true := by
  induction r with
  | empty => simp [paths, Path.avoids]
  | chars s =>
    rw [avoids] at h
    simp [paths, Path.avoids, avoids, h]
  | edge e => cases h
  | seq a b iha ihb =>
    rw [avoids, Bool.and_eq_true] at h
    exact Path.avoids_flatMap_andThen h.2 (ihb h.2) (iha h.1)
  | alt a b iha ihb =>
    rw [avoids, Bool.and_eq_true] at h
    intro q hq
    rcases List.mem_append.mp hq with hq | hq
    · exact iha h.1 q hq
    · exact ihb h.2 q hq
  | rep r least more greedy ih => exact avoids_atLeast (r := r) h (ih h) least

/-- A pattern that asks for no place has the same paths at all of them. -/
theorem paths_of_avoids (h : r.avoids c = true) (p p' : Place) : r.paths p = r.paths p' := by
  induction r with
  | empty => rfl
  | chars s => rfl
  | edge e => cases h
  | seq a b iha ihb =>
    rw [avoids, Bool.and_eq_true] at h
    rw [paths, paths, iha h.1, ihb h.2]
  | alt a b iha ihb =>
    rw [avoids, Bool.and_eq_true] at h
    rw [paths, paths, iha h.1, ihb h.2]
  | rep r least more greedy ih => rw [paths, paths, ih h]

/-! ## Matches -/

/-- What patterns can do next avoids what they avoid. -/
theorem avoids_busy (h : ∀ r ∈ rs, r.avoids c = true) (p : Place) :
    ∀ q ∈ (rs.flatMap (paths p)).eraseDups.takeWhile (· != .stop), q.avoids c = true := by
  intro q hq
  have hq := (List.takeWhile_sublist _).subset hq
  rw [List.mem_eraseDups] at hq
  obtain ⟨r, hr, hq⟩ := List.mem_flatMap.mp hq
  exact avoids_paths (h r hr) p q hq

/-- What is left of paths that avoid a character avoids it. -/
theorem avoids_afterChar {d : Char} (h : ∀ q ∈ round, q.avoids c = true) :
    ∀ r ∈ afterChar d round, r.avoids c = true := by
  intro r hr
  rw [afterChar_eq, List.mem_eraseDups] at hr
  obtain ⟨path, hpath, hr⟩ := List.mem_filterMap.mp hr
  have havoids := h path hpath
  cases path with
  | stop => cases hr
  | take s rest =>
    rw [Path.avoids, Bool.and_eq_true] at havoids
    rw [Path.after?] at hr
    split at hr
    · cases hr
      exact havoids.2
    · cases hr

theorem flatMap_paths_of_avoids (h : ∀ r ∈ rs, r.avoids c = true) (p p' : Place) :
    rs.flatMap (paths p) = rs.flatMap (paths p') := by
  rw [List.flatMap_def, List.flatMap_def,
    List.map_congr_left fun r hr => paths_of_avoids (h r hr) p p']

theorem advance_append (h : ∀ r ∈ rs, r.avoids c = true) (text rest : List Char) :
    advance rs before taken best (text ++ c :: rest) = advance rs before taken best text := by
  induction text generalizing rs before taken best with
  | nil =>
    rw [List.nil_append, advance_cons_of_paths rfl,
      afterChar_eq_nil fun q hq => Path.after?_of_avoids (avoids_busy h _ q hq), advance,
      flatMap_paths_of_avoids h ⟨before, some c⟩ ⟨before, none⟩]
    simp only [List.contains_iff_mem, List.mem_eraseDups]
  | cons d text ih =>
    have hleft := avoids_afterChar (d := d) (avoids_busy h ⟨before, some d⟩)
    rw [List.cons_append, advance_cons_of_paths rfl, advance_cons_of_paths rfl]
    cases hrs : afterChar d
        ((rs.flatMap (paths ⟨before, some d⟩)).eraseDups.takeWhile (· != .stop)) with
    | nil => rfl
    | cons r rs' =>
      rw [hrs] at hleft
      exact ih hleft

/-- **A match does not depend on what stands behind a character that the pattern avoids.** -/
theorem matchLength?_append (h : r.avoids c = true) (text rest : List Char) :
    r.matchLength? before (text ++ c :: rest) = r.matchLength? before text :=
  advance_append (by simpa using h) text rest

/-- A match that was found stays found. -/
theorem advance_ne_none {text : List Char} (hb : best ≠ none) :
    advance rs before taken best text ≠ none := by
  induction text generalizing rs before taken best with
  | nil =>
    rw [advance]
    split
    · simp
    · exact hb
  | cons d text ih =>
    have hbest : ∀ all : List Path, (if all.contains .stop then some taken else best) ≠ none := by
      intro all
      split
      · simp
      · exact hb
    rw [advance_cons_of_paths rfl]
    split
    · exact hbest _
    · exact ih (hbest _)

/-- What does not match beyond a text has the match that was found there. -/
theorem eq_of_advance_le {text : List Char} {out : Option Nat}
    (h : advance rs before (taken + 1) best text = out) (hle : ∀ n, out = some n → n ≤ taken) :
    out = best := by
  cases out with
  | some n =>
    rcases le_of_advance h with hlt | hbest
    · exact absurd (hle n rfl) (by omega)
    · exact hbest.symm
  | none =>
    cases hb : best with
    | none => rfl
    | some m => exact absurd h (advance_ne_none (by simp [hb]))

theorem advance_of_append (h : ∀ r ∈ rs, r.avoids c = true) (text rest : List Char)
    (hle : ∀ n, advance rs before taken best (text ++ rest) = some n → n ≤ taken + text.length) :
    advance rs before taken best text = advance rs before taken best (text ++ rest) := by
  induction text generalizing rs before taken best with
  | nil =>
    cases rest with
    | nil => rfl
    | cons d rest =>
      rw [List.nil_append] at hle ⊢
      have hnil : advance rs before taken best [] =
          if (rs.flatMap (paths ⟨before, some d⟩)).eraseDups.contains .stop then some taken
          else best := by
        rw [advance, flatMap_paths_of_avoids h ⟨before, none⟩ ⟨before, some d⟩]
        simp only [List.contains_iff_mem, List.mem_eraseDups]
      rw [hnil]
      generalize hout : advance rs before taken best (d :: rest) = out at hle ⊢
      rw [advance_cons_of_paths rfl] at hout
      split at hout
      · exact hout
      · exact (eq_of_advance_le hout hle).symm
  | cons d text ih =>
    have hleft := avoids_afterChar (d := d) (avoids_busy h ⟨before, some d⟩)
    rw [List.cons_append, advance_cons_of_paths rfl, advance_cons_of_paths rfl] at *
    cases hrs : afterChar d
        ((rs.flatMap (paths ⟨before, some d⟩)).eraseDups.takeWhile (· != .stop)) with
    | nil => rfl
    | cons r rs' =>
      rw [hrs] at hleft hle
      refine ih hleft fun n hn => ?_
      have := hle n hn
      rw [List.length_cons] at this
      omega

/-- **A match that a beginning of the text holds is the match in that beginning.** -/
theorem matchLength?_of_append (h : r.avoids c = true) {text rest : List Char}
    (hle : ∀ n, r.matchLength? before (text ++ rest) = some n → n ≤ text.length) :
    r.matchLength? before text = r.matchLength? before (text ++ rest) :=
  advance_of_append (by simpa using h) text rest fun n hn => by
    rw [Nat.zero_add]
    exact hle n hn

/-- **A match of a pattern that asks for no place does not depend on what stands before it.** -/
theorem matchLength?_before (h : r.avoids c = true) (before before' : Option Char)
    (text : List Char) : r.matchLength? before text = r.matchLength? before' text := by
  have hr : ∀ r' ∈ [r], r'.avoids c = true := by simpa using h
  have hpaths := flatMap_paths_of_avoids hr
  cases text with
  | nil => rw [matchLength?, matchLength?, advance, advance, hpaths ⟨before, none⟩ ⟨before', none⟩]
  | cons d text =>
    rw [matchLength?, matchLength?, advance_cons_of_paths rfl, advance_cons_of_paths rfl,
      hpaths ⟨before, some d⟩ ⟨before', some d⟩]

end Regex

end Precedence.Pattern
