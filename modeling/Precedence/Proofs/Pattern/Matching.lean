import Precedence.Pattern.Matching

/-!
# Matches of regular expressions

`advance_cons_of_paths` is one step through a text for patterns whose paths are known.

* `stop_not_mem_paths`: a pattern that promises a length cannot stop at once, so that by
  `lt_of_matchLength?` it takes a character with every match.
* `matchLength?_seq_star`, `advance_seq_star`: repetitions take as many characters as they can.
-/

namespace Precedence.Pattern

open Precedence.Text

namespace Path

/-- One pattern and then another one can stop at once only if both can. -/
theorem stop_mem_flatMap_andThen {second : Regex} {after first : List Path}
    (h : stop ∈ first.flatMap (andThen second after)) : stop ∈ first ∧ stop ∈ after := by
  obtain ⟨path, hpath, h⟩ := List.mem_flatMap.mp h
  cases path with
  | stop => exact ⟨hpath, h⟩
  | take s rest => cases rest <;> simp [andThen] at h

/-- What is left of a path that takes the character. -/
def after? (c : Char) : Path → Option Regex
  | take s rest => if s.contains c then some rest else none
  | stop => none

end Path

namespace Regex

variable {r : Regex} {rs : List Regex} {all : List Path} {before : Option Char} {taken : Nat}
variable {best : Option Nat} {c : Char} {rest : List Char}

section Rounds

variable {round : List Path} {greedy : Bool} {path : Path}

/-- With rounds to spare a repetition stops or begins a round. -/
theorem mem_upTo_succ {more : Nat} : path ∈ upTo r round greedy (more + 1) ↔
    path ∈ round.flatMap (Path.andThen (.rep r 0 (some more) greedy) (upTo r round greedy more)) ∨
      path = .stop := by
  rw [upTo]
  cases greedy <;> simp [or_comm]

theorem mem_anyTimes : path ∈ anyTimes r round greedy ↔
    path ∈ round.flatMap (Path.andThen (.rep r 0 none greedy) [.stop]) ∨ path = .stop := by
  rw [anyTimes]
  cases greedy <;> simp [or_comm]

end Rounds

/-- One step through a text. -/
theorem advance_cons_of_paths
    (h : (rs.flatMap (paths ⟨before, some c⟩)).eraseDups = all) :
    advance rs before taken best (c :: rest) =
      match afterChar c (all.takeWhile (· != .stop)) with
      | [] => if all.contains .stop then some taken else best
      | rs => advance rs (some c) (taken + 1) (if all.contains .stop then some taken else best)
          rest := by
  subst h
  rfl

/-- A match is as long as what was taken, or the best one so far. -/
theorem le_of_advance {n : Nat} {text : List Char}
    (h : advance rs before taken best text = some n) : taken ≤ n ∨ best = some n := by
  induction text generalizing rs before taken best with
  | nil =>
    rw [advance] at h
    split at h
    · exact .inl (Nat.le_of_eq (Option.some.inj h))
    · exact .inr h
  | cons c rest ih =>
    rw [advance] at h
    split at h
    · split at h
      · exact .inl (Nat.le_of_eq (Option.some.inj h))
      · exact .inr h
    · rcases ih h with hle | hbest
      · exact .inl (Nat.le_of_succ_le hle)
      · split at hbest
        · exact .inl (Nat.le_of_eq (Option.some.inj hbest))
        · exact .inr hbest

/-- A match is no longer than the text, or the best one so far. -/
theorem advance_le {n : Nat} {text : List Char} (h : advance rs before taken best text = some n) :
    n ≤ taken + text.length ∨ best = some n := by
  induction text generalizing rs before taken best with
  | nil =>
    rw [advance] at h
    split at h
    · exact .inl (Nat.le_of_eq (Option.some.inj h).symm)
    · exact .inr h
  | cons c rest ih =>
    have hbest : ∀ all : List Path, (if all.contains .stop then some taken else best) = some n →
        n ≤ taken + (c :: rest).length ∨ best = some n := by
      intro all h
      split at h
      · cases h
        exact .inl (Nat.le_add_right _ _)
      · exact .inr h
    rw [advance_cons_of_paths rfl] at h
    split at h
    · exact hbest _ h
    · rcases ih h with hle | h
      · rw [List.length_cons]
        exact .inl (by omega)
      · exact hbest _ h

theorem matchLength?_le {n : Nat} {text : List Char} (h : r.matchLength? before text = some n) :
    n ≤ text.length := by
  rcases advance_le h with hle | h
  · rwa [Nat.zero_add] at hle
  · cases h

/-! ## Lengths -/

/-- A pattern that promises a length cannot stop at once. -/
theorem stop_not_mem_paths {m : Nat} (h : r.minLength = some m) (hm : 0 < m) (p : Place) :
    .stop ∉ r.paths p := by
  induction r generalizing m with
  | empty =>
    cases h
    exact absurd hm (Nat.lt_irrefl 0)
  | edge e =>
    cases h
    exact absurd hm (Nat.lt_irrefl 0)
  | chars s => simp [paths]
  | seq a b iha ihb =>
    rw [minLength] at h
    split at h
    · rename_i k l ha hb
      cases h
      intro hstop
      obtain ⟨hstopa, hstopb⟩ := Path.stop_mem_flatMap_andThen hstop
      -- One of the two lengths is positive.
      rcases Nat.eq_zero_or_pos k with hk | hk
      · exact ihb hb (by omega) hstopb
      · exact iha ha hk hstopa
    · cases h
  | alt a b iha ihb =>
    rw [minLength] at h
    split at h
    · rename_i k l ha hb
      cases h
      intro hstop
      rcases List.mem_append.mp hstop with hstop | hstop
      · exact iha ha (by omega) hstop
      · exact ihb hb (by omega) hstop
    · cases h
  | rep r least more greedy ih =>
    rw [minLength] at h
    obtain ⟨k, hk, rfl⟩ := Option.map_eq_some_iff.mp h
    have hkpos : 0 < k := Nat.pos_of_mul_pos_right hm
    obtain ⟨least, rfl⟩ := Nat.exists_eq_add_one.mpr (Nat.pos_of_mul_pos_left hm)
    intro hstop
    rw [paths, atLeast, List.mem_eraseDups] at hstop
    exact ih hk hkpos (Path.stop_mem_flatMap_andThen hstop).1

/-- A pattern that promises a length takes a character. -/
theorem lt_of_matchLength? {m : Nat} (hmin : r.minLength = some m) (hm : 0 < m) {n : Nat}
    {text : List Char} (h : r.matchLength? before text = some n) : 0 < n := by
  have hstop := stop_not_mem_paths hmin hm
  unfold matchLength? at h
  cases text with
  | nil =>
    rw [advance] at h
    simp [hstop] at h
  | cons c rest =>
    rw [advance_cons_of_paths rfl] at h
    have hall : (([r].flatMap (paths ⟨before, some c⟩)).eraseDups.contains .stop) = false := by
      simp [List.mem_eraseDups, hstop]
    rw [hall] at h
    split at h
    · cases h
    · rcases le_of_advance h with hle | hbest
      · exact hle
      · cases hbest

/-! ## Repeated characters -/

/-- Any number of characters of a set, as many as possible. -/
def star (s : CharSet) : Regex :=
  .rep (.chars s) 0 none true

variable {s : CharSet} {b : Regex} {ds : List Char} {ps : List Path}

theorem paths_star (p : Place) : (star s).paths p = [.take s (star s), .stop] := rfl

theorem paths_seq_star (p : Place) :
    (seq (star s) b).paths p = .take s (seq (star s) b) :: b.paths p := by
  simp [paths, star, atLeast, anyTimes, Path.andThen]

theorem afterChar_eq : afterChar c ps = (ps.filterMap (Path.after? c)).eraseDups := rfl

theorem afterChar_eq_nil (h : ∀ path ∈ ps, path.after? c = none) : afterChar c ps = [] := by
  rw [afterChar_eq, List.filterMap_eq_nil_iff.mpr h]
  rfl

/-- If only the first path takes the character, what is left of it is all that is left. -/
theorem afterChar_cons (hc : s.contains c = true) (h : ∀ path ∈ ps, path.after? c = none) :
    afterChar c (.take s r :: ps) = [r] := by
  have htake : Path.after? c (.take s r) = some r := if_pos hc
  rw [afterChar_eq, List.filterMap_cons_some htake, List.filterMap_eq_nil_iff.mpr h]
  rfl

/-- A pattern that takes as many characters of a set as there are. -/
theorem advance_star (text : List Char) :
    advance [star s] before taken best text =
      some (taken + (text.takeWhile s.contains).length) := by
  induction text generalizing before taken best with
  | nil =>
    rw [advance, List.flatMap_singleton, paths_star]
    rfl
  | cons c rest ih =>
    have hpaths : ([star s].flatMap (paths ⟨before, some c⟩)).eraseDups =
        [.take s (star s), .stop] := by
      rw [List.flatMap_singleton, paths_star]
      rfl
    have hbusy : [Path.take s (star s), .stop].takeWhile (· != .stop) = [.take s (star s)] := rfl
    rw [advance_cons_of_paths hpaths, hbusy]
    by_cases hc : s.contains c = true
    · rw [afterChar_cons hc (by simp), List.takeWhile_cons_of_pos hc, List.length_cons]
      simp only
      rw [ih]
      congr 1
      omega
    · rw [afterChar_eq_nil (by simp [Path.after?, hc]), List.takeWhile_cons_of_neg hc]
      rfl

/-- A character of a set and then as many of another one as there are. -/
theorem matchLength?_seq_star (t : CharSet) (text : List Char) :
    (seq (.chars t) (star s)).matchLength? before (c :: text) =
      if t.contains c then some ((text.takeWhile s.contains).length + 1) else none := by
  have hpaths : ([seq (.chars t) (star s)].flatMap (paths ⟨before, some c⟩)).eraseDups =
      [.take t (star s)] := rfl
  have hbusy : [Path.take t (star s)].takeWhile (· != .stop) = [.take t (star s)] := rfl
  rw [matchLength?, advance_cons_of_paths hpaths, hbusy]
  by_cases hc : t.contains c = true
  · rw [afterChar_cons hc (by simp), if_pos hc]
    simp only
    rw [advance_star, Nat.zero_add, Nat.add_comm]
  · rw [afterChar_eq_nil (by simp [Path.after?, hc]), if_neg hc]
    rfl

/-! ## Loops -/

variable {y : Regex}

/-- The paths of a pattern that takes a character of a set and begins again, or does something
else. -/
theorem exists_eraseDups_paths_loop (hy : ∀ p, y.paths p = .take s y :: ps) (hstop : .stop ∈ ps) :
    ∃ others, (∀ p, ([y].flatMap (paths p)).eraseDups = .take s y :: others) ∧
      .stop ∈ others ∧ ∀ path ∈ others, path ∈ ps := by
  refine ⟨(ps.filter (!· == .take s y)).eraseDups, ?_, ?_, ?_⟩
  · intro p
    rw [List.flatMap_singleton, hy, List.eraseDups_cons]
  · rw [List.mem_eraseDups, List.mem_filter]
    exact ⟨hstop, rfl⟩
  · intro path hpath
    exact (List.mem_filter.mp (List.mem_eraseDups.mp hpath)).1

/-- Characters that only the loop takes lead back to its beginning. -/
theorem exists_advance_loop (hy : ∀ p, y.paths p = .take s y :: ps) (hstop : .stop ∈ ps)
    (hds : ∀ d ∈ ds, s.contains d = true ∧ ∀ path ∈ ps, path.after? d = none)
    (rest : List Char) :
    ∃ before' best', advance [y] before taken best (ds ++ rest) =
      advance [y] before' (taken + ds.length) best' rest := by
  obtain ⟨others, hall, -, hsub⟩ := exists_eraseDups_paths_loop hy hstop
  have hbusy : (Path.take s y :: others).takeWhile (· != .stop) =
      .take s y :: others.takeWhile (· != .stop) := rfl
  induction ds generalizing before taken best with
  | nil => exact ⟨before, best, rfl⟩
  | cons d ds ih =>
    obtain ⟨hd, hps⟩ := hds d List.mem_cons_self
    rw [List.cons_append, advance_cons_of_paths (hall _), hbusy, afterChar_cons hd fun path hpath =>
      hps path (hsub path ((List.takeWhile_sublist _).subset hpath))]
    simp only
    rw [List.length_cons, show taken + (ds.length + 1) = taken + 1 + ds.length by omega]
    exact ih fun d hd => hds d (List.mem_cons_of_mem _ hd)

/-- A loop ends where nothing goes on. -/
theorem advance_loop_stop (hy : ∀ p, y.paths p = .take s y :: ps) (hstop : .stop ∈ ps)
    (hrest : ∀ c ∈ rest.head?, s.contains c = false ∧ ∀ path ∈ ps, path.after? c = none) :
    advance [y] before taken best rest = some taken := by
  obtain ⟨others, hall, hmem, hsub⟩ := exists_eraseDups_paths_loop hy hstop
  cases rest with
  | nil =>
    have hpaths : Path.stop ∈ [y].flatMap (paths ⟨before, none⟩) := by
      rw [← List.mem_eraseDups, hall]
      exact List.mem_cons_of_mem _ hmem
    rw [advance, if_pos (List.contains_iff_mem.mpr hpaths)]
  | cons c rest =>
    obtain ⟨hc, hps⟩ := hrest c rfl
    have hstops : (Path.take s y :: others).contains .stop = true := by simp [hmem]
    rw [advance_cons_of_paths (hall _), afterChar_eq_nil, hstops]
    · rfl
    · intro path hpath
      rcases List.mem_cons.mp ((List.takeWhile_sublist _).subset hpath) with rfl | hpath
      · simp [Path.after?, hc]
      · exact hps path (hsub path hpath)

/-- Characters of a set are taken up to where neither the set nor what comes behind it goes on. -/
theorem advance_seq_star (hb : ∀ p, b.paths p = ps) (hstop : .stop ∈ ps)
    (hds : ∀ d ∈ ds, s.contains d = true ∧ ∀ path ∈ ps, path.after? d = none)
    (hrest : ∀ c ∈ rest.head?, s.contains c = false ∧ ∀ path ∈ ps, path.after? c = none) :
    advance [seq (star s) b] before taken best (ds ++ rest) = some (taken + ds.length) := by
  have hloop : ∀ p, (seq (star s) b).paths p = .take s (seq (star s) b) :: ps := fun p => by
    rw [paths_seq_star, hb]
  obtain ⟨before', best', h⟩ := exists_advance_loop hloop hstop hds rest
  rw [h, advance_loop_stop hloop hstop hrest]

end Regex

end Precedence.Pattern
