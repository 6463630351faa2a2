import Precedence.Source.Position
import Precedence.Source.Slice
import Mathlib.Data.List.DropRight
import Mathlib.Order.Bounds.Defs

/-!
# Positions and the text in front of them

The position behind a text has the line that the newlines of the text count, and the column that the
characters behind the last of them count. At a character boundary `locate` gives the position behind
the text in front of it, and behind the end that of the whole text. An offset inside of a character
has the position of the end of the character, not that of its start.

* `locate_append`: the position of a boundary.
* `locate_inside`: the position of an offset inside of a character.
* `locate_eq_behind`: the position of any offset.
* `locate_second_byte`: the position of an offset is not always that of the boundary before it.
-/

namespace Precedence.Source

variable {text front back : List Char} {offset m n : Nat}

/-! ## Boundaries -/

/-- A character of the text starts at the offset, or the text ends there. -/
def IsBoundary (text : List Char) (n : Nat) : Prop :=
  ∃ front back, text = front ++ back ∧ n = byteLength front

theorem takeBytes_append_byteLength (h : text = front ++ back) :
    takeBytes text (byteLength front) = some front :=
  h ▸ takeBytes_byteLength front back

/-- The longest part in front of a text that ends at the offset or before it. -/
theorem exists_append_of_offset (text : List Char) (offset : Nat) :
    ∃ front back, text = front ++ back ∧ byteLength front ≤ offset ∧
      ∀ c ∈ back.head?, offset < byteLength front + c.utf8Size := by
  induction text generalizing offset with
  | nil => exact ⟨[], [], rfl, Nat.zero_le _, by simp⟩
  | cons c rest ih =>
    by_cases h : c.utf8Size ≤ offset
    · obtain ⟨front, back, rfl, hle, hlt⟩ := ih (offset - c.utf8Size)
      refine ⟨c :: front, back, rfl, ?_, fun d hd => ?_⟩
      · rw [byteLength_cons]
        omega
      · have := hlt d hd
        rw [byteLength_cons]
        omega
    · refine ⟨[], c :: rest, rfl, Nat.zero_le _, fun d hd => ?_⟩
      obtain rfl : c = d := Option.some.inj hd
      rw [byteLength_nil]
      omega

/-- Such a part ends at the last boundary that is not behind the offset. -/
theorem isGreatest_byteLength (htext : text = front ++ back) (hle : byteLength front ≤ offset)
    (hlt : ∀ c ∈ back.head?, offset < byteLength front + c.utf8Size) :
    IsGreatest {m | IsBoundary text m ∧ m ≤ offset} (byteLength front) := by
  refine ⟨⟨⟨front, back, htext, rfl⟩, hle⟩, ?_⟩
  rintro m ⟨⟨front', back', htext', rfl⟩, hle'⟩
  rcases List.append_eq_append_iff.mp (htext.symm.trans htext') with
    ⟨part, rfl, rfl⟩ | ⟨part, rfl, rfl⟩
  · cases part with
    | nil => rw [List.append_nil]
    | cons c part =>
      have hc := hlt c rfl
      rw [byteLength_append, byteLength_cons] at hle'
      omega
  · rw [byteLength_append]
    exact Nat.le_add_right _ _

namespace Position

/-! ## The position behind a text -/

/-- The number of newlines, and the number of characters behind the last one. -/
def behind (front : List Char) : Position where
  line := front.count '\n'
  column := (front.rtakeWhile (· ≠ '\n')).length

theorem behind_concat (front : List Char) (c : Char) :
    behind (front ++ [c]) = (behind front).advance c := by
  unfold behind advance
  rw [List.count_append, List.count_singleton, List.rtakeWhile_concat]
  by_cases h : c = '\n'
  · simp [h]
  · simp [h]

/-- To walk over a text is to pass its characters one by one. -/
theorem foldl_advance (front : List Char) : front.foldl advance origin = behind front := by
  induction front using List.reverseRecOn with
  | nil => rfl
  | append_singleton front c ih => rw [List.foldl_concat, ih, behind_concat]

/-- A walk over a first part goes on behind it. -/
theorem walk_append (p : Position) (front back : List Char) (n : Nat) :
    p.walk (front ++ back) (byteLength front + n) = (front.foldl advance p).walk back n := by
  induction front generalizing p with
  | nil => simp
  | cons c front ih =>
    have hpos := c.utf8Size_pos
    obtain ⟨k, hk⟩ : ∃ k, byteLength (c :: front) + n = k + 1 :=
      ⟨byteLength (c :: front) + n - 1, by rw [byteLength_cons]; omega⟩
    have hsub : k + 1 - c.utf8Size = byteLength front + n := by
      rw [byteLength_cons] at hk
      omega
    rw [List.cons_append, hk, walk, hsub, ih, List.foldl_cons]

theorem locate_add (input : String) (h : input.toList = front ++ back) (n : Nat) :
    locate input (byteLength front + n) = (behind front).walk back n := by
  rw [locate, h, walk_append, foldl_advance]

/-- The position of a boundary is the one behind the text in front of it. -/
theorem locate_append {input : String} (h : input.toList = front ++ back) :
    locate input (byteLength front) = behind front := by
  rw [← Nat.add_zero (byteLength front), locate_add input h, walk_zero]

/-- The position of an offset behind the end is the one behind the whole text. -/
theorem locate_of_le {input : String} (h : byteLength input.toList ≤ offset) :
    locate input offset = behind input.toList := by
  rw [← Nat.add_sub_cancel' h, locate_add input (List.append_nil _).symm, walk_nil]

/-- An offset inside of a character has the position of the end of the character. -/
theorem locate_inside {input : String} {c : Char} (h : input.toList = front ++ c :: back)
    (hlt : byteLength front < offset) (hinside : offset < byteLength front + c.utf8Size) :
    locate input offset = ⟨(behind front).line, (behind front).column + 1⟩ := by
  obtain ⟨n, rfl⟩ : ∃ n, offset = byteLength front + (n + 1) :=
    ⟨offset - byteLength front - 1, by omega⟩
  have hsub : n + 1 - c.utf8Size = 0 := by omega
  have hc : c ≠ '\n' := by
    rintro rfl
    have : ('\n' : Char).utf8Size = 1 := rfl
    omega
  rw [locate_add input h, walk, hsub, walk_zero, advance, if_neg hc]

/-- **What position an offset has.** Let `o` be the last boundary at the offset or before it. If the
offset, clamped to the length of the text, is `o`, its line counts the newlines in front of `o`, and
its column the characters behind the last of them. Otherwise the offset lies inside of the character
that starts at `o`, and its position is the next one, that of the end of the character. So exactly
the offsets inside of characters do not have the position of `o`. -/
theorem locate_eq_behind (input : String) (offset : Nat) :
    ∃ o front, IsGreatest {m | IsBoundary input.toList m ∧ m ≤ offset} o ∧
      takeBytes input.toList o = some front ∧
      (locate input offset =
        if min offset (byteLength input.toList) = o then behind front
        else ⟨(behind front).line, (behind front).column + 1⟩) ∧
      (locate input offset = behind front ↔ min offset (byteLength input.toList) = o) := by
  obtain ⟨front, back, htext, hle, hlt⟩ := exists_append_of_offset input.toList offset
  have heq : locate input offset =
      if min offset (byteLength input.toList) = byteLength front then behind front
      else ⟨(behind front).line, (behind front).column + 1⟩ := by
    cases back with
    | nil =>
      rw [List.append_nil] at htext
      rw [htext, Nat.min_eq_right hle, if_pos rfl, ← htext, locate_of_le (htext ▸ hle)]
    | cons c back =>
      have hc := hlt c rfl
      have hlength :
          byteLength input.toList = byteLength front + (c.utf8Size + byteLength back) := by
        rw [htext, byteLength_append, byteLength_cons]
      rw [Nat.min_eq_left (by omega)]
      split
      · rename_i hoffset
        rw [hoffset, locate_append htext]
      · rename_i hoffset
        exact locate_inside htext (by omega) hc
  refine ⟨byteLength front, front, isGreatest_byteLength htext hle hlt,
    takeBytes_append_byteLength htext, heq, ?_⟩
  rw [heq]
  split
  · rename_i hoffset
    exact iff_of_true rfl hoffset
  · rename_i hoffset
    refine iff_of_false (fun h => ?_) hoffset
    exact absurd (congrArg column h) (Nat.succ_ne_self _)

/-- The second byte of a character has another position than the first one, where the character
starts. -/
theorem locate_second_byte :
    IsGreatest {m | IsBoundary "é".toList m ∧ m ≤ 1} 0 ∧ takeBytes "é".toList 0 = some [] ∧
      locate "é" 1 = ⟨0, 1⟩ ∧ locate "é" 1 ≠ behind [] := by
  have htext : "é".toList = [] ++ ['é'] := by decide +kernel
  refine ⟨isGreatest_byteLength htext (Nat.zero_le _) (fun c hc => ?_), takeBytes_zero _,
    by decide +kernel, by decide +kernel⟩
  obtain rfl : 'é' = c := Option.some.inj hc
  decide

end Position

end Precedence.Source
