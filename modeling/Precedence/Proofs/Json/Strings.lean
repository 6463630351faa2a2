import Precedence.Json.Basic
import Precedence.Json.Quotation

/-!
# Strings in JSON

How strings are spelled between their quotes: characters stand for themselves, unless they are
controls, quotes or backslashes, or for one character behind a backslash, or as UTF-16 units of four
hexadecimal digits.

* `readString_eq_some_iff`: a string is read exactly if its characters are spelled one after the
  other, up to the first quote that belongs to none of them.
* `spellsChar_escape`: an escape spells the character.
* `writeString_append_inj`: so the text of a string determines the string, whatever follows it.
-/

namespace Precedence.Json

/-- The ways to spell a character inside of a string. -/
inductive SpellsChar : Char → List Char → Prop where
  | plain {c : Char} (hcontrol : 0x20 ≤ c.toNat) (hquote : c ≠ '"') (hslash : c ≠ '\\') :
      SpellsChar c [c]
  | letter {l c : Char} (h : escaped? l = some c) : SpellsChar c ['\\', l]
  /-- A UTF-16 unit that is no half of a pair. -/
  | unit {x y z w : Char} {n : Nat} (h : hexFour? x y z w = some n)
      (hn : n < 0xD800 ∨ 0xDFFF < n) : SpellsChar (Char.ofNat n) ['\\', 'u', x, y, z, w]
  /-- The two halves of a pair. -/
  | pair {x y z w x' y' z' w' : Char} {n m : Nat} (h : hexFour? x y z w = some n)
      (hn : 0xD800 ≤ n ∧ n ≤ 0xDBFF) (h' : hexFour? x' y' z' w' = some m)
      (hm : 0xDC00 ≤ m ∧ m ≤ 0xDFFF) :
      SpellsChar (Char.ofNat ((n - 0xD800) * 0x400 + (m - 0xDC00) + 0x10000))
        ['\\', 'u', x, y, z, w, '\\', 'u', x', y', z', w']

/-- The ways to spell characters one after the other. -/
inductive SpellsChars : List Char → List Char → Prop where
  | nil : SpellsChars [] []
  | cons {c : Char} {cs w ws : List Char} (h : SpellsChar c w) (hs : SpellsChars cs ws) :
      SpellsChars (c :: cs) (w ++ ws)

variable {c : Char} {cs w text rest sofar : List Char}

/-! ## Reading -/

/-- A spelling is read as the character that it spells. -/
theorem SpellsChar.readString_append (h : SpellsChar c w) (sofar rest : List Char) :
    readString sofar (w ++ rest) = readString (c :: sofar) rest := by
  cases h with
  | plain hcontrol hquote hslash =>
    rw [List.singleton_append, readString, if_neg (Nat.not_lt.mpr hcontrol)]
    all_goals simp_all
  | @letter l c h =>
    have hu : l ≠ 'u' := by
      rintro rfl
      cases h
    rw [List.cons_append, List.singleton_append, readString, h]
    all_goals simp_all
  | @unit x y z w n h hn =>
    simp only [List.cons_append, List.nil_append, readString, h]
    rw [if_neg (by omega), if_neg (by omega)]
  | pair h hn h' hm =>
    simp only [List.cons_append, List.nil_append, readString, h, h', if_pos hn, if_pos hm]

/-- Characters are read up to the quote behind them. -/
theorem SpellsChars.readString_append (h : SpellsChars cs w) (sofar rest : List Char) :
    readString sofar (w ++ '"' :: rest) = some (sofar.reverse ++ cs, rest) := by
  induction h generalizing sofar with
  | nil => rw [List.nil_append, readString, List.append_nil]
  | cons h _ ih => rw [List.append_assoc, h.readString_append, ih]; simp

/-- One more character may be spelled in front of those that are. -/
theorem SpellsChar.exists_cons (hc : SpellsChar c w)
    (h : ∃ cs' v, SpellsChars cs' v ∧ text = v ++ '"' :: rest ∧ cs = (c :: sofar).reverse ++ cs') :
    ∃ cs' v, SpellsChars cs' v ∧ w ++ text = v ++ '"' :: rest ∧ cs = sofar.reverse ++ cs' := by
  obtain ⟨cs', v, hs, rfl, rfl⟩ := h
  exact ⟨c :: cs', w ++ v, .cons hc hs, by simp, by simp⟩

/-- What is read as a string is characters that are spelled, and a quote behind them. -/
theorem spellsChars_of_readString (h : readString sofar text = some (cs, rest)) :
    ∃ cs' w, SpellsChars cs' w ∧ text = w ++ '"' :: rest ∧ cs = sofar.reverse ++ cs' := by
  fun_induction readString sofar text with
  | case2 sofar rest' =>
    cases h
    exact ⟨[], [], .nil, rfl, (List.append_nil _).symm⟩
  | case5 sofar x y z w n hn hhigh x' y' z' w' rest' m hm hlow ih =>
    exact (SpellsChar.pair hn hhigh hm hlow).exists_cons (ih h)
  | case9 sofar x y z w rest' n hn hhigh hlow ih =>
    exact (SpellsChar.unit hn (by omega)).exists_cons (ih h)
  | case11 sofar l rest' _ c hc ih => exact (SpellsChar.letter hc).exists_cons (ih h)
  | case13 sofar c rest' hquote _ hslash hcontrol ih =>
    refine (SpellsChar.plain (Nat.not_lt.mp hcontrol) hquote ?_).exists_cons (ih h)
    rintro rfl
    -- A backslash with nothing behind it begins no spelling, and no quote follows it.
    cases rest' with
    | nil => cases h
    | cons l rest' => exact hslash l rest' rfl rfl
  | case1 | case3 | case4 | case6 | case7 | case8 | case10 | case12 => cases h

/-- **A string is read exactly if it is spelled**, up to the first quote behind it. -/
theorem readString_eq_some_iff : readString [] text = some (cs, rest) ↔
    ∃ w, SpellsChars cs w ∧ text = w ++ '"' :: rest := by
  constructor
  · intro h
    obtain ⟨cs', w, hs, htext, rfl⟩ := spellsChars_of_readString h
    exact ⟨w, hs, htext⟩
  · rintro ⟨w, hs, rfl⟩
    exact hs.readString_append [] rest

/-! ## Writing -/

theorem hexFour?_control : ∀ n < 0x20,
    hexFour? '0' '0' (Nat.digitChar (n / 16)) (Nat.digitChar (n % 16)) = some n := by
  decide

/-- An escape spells the character. -/
theorem spellsChar_escape (c : Char) : SpellsChar c (escape c) := by
  unfold escape
  split
  case h_8 _ hquote hslash _ _ _ _ _ =>
    split
    · rename_i hcontrol
      have hunit := SpellsChar.unit (hexFour?_control c.toNat hcontrol) (by omega)
      rwa [Char.ofNat_toNat] at hunit
    · rename_i hcontrol
      exact .plain (Nat.not_lt.mp hcontrol) hquote hslash
  all_goals exact .letter rfl

theorem spellsChars_escape (cs : List Char) : SpellsChars cs (cs.flatMap escape) := by
  induction cs with
  | nil => exact .nil
  | cons c cs ih =>
    rw [List.flatMap_cons]
    exact .cons (spellsChar_escape c) ih

/-- **The text of a string determines the string**, and where it ends. -/
theorem writeString_append_inj {a b s t : List Char}
    (h : writeString a ++ s = writeString b ++ t) : a = b ∧ s = t := by
  have hread : ∀ a s : List Char, readString [] (a.flatMap escape ++ '"' :: s) = some (a, s) :=
    fun a s => readString_eq_some_iff.mpr ⟨_, spellsChars_escape a, rfl⟩
  have htext : a.flatMap escape ++ '"' :: s = b.flatMap escape ++ '"' :: t := by
    simpa [writeString] using h
  have hpair := (hread a s).symm.trans (htext ▸ hread b t)
  exact ⟨congrArg Prod.fst (Option.some.inj hpair), congrArg Prod.snd (Option.some.inj hpair)⟩

end Precedence.Json
