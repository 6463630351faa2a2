import Precedence.Proofs.Json.Strings
import Precedence.Proofs.Number.Digits

/-!
# JSON texts

How data without real numbers is spelled as JSON, with blanks between its parts as one likes. An
integer is spelled in decimal digits with no zero in front of others; a zero with a minus sign is a
real number.

* `spells_write`: what is written for a datum spells it.
* `write_append_inj`: what is written determines the datum, whatever follows it.
-/

namespace Precedence.Json

open Precedence.Number

/-! ## Grammar -/

/-- What may stand between the parts of a text. -/
def IsBlank (ws : List Char) : Prop :=
  ∀ c ∈ ws, c = ' ' ∨ c = '\n' ∨ c = '\t' ∨ c = '\r'

mutual

/-- The ways to spell a datum. -/
inductive Spells : Json → List Char → Prop where
  | integer (n : Int) : Spells (.integer n) (toString n).toList
  | string {text : String} {w : List Char} (h : SpellsChars text.toList w) :
      Spells (.string text) ('"' :: w ++ ['"'])
  | empty {ws : List Char} (hws : IsBlank ws) : Spells (.list []) ('[' :: ws ++ [']'])
  | list {items : List Json} {w : List Char} (h : SpellsItems items w) :
      Spells (.list items) ('[' :: w ++ [']'])

/-- The ways to spell a datum with blanks around it. -/
inductive SpellsAmidBlanks : Json → List Char → Prop where
  | intro {data : Json} {ws w ws' : List Char} (hws : IsBlank ws) (h : Spells data w)
      (hws' : IsBlank ws') : SpellsAmidBlanks data (ws ++ w ++ ws')

/-- The ways to spell data with commas between them. -/
inductive SpellsItems : List Json → List Char → Prop where
  | last {item : Json} {w : List Char} (h : SpellsAmidBlanks item w) : SpellsItems [item] w
  | cons {item : Json} {items : List Json} {w ws : List Char} (h : SpellsAmidBlanks item w)
      (hs : SpellsItems items ws) : SpellsItems (item :: items) (w ++ ',' :: ws)

end

/-- The text is JSON for the datum. -/
def IsTextOf (text : String) (data : Json) : Prop :=
  SpellsAmidBlanks data text.toList

/-- There is no real number in the datum. -/
inductive IsExact : Json → Prop where
  | integer (n : Int) : IsExact (integer n)
  | string (text : String) : IsExact (string text)
  | list {items : List Json} (h : ∀ item ∈ items, IsExact item) : IsExact (list items)

variable {a b item : Json} {items items' : List Json} {s t w : List Char}

/-! ## Writing -/

theorem isBlank_nil : IsBlank [] := by
  simp [IsBlank]

theorem Spells.amidBlanks (h : Spells a w) : SpellsAmidBlanks a w := by
  have hpadded := SpellsAmidBlanks.intro isBlank_nil h isBlank_nil
  rwa [List.nil_append, List.append_nil] at hpadded

theorem spellsItems_writeItems (hne : items ≠ []) (h : ∀ item ∈ items, Spells item item.write) :
    SpellsItems items (writeItems items) := by
  induction items with
  | nil => exact absurd rfl hne
  | cons item rest ih =>
    have hitem := (h item List.mem_cons_self).amidBlanks
    cases rest with
    | nil => exact .last hitem
    | cons next rest =>
      exact .cons hitem (ih (List.cons_ne_nil _ _) fun i hi => h i (List.mem_cons_of_mem _ hi))

/-- **What is written for a datum spells it.** -/
theorem spells_write (h : IsExact a) : Spells a a.write := by
  induction h with
  | integer n => exact .integer n
  | string text => exact .string (spellsChars_escape text.toList)
  | @list items _ ih =>
    by_cases hitems : items = []
    · subst hitems
      exact .empty isBlank_nil
    · exact .list (spellsItems_writeItems hitems ih)

/-! ## What is written is told apart -/

/-- A natural number begins with a digit. -/
theorem repr_append_eq_cons (n : Nat) (s : List Char) :
    ∃ c cs, n.repr.toList ++ s = c :: cs ∧ c.isDigit = true := by
  have hdigits := isDigits_repr n
  obtain ⟨c, cs, hcons⟩ := List.exists_cons_of_ne_nil hdigits.nonempty
  exact ⟨c, cs ++ s, by rw [hcons]; rfl, hdigits.digits c (hcons ▸ List.mem_cons_self)⟩

theorem repr_append_ne_sign (n : Nat) : n.repr.toList ++ s ≠ '-' :: t := by
  obtain ⟨c, cs, hcons, hc⟩ := repr_append_eq_cons n s
  rw [hcons]
  intro h
  rw [(List.cons_eq_cons.mp h).1] at hc
  exact absurd hc (by decide)

/-- An integer begins with a sign or a digit. -/
theorem toString_append_eq_cons (n : Int) (s : List Char) :
    ∃ c cs, (toString n).toList ++ s = c :: cs ∧ (c = '-' ∨ c.isDigit = true) := by
  rw [toList_toString]
  by_cases hn : n < 0
  · exact ⟨'-', n.natAbs.repr.toList ++ s, by rw [if_pos hn]; rfl, .inl rfl⟩
  · obtain ⟨c, cs, hcons, hc⟩ := repr_append_eq_cons n.natAbs s
    exact ⟨c, cs, by rw [if_neg hn]; exact hcons, .inr hc⟩

theorem toString_append_ne (n : Int) {c : Char} (hc : c ≠ '-' ∧ c.isDigit = false) :
    (toString n).toList ++ s ≠ c :: t := by
  obtain ⟨d, ds, hcons, hd⟩ := toString_append_eq_cons n s
  rw [hcons]
  intro h
  rw [(List.cons_eq_cons.mp h).1] at hd
  rcases hd with hd | hd
  · exact hc.1 hd
  · exact absurd (hc.2.symm.trans hd) Bool.false_ne_true

/-- An integer is told apart from what stands behind it, if no digit does. -/
theorem toString_append_inj {n m : Int} (hs : ∀ c ∈ s.head?, c.isDigit = false)
    (ht : ∀ c ∈ t.head?, c.isDigit = false)
    (h : (toString n).toList ++ s = (toString m).toList ++ t) : n = m ∧ s = t := by
  rw [toList_toString, toList_toString] at h
  by_cases hn : n < 0 <;> by_cases hm : m < 0
  · rw [if_pos hn, if_pos hm] at h
    obtain ⟨habs, hst⟩ := repr_append_inj hs ht (List.cons_eq_cons.mp h).2
    exact ⟨by omega, hst⟩
  · rw [if_pos hn, if_neg hm] at h
    exact absurd h.symm (repr_append_ne_sign _)
  · rw [if_neg hn, if_pos hm] at h
    exact absurd h (repr_append_ne_sign _)
  · rw [if_neg hn, if_neg hm] at h
    obtain ⟨habs, hst⟩ := repr_append_inj hs ht h
    exact ⟨by omega, hst⟩

/-- What stands behind an item up to the end of its list. -/
def writeBehind : List Json → List Char
  | [] => []
  | next :: rest => ',' :: writeItems (next :: rest)

theorem writeItems_cons (item : Json) (items : List Json) :
    writeItems (item :: items) = item.write ++ writeBehind items := by
  cases items with
  | nil => exact (List.append_nil _).symm
  | cons next rest => rfl

/-- No item begins like the end of a list. -/
theorem writeItems_append_ne (ha : IsExact a) : writeItems (a :: items) ++ s ≠ ']' :: t := by
  rw [writeItems_cons]
  cases ha with
  | integer n =>
    rw [write, List.append_assoc]
    exact toString_append_ne n (by decide)
  | string text => simp [write, writeString]
  | list h => simp [write]

/-- Lists of items are told apart if the items are. -/
theorem writeItems_append_inj (hitems : ∀ item ∈ items, IsExact item)
    (hitems' : ∀ item ∈ items', IsExact item)
    (ih : ∀ a ∈ items, ∀ {b s t}, IsExact b → (∀ c ∈ s.head?, c.isDigit = false) →
      (∀ c ∈ t.head?, c.isDigit = false) → a.write ++ s = b.write ++ t → a = b ∧ s = t)
    (h : writeItems items ++ ']' :: s = writeItems items' ++ ']' :: t) :
    items = items' ∧ s = t := by
  have hbehind : ∀ (rest : List Json) (u : List Char),
      ∀ c ∈ (writeBehind rest ++ ']' :: u).head?, c.isDigit = false := by
    intro rest u c hc
    cases rest <;> cases hc <;> decide
  induction items generalizing items' with
  | nil =>
    cases items' with
    | nil => exact ⟨rfl, (List.cons_eq_cons.mp h).2⟩
    | cons b rest' => exact absurd h.symm (writeItems_append_ne (hitems' b List.mem_cons_self))
  | cons a rest ihrest =>
    cases items' with
    | nil => exact absurd h (writeItems_append_ne (hitems a List.mem_cons_self))
    | cons b rest' =>
      rw [writeItems_cons, writeItems_cons, List.append_assoc, List.append_assoc] at h
      obtain ⟨hab, hrests⟩ := ih a List.mem_cons_self (hitems' b List.mem_cons_self)
        (hbehind rest s) (hbehind rest' t) h
      -- A comma stands behind the item in both lists or in none.
      have hrest : writeItems rest ++ ']' :: s = writeItems rest' ++ ']' :: t := by
        cases rest with
        | nil =>
          cases rest' with
          | nil => exact hrests
          | cons next' rest' => cases hrests
        | cons next rest =>
          cases rest' with
          | nil => cases hrests
          | cons next' rest' => exact (List.cons_eq_cons.mp hrests).2
      obtain ⟨rfl, hst⟩ := ihrest (fun item hi => hitems item (List.mem_cons_of_mem _ hi))
        (fun item hi => hitems' item (List.mem_cons_of_mem _ hi))
        (fun item hi => ih item (List.mem_cons_of_mem _ hi)) hrest
      exact ⟨by rw [hab], hst⟩

/-- **What is written determines the datum**, and where it ends, if no digit stands behind it. -/
theorem write_append_inj (ha : IsExact a) (hb : IsExact b) (hs : ∀ c ∈ s.head?, c.isDigit = false)
    (ht : ∀ c ∈ t.head?, c.isDigit = false) (h : a.write ++ s = b.write ++ t) : a = b ∧ s = t := by
  induction ha generalizing b s t with
  | integer n =>
    cases hb with
    | integer m =>
      obtain ⟨rfl, hst⟩ := toString_append_inj hs ht h
      exact ⟨rfl, hst⟩
    | string text => exact absurd h (toString_append_ne n (by decide))
    | list _ => exact absurd h (toString_append_ne n (by decide))
  | string text =>
    cases hb with
    | integer m => exact absurd h.symm (toString_append_ne m (by decide))
    | string text' =>
      obtain ⟨htext, hst⟩ := writeString_append_inj h
      exact ⟨congrArg string (String.toList_inj.mp htext), hst⟩
    | list _ => simp [write, writeString] at h
  | @list items hitems ih =>
    cases hb with
    | integer m => exact absurd h.symm (toString_append_ne m (by decide))
    | string text => simp [write, writeString] at h
    | list hitems' =>
      simp only [write, List.cons_append, List.append_assoc, List.cons_eq_cons, true_and,
        List.nil_append] at h
      obtain ⟨rfl, hst⟩ := writeItems_append_inj hitems hitems' ih h
      exact ⟨rfl, hst⟩

end Precedence.Json
