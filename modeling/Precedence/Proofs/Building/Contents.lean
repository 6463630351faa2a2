import Precedence.Proofs.Building.Calls

/-!
# What calls put into a table

Of all the calls of a grammar only the registrations that succeed have a say in its table. The ids
stand in the order in which they were named first, and the symbol of an id is what the registrations
of that id make of it one after the other.

* `isClassId_iff`: the ids of token classes are names in parentheses.
* `Registration.ids_build`: a registration adds its id behind all others, or finds it.
* `IsTold.register`, `IsTold.after`: what one registration, and what any calls, preserve.
* `index?_of_mem_registered`: the index that a registration gives to an id is its index for good.
* `power_told`, `pattern?_told`: powers are maxima, and the first regular expression counts.
* `built_told`: the table that calls build, ids, indices, powers and patterns.
-/

namespace Precedence

variable {V : Type}

/-- The first of equal elements is kept. -/
theorem eraseDups_concat (l : List String) (a : String) :
    (l ++ [a]).eraseDups =
      if a ∈ l.eraseDups then l.eraseDups else l.eraseDups ++ [a] := by
  rw [List.eraseDups_append, List.removeAll, List.filter_cons]
  by_cases h : a ∈ l
  · simp [h, List.mem_eraseDups]
  · simp [h, List.mem_eraseDups, List.eraseDups_cons]

/-- The ids of token classes are names in parentheses. -/
theorem isClassId_iff {id : String} :
    isClassId id = true ↔ ∃ name, name ≠ "" ∧ id = classId name := by
  constructor
  · intro h
    simp only [isClassId, Bool.and_eq_true, decide_eq_true_eq, beq_iff_eq] at h
    obtain ⟨⟨hsize, hhead⟩, hlast⟩ := h
    obtain ⟨front, hfront⟩ := List.getLast?_eq_some_iff.mp hlast
    rw [hfront] at hhead
    cases front with
    | nil => cases hhead
    | cons c name =>
      cases hhead
      have hid : id = classId (String.ofList name) := by
        refine String.toList_inj.mp ?_
        rw [hfront]
        simp [classId]
      refine ⟨String.ofList name, fun hempty => ?_, hid⟩
      rw [hid, hempty] at hsize
      exact absurd hsize (by decide)
  · rintro ⟨name, hne, rfl⟩
    exact Build.isClassId_classId (by simpa using hne)

namespace Grammar

variable {g g' : Grammar V} {id : String} {i power : Nat} {f : Symbol V → Symbol V}

/-! ## Ids -/

/-- The ids of the table, in its order. -/
def ids (g : Grammar V) : List String :=
  g.symbols.map (·.id)

theorem ids_change (hf : ∀ s : Symbol V, (f s).id = s.id) : (g.change i f).ids = g.ids :=
  map_id_modify hf g.symbols i

theorem ids_raise : (g.raise i power).ids = g.ids := by
  unfold raise
  split
  · exact ids_change (f := fun s => { s with power := power }) fun _ => rfl
  · rfl

theorem ids_append (g : Grammar V) (s : Symbol V) : (g.append s).ids = g.ids ++ [s.id] :=
  List.map_append

theorem index?_eq_none_iff_ids : g.index? id = none ↔ id ∉ g.ids := by
  simp [index?, ids]

theorem mem_ids_of_index? (h : g.index? id = some i) : id ∈ g.ids := by
  obtain ⟨s, hs⟩ := find?_of_index? h
  rw [← id_of_find? hs]
  exact List.mem_map_of_mem (List.mem_of_find?_eq_some hs)

/-- Where no id stands twice every symbol is the one of its id. -/
theorem find?_of_mem (h : g.ids.Nodup) {s : Symbol V} (hs : s ∈ g.symbols) :
    g.find? s.id = some s := by
  obtain ⟨before, behind, hsymbols⟩ := List.append_of_mem hs
  rw [ids, hsymbols, List.map_append, List.nodup_append] at h
  have hbefore : before.find? (·.id == s.id) = none := by
    refine List.find?_eq_none.mpr fun s' hs' heq => ?_
    exact h.2.2 _ (List.mem_map_of_mem hs') _ List.mem_cons_self (by simpa using heq)
  rw [find?, hsymbols, List.find?_append, hbefore, List.find?_cons]
  simp

/-- Nothing has been said of any id but how its own text is recognized. -/
theorem known_initial (id : String) : (initial : Grammar V).known id =
    Symbol.fresh id (if isClassId id then none else some (.literal id)) := by
  by_cases h : id = endId
  · subst h
    rfl
  · have hfind : (initial : Grammar V).find? id = none := by
      simp [find?, initial, Symbol.fresh, Ne.symm h]
    rw [known, hfind, Option.getD_none]

/-- The ids are those from before, or those and a new one. -/
def Gains (id : String) (before now : List String) : Prop :=
  now = before ∨ id ∉ before ∧ now = before ++ [id]

theorem Gains.add {ids ids' : List String} (h : Gains id ids ids') (hnew : id ∉ ids') :
    Gains id ids (ids' ++ [id]) := by
  rcases h with rfl | ⟨-, rfl⟩
  · exact .inr ⟨hnew, rfl⟩
  · exact absurd (List.mem_append_right _ (List.mem_singleton_self id)) hnew

end Grammar

namespace Registration

open Grammar

variable [Term V] {r : Registration V} {g g' : Grammar V} {i : Nat}

/-- Whatever a registration does, it adds at most its id. -/
theorem gains_build (r : Registration V) (g : Grammar V) :
    Gains r.target g.ids (r.build.on g).2.ids := by
  refine r.build_preserves (P := fun g' => Gains r.target g.ids g'.ids) (fun j f hf g' h => ?_)
    (fun power _ g' h => ?_) (fun name source _ hname g' h => ?_) (.inl rfl)
  · rwa [ids_change hf.changesActions.id]
  · refine Build.symbol_preserves (P := fun g' => Gains r.target g.ids g'.ids)
      (fun j _ _ => ?_) (fun _ hnew => ?_) h
    · rwa [ids_raise]
    · rw [ids_raise, ids_append, id_known]
      exact h.add (index?_eq_none_iff_ids.mp hnew)
  · refine Build.token_preserves (P := fun g' => Gains r.target g.ids g'.ids)
      (fun j _ _ => ?_) (fun hnew => ?_) h
    · have hids := ids_change (g := g') (i := j)
        (f := fun s => { s with pattern? := some (.regex source) }) fun _ => rfl
      exact (congrArg (Gains r.target g.ids) hids).mpr h
    · rw [ids_append, ← hname]
      rw [← hname] at h
      exact h.add (index?_eq_none_iff_ids.mp hnew)

/-- **A registration adds its id behind all others,** or finds it in the table. -/
theorem ids_build (h : r.build.on g = (.ok i, g')) :
    g'.ids = if r.target ∈ g.ids then g.ids else g.ids ++ [r.target] := by
  have hgains := r.gains_build g
  have hmem : r.target ∈ g'.ids := mem_ids_of_index? (amends h).index
  rw [h] at hgains
  rcases hgains with hsame | ⟨hnew, hadded⟩
  · rw [if_pos (hsame ▸ hmem)]
    exact hsame
  · rw [if_neg hnew]
    exact hadded

/-- Where no id stands twice none does after a registration. -/
theorem nodup_build (hn : g.ids.Nodup) (h : r.build.on g = (.ok i, g')) : g'.ids.Nodup := by
  rw [ids_build h]
  split
  · exact hn
  · rename_i hnew
    refine List.nodup_append.mpr ⟨hn, by simp, fun id hid id' hid' heq => ?_⟩
    rw [heq, List.mem_singleton.mp hid'] at hid
    exact hnew hid

end Registration

/-! ## What registrations say -/

section Told

open Grammar

variable [Term V] {rs : List (Registration V)} {r : Registration V} {g g' : Grammar V}
variable {id : String} {i : Nat}

/-- What registrations make of the symbol of an id, one after the other. -/
def told (rs : List (Registration V)) (id : String) : Symbol V :=
  (rs.filter (·.target == id)).foldl (fun s r => r.revise s) ((initial : Grammar V).known id)

theorem told_concat (rs : List (Registration V)) (r : Registration V) (id : String) :
    told (rs ++ [r]) id = if r.target = id then r.revise (told rs id) else told rs id := by
  unfold told
  rw [List.filter_append, List.foldl_append]
  by_cases h : r.target = id
  · simp [h]
  · simp [h]

/-- The table says what the registrations have said. -/
structure IsTold (rs : List (Registration V)) (g : Grammar V) : Prop where
  ids : g.ids = (endId :: rs.map (·.target)).eraseDups
  nodup : g.ids.Nodup
  known : ∀ id, g.known id = told rs id

namespace IsTold

theorem initial : IsTold [] (initial : Grammar V) :=
  ⟨rfl, List.nodup_cons.mpr ⟨List.not_mem_nil, List.nodup_nil⟩, fun _ => rfl⟩

theorem congr (h : IsTold rs g) (hs : g.symbols = g'.symbols) : IsTold rs g' := by
  have hids : g'.ids = g.ids := by rw [Grammar.ids, Grammar.ids, hs]
  refine ⟨hids.trans h.ids, hids ▸ h.nodup, fun id => ?_⟩
  rw [← h.known, Grammar.known, Grammar.known, find?, find?, hs]

/-- Every symbol is what the registrations of its id make of it. -/
theorem eq_told (h : IsTold rs g) {s : Symbol V} (hs : s ∈ g.symbols) : s = told rs s.id := by
  rw [← h.known, Grammar.known, find?_of_mem h.nodup hs, Option.getD_some]

/-- **A registration has its say** if it succeeds. -/
theorem register (h : IsTold rs g) (hr : r.build.on g = (.ok i, g')) :
    IsTold (rs ++ [r]) g' := by
  have ha := r.amends hr
  have hids := Registration.ids_build hr
  refine ⟨?_, Registration.nodup_build h.nodup hr, fun id => ?_⟩
  · rw [List.map_append, ← List.cons_append]
    rw [h.ids] at hids
    exact hids.trans (eraseDups_concat _ _).symm
  · rw [told_concat]
    split
    · rename_i ht
      rw [← ht, ha.known, h.known]
    · rename_i ht
      rw [← h.known, Grammar.known, Grammar.known, ha.others id (Ne.symm ht)]

end IsTold

/-! ## Powers and patterns -/

/-- **A power is the greatest one** that registrations have given to the id. -/
theorem power_told (rs : List (Registration V)) (id : String) :
    (told rs id).power = ((rs.filter (·.target == id)).map (·.power)).foldl max 0 := by
  have hpower : ((initial : Grammar V).known id).power = 0 := by
    rw [known_initial]
    rfl
  rw [told, List.foldl_map, ← hpower]
  exact (List.foldl_hom (fun s : Symbol V => s.power) fun _ _ => rfl).symm

/-- **The first regular expression counts** that a registration has given to a token class. All
other ids are recognized by their own texts. -/
theorem pattern?_told (rs : List (Registration V)) (id : String) :
    (told rs id).pattern? =
      if isClassId id then
        ((rs.filter (·.target == id)).findSome? (·.source?)).map .regex
      else some (.literal id) := by
  have hfold : ∀ (l : List (Registration V)) (s : Symbol V),
      (l.foldl (fun s r => r.revise s) s).pattern? =
        s.pattern?.or ((l.findSome? (·.source?)).map .regex) := by
    intro l
    induction l with
    | nil => exact fun s => (Option.or_none).symm
    | cons r l ih =>
      intro s
      rw [List.foldl_cons, ih, List.findSome?_cons]
      show (s.pattern?.or (r.source?.map .regex)).or _ = _
      rw [Option.or_assoc]
      cases r.source? <;> rfl
  rw [told, hfold, known_initial, Symbol.fresh]
  split <;> rfl

/-! ## Calls -/

/-- The registration that a call is, with the index that it gives, if it succeeds. -/
def Call.registered? : Call V → Answer V → Option (Registration V × Nat)
  | .register r, .registered (.ok i) => some (r, i)
  | _, _ => none

/-- The registrations among calls that succeed, with the indices that they give. -/
def registered (calls : List (Call V)) (answers : List (Answer V)) :
    List (Registration V × Nat) :=
  (calls.zip answers).filterMap fun p => p.1.registered? p.2

/-- A call is a registration that succeeds, or leaves the symbols as they are. -/
theorem Call.on_cases (c : Call V) (g : Grammar V) :
    (∃ r i, c.registered? (c.on g).1 = some (r, i) ∧ r.build.on g = (.ok i, (c.on g).2)) ∨
      c.registered? (c.on g).1 = none ∧ g.symbols = (c.on g).2.symbols := by
  cases c with
  | register r =>
    rcases hb : r.build.on g with ⟨e | i, g'⟩
    · right
      simp [Call.on, hb, registered?, r.eq_of_error hb]
    · left
      exact ⟨r, i, by simp [Call.on, hb, registered?], by simp [Call.on, hb]⟩
  | setMaxDepth depth => exact .inr ⟨rfl, rfl⟩
  | compile => exact .inr ⟨rfl, g.sameTable_compile.symbols⟩
  | parse input => exact .inr ⟨rfl, g.sameTable_compile.symbols⟩

theorem registered_cons (c : Call V) (calls : List (Call V)) (g : Grammar V) :
    registered (c :: calls) (g.answers (c :: calls)) =
      (c.registered? (c.on g).1).toList ++ registered calls ((c.on g).2.answers calls) := by
  rw [answers, registered, List.zip_cons_cons, List.filterMap_cons]
  cases c.registered? (c.on g).1 <;> rfl

/-- **Of calls the registrations that succeed have their say.** -/
theorem IsTold.after (h : IsTold rs g) (calls : List (Call V)) :
    IsTold (rs ++ (registered calls (g.answers calls)).map (·.1)) (g.after calls) := by
  induction calls generalizing rs g with
  | nil => exact (List.append_nil rs).symm ▸ h
  | cons c calls ih =>
    rw [registered_cons, List.map_append, ← List.append_assoc]
    rcases c.on_cases g with ⟨r, i, hc, hb⟩ | ⟨hc, hs⟩
    · rw [hc]
      exact ih (h.register hb)
    · rw [hc]
      exact ih (by simpa using h.congr hs)

/-- An index is never given to another id. -/
theorem after_index? (h : g.index? id = some i) (calls : List (Call V)) :
    (g.after calls).index? id = some i := by
  refine after_preserves (P := fun g => g.index? id = some i) (fun r _ g h => ?_)
    (fun g g' hs h => ?_) h
  · rcases hb : r.build.on g with ⟨e | j, g'⟩
    · rw [r.eq_of_error hb]
      exact h
    · exact (r.amends hb).kept id i h
  · rw [← h, index?, index?, hs]

/-- **The index that a registration gives to an id** is its index for good. -/
theorem index?_of_mem_registered {calls : List (Call V)}
    (h : (r, i) ∈ registered calls (g.answers calls)) :
    (g.after calls).index? r.target = some i := by
  induction calls generalizing g with
  | nil => exact absurd h List.not_mem_nil
  | cons c calls ih =>
    rw [registered_cons] at h
    rcases List.mem_append.mp h with h | h
    · rcases c.on_cases g with ⟨r', j, hc, hb⟩ | ⟨hc, -⟩
      · rw [hc] at h
        cases List.mem_singleton.mp h
        exact after_index? (r.amends hb).index calls
      · rw [hc] at h
        exact absurd h List.not_mem_nil
    · exact ih h

/-- **A table says what calls have said.** Only registrations that succeed count. The ids are that
of the end of the text and those that were registered, each of them once, in the order of their
first registrations. The index that a registration gives to an id is what all later calls find, and what
all other registrations of the id give. The power of a symbol is the greatest one that was given to
its id, or zero. Its pattern is its own text unless the id is a name in parentheses, and then the
regular expression that was given first, if any. -/
theorem built_told (calls : List (Call V)) :
    let done := registered calls ((initial : Grammar V).answers calls)
    let said := fun id => (done.map (·.1)).filter (·.target == id)
    ((built calls).ids = (endId :: done.map (·.1.target)).eraseDups ∧ (built calls).ids.Nodup) ∧
    (∀ r i, (r, i) ∈ done →
      (∀ later, (built (calls ++ later)).index? r.target = some i) ∧
      ∀ r' j, (r', j) ∈ done → r'.target = r.target → j = i) ∧
    ∀ s ∈ (built calls).symbols,
      s.power = ((said s.id).map (·.power)).foldl max 0 ∧
      (s.pattern? = some (.literal s.id) ↔ ∀ name, name ≠ "" → s.id ≠ classId name) ∧
      ∀ name, name ≠ "" → s.id = classId name →
        s.pattern? = ((said s.id).findSome? (·.source?)).map .regex := by
  intro done said
  have htold : IsTold (done.map (·.1)) (built calls) := IsTold.initial.after calls
  have hids := htold.ids
  rw [List.map_map] at hids
  refine ⟨⟨hids, htold.nodup⟩, fun r i hr => ⟨fun later => ?_, fun r' j hr' ht => ?_⟩,
    fun s hs => ?_⟩
  · rw [built, after_append]
    exact after_index? (index?_of_mem_registered hr) later
  · have hi := index?_of_mem_registered hr
    rw [← ht, index?_of_mem_registered hr'] at hi
    exact Option.some.inj hi
  · have hsymbol := htold.eq_told hs
    have hpower := (congrArg (·.power) hsymbol).trans (power_told _ _)
    have hpattern := (congrArg (·.pattern?) hsymbol).trans (pattern?_told _ _)
    refine ⟨hpower, ?_, fun name hne hid => ?_⟩
    · by_cases hclass : isClassId s.id = true
      · obtain ⟨name, hne, hid⟩ := isClassId_iff.mp hclass
        rw [if_pos hclass] at hpattern
        refine ⟨fun hliteral => ?_, fun hno => absurd hid (hno name hne)⟩
        rw [hpattern] at hliteral
        obtain ⟨source, -, hregex⟩ := Option.map_eq_some_iff.mp hliteral
        cases hregex
      · rw [if_neg hclass] at hpattern
        exact ⟨fun _ name hne hid => hclass (isClassId_iff.mpr ⟨name, hne, hid⟩), fun _ => hpattern⟩
    · rw [if_pos (isClassId_iff.mpr ⟨name, hne, hid⟩)] at hpattern
      exact hpattern

end Told

end Precedence
