import Precedence.Proofs.Parsing.Layouts
import Precedence.Proofs.Shunting

/-!
# Readings

Words are what a parse sees of tokens: their symbols and their texts. `Recognizer.Spells` says that
a recognizer finds certain words in a text. `Grammar.ReadsAs` says that words are read as a value in
every expression that is asked for operators tighter than `least`, whatever stands behind the words,
if that binds no tighter than `most`, and under every limit to the depth that leaves room for what
the words nest.

* `ReadsAs.applied`: words, an operator and words are read as the operator applied to both.
* `ReadsAs.parse`: what is read as a value is parsed as that value.
* `Confines.of_parse`: what holds of whatever is read of the words holds of what is parsed.
-/

namespace Precedence

open Precedence.Source Precedence.Text

/-- A symbol, and the text of a token of it. -/
abbrev Word : Type :=
  Nat × String

/-- What a parse sees of a token. -/
def Token.word (t : Token) : Word :=
  (t.symbol, t.text)

/-- The word of a piece of a text. -/
def Piece.word (p : Piece) : Word :=
  (p.symbol, String.ofList p.part)

theorem Piece.word_tokens (ps : List Piece) (offset : Nat) :
    (Piece.tokens offset ps).map Token.word = ps.map Piece.word := by
  induction ps generalizing offset with
  | nil => rfl
  | cons p ps ih =>
    rw [Piece.tokens, List.map_cons, ih]
    rfl

namespace Recognizer

variable {r : Recognizer} {text : List Char} {ws : List Word}

/-- The recognizer finds the words in the text, with blanks where one likes. -/
inductive Spells (r : Recognizer) : List Char → List Word → Prop
  | nil : Spells r [] []
  | blank {x : Char} {text : List Char} {ws : List Word} (hx : isBlank x = true)
    (h : Spells r text ws) : Spells r (x :: text) ws
  | word {symbol : Nat} {part text : List Char} {ws : List Word}
    (hpart : ∃ d ds, part = d :: ds ∧ isBlank d = false)
    (hf : ∀ before, r.first? before (part ++ text) = some (symbol, part.length))
    (h : Spells r text ws) : Spells r (part ++ text) ((symbol, String.ofList part) :: ws)

/-- What is spelled is laid out in pieces. -/
theorem Spells.exists_cuts (h : r.Spells text ws) :
    ∃ ps rest, text = Piece.layout ps ++ rest ∧ r.Cuts ps rest ∧
      (∀ x ∈ rest, isBlank x = true) ∧ ps.map Piece.word = ws := by
  induction h with
  | nil => exact ⟨[], [], rfl, .nil [], by simp, rfl⟩
  | @blank x text ws hx _ ih =>
    obtain ⟨ps, rest, rfl, hcuts, hrest, hws⟩ := ih
    -- The blank belongs to the first piece, or to what is behind all of them.
    cases hcuts with
    | nil rest =>
      refine ⟨[], x :: rest, rfl, .nil _, fun y hy => ?_, hws⟩
      rcases List.mem_cons.mp hy with rfl | hy
      · exact hx
      · exact hrest y hy
    | @cons p ps rest hblanks hpart hf hcuts =>
      refine ⟨⟨p.symbol, x :: p.blanks, p.part⟩ :: ps, rest, ?_, .cons (fun y hy => ?_) hpart hf
        hcuts, hrest, hws⟩
      · rw [Piece.layout_cons, Piece.layout_cons]
        rfl
      · rcases List.mem_cons.mp hy with rfl | hy
        · exact hx
        · exact hblanks y hy
  | @word symbol part text ws hpart hf _ ih =>
    obtain ⟨ps, rest, rfl, hcuts, hrest, hws⟩ := ih
    refine ⟨⟨symbol, [], part⟩ :: ps, rest, ?_, .cons (by simp) hpart hf hcuts, hrest, ?_⟩
    · rw [Piece.layout_cons, List.nil_append, List.append_assoc]
    · rw [List.map_cons, hws]
      rfl

/-- **What is spelled is scanned**, up to the end of the text. -/
theorem Spells.scan (hr : r.IsProgressive) {input : String} (h : r.Spells input.toList ws) :
    (r.scan input).tokens.map Token.word = ws ∧ (r.scan input).ending.symbol? = some 0 := by
  obtain ⟨ps, rest, htext, hcuts, hrest, hws⟩ := h.exists_cuts
  rw [hcuts.scan_eq hr hrest htext]
  exact ⟨(Piece.word_tokens ps 0).trans hws, rfl⟩

end Recognizer

/-! ## Words ahead -/

/-- How tightly the first of the words binds, or else the end of the text. -/
def Context.headPower (c : Context) : List Word → Nat
  | [] => c.power 0
  | w :: _ => c.power w.1

namespace Session

variable {c : Context} {s : Session} {w : Word} {ws : List Word} {depth : Nat}

/-- The words are ahead, and the end of the text behind them. -/
structure At (ws : List Word) (depth : Nat) (s : Session) : Prop where
  words : s.upcoming.map Token.word = ws
  ending : s.ending.symbol? = some 0
  depth : s.depth = depth

theorem Alike.at {s' : Session} (h : Alike s s') (hs : s.At ws depth) : s'.At ws depth :=
  ⟨by rw [h.upcoming]; exact hs.words, by rw [h.ending]; exact hs.ending,
    h.depth.trans hs.depth⟩

theorem At.enter (hs : s.At ws depth) : s.enter.At ws (depth + 1) :=
  ⟨hs.words, hs.ending, congrArg (· + 1) hs.depth⟩

theorem At.leave (hs : s.At ws (depth + 1)) : s.leave.At ws depth :=
  ⟨hs.words, hs.ending, congrArg (· - 1) hs.depth⟩

theorem At.countNud (hs : s.At ws depth) : s.countNud.At ws depth :=
  ⟨hs.words, hs.ending, hs.depth⟩

theorem At.countLed (hs : s.At ws depth) : s.countLed.At ws depth :=
  ⟨hs.words, hs.ending, hs.depth⟩

/-- The next token is looked at, or the end of the text. -/
theorem At.peek (hs : s.At ws depth) :
    ∃ t s', s.peek c = (.ok t, s') ∧ s'.At ws depth ∧ c.power t.symbol = c.headPower ws := by
  have hwords := hs.words
  cases hu : s.upcoming with
  | cons t ts =>
    rw [hu] at hwords
    obtain ⟨s', hp, ha⟩ := peek_of_cons (c := c) hu
    refine ⟨t, s', hp, ha.at hs, ?_⟩
    rw [← hwords]
    rfl
  | nil =>
    rw [hu] at hwords
    cases he : s.ending with
    | endless t =>
      obtain ⟨s', hp, ha⟩ := peek_of_end (c := c) hu he
      have hend := hs.ending
      rw [he] at hend
      refine ⟨t, s', hp, ha.at hs, ?_⟩
      rw [← hwords, Option.some.inj hend]
      rfl
    | unrecognized span =>
      have hend := hs.ending
      rw [he] at hend
      cases hend

/-- The next token is the word that is ahead. -/
theorem At.peek_cons (hs : s.At (w :: ws) depth) :
    ∃ t s', s.peek c = (.ok t, s') ∧ t.word = w ∧ s'.At (w :: ws) depth := by
  obtain ⟨t, ts, hu, hw, -⟩ := List.map_eq_cons_iff.mp hs.words
  obtain ⟨s', hp, ha⟩ := peek_of_cons (c := c) hu
  exact ⟨t, s', hp, hw, ha.at hs⟩

/-- The word that is ahead is taken. -/
theorem At.take (hs : s.At (w :: ws) depth) :
    ∃ t s', s.take c = (.ok t, s') ∧ t.word = w ∧ s'.At ws depth := by
  obtain ⟨t, ts, hu, hw, hts⟩ := List.map_eq_cons_iff.mp hs.words
  obtain ⟨s', ht, ha⟩ := take_of_cons (c := c) hu
  refine ⟨t, s', ht, hw, ?_, ha.ending ▸ hs.ending, ha.depth.trans hs.depth⟩
  rw [ha.upcoming, Session.pass, hu]
  exact hts

variable {s' : Session} {t : Token}

theorem At.of_peek (hs : s.At ws depth) (hp : s.peek c = (.ok t, s')) :
    s'.At ws depth ∧ c.power t.symbol = c.headPower ws := by
  obtain ⟨t', s₁, hp', hs₁, hpower⟩ := hs.peek (c := c)
  rw [hp] at hp'
  cases hp'
  exact ⟨hs₁, hpower⟩

theorem At.of_peek_cons (hs : s.At (w :: ws) depth) (hp : s.peek c = (.ok t, s')) :
    t.word = w ∧ s'.At (w :: ws) depth := by
  obtain ⟨t', s₁, hp', hw, hs₁⟩ := hs.peek_cons (c := c)
  rw [hp] at hp'
  cases hp'
  exact ⟨hw, hs₁⟩

theorem At.of_take (hs : s.At (w :: ws) depth) (ht : s.take c = (.ok t, s')) :
    t.word = w ∧ s'.At ws depth := by
  obtain ⟨t', s₁, ht', hw, hs₁⟩ := hs.take (c := c)
  rw [ht] at ht'
  cases ht'
  exact ⟨hw, hs₁⟩

end Session

/-! ## Readings -/

namespace Grammar

variable {V : Type} {g : Grammar V} {c : Context} {ws us : List Word} {v u : V}
variable {least most : Nat}

/-- The words are read as the value in every expression asked for operators tighter than `least`,
if what stands behind them binds no tighter than `most`. -/
def ReadsAs (g : Grammar V) (c : Context) (ws : List Word) (v : V) (least most : Nat) : Prop :=
  ∃ nesting, ∀ limit depth rest s, s.At (ws ++ rest) depth → c.headPower rest ≤ most →
    depth + nesting ≤ limit → ∃ s', s'.At rest depth ∧
      ∀ w s'', (g.setMaxDepth limit).Resumes c v least s' w s'' →
        (g.setMaxDepth limit).Begins c least s w s''

/-- A token that stands for a value is read as it. -/
theorem readsAs_atom {w : Word} (h : ∀ t, t.word = w → g.nudAction c t = pure v) :
    g.ReadsAs c [w] v least most := by
  refine ⟨0, fun limit depth rest s hs _ _ => ?_⟩
  obtain ⟨t, s₁, ht, hw, hs₁⟩ := hs.take (c := c)
  refine ⟨s₁.countNud, hs₁.countNud, fun w s' hr => Begins.intro ht ?_ hr⟩
  rw [show (g.setMaxDepth limit).nudAction c t = g.nudAction c t from rfl, h t hw]
  exact Acts.pure v

/-- What is read as a value makes an expression, if nothing behind it continues that. -/
theorem ReadsAs.expresses (h : g.ReadsAs c ws v least most) :
    ∃ nesting, ∀ limit depth rest s, s.At (ws ++ rest) depth → c.headPower rest ≤ most →
      c.headPower rest ≤ least → depth + nesting ≤ limit → ∃ s', s'.At rest depth ∧
        (g.setMaxDepth limit).Expresses c least s v s' := by
  obtain ⟨nesting, h⟩ := h
  refine ⟨nesting + 1, fun limit depth rest s hs hmost hleast hlimit => ?_⟩
  obtain ⟨s₁, hs₁, hbegins⟩ := h limit (depth + 1) rest s.enter hs.enter hmost (by omega)
  obtain ⟨t, s₂, hp, hs₂, hpower⟩ := hs₁.peek (c := c)
  refine ⟨s₂.leave, hs₂.leave, Expresses.intro ?_ (hbegins v s₂ (Resumes.stop hp ?_))⟩
  · rw [hs.depth, maxDepth_setMaxDepth]
    omega
  · rw [hpower]
    exact hleast

/-- **Words, an operator and words are read as the operator applied to both.** -/
theorem ReadsAs.applied [Term V] {op : Operator} {w : Word}
    (hop : ∀ t, t.word = w → g.IsInfix c op t) (hv : g.ReadsAs c ws v least op.power)
    (hleast : least < op.power) (hu : g.ReadsAs c us u op.rightPower most)
    (hmost : most ≤ op.rightPower) :
    g.ReadsAs c (ws ++ w :: us) (Term.combine op v u) least most := by
  obtain ⟨nesting, hv⟩ := hv
  obtain ⟨nesting', hu⟩ := hu.expresses
  refine ⟨max nesting nesting', fun limit depth rest s hs hrest hlimit => ?_⟩
  rw [List.append_assoc] at hs
  have hpower : c.headPower (w :: us ++ rest) = op.power := (hop ⟨w.1, w.2, ⟨0, 0⟩, 0⟩ rfl).power
  obtain ⟨s₁, hs₁, hbegins⟩ := hv limit depth (w :: us ++ rest) s hs (Nat.le_of_eq hpower)
    (by omega)
  obtain ⟨t, s₂, hp, hs₂, htpower⟩ := hs₁.peek (c := c)
  obtain ⟨t', s₃, ht, hw, hs₃⟩ := hs₂.take (c := c)
  obtain ⟨s₄, hs₄, hright⟩ := hu limit depth rest s₃.countLed hs₃.countLed hrest
    (Nat.le_trans hrest hmost) (by omega)
  refine ⟨s₄, hs₄, fun x s' hr => hbegins x s' (Resumes.step hp ?_ ht ?_ hr)⟩
  · rw [htpower, hpower]
    exact hleast
  · rw [show (g.setMaxDepth limit).ledAction c t' v = g.ledAction c t' v from rfl,
      (hop t' hw).led]
    exact Acts.bind (Acts.operand hright) (Acts.pure _)

/-! ## Texts -/

/-- A parse begins with all words of the text ahead. -/
theorem at_start {r : Recognizer} (hprogressive : r.IsProgressive) {input : String}
    (hspells : r.Spells input.toList ws) :
    (Session.start (r.scan input) (byteLength input.toList)).At ws 0 := by
  obtain ⟨hwords, hending⟩ := hspells.scan hprogressive
  exact ⟨hwords, hending, rfl⟩

/-- The end of the text is as tight as the end symbol. -/
theorem endIsInert_of_at {s : Session} {depth : Nat} (hs : s.At ws depth) (hend : c.power 0 = 0) :
    EndIsInert c s := by
  intro symbol hsymbol
  rw [hs.ending] at hsymbol
  rw [← Option.some.inj hsymbol]
  exact hend

/-- **What is read as a value is parsed as that value,** under every limit to the depth that is
high enough. -/
theorem ReadsAs.parse {r : Recognizer} (hr : g.recognizer = .ok r) (hprogressive : r.IsProgressive)
    {input : String} (hend : (g.context input).power 0 = 0) (hspells : r.Spells input.toList ws)
    (h : g.ReadsAs (g.context input) ws v 0 most) :
    ∃ limit, ∀ depth, limit ≤ depth →
      ∃ stats, (g.setMaxDepth depth).parse input = some (.ok (v, stats)) := by
  have hs := at_start hprogressive hspells
  have hinert := endIsInert_of_at hs hend
  obtain ⟨nesting, h⟩ := h.expresses
  have hhead : (g.context input).headPower [] = 0 := hend
  refine ⟨nesting, fun depth hdepth => ?_⟩
  rw [← List.append_nil ws] at hs
  obtain ⟨s₁, hs₁, hexpresses⟩ := h depth 0 [] _ hs (by omega) (by omega) (by omega)
  obtain ⟨t, ht⟩ : ∃ t, s₁.ending = .endless t ∧ t.symbol = 0 := by
    have hend₁ := hs₁.ending
    cases he : s₁.ending with
    | endless t =>
      rw [he] at hend₁
      exact ⟨t, rfl, Option.some.inj hend₁⟩
    | unrecognized span =>
      rw [he] at hend₁
      cases hend₁
  obtain ⟨s₂, hp, -⟩ :=
    Session.peek_of_end (c := g.context input) (List.map_eq_nil_iff.mp hs₁.words) ht.1
  refine ⟨s₂.stats, (parse_eq_ok_iff (g := g.setMaxDepth depth) hr hinert).mpr
    ⟨s₁, t, s₂, hexpresses, hp, ?_, rfl⟩⟩
  rw [Token.isEnd, ht.2]
  rfl

/-- Whatever expression is read of the words, in front of what binds nothing, ends behind them, and
its value has the property. -/
def Confines (g : Grammar V) (c : Context) (ws : List Word) (P : V → Prop) : Prop :=
  ∀ n depth rest s v s', s.At (ws ++ rest) depth → c.headPower rest = 0 →
    g.expression c n 0 s = some (.ok v, s') → s'.At rest depth ∧ P v

/-- **Whatever is parsed of the words has the property.** -/
theorem Confines.of_parse {P : V → Prop} {r : Recognizer} (hr : g.recognizer = .ok r)
    (hprogressive : r.IsProgressive) {input : String} (hend : (g.context input).power 0 = 0)
    (hspells : r.Spells input.toList ws) (h : g.Confines (g.context input) ws P) {stats : Stats}
    (hparse : g.parse input = some (.ok (v, stats))) : P v := by
  have hs := at_start hprogressive hspells
  obtain ⟨s, t, s', ⟨n, hn⟩, -⟩ :=
    (parse_eq_ok_iff hr (endIsInert_of_at hs hend)).mp hparse
  rw [← List.append_nil ws] at hs
  exact (h n 0 [] _ v s hs hend hn).2

end Grammar

end Precedence
