import ControlLogic.Proofs.Text.Pattern
import ControlLogic.Text.Keyword

/-!
# The preferred match

`Pattern.run` takes the first way of matching that its continuation accepts.  `Prefers` says which
way is tried first, so that it is the one that is taken whenever it is accepted at all.

* Every way of building patterns has a rule: `prefers_one`, `Prefers.seq`, `Prefers.left`,
  `prefers_right`, `prefers_star` for the longest repetition, `Prefers.group`.
* `prefers_star_seq` gives back one character of a repetition that has taken too much.
* `prefers_lazy_seq`, `prefers_group_lazy_seq` and `prefers_group_lazyPlus_seq` stop a lazy
  repetition where what follows can match.
* `Rounds.prefers_star` repeats any pattern as long as a round can be made.
* `matchAt_of_prefers`: the match of a text is the preferred one.
* `Matches.mem_of_demands`: a character that a pattern cannot do without stands in the text.
-/

namespace ControlLogic.Text.Pattern

/-- The cursor behind a stretch `s`, with `t` still to come. -/
def Cursor.past (c : Cursor) (s t : List Char) : Cursor :=
  ⟨c.pos + s.length, s.getLast?.or c.before, t, c.marks⟩

/-- The cursor with one more thing remembered. -/
def Cursor.mark (c : Cursor) (n : Nat) (s : List Char) : Cursor :=
  { c with marks := (n, s) :: c.marks }

@[simp] theorem Cursor.rest_past (c : Cursor) (s t : List Char) : (c.past s t).rest = t := rfl

@[simp] theorem Cursor.marks_past (c : Cursor) (s t : List Char) :
    (c.past s t).marks = c.marks := rfl

@[simp] theorem Cursor.rest_mark (c : Cursor) (n : Nat) (s : List Char) :
    (c.mark n s).rest = c.rest := rfl

@[simp] theorem Cursor.marks_mark (c : Cursor) (n : Nat) (s : List Char) :
    (c.mark n s).marks = (n, s) :: c.marks := rfl

theorem Cursor.past_nil {c : Cursor} {t : List Char} (h : c.rest = t) : c.past [] t = c := by
  rw [← h]
  rfl

theorem Cursor.past_past (c : Cursor) (s s' t t' : List Char) :
    (c.past s t).past s' t' = c.past (s ++ s') t' := by
  simp only [past, List.length_append, List.getLast?_append, Option.or_assoc, Nat.add_assoc]

/-- A group remembers the stretch that it passed. -/
theorem Cursor.mark_past {c : Cursor} {s t : List Char} (hrest : c.rest = s ++ t) (n : Nat) :
    (c.past s t).mark n s = { c.past s t with
      marks := (n, c.rest.take ((c.past s t).pos - c.pos)) :: (c.past s t).marks } := by
  simp [mark, past, hrest]

/-- The run tries the way to `d` first: it takes it whenever the continuation accepts it. -/
def Prefers (a : Pattern) (c d : Cursor) : Prop :=
  ∀ ⦃β : Type⦄ (k : Cursor → Option β), (k d).isSome → a.run c k = k d

/-- No way of matching begins at the cursor. -/
def Fails (a : Pattern) (c : Cursor) : Prop :=
  ∀ ⦃β : Type⦄ (k : Cursor → Option β), a.run c k = none

theorem fails_of_not_matches {a : Pattern} {c : Cursor} (h : ∀ d, ¬ Matches a c d) :
    a.Fails c := by
  intro β k
  cases hrun : a.run c k with
  | none => rfl
  | some b =>
    obtain ⟨d, hd, -⟩ := exists_matches_of_run a _ _ _ hrun
    exact absurd hd (h d)

section Rules

variable {a b : Pattern} {c d e : Cursor} {p : Char → Bool} {x : Char} {s t : List Char}

theorem prefers_empty (c : Cursor) : Prefers .empty c c := fun _ _ _ => rfl

theorem prefers_edge (h : c.atEdge = true) : Prefers .edge c c := fun _ _ _ => if_pos h

theorem prefers_atEnd (h : c.rest = []) : Prefers .atEnd c c := fun _ _ _ => if_pos (.inl h)

/-- Looking ahead moves nowhere. -/
theorem Prefers.ahead (ha : Prefers a c d) : Prefers (.ahead a) c { c with marks := d.marks } := by
  intro β k _
  rw [run, ha some rfl]

theorem prefers_one (hrest : c.rest = x :: t) (hx : p x = true) :
    Prefers (.one p) c (c.past [x] t) := by
  intro β k _
  rw [run, hrest]
  simp [hx, Cursor.past]

theorem Prefers.seq (ha : Prefers a c d) (hb : Prefers b d e) : Prefers (.seq a b) c e := by
  intro β k hk
  rw [run, ha _ (by rwa [hb k hk]), hb k hk]

theorem Prefers.left (ha : Prefers a c d) : Prefers (.alt a b) c d := by
  intro β k hk
  obtain ⟨r, hr⟩ := Option.isSome_iff_exists.1 hk
  rw [run, ha k hk, hr]

theorem prefers_right (ha : a.Fails c) (hb : Prefers b c d) : Prefers (.alt a b) c d := by
  intro β k hk
  rw [run, ha k]
  exact hb k hk

theorem Prefers.group {n : Nat} (hrest : c.rest = s ++ t) (ha : Prefers a c (c.past s t)) :
    Prefers (.group n a) c ((c.past s t).mark n s) := by
  intro β k hk
  have hmark := Cursor.mark_past hrest n
  rw [run, ha _ (by rwa [← hmark]), ← hmark]

/-! ## Repetitions of one class -/

theorem run_star_of_head {β : Type} (k : Cursor → Option β) (hrest : c.rest = x :: t)
    (hx : p x = true) :
    (star (.one p)).run c k = ((star (.one p)).run (c.past [x] t) k).or (k c) := by
  have hlength : (c.past [x] t).rest.length = t.length := rfl
  rw [run, run, hlength, hrest, List.length_cons, repeatLong, run, hrest]
  simp only [hx, if_true, Nat.lt_succ_self]
  cases hnext : repeatLong (fun d l => (one p).run d l) (t.length + 1) (c.past [x] t) k with
  | none =>
    simp only [Cursor.past, List.length_singleton, List.getLast?_singleton, Option.some_or] at hnext
    simp [hnext]
  | some r =>
    simp only [Cursor.past, List.length_singleton, List.getLast?_singleton, Option.some_or] at hnext
    simp [hnext]

theorem run_star_of_not_head {β : Type} (k : Cursor → Option β)
    (hrest : c.rest.head?.any p = false) : (star (.one p)).run c k = k c := by
  rw [run, repeatLong, run]
  cases h : c.rest with
  | nil => rfl
  | cons y ys =>
    have hy : p y = false := by simpa [h] using hrest
    simp [hy]

/-- A repetition of one class prefers the longest stretch. -/
theorem prefers_star (hrest : c.rest = s ++ t) (hs : ∀ y ∈ s, p y = true)
    (ht : t.head?.any p = false) : Prefers (.star (.one p)) c (c.past s t) := by
  intro β k hk
  induction s generalizing c with
  | nil =>
    rw [List.nil_append] at hrest
    rw [Cursor.past_nil hrest]
    exact run_star_of_not_head k (hrest ▸ ht)
  | cons y s ih =>
    have hpast : (c.past [y] (s ++ t)).past s t = c.past (y :: s) t := Cursor.past_past ..
    have htail := ih (c := c.past [y] (s ++ t)) rfl
      (fun z hz => hs z (List.mem_cons_of_mem _ hz)) (hpast ▸ hk)
    rw [run_star_of_head k (t := s ++ t) hrest (hs y List.mem_cons_self), htail, hpast]
    obtain ⟨r, hr⟩ := Option.isSome_iff_exists.1 hk
    rw [hr, Option.some_or]

theorem prefers_star_nil (h : c.rest.head?.any p = false) : Prefers (.star (.one p)) c c :=
  fun _ k _ => run_star_of_not_head k h

theorem prefers_plus (hrest : c.rest = s ++ t) (hne : s ≠ []) (hs : ∀ y ∈ s, p y = true)
    (ht : t.head?.any p = false) : Prefers (.plus (.one p)) c (c.past s t) := by
  obtain ⟨y, s, rfl⟩ := List.exists_cons_of_ne_nil hne
  have hfirst : Prefers (.one p) c (c.past [y] (s ++ t)) :=
    prefers_one hrest (hs y List.mem_cons_self)
  have hothers : Prefers (.star (.one p)) (c.past [y] (s ++ t))
      ((c.past [y] (s ++ t)).past s t) :=
    prefers_star rfl (fun z hz => hs z (List.mem_cons_of_mem _ hz)) ht
  rw [Cursor.past_past] at hothers
  exact hfirst.seq hothers

/-- A repetition passes a character of its class if what follows can match behind it. -/
theorem Prefers.star_seq (hrest : c.rest = x :: t) (hx : p x = true)
    (h : Prefers (.seq (.star (.one p)) b) (c.past [x] t) d) :
    Prefers (.seq (.star (.one p)) b) c d := by
  intro β k hk
  have hnext := h k hk
  rw [run] at hnext ⊢
  rw [run_star_of_head _ hrest hx, hnext]
  obtain ⟨r, hr⟩ := Option.isSome_iff_exists.1 hk
  rw [hr, Option.some_or]

/-- A repetition stops where nothing could match behind the next character. -/
theorem prefers_star_seq (hstop : c.rest.head?.any p = true →
      ∃ x t, c.rest = x :: t ∧ (Pattern.seq (.star (.one p)) b).Fails (c.past [x] t))
    (hb : Prefers b c d) : Prefers (.seq (.star (.one p)) b) c d := by
  intro β k hk
  rw [run]
  cases hhead : c.rest.head?.any p with
  | false => rw [run_star_of_not_head _ hhead, hb k hk]
  | true =>
    obtain ⟨x, t, hrest, hfails⟩ := hstop hhead
    have hx : p x = true := by simpa [hrest] using hhead
    have hnone := hfails k
    rw [run] at hnone
    rw [run_star_of_head _ hrest hx, hnone, Option.none_or, hb k hk]

/-- A text is matched by itself. -/
theorem prefers_text {u : String} (hrest : c.rest = u.toList ++ t) :
    Prefers (.text u) c (c.past u.toList t) := by
  rw [text]
  generalize u.toList = s at *
  induction s generalizing c with
  | nil =>
    rw [List.nil_append] at hrest
    rw [Cursor.past_nil hrest]
    exact prefers_empty c
  | cons y s ih =>
    have hfirst : Prefers (.one (· == y)) c (c.past [y] (s ++ t)) :=
      prefers_one hrest (by simp)
    cases s with
    | nil => exact hfirst
    | cons z s =>
      have hothers := ih (c := c.past [y] (z :: s ++ t)) rfl
      rw [Cursor.past_past] at hothers
      exact hfirst.seq hothers

/-- A keyword is matched by its letters in any case. -/
theorem prefers_keyword {u : String} (hrest : c.rest = s ++ t)
    (h : afterKeyword? u.toList s = some []) : Prefers (.keyword u) c (c.past s t) := by
  rw [keyword]
  generalize u.toList = k at *
  induction k generalizing c s with
  | nil =>
    cases h
    rw [List.nil_append] at hrest
    rw [Cursor.past_nil hrest]
    exact prefers_empty c
  | cons y k ih =>
    cases s with
    | nil => cases h
    | cons z s =>
      rw [afterKeyword?] at h
      split at h
      · rename_i hz
        have hfirst : Prefers (.one (sameLetter y)) c (c.past [z] (s ++ t)) := prefers_one hrest hz
        cases k with
        | nil =>
          cases h
          exact hfirst
        | cons y' k =>
          have hothers := ih (c := c.past [z] (s ++ t)) rfl h
          rw [Cursor.past_past] at hothers
          exact hfirst.seq hothers
      · cases h

/-! ## Lazy repetitions of one class -/

theorem run_lazy_of_head {β : Type} (k : Cursor → Option β) (hrest : c.rest = x :: t)
    (hx : p x = true) :
    (lazy (.one p)).run c k = (k c).or ((lazy (.one p)).run (c.past [x] t) k) := by
  have hlength : (c.past [x] t).rest.length = t.length := rfl
  rw [run, run, hlength, hrest, List.length_cons, repeatShort, run, hrest]
  simp only [hx, if_true, Nat.lt_succ_self]
  cases k c <;> rfl

theorem run_lazy_of_some {β : Type} (k : Cursor → Option β) (hk : (k c).isSome) :
    (lazy (.one p)).run c k = k c := by
  obtain ⟨r, hr⟩ := Option.isSome_iff_exists.1 hk
  rw [run, repeatShort, hr]

/-- A lazy repetition stops at the first place that is accepted. -/
theorem run_lazy_append {β : Type} (k : Cursor → Option β) (hrest : c.rest = s ++ t)
    (hs : ∀ y ∈ s, p y = true)
    (hnone : ∀ u v, s = u ++ v → v ≠ [] → k (c.past u (v ++ t)) = none)
    (hk : (k (c.past s t)).isSome) : (lazy (.one p)).run c k = k (c.past s t) := by
  induction s generalizing c with
  | nil =>
    rw [List.nil_append] at hrest
    rw [Cursor.past_nil hrest] at hk ⊢
    exact run_lazy_of_some k hk
  | cons y s ih =>
    have hpast : ∀ u v, (c.past [y] (s ++ t)).past u v = c.past (y :: u) v :=
      fun u v => Cursor.past_past ..
    have hstop : k c = none := by
      have hstart := hnone [] (y :: s) rfl (List.cons_ne_nil y s)
      rwa [Cursor.past_nil hrest] at hstart
    rw [run_lazy_of_head k (t := s ++ t) hrest (hs y List.mem_cons_self), hstop, Option.none_or,
      ih rfl (fun z hz => hs z (List.mem_cons_of_mem _ hz)) (fun u v huv hv => ?_) (hpast s t ▸ hk),
      hpast]
    rw [hpast]
    exact hnone (y :: u) v (congrArg (y :: ·) huv) hv

/-- A lazy repetition stops at the first place behind which the rest can match. -/
theorem prefers_lazy_seq (hrest : c.rest = s ++ t) (hs : ∀ y ∈ s, p y = true)
    (hfails : ∀ (c' : Cursor) (u v : List Char), s = u ++ v → v ≠ [] → c'.rest = v ++ t →
      b.Fails c')
    (hb : Prefers b (c.past s t) d) : Prefers (.seq (.lazy (.one p)) b) c d := by
  intro β k hk
  rw [run, run_lazy_append _ hrest hs (fun u v huv hv => hfails _ u v huv hv rfl k), hb k hk]
  rwa [hb k hk]

/-- The same for a repetition in a group. -/
theorem prefers_group_lazy_seq {n : Nat} (hrest : c.rest = s ++ t) (hs : ∀ y ∈ s, p y = true)
    (hfails : ∀ (c' : Cursor) (u v : List Char), s = u ++ v → v ≠ [] → c'.rest = v ++ t →
      b.Fails c')
    (hb : Prefers b ((c.past s t).mark n s) d) :
    Prefers (.seq (.group n (.lazy (.one p))) b) c d := by
  intro β k hk
  rw [run, run, run_lazy_append _ hrest hs (fun u v huv hv => hfails _ u v huv hv rfl k),
    ← Cursor.mark_past hrest, hb k hk]
  rwa [← Cursor.mark_past hrest, hb k hk]

/-- The same for a repetition that passes at least one character. -/
theorem prefers_group_lazyPlus_seq {n : Nat} (hrest : c.rest = s ++ t) (hne : s ≠ [])
    (hs : ∀ y ∈ s, p y = true)
    (hfails : ∀ (c' : Cursor) (u v : List Char), s = u ++ v → u ≠ [] → v ≠ [] →
      c'.rest = v ++ t → b.Fails c')
    (hb : Prefers b ((c.past s t).mark n s) d) :
    Prefers (.seq (.group n (.lazyPlus (.one p))) b) c d := by
  intro β k hk
  obtain ⟨y, s, rfl⟩ := List.exists_cons_of_ne_nil hne
  have hpast : (c.past [y] (s ++ t)).past s t = c.past (y :: s) t := Cursor.past_past ..
  have hmark := Cursor.mark_past hrest n
  -- The first character is passed before the repetition begins.
  have hfirst : ∀ l : Cursor → Option β, (one p).run c l = l (c.past [y] (s ++ t)) := by
    intro l
    rw [run, hrest]
    simp [hs y List.mem_cons_self, Cursor.past]
  have hlazy := run_lazy_append (c := c.past [y] (s ++ t)) (p := p)
    (fun e => b.run { e with marks := (n, c.rest.take (e.pos - c.pos)) :: e.marks } k) rfl
    (fun z hz => hs z (List.mem_cons_of_mem _ hz))
    (fun u v huv hv => hfails _ (y :: u) v (congrArg (y :: ·) huv) (List.cons_ne_nil y u) hv rfl k)
  rw [hpast] at hlazy
  rw [run, run, lazyPlus, run, hfirst, hlazy, ← hmark, hb k hk]
  rwa [← hmark, hb k hk]

end Rules

/-! ## Repetitions of any pattern -/

theorem Prefers.matches {a : Pattern} {c d : Cursor} (h : Prefers a c d) : Matches a c d := by
  obtain ⟨e, he, heq⟩ := exists_matches_of_run a c some d (h some rfl)
  cases heq
  exact he

/-- Rounds of a repetition that are tried first, each of which passes something. -/
inductive Rounds (a : Pattern) : Cursor → Cursor → Prop where
  | nil (c : Cursor) : Rounds a c c
  | cons {c d e : Cursor} (hround : Prefers a c d) (hpos : c.pos < d.pos) (hrest : Rounds a d e) :
      Rounds a c e

/-- Rounds go on until none is left, if there are no fewer allowed than characters. -/
theorem Rounds.repeatLong_eq {a : Pattern} {c d : Cursor} (h : Rounds a c d) (hd : a.Fails d)
    {n : Nat} (hn : c.rest.length ≤ n) {β : Type} (k : Cursor → Option β) (hk : (k d).isSome) :
    repeatLong a.run n c k = k d := by
  induction h generalizing n with
  | nil c =>
    cases n with
    | zero => rfl
    | succ n => rw [repeatLong, hd]
  | cons hround hpos _ ih =>
    obtain ⟨s, hs, hlength, -⟩ := hround.matches.exists_passed a.within_true
    have hshorter := congrArg List.length hs
    rw [List.length_append] at hshorter
    cases n with
    | zero => omega
    | succ n =>
      have hnext := ih hd (n := n) (by omega) hk
      obtain ⟨r, hr⟩ := Option.isSome_iff_exists.1 hk
      rw [repeatLong, hround _ (by rw [if_pos hpos, hnext, hr]; rfl), if_pos hpos, hnext, hr]

theorem Rounds.prefers_star {a : Pattern} {c d : Cursor} (h : Rounds a c d) (hd : a.Fails d) :
    Prefers (.star a) c d := by
  intro β k hk
  rw [run]
  exact h.repeatLong_eq hd (Nat.le_succ _) k hk

/-! ## Texts -/

/-- A text matches nothing but itself. -/
theorem Matches.rest_text {u : String} {c d : Cursor} (h : Matches (.text u) c d) :
    c.rest = u.toList ++ d.rest := by
  rw [text] at h
  generalize u.toList = s at *
  induction s generalizing c with
  | nil =>
    cases h
    rfl
  | cons y s ih =>
    cases s with
    | nil =>
      cases h with | one hrest hx =>
      rw [hrest, eq_of_beq hx]
      rfl
    | cons z s =>
      cases h with | seq hfirst hothers =>
      cases hfirst with | one hrest hx =>
      have htail := ih hothers
      rw [hrest, eq_of_beq hx, List.cons_append, ← htail]

/-- A keyword matches its letters in any case and nothing else. -/
theorem Matches.rest_keyword {u : String} {c d : Cursor} (h : Matches (.keyword u) c d) :
    afterKeyword? u.toList c.rest = some d.rest := by
  rw [keyword] at h
  generalize u.toList = k at *
  induction k generalizing c with
  | nil =>
    cases h
    rfl
  | cons y k ih =>
    cases k with
    | nil =>
      cases h with | one hrest hx =>
      rw [hrest, afterKeyword?, if_pos hx]
      rfl
    | cons z k =>
      cases h with | seq hfirst hothers =>
      cases hfirst with | one hrest hx =>
      rw [hrest, afterKeyword?, if_pos hx]
      exact ih hothers

/-- The match of a text is the preferred one. -/
theorem matchAt_of_prefers {p : Pattern} {pos : Nat} {before : Option Char} {rest : List Char}
    {d : Cursor} (h : Prefers p ⟨pos, before, rest, []⟩ d) :
    p.matchAt pos before rest = some ⟨pos, rest.take (d.pos - pos), d.marks⟩ :=
  h _ rfl

/-! ## Characters that a match needs -/

/-- The pattern matches no stretch without the character. -/
def Demands (x : Char) : Pattern → Prop
  | .one p => ∀ y, p y = true → y = x
  | .seq a b => a.Demands x ∨ b.Demands x
  | .alt a b => a.Demands x ∧ b.Demands x
  | .group _ a => a.Demands x
  | .atomic a => a.Demands x
  | .empty | .star _ | .lazy _ | .edge | .atStart | .atEnd | .ahead _ => False

theorem Matches.mem_of_demands {x : Char} {p : Pattern} {c d : Cursor} (h : Matches p c d)
    (hx : p.Demands x) : x ∈ c.rest := by
  induction h with
  | empty c | starNil c | lazyNil c => exact hx.elim
  | edge _ | atStart _ | atEnd _ | ahead _ _ | starCons _ _ _ _ | lazyCons _ _ _ _ =>
    exact hx.elim
  | one hrest hy =>
    rw [hrest, hx _ hy]
    exact List.mem_cons_self
  | seq ha _ iha ihb => exact hx.elim iha fun hb => ha.rest_suffix.subset (ihb hb)
  | left _ ih => exact ih hx.1
  | right _ ih => exact ih hx.2
  | group _ ih => exact ih hx
  | atomic _ ih => exact ih hx

end ControlLogic.Text.Pattern
