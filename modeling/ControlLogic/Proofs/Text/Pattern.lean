import ControlLogic.Text.Pattern
import Mathlib.Data.List.Basic

/-!
# What a pattern can match

`Pattern.run` tries ways of matching in an order of preference.  `Matches` says what a way of
matching is, whatever the order: it takes a cursor to the place behind the match.

* `exists_matches_of_run`: what a run hands on is a way of matching.
* `Matches.exists_passed`: a match passes a stretch of the text, and where all classes of the
  pattern lie within a class (`Within`), so does the stretch.
* `Matches.mem_marks`: what is remembered under a number was passed by a group of this number.
* `forall_mem_group` draws the sum: the characters of a group of a match come from the text and
  lie within the classes of the groups with its number.
* `exists_matchAt_of_findFrom` and `exists_matchAt_of_mem_scanFrom`: what a search finds is a match
  at some place.
-/

namespace ControlLogic.Text.Pattern

/-- The pattern matches from one cursor to another. -/
inductive Matches : Pattern → Cursor → Cursor → Prop where
  | empty (c : Cursor) : Matches .empty c c
  | one {p : Char → Bool} {c : Cursor} {x : Char} {xs : List Char} (hrest : c.rest = x :: xs)
      (hx : p x = true) : Matches (.one p) c ⟨c.pos + 1, some x, xs, c.marks⟩
  | seq {a b : Pattern} {c d e : Cursor} (ha : Matches a c d) (hb : Matches b d e) :
      Matches (.seq a b) c e
  | left {a b : Pattern} {c d : Cursor} (ha : Matches a c d) : Matches (.alt a b) c d
  | right {a b : Pattern} {c d : Cursor} (hb : Matches b c d) : Matches (.alt a b) c d
  | starNil {a : Pattern} (c : Cursor) : Matches (.star a) c c
  | starCons {a : Pattern} {c d e : Cursor} (ha : Matches a c d) (hrest : Matches (.star a) d e) :
      Matches (.star a) c e
  | lazyNil {a : Pattern} (c : Cursor) : Matches (.lazy a) c c
  | lazyCons {a : Pattern} {c d e : Cursor} (ha : Matches a c d) (hrest : Matches (.lazy a) d e) :
      Matches (.lazy a) c e
  | group {n : Nat} {a : Pattern} {c d : Cursor} (ha : Matches a c d) :
      Matches (.group n a) c { d with marks := (n, c.rest.take (d.pos - c.pos)) :: d.marks }
  | edge {c : Cursor} (h : c.atEdge = true) : Matches .edge c c
  | atStart {c : Cursor} (h : c.pos = 0) : Matches .atStart c c
  | atEnd {c : Cursor} (h : c.rest = [] ∨ c.rest = ['\n']) : Matches .atEnd c c
  | ahead {a : Pattern} {c d : Cursor} (ha : Matches a c d) :
      Matches (.ahead a) c { c with marks := d.marks }
  | atomic {a : Pattern} {c d : Cursor} (ha : Matches a c d) : Matches (.atomic a) c d

/-! ## Runs -/

/-- What a matcher hands on is a way in which the pattern matches. -/
def Sound {β : Type} (a : Pattern) (m : Cursor → (Cursor → Option β) → Option β) : Prop :=
  ∀ c k b, m c k = some b → ∃ d, Matches a c d ∧ k d = some b

theorem Sound.repeatLong {β : Type} {a : Pattern}
    {m : Cursor → (Cursor → Option β) → Option β} (hm : Sound a m) (n : Nat) :
    Sound (.star a) (repeatLong m n) := by
  induction n with
  | zero => exact fun c k b h => ⟨c, .starNil c, h⟩
  | succ n ih =>
    intro c k b h
    rw [Pattern.repeatLong] at h
    split at h
    · rename_i b' hround
      cases h
      obtain ⟨d, hd, hnext⟩ := hm _ _ _ hround
      split at hnext
      · obtain ⟨e, he, hk⟩ := ih _ _ _ hnext
        exact ⟨e, .starCons hd he, hk⟩
      · cases hnext
    · exact ⟨c, .starNil c, h⟩

theorem Sound.repeatShort {β : Type} {a : Pattern}
    {m : Cursor → (Cursor → Option β) → Option β} (hm : Sound a m) (n : Nat) :
    Sound (.lazy a) (repeatShort m n) := by
  induction n with
  | zero => exact fun c k b h => ⟨c, .lazyNil c, h⟩
  | succ n ih =>
    intro c k b h
    rw [Pattern.repeatShort] at h
    split at h
    · rename_i b' hstop
      cases h
      exact ⟨c, .lazyNil c, hstop⟩
    · obtain ⟨d, hd, hnext⟩ := hm _ _ _ h
      split at hnext
      · obtain ⟨e, he, hk⟩ := ih _ _ _ hnext
        exact ⟨e, .lazyCons hd he, hk⟩
      · cases hnext

/-- What a run hands on is a way of matching.  The result of the continuation is of any type,
since the patterns that look ahead run their parts to a cursor. -/
theorem exists_matches_of_run (p : Pattern) : ∀ {β : Type}, Sound (β := β) p p.run := by
  induction p with
  | empty => exact fun c k b h => ⟨c, .empty c, h⟩
  | one p =>
    intro β c k b h
    rw [run] at h
    split at h
    · cases h
    · rename_i x xs hrest
      split at h
      · rename_i hx
        exact ⟨_, .one hrest hx, h⟩
      · cases h
  | seq p q ihp ihq =>
    intro β c k b h
    obtain ⟨d, hd, hq⟩ := ihp _ _ _ h
    obtain ⟨e, he, hk⟩ := ihq _ _ _ hq
    exact ⟨e, .seq hd he, hk⟩
  | alt p q ihp ihq =>
    intro β c k b h
    rw [run] at h
    split at h
    · rename_i b' hp
      cases h
      obtain ⟨d, hd, hk⟩ := ihp _ _ _ hp
      exact ⟨d, .left hd, hk⟩
    · obtain ⟨d, hd, hk⟩ := ihq _ _ _ h
      exact ⟨d, .right hd, hk⟩
  | star p ih => exact fun c k b h => Sound.repeatLong ih _ c k b h
  | lazy p ih => exact fun c k b h => Sound.repeatShort ih _ c k b h
  | group n p ih =>
    intro β c k b h
    obtain ⟨d, hd, hk⟩ := ih _ _ _ h
    exact ⟨_, .group hd, hk⟩
  | edge =>
    intro β c k b h
    rw [run] at h
    split at h
    · rename_i hedge
      exact ⟨c, .edge hedge, h⟩
    · cases h
  | atStart =>
    intro β c k b h
    rw [run] at h
    split at h
    · rename_i hpos
      exact ⟨c, .atStart hpos, h⟩
    · cases h
  | atEnd =>
    intro β c k b h
    rw [run] at h
    split at h
    · rename_i hrest
      exact ⟨c, .atEnd hrest, h⟩
    · cases h
  | ahead p ih =>
    intro β c k b h
    rw [run] at h
    split at h
    · rename_i d hd
      obtain ⟨d', hd', hsome⟩ := ih _ _ _ hd
      cases hsome
      exact ⟨_, .ahead hd', h⟩
    · cases h
  | atomic p ih =>
    intro β c k b h
    rw [run] at h
    split at h
    · rename_i d hd
      obtain ⟨d', hd', hsome⟩ := ih _ _ _ hd
      cases hsome
      exact ⟨_, .atomic hd', h⟩
    · cases h

/-! ## What a match passes -/

/-- All classes of the pattern lie within a class.  Looking ahead passes no character. -/
def Within (P : Char → Prop) : Pattern → Prop
  | .one p => ∀ c, p c = true → P c
  | .seq a b => a.Within P ∧ b.Within P
  | .alt a b => a.Within P ∧ b.Within P
  | .star a => a.Within P
  | .lazy a => a.Within P
  | .group _ a => a.Within P
  | .atomic a => a.Within P
  | .empty | .edge | .atStart | .atEnd | .ahead _ => True

theorem within_true (p : Pattern) : p.Within fun _ => True := by
  induction p <;> simp_all [Within]

/-- A match passes a stretch of characters within the classes of the pattern. -/
theorem Matches.exists_passed {P : Char → Prop} {p : Pattern} {c d : Cursor} (h : Matches p c d)
    (hP : p.Within P) :
    ∃ s, c.rest = s ++ d.rest ∧ d.pos = c.pos + s.length ∧ ∀ x ∈ s, P x := by
  -- matching on from a later cursor, as the second part of a sequence and every repetition do
  have happend : ∀ {c d e : Cursor},
      (∃ s, c.rest = s ++ d.rest ∧ d.pos = c.pos + s.length ∧ ∀ x ∈ s, P x) →
      (∃ s, d.rest = s ++ e.rest ∧ e.pos = d.pos + s.length ∧ ∀ x ∈ s, P x) →
      ∃ s, c.rest = s ++ e.rest ∧ e.pos = c.pos + s.length ∧ ∀ x ∈ s, P x := by
    rintro c d e ⟨s, hs, hpos, hsP⟩ ⟨t, ht, hpos', htP⟩
    refine ⟨s ++ t, by rw [hs, ht, List.append_assoc], ?_, List.forall_mem_append.2 ⟨hsP, htP⟩⟩
    rw [hpos', hpos, List.length_append]
    omega
  have hstay : ∀ c : Cursor,
      ∃ s, c.rest = s ++ c.rest ∧ c.pos = c.pos + s.length ∧ ∀ x ∈ s, P x :=
    fun c => ⟨[], rfl, rfl, List.forall_mem_nil _⟩
  induction h with
  | empty c | starNil c | lazyNil c => exact hstay c
  | edge _ | atStart _ | atEnd _ => exact hstay _
  | ahead _ _ => exact hstay _
  | one hrest hx =>
    rename_i p c x xs
    exact ⟨[x], hrest, rfl, List.forall_mem_singleton.2 (hP x hx)⟩
  | seq _ _ iha ihb => exact happend (iha hP.1) (ihb hP.2)
  | left _ ih => exact ih hP.1
  | right _ ih => exact ih hP.2
  | starCons _ _ iha ih => exact happend (iha hP) (ih hP)
  | lazyCons _ _ iha ih => exact happend (iha hP) (ih hP)
  | group _ ih => exact ih hP
  | atomic _ ih => exact ih hP

/-- A match leaves an end of the text. -/
theorem Matches.rest_suffix {p : Pattern} {c d : Cursor} (h : Matches p c d) :
    d.rest <:+ c.rest := by
  obtain ⟨s, hs, -⟩ := h.exists_passed p.within_true
  exact ⟨s, hs.symm⟩

/-! ## What is remembered -/

/-- The groups of a pattern with their numbers. -/
def groups : Pattern → List (Nat × Pattern)
  | .seq a b => a.groups ++ b.groups
  | .alt a b => a.groups ++ b.groups
  | .star a => a.groups
  | .lazy a => a.groups
  | .group n a => (n, a) :: a.groups
  | .ahead a => a.groups
  | .atomic a => a.groups
  | .empty | .one _ | .edge | .atStart | .atEnd => []

/-- What stands in a mark was passed by one of the groups, at an end of the text. -/
def Remembered (groups : List (Nat × Pattern)) (text : List Char) (m : Nat × List Char) : Prop :=
  ∃ a c d, (m.1, a) ∈ groups ∧ Matches a c d ∧ c.rest <:+ text ∧
    m.2 = c.rest.take (d.pos - c.pos)

theorem Remembered.mono {g g' : List (Nat × Pattern)} {t t' : List Char} {m : Nat × List Char}
    (h : Remembered g t m) (hg : g ⊆ g') (ht : t <:+ t') : Remembered g' t' m := by
  obtain ⟨a, c, d, ha, hmatches, hrest, hm⟩ := h
  exact ⟨a, c, d, hg ha, hmatches, hrest.trans ht, hm⟩

/-- What is remembered after a match was remembered before it or passed by a group of the
pattern. -/
theorem Matches.mem_marks {p : Pattern} {c d : Cursor} (h : Matches p c d) :
    ∀ m ∈ d.marks, m ∈ c.marks ∨ Remembered p.groups c.rest m := by
  induction h with
  | empty c | starNil c | lazyNil c => exact fun m hm => .inl hm
  | edge _ | atStart _ | atEnd _ | one _ _ => exact fun m hm => .inl hm
  | seq ha _ iha ihb =>
    intro m hm
    rcases ihb m hm with hm | hm
    · exact (iha m hm).imp_right fun h => h.mono (List.subset_append_left _ _) List.suffix_rfl
    · exact .inr (hm.mono (List.subset_append_right _ _) ha.rest_suffix)
  | left _ ih =>
    exact fun m hm => (ih m hm).imp_right fun h =>
      h.mono (List.subset_append_left _ _) List.suffix_rfl
  | right _ ih =>
    exact fun m hm => (ih m hm).imp_right fun h =>
      h.mono (List.subset_append_right _ _) List.suffix_rfl
  | starCons ha _ iha ih =>
    intro m hm
    rcases ih m hm with hm | hm
    · exact iha m hm
    · exact .inr (hm.mono (List.Subset.refl _) ha.rest_suffix)
  | lazyCons ha _ iha ih =>
    intro m hm
    rcases ih m hm with hm | hm
    · exact iha m hm
    · exact .inr (hm.mono (List.Subset.refl _) ha.rest_suffix)
  | group ha ih =>
    intro m hm
    rcases List.mem_cons.1 hm with rfl | hm
    · exact .inr ⟨_, _, _, List.mem_cons_self, ha, List.suffix_rfl, rfl⟩
    · exact (ih m hm).imp_right fun h => h.mono (List.subset_cons_self _ _) List.suffix_rfl
  | ahead _ ih => exact ih
  | atomic _ ih => exact ih

/-- A pattern without groups remembers nothing. -/
theorem Matches.marks_eq {p : Pattern} {c d : Cursor} (h : Matches p c d) (hp : p.groups = []) :
    d.marks = c.marks := by
  induction h with
  | empty c | starNil c | lazyNil c => rfl
  | edge _ | atStart _ | atEnd _ | one _ _ => rfl
  | seq _ _ iha ihb =>
    obtain ⟨ha, hb⟩ := List.append_eq_nil_iff.1 hp
    rw [ihb hb, iha ha]
  | left _ ih => exact ih (List.append_eq_nil_iff.1 hp).1
  | right _ ih => exact ih (List.append_eq_nil_iff.1 hp).2
  | starCons _ _ iha ih => rw [ih hp, iha hp]
  | lazyCons _ _ iha ih => rw [ih hp, iha hp]
  | group _ _ => cases hp
  | ahead _ ih => exact ih hp
  | atomic _ ih => exact ih hp

/-- What a match remembers was passed by a group of the number. -/
theorem exists_matches_of_group? {p : Pattern} {pos : Nat} {before : Option Char}
    {rest : List Char} {m : Match} (h : p.matchAt pos before rest = some m) {n : Nat} {s : String}
    (hs : m.group? n = some s) :
    ∃ a c d, (n, a) ∈ p.groups ∧ Matches a c d ∧ c.rest <:+ rest ∧ c.rest = s.toList ++ d.rest := by
  obtain ⟨d, hd, hm⟩ := exists_matches_of_run p _ _ _ h
  cases hm
  obtain ⟨mark, hmark, rfl⟩ := Option.map_eq_some_iff.1 hs
  have hn : mark.1 = n := by simpa using List.find?_some hmark
  obtain ⟨a, c, d, ha, hmatches, hrest, htext⟩ :=
    (hd.mem_marks mark (List.mem_of_find?_eq_some hmark)).resolve_left List.not_mem_nil
  obtain ⟨t, ht, hpos, -⟩ := hmatches.exists_passed (within_true a)
  have hpassed : mark.2 = t := by
    rw [htext, hpos, Nat.add_sub_cancel_left, ht, List.take_left]
  exact ⟨a, c, d, hn ▸ ha, hmatches, hrest, by rw [String.toList_ofList, hpassed, ht]⟩

/-- The characters of a group of a match come from the text and lie within the classes of the
groups with its number. -/
theorem forall_mem_group {p : Pattern} {pos : Nat} {before : Option Char} {rest : List Char}
    {m : Match} (h : p.matchAt pos before rest = some m) {P : Char → Prop} {n : Nat}
    (hP : ∀ g ∈ p.groups, g.1 = n → g.2.Within P) {s : String} (hs : m.group? n = some s) :
    ∀ x ∈ s.toList, x ∈ rest ∧ P x := by
  obtain ⟨a, c, d, ha, hmatches, hrest, hs⟩ := exists_matches_of_group? h hs
  obtain ⟨t, ht, -, htP⟩ := hmatches.exists_passed (hP _ ha rfl)
  have hpassed : s.toList = t := List.append_cancel_right (hs.symm.trans ht)
  intro x hx
  refine ⟨hrest.subset ?_, htP x (hpassed ▸ hx)⟩
  rw [hs]
  exact List.mem_append_left _ hx

/-! ## Where matches begin -/

/-- The first match is a match at some place. -/
theorem exists_matchAt_of_findFrom {p : Pattern} {pos : Nat} {before : Option Char}
    {rest : List Char} {m : Match} (h : p.findFrom pos before rest = some m) :
    ∃ pos' before' rest', p.matchAt pos' before' rest' = some m := by
  induction rest generalizing pos before with
  | nil => exact ⟨pos, before, [], h⟩
  | cons c rest ih =>
    rw [findFrom] at h
    split at h
    · rename_i m' hmatch
      cases h
      exact ⟨pos, before, c :: rest, hmatch⟩
    · exact ih h

/-- Every match of a scan is a match at some place of the text. -/
theorem exists_matchAt_of_mem_scanFrom {p : Pattern} {skip pos : Nat} {before : Option Char}
    {rest : List Char} {m : Match} (h : .hit m ∈ p.scanFrom skip pos before rest) :
    ∃ pos' before' rest', rest' <:+ rest ∧ p.matchAt pos' before' rest' = some m := by
  induction rest generalizing skip pos before with
  | nil =>
    cases skip with
    | zero =>
      refine ⟨pos, before, [], List.suffix_rfl, ?_⟩
      simpa [scanFrom] using h
    | succ skip => exact absurd h List.not_mem_nil
  | cons c rest ih =>
    have hlater : ∀ {n}, .hit m ∈ p.scanFrom n (pos + 1) (some c) rest →
        ∃ pos' before' rest', rest' <:+ c :: rest ∧ p.matchAt pos' before' rest' = some m := by
      intro n hn
      obtain ⟨pos', before', rest', hsuffix, hmatch⟩ := ih hn
      exact ⟨pos', before', rest', hsuffix.trans (List.suffix_cons c rest), hmatch⟩
    cases skip with
    | succ skip => exact hlater h
    | zero =>
      rw [scanFrom] at h
      split at h
      · rename_i m' hmatch
        have hnext : m = m' ∨ ∃ n, .hit m ∈ p.scanFrom n (pos + 1) (some c) rest := by
          split at h
          · simp only [List.mem_cons, Piece.hit.injEq, reduceCtorEq, false_or] at h
            exact h.imp id fun h => ⟨0, h⟩
          · simp only [List.mem_cons, Piece.hit.injEq] at h
            exact h.imp id fun h => ⟨_, h⟩
        rcases hnext with rfl | ⟨n, hn⟩
        · exact ⟨pos, before, c :: rest, List.suffix_rfl, hmatch⟩
        · exact hlater hn
      · exact hlater ((List.mem_cons.1 h).resolve_left nofun)

theorem exists_matchAt_of_mem_findAll {p : Pattern} {s : String} {m : Match}
    (h : m ∈ p.findAll s) :
    ∃ pos before rest, rest <:+ s.toList ∧ p.matchAt pos before rest = some m := by
  obtain ⟨piece, hpiece, hm⟩ := List.mem_filterMap.1 h
  cases piece with
  | plain c => cases hm
  | hit m' =>
    cases hm
    exact exists_matchAt_of_mem_scanFrom hpiece

/-- Behind a match that covers the rest of a text only the end is left to look at. -/
theorem exists_scanFrom_length (p : Pattern) (pos : Nat) (before : Option Char)
    (rest : List Char) : ∃ pos' before',
      p.scanFrom rest.length pos before rest =
        ((p.matchAt pos' before' []).map Piece.hit).toList := by
  induction rest generalizing pos before with
  | nil => exact ⟨pos, before, rfl⟩
  | cons c rest ih => exact ih (pos + 1) (some c)

end ControlLogic.Text.Pattern
