import ControlLogic.Proofs.Text.Keyword
import ControlLogic.Proofs.Text.Preferred

/-!
# Searches in a text

`Pattern.findFrom` and `Pattern.scanFrom` try a pattern at one place after the other.  The lemmas
here move a search over a stretch of the text at once: over a stretch in which no match begins
(`NoneWithin`), and over a match.

* `findFrom_append` and `findFrom_of_matchAt` find the first match.
* `scanFrom_append` and `scanFrom_of_prefers` cut a text into matches and what stands between them.
* `find?_eq_none` and `substitute_eq_self`: a text without a character that the pattern cannot do
  without has no match.
* `find?_of_prefers` and `substitute_of_prefers`: a text with one match.
-/

namespace ControlLogic.Text.Pattern

variable {p : Pattern} {pos : Nat} {before : Option Char} {s t : List Char}

/-- No match begins in the stretch `s` between the character `before` and the text `t`. -/
def NoneWithin (p : Pattern) (before : Option Char) (s t : List Char) : Prop :=
  ∀ c : Cursor, ∀ u v, s = u ++ v → v ≠ [] → c.before = u.getLast?.or before → c.rest = v ++ t →
    p.Fails c

/-- The last character of a stretch is told without its first one, if that is kept. -/
theorem getLast?_or_some (x : Char) (s : List Char) (before : Option Char) :
    s.getLast?.or (some x) = (x :: s).getLast?.or before := by
  rw [List.getLast?_cons]
  cases s.getLast? <;> rfl

theorem NoneWithin.tail {x : Char} (h : p.NoneWithin before (x :: s) t) :
    p.NoneWithin (some x) s t := by
  intro c u v hs hv hbefore hrest
  exact h c (x :: u) v (congrArg (x :: ·) hs) hv (hbefore.trans (getLast?_or_some x u before)) hrest

theorem NoneWithin.matchAt_head {x : Char} (h : p.NoneWithin before (x :: s) t) (pos : Nat) :
    p.matchAt pos before (x :: (s ++ t)) = none :=
  h ⟨pos, before, x :: (s ++ t), []⟩ [] (x :: s) rfl (List.cons_ne_nil x s) rfl rfl _

/-- No match begins in a stretch if none begins with its first character and none behind it. -/
theorem NoneWithin.cons {x : Char} (hhead : ∀ c : Cursor, c.rest = x :: (s ++ t) → p.Fails c)
    (h : p.NoneWithin (some x) s t) : p.NoneWithin before (x :: s) t := by
  intro c u v hsplit hv hbefore hrest
  cases u with
  | nil =>
    obtain rfl : x :: s = v := hsplit
    exact hhead c hrest
  | cons y u =>
    obtain ⟨rfl, hs⟩ := List.cons.inj hsplit
    exact h c u v hs hv (hbefore.trans (getLast?_or_some x u before).symm) hrest

/-- A pattern has no match in a text without a character that it demands. -/
theorem fails_of_demands {x : Char} (hx : p.Demands x) {c : Cursor} (hc : x ∉ c.rest) :
    p.Fails c :=
  fails_of_not_matches fun _ hd => hc (hd.mem_of_demands hx)

theorem noneWithin_of_demands {x : Char} (hx : p.Demands x) (hs : x ∉ s ++ t)
    (before : Option Char) : p.NoneWithin before s t := by
  rintro c u v rfl - - hrest
  refine fails_of_demands hx fun hmem => hs ?_
  rw [hrest] at hmem
  rw [List.append_assoc]
  exact List.mem_append_right u hmem

/-- A text without a character holds nothing but others. -/
theorem forall_except {x : Char} {u : String} (hu : u.toList = [x]) (hs : x ∉ s) :
    ∀ y ∈ s, (!u.toList.contains y) = true := by
  intro y hy
  have hne : y ≠ x := fun h => hs (h ▸ hy)
  simpa [hu] using hne

/-- Every match begins with a character of the class. -/
def Begins (q : Char → Bool) (p : Pattern) : Prop :=
  ∀ ⦃c d⦄, Matches p c d → c.rest.head?.any q = true

theorem begins_one (q : Char → Bool) : Begins q (.one q) := by
  intro c d hd
  cases hd with | one hrest hx => simpa [hrest] using hx

theorem Begins.seq {q : Char → Bool} {a : Pattern} (h : Begins q a) (b : Pattern) :
    Begins q (.seq a b) := by
  intro c d hd
  cases hd with | seq ha _ => exact h ha

theorem Begins.group {q : Char → Bool} {a : Pattern} (h : Begins q a) (n : Nat) :
    Begins q (.group n a) := by
  intro c d hd
  cases hd with | group ha => exact h ha

/-- A stretch without characters of the class has no match that begins with one. -/
theorem noneWithin_of_begins {q : Char → Bool} (hp : Begins q p) (hs : ∀ x ∈ s, q x = false)
    (before : Option Char) (t : List Char) : p.NoneWithin before s t := by
  rintro c u v rfl hv - hrest
  refine fails_of_not_matches fun d hd => ?_
  obtain ⟨x, v, rfl⟩ := List.exists_cons_of_ne_nil hv
  have hx : q x = true := by simpa [hrest] using hp hd
  rw [hs x (List.mem_append_right u List.mem_cons_self)] at hx
  cases hx

/-- A stretch that lacks a keyword and ends with a separator has no match that begins with the
keyword. -/
theorem noneWithin_of_lacks {k : List Char} (hp : ∀ ⦃c d⦄, Matches p c d →
      (afterKeyword? k c.rest).isSome) {x : Char} (hx : Separates x k) (hs : Lacks k s)
    (before : Option Char) (t : List Char) : p.NoneWithin before (s ++ [x]) t := by
  intro c u v hsplit hv _ hrest
  refine fails_of_not_matches fun d hd => ?_
  obtain ⟨v, y, rfl⟩ := (List.eq_nil_or_concat' v).resolve_left hv
  rw [← List.append_assoc] at hsplit
  obtain ⟨rfl, hy⟩ := List.append_inj' hsplit rfl
  cases hy
  have hsome := hp hd
  rw [hrest, List.append_assoc, List.singleton_append, afterKeyword?_append_sep hx,
    lacks_iff.1 hs v (List.suffix_append u v)] at hsome
  cases hsome

/-- A repetition of at least one round passes a stretch that is not empty. -/
theorem Matches.exists_passed_plus {q : Char → Bool} {c d : Cursor}
    (h : Matches (.plus (.one q)) c d) :
    ∃ s, s ≠ [] ∧ c.rest = s ++ d.rest ∧ d.pos = c.pos + s.length ∧ ∀ x ∈ s, q x = true := by
  obtain ⟨s, hs, hpos, hq⟩ := h.exists_passed (P := (q · = true)) ⟨fun _ h => h, fun _ h => h⟩
  refine ⟨s, ?_, hs, hpos, hq⟩
  rintro rfl
  cases h with | seq hfirst hothers =>
  cases hfirst with | one hrest hx =>
  obtain ⟨t, ht, -⟩ := hothers.exists_passed (within_true _)
  rw [hrest] at hs
  have hlength := congrArg List.length hs
  have hlength' := congrArg List.length ht
  simp only [List.length_cons, List.length_append, List.length_nil] at hlength hlength'
  omega

theorem Matches.exists_passed_group_plus {q : Char → Bool} {n : Nat} {c d : Cursor}
    (h : Matches (.group n (.plus (.one q))) c d) :
    ∃ s, s ≠ [] ∧ c.rest = s ++ d.rest ∧ (∀ x ∈ s, q x = true) ∧ d.marks = (n, s) :: c.marks := by
  cases h with | group h =>
  obtain ⟨s, hne, hs, hpos, hq⟩ := h.exists_passed_plus
  refine ⟨s, hne, hs, hq, ?_⟩
  rw [hpos, Nat.add_sub_cancel_left, hs, List.take_left, h.marks_eq rfl]

/-! ## The first match -/

/-- The search goes on behind a stretch in which no match begins. -/
theorem findFrom_append (h : p.NoneWithin before s t) (pos : Nat) :
    p.findFrom pos before (s ++ t) = p.findFrom (pos + s.length) (s.getLast?.or before) t := by
  induction s generalizing pos before with
  | nil => rfl
  | cons x s ih =>
    rw [List.cons_append, findFrom, h.matchAt_head, ih h.tail, getLast?_or_some x s before,
      List.length_cons, Nat.add_right_comm, Nat.add_assoc]

theorem findFrom_of_matchAt {m : Match} (h : p.matchAt pos before t = some m) :
    p.findFrom pos before t = some m := by
  cases t with
  | nil => exact h
  | cons x t => rw [findFrom, h]

/-- The first match is the one behind a stretch in which none begins. -/
theorem find?_of_prefers {text : String} {d : Cursor} (htext : text.toList = s ++ t)
    (hs : p.NoneWithin none s t) (h : Prefers p ⟨s.length, s.getLast?, t, []⟩ d) :
    p.find? text = some ⟨s.length, t.take (d.pos - s.length), d.marks⟩ := by
  rw [find?, htext, findFrom_append hs, Nat.zero_add, Option.or_none]
  exact findFrom_of_matchAt (matchAt_of_prefers h)

/-- A text without a character that the pattern demands has no match. -/
theorem find?_eq_none {x : Char} (hx : p.Demands x) {text : String} (h : x ∉ text.toList) :
    p.find? text = none := by
  have hsearch := findFrom_append (p := p) (s := text.toList) (t := [])
    (noneWithin_of_demands hx (by rwa [List.append_nil]) none) 0
  rw [List.append_nil] at hsearch
  rw [find?, hsearch]
  exact fails_of_demands hx (c := ⟨_, _, [], []⟩) List.not_mem_nil _

/-! ## All matches -/

/-- The search goes on behind a stretch in which no match begins. -/
theorem scanFrom_append (h : p.NoneWithin before s t) (pos : Nat) :
    p.scanFrom 0 pos before (s ++ t) =
      s.map .plain ++ p.scanFrom 0 (pos + s.length) (s.getLast?.or before) t := by
  induction s generalizing pos before with
  | nil => rfl
  | cons x s ih =>
    rw [List.cons_append, scanFrom, h.matchAt_head, ih h.tail, getLast?_or_some x s before,
      List.length_cons, Nat.add_right_comm, Nat.add_assoc, List.map_cons, List.cons_append]

theorem scanFrom_nil (h : p.Fails ⟨pos, before, [], []⟩) : p.scanFrom 0 pos before [] = [] := by
  rw [scanFrom, matchAt, h]
  rfl

theorem scanFrom_length (p : Pattern) (s t : List Char) (pos : Nat) (before : Option Char) :
    p.scanFrom s.length pos before (s ++ t) =
      p.scanFrom 0 (pos + s.length) (s.getLast?.or before) t := by
  induction s generalizing pos before with
  | nil => rfl
  | cons x s ih =>
    rw [List.cons_append, List.length_cons, scanFrom, ih, getLast?_or_some x s before,
      Nat.add_right_comm, Nat.add_assoc]

/-- The search goes on behind a match. -/
theorem scanFrom_of_prefers {d : Cursor} (h : Prefers p ⟨pos, before, s ++ t, []⟩ d)
    (hpos : d.pos = pos + s.length) (hs : s ≠ []) :
    p.scanFrom 0 pos before (s ++ t) =
      .hit ⟨pos, s, d.marks⟩ :: p.scanFrom 0 (pos + s.length) (s.getLast?.or before) t := by
  obtain ⟨x, s, rfl⟩ := List.exists_cons_of_ne_nil hs
  have hmatch := matchAt_of_prefers h
  rw [hpos, Nat.add_sub_cancel_left, List.take_left, List.cons_append] at hmatch
  rw [List.cons_append, scanFrom, hmatch]
  simp only [List.length_cons]
  rw [scanFrom_length, getLast?_or_some x s before, Nat.add_right_comm, Nat.add_assoc]

/-- The match that a piece of a text is. -/
def Piece.hit? : Piece → Option Match
  | .plain _ => none
  | .hit m => some m

theorem findAll_eq (p : Pattern) (text : String) :
    p.findAll text = (p.scanFrom 0 0 none text.toList).filterMap Piece.hit? := by
  rw [findAll]
  refine congrArg (fun g => (p.scanFrom 0 0 none text.toList).filterMap g) ?_
  funext piece
  cases piece <;> rfl

@[simp] theorem filterMap_hit?_plain (s : List Char) :
    (s.map Piece.plain).filterMap Piece.hit? = [] := by
  rw [List.filterMap_map]
  exact List.filterMap_eq_nil_iff.2 fun _ _ => rfl

/-! ## Substitution -/

/-- What is written for a piece of a text. -/
def Piece.written (f : Match → String) : Piece → List Char
  | .plain c => [c]
  | .hit m => (f m).toList

theorem substitute_eq (p : Pattern) (f : Match → String) (text : String) :
    p.substitute f text =
      String.ofList ((p.scanFrom 0 0 none text.toList).flatMap (Piece.written f)) := by
  rw [substitute]
  refine congrArg (fun g => String.ofList ((p.scanFrom 0 0 none text.toList).flatMap g)) ?_
  funext piece
  cases piece <;> rfl

@[simp] theorem flatMap_written_plain (f : Match → String) (s : List Char) :
    (s.map Piece.plain).flatMap (Piece.written f) = s := by
  rw [List.flatMap_map]
  exact List.flatMap_singleton' s

/-- Nothing is put in the place of matches that there are not. -/
theorem substitute_eq_self {x : Char} (hx : p.Demands x) (f : Match → String) {text : String}
    (h : x ∉ text.toList) : p.substitute f text = text := by
  have hscan := scanFrom_append (p := p) (s := text.toList) (t := [])
    (noneWithin_of_demands hx (by rwa [List.append_nil]) none) 0
  rw [List.append_nil, scanFrom_nil (fails_of_demands hx List.not_mem_nil), List.append_nil]
    at hscan
  rw [substitute_eq, hscan, flatMap_written_plain, String.ofList_toList]

/-- Something is put in the place of the one match, if matches begin with characters that stand
neither before nor behind it. -/
theorem substitute_of_prefers {q : Char → Bool} (hp : Begins q p) (f : Match → String)
    {text : String} {u : List Char} {d : Cursor} (htext : text.toList = s ++ (u ++ t))
    (hs : ∀ x ∈ s, q x = false) (ht : ∀ x ∈ t, q x = false) (hu : u ≠ [])
    (h : Prefers p ⟨s.length, s.getLast?, u ++ t, []⟩ d) (hpos : d.pos = s.length + u.length) :
    p.substitute f text = String.ofList (s ++ ((f ⟨s.length, u, d.marks⟩).toList ++ t)) := by
  have hend : ∀ pos before, p.scanFrom 0 pos before t = t.map .plain := by
    intro pos before
    have hscan := scanFrom_append (noneWithin_of_begins hp ht before []) pos
    rw [List.append_nil, scanFrom_nil (fails_of_not_matches fun _ hd => by cases hp hd),
      List.append_nil] at hscan
    exact hscan
  have hfront := scanFrom_append (noneWithin_of_begins hp hs none (u ++ t)) 0
  rw [Nat.zero_add, Option.or_none, scanFrom_of_prefers h hpos hu, hend] at hfront
  rw [substitute_eq, htext, hfront, List.flatMap_append, List.flatMap_cons,
    flatMap_written_plain, flatMap_written_plain]
  rfl

end ControlLogic.Text.Pattern
