import ControlLogic.OrderedSet.Loose

/-!
# Ordered sets as lists without repetition

An ordered set keeps its elements in a list and their positions beside it.  Every call changes
both.  This file shows that the two stay in step and that a set is nothing but the list.

* `listed l` is the set with the elements of `l`, each at its place.
* `Distinct` lists hold no two equal elements.  On the set of such a list every operation is the
  operation on the list: `add_listed`, `update_listed`, `discard_listed`, `pop_listed`.
* `call_listed` is one call, and `runCalls_listed` any number of calls one after the other.
* `copy_listed` and `restore_state_listed` give the same set again.
* `positionsOf_key` and `positionsOf_collection` are the two ways in which positions are asked for.

Elements are told apart by an equality that is reflexive, symmetric and transitive, and need not be
identity: the number one and the truth value are one element.  `Loose` values have such an equality.
-/

namespace ControlLogic

/-! ## The equality of values -/

namespace Loose

mutual

theorem same_self : (a : Loose) → same a a = true
  | null => rfl
  | bool _ | int _ | real _ => by simp [same, amount?]
  | text _ | record _ | range _ => by simp [same]
  | tuple l | list l => by
    rw [same]
    exact sameAll_self l

theorem sameAll_self : (l : List Loose) → sameAll l l = true
  | [] => rfl
  | a :: l => by
    rw [sameAll, same_self a, sameAll_self l]
    rfl

end

/-- Numbers are equal to exactly the numbers of the same value. -/
theorem same_iff_amount? {b : Loose} {x : Amount} (hb : b.amount? = some x) (a : Loose) :
    same a b = true ↔ a.amount? = some x := by
  cases b <;> cases hb <;> cases a <;> simp [same, amount?]

mutual

theorem same_symm : (a b : Loose) → same a b = true → same b a = true
  | a, null, h | a, text _, h | a, record _, h | a, range _, h => by
    cases a <;> simp_all [same, amount?]
  | a, bool _, h | a, int _, h | a, real _, h => by
    have hamount := (same_iff_amount? rfl a).1 h
    exact (same_iff_amount? hamount _).2 rfl
  | a, tuple l, h => by
    cases a with
    | tuple m =>
      rw [same] at h ⊢
      exact sameAll_symm m l h
    | _ => simp [same, amount?] at h
  | a, list l, h => by
    cases a with
    | list m =>
      rw [same] at h ⊢
      exact sameAll_symm m l h
    | _ => simp [same, amount?] at h

theorem sameAll_symm : (l m : List Loose) → sameAll l m = true → sameAll m l = true
  | [], [], _ => rfl
  | [], _ :: _, h | _ :: _, [], h => by simp [sameAll] at h
  | a :: l, b :: m, h => by
    rw [sameAll, Bool.and_eq_true] at h ⊢
    exact ⟨same_symm a b h.1, sameAll_symm l m h.2⟩

end

mutual

theorem same_trans : (a b c : Loose) → same a b = true → same b c = true → same a c = true
  | a, null, c, h, h' | a, text _, c, h, h' | a, record _, c, h, h' | a, range _, c, h, h' => by
    cases a <;> simp [same, amount?] at h
    cases c <;> simp_all [same, amount?]
  | a, bool _, c, h, h' | a, int _, c, h, h' | a, real _, c, h, h' => by
    have ha := (same_iff_amount? rfl a).1 h
    have hc := (same_iff_amount? rfl c).1 (same_symm _ c h')
    exact (same_iff_amount? hc a).2 ha
  | a, tuple l, c, h, h' => by
    cases a with
    | tuple m =>
      cases c with
      | tuple n =>
        rw [same] at h h' ⊢
        exact sameAll_trans m l n h h'
      | _ => simp [same, amount?] at h'
    | _ => simp [same, amount?] at h
  | a, list l, c, h, h' => by
    cases a with
    | list m =>
      cases c with
      | list n =>
        rw [same] at h h' ⊢
        exact sameAll_trans m l n h h'
      | _ => simp [same, amount?] at h'
    | _ => simp [same, amount?] at h

theorem sameAll_trans : (l m n : List Loose) → sameAll l m = true → sameAll m n = true →
    sameAll l n = true
  | [], [], [], _, _ => rfl
  | [], _ :: _, _, h, _ | _ :: _, [], _, h, _ => by simp [sameAll] at h
  | [], [], _ :: _, _, h' | _ :: _, _ :: _, [], _, h' => by simp [sameAll] at h'
  | a :: l, b :: m, c :: n, h, h' => by
    rw [sameAll, Bool.and_eq_true] at h h' ⊢
    exact ⟨same_trans a b c h.1 h'.1, sameAll_trans l m n h.2 h'.2⟩

end

instance : EquivBEq Loose where
  rfl := same_self _
  symm := same_symm _ _
  trans := same_trans _ _ _

end Loose

namespace OrderedSet

variable {α : Type} [BEq α]

/-! ## Lists without repetition -/

/-- No two elements of the list are equal. -/
def Distinct (l : List α) : Prop :=
  l.Pairwise fun a b => (a == b) = false

/-- The list with `k` put last, unless it holds it. -/
def withKey (l : List α) (k : α) : List α :=
  if l.any (· == k) then l else l ++ [k]

/-- The position of `k` in a list. -/
def place? (l : List α) (k : α) : Option Nat :=
  l.findIdx? (· == k)

theorem any_eq_isSome_place? (l : List α) (k : α) : l.any (· == k) = (place? l k).isSome := by
  rw [place?, List.findIdx?_isSome]

theorem place?_eq_none_iff {l : List α} {k : α} :
    place? l k = none ↔ ∀ a ∈ l, (a == k) = false := by
  rw [place?, List.findIdx?_eq_none_iff]

/-- An element that is found splits the list at its position. -/
theorem exists_split_of_place? {l : List α} {k : α} {i : Nat} (h : place? l k = some i) :
    ∃ a x b, l = a ++ x :: b ∧ a.length = i ∧ (x == k) = true ∧ ∀ y ∈ a, (y == k) = false := by
  obtain ⟨hi, hx, hbefore⟩ := List.findIdx?_eq_some_iff_getElem.1 h
  refine ⟨l.take i, l[i], l.drop (i + 1), ?_, ?_, hx, ?_⟩
  · rw [← List.drop_eq_getElem_cons hi, List.take_append_drop]
  · rw [List.length_take]
    omega
  · intro y hy
    obtain ⟨j, hj, rfl⟩ := List.mem_iff_getElem.1 hy
    rw [List.length_take] at hj
    rw [List.getElem_take]
    exact Bool.eq_false_iff.2 (hbefore j (by omega))

theorem withKey_of_absent {l : List α} {k : α} (h : ∀ a ∈ l, (a == k) = false) :
    withKey l k = l ++ [k] := by
  rw [withKey, any_eq_isSome_place?, place?_eq_none_iff.2 h]
  rfl

theorem Distinct.withKey {l : List α} (h : Distinct l) (k : α) : Distinct (withKey l k) := by
  cases hplace : place? l k with
  | some i =>
    rw [OrderedSet.withKey, any_eq_isSome_place?, hplace]
    exact h
  | none =>
    have habsent := place?_eq_none_iff.1 hplace
    rw [withKey_of_absent habsent]
    refine List.pairwise_append.2 ⟨h, List.pairwise_singleton _ _, fun a ha b hb => ?_⟩
    rw [List.mem_singleton.1 hb]
    exact habsent a ha

theorem Distinct.foldl_withKey {l : List α} (h : Distinct l) (ks : List α) :
    Distinct (ks.foldl OrderedSet.withKey l) := by
  induction ks generalizing l with
  | nil => exact h
  | cons k ks ih => exact ih (h.withKey k)

/-- The elements of a list without repetition are added one behind the other. -/
theorem foldl_withKey_of_distinct {a l : List α} (h : Distinct (a ++ l)) :
    l.foldl withKey a = a ++ l := by
  induction l generalizing a with
  | nil => exact (List.append_nil a).symm
  | cons k l ih =>
    have habsent : ∀ x ∈ a, (x == k) = false := fun x hx =>
      (List.pairwise_append.1 h).2.2 x hx k List.mem_cons_self
    rw [List.foldl_cons, withKey_of_absent habsent, ih]
    · simp
    · simpa using h

theorem place?_withKey [ReflBEq α] (l : List α) (k : α) :
    place? (withKey l k) k = some ((place? l k).getD l.length) := by
  cases hplace : place? l k with
  | some i =>
    rw [withKey, any_eq_isSome_place?, hplace]
    exact hplace
  | none =>
    rw [withKey_of_absent (place?_eq_none_iff.1 hplace), place?, List.findIdx?_append]
    rw [place?] at hplace
    simp [hplace]

/-- In a list without repetition only one element equals `k`. -/
theorem Distinct.forall_ne [EquivBEq α] {a b : List α} {x k : α} (h : Distinct (a ++ x :: b))
    (hx : (x == k) = true) : ∀ y ∈ a ++ b, (y == k) = false := by
  intro y hy
  rw [Bool.eq_false_iff]
  intro hyk
  have hyx : (y == x) = true := BEq.trans hyk (BEq.symm hx)
  obtain ⟨-, htail, hcross⟩ := List.pairwise_append.1 h
  rcases List.mem_append.1 hy with hy | hy
  · rw [hcross y hy x List.mem_cons_self] at hyx
    cases hyx
  · rw [BEq.comm, (List.pairwise_cons.1 htail).1 y hy] at hyx
    cases hyx

/-! ## The set of a list -/

omit [BEq α] in
/-- The set with the elements of a list, each at its place. -/
def listed (l : List α) : OrderedSet α :=
  ⟨l, l.zipIdx⟩

theorem find?_zipIdx (l : List α) (k : α) (n : Nat) :
    ((l.zipIdx n).find? (·.1 == k)).map (·.2) = (place? l k).map (· + n) := by
  induction l generalizing n with
  | nil => rfl
  | cons a l ih =>
    rw [List.zipIdx_cons, List.find?_cons, place?, List.findIdx?_cons]
    cases a == k with
    | true => simp
    | false =>
      simp only [ih, place?, Bool.false_eq_true, if_false, Option.map_map]
      congr 1
      funext i
      simp only [Function.comp_apply]
      omega

@[simp]
theorem position?_listed (l : List α) (k : α) : (listed l).position? k = place? l k := by
  rw [position?, listed, find?_zipIdx]
  simp

theorem add_listed (l : List α) (k : α) :
    (listed l).add k = (listed (withKey l k), (place? l k).getD l.length) := by
  rw [add, position?_listed, withKey, any_eq_isSome_place?]
  cases place? l k with
  | some i => rfl
  | none => simp [listed, List.zipIdx_append]

/-- Adding elements gives the position of the last of them; if there is none, what was given
before stays. -/
theorem updateFrom_listed [ReflBEq α] (last : Option Nat) (l ks : List α) :
    updateFrom last (listed l) ks =
      (listed (ks.foldl withKey l),
        match ks.getLast? with
        | some k => place? (ks.foldl withKey l) k
        | none => last) := by
  induction ks generalizing last l with
  | nil => rfl
  | cons k ks ih =>
    rw [updateFrom, add_listed, ih, List.foldl_cons]
    cases ks with
    | nil => simp [place?_withKey]
    | cons k' ks => rw [List.getLast?_cons_cons, List.getLast?_cons]

theorem update_listed [ReflBEq α] (l ks : List α) :
    (listed l).update ks =
      (listed (ks.foldl withKey l), ks.getLast?.bind (place? (ks.foldl withKey l))) := by
  rw [update, updateFrom_listed]
  cases ks.getLast? <;> rfl

theorem ofList_eq_listed [ReflBEq α] (l : List α) : ofList l = listed (l.foldl withKey []) :=
  congrArg Prod.fst (update_listed [] l)

omit [BEq α] in
/-- The positions behind a removed element move up. -/
theorem map_renumber_zipIdx (a b : List α) :
    (a.zipIdx ++ b.zipIdx (a.length + 1)).map
        (fun e => (e.1, if a.length ≤ e.2 then e.2 - 1 else e.2)) =
      (a ++ b).zipIdx := by
  rw [List.zipIdx_append, List.map_append, Nat.zero_add]
  congr 1
  · refine (List.map_congr_left fun e he => ?_).trans (List.map_id _)
    have := List.snd_lt_of_mem_zipIdx he
    rw [if_neg (by omega)]
    rfl
  · rw [List.zipIdx_succ, List.map_map]
    refine (List.map_congr_left fun e he => ?_).trans (List.map_id _)
    have := List.le_snd_of_mem_zipIdx he
    simp only [Function.comp_apply]
    rw [if_pos (by omega), Nat.add_sub_cancel]
    rfl

theorem filter_zipIdx_eq_self {l : List α} {k : α} (h : ∀ a ∈ l, (a == k) = false) (n : Nat) :
    (l.zipIdx n).filter (fun e => !(e.1 == k)) = l.zipIdx n := by
  refine List.filter_eq_self.2 fun e he => ?_
  rw [h e.1 (List.fst_mem_of_mem_zipIdx he)]
  rfl

/-- Taking an element out of the set of a list takes it out of the list, and numbers the rest
anew. -/
theorem discard_listed [EquivBEq α] {l : List α} (h : Distinct l) (k : α) :
    (listed l).discard k = listed (l.filter fun a => !(a == k)) := by
  rw [discard, position?_listed]
  cases hplace : place? l k with
  | none =>
    have hall : l.filter (fun a => !(a == k)) = l := by
      refine List.filter_eq_self.2 fun a ha => ?_
      rw [place?_eq_none_iff.1 hplace a ha]
      rfl
    rw [hall]
  | some i =>
    obtain ⟨a, x, b, rfl, rfl, hx, -⟩ := exists_split_of_place? hplace
    have hothers := h.forall_ne hx
    have hitems : (a ++ x :: b).eraseIdx a.length = a ++ b := by
      rw [List.eraseIdx_append_of_length_le (Nat.le_refl _), Nat.sub_self, List.eraseIdx_cons_zero]
    have hfilter : (a ++ x :: b).filter (fun y => !(y == k)) = a ++ b := by
      rw [List.filter_append, List.filter_cons_of_neg (by simp [hx]), ← List.filter_append]
      exact List.filter_eq_self.2 fun y hy => by rw [hothers y hy]; rfl
    have hpositions : (a ++ x :: b).zipIdx.filter (fun e => !(e.1 == k)) =
        a.zipIdx ++ b.zipIdx (a.length + 1) := by
      rw [List.zipIdx_append, List.filter_append, List.zipIdx_cons,
        List.filter_cons_of_neg (by simp [hx]), Nat.zero_add,
        filter_zipIdx_eq_self fun y hy => hothers y (List.mem_append_left _ hy),
        filter_zipIdx_eq_self fun y hy => hothers y (List.mem_append_right _ hy)]
    simp only [listed, hitems, hfilter, hpositions]
    exact congrArg (OrderedSet.mk _) (map_renumber_zipIdx a b)

theorem pop_listed [EquivBEq α] {l : List α} (h : Distinct l) :
    (listed l).pop =
      match l.getLast? with
      | some k => .ok (k, listed l.dropLast)
      | none => .error (.missingKey (Text.quote "Set is empty")) := by
  rcases List.eq_nil_or_concat l with rfl | ⟨a, k, rfl⟩
  · rfl
  · rw [List.concat_eq_append] at h ⊢
    have hothers := h.forall_ne (x := k) (k := k) (b := []) BEq.rfl
    have hpositions : (a ++ [k]).zipIdx.filter (fun e => !(e.1 == k)) = a.zipIdx := by
      rw [List.zipIdx_append, List.filter_append,
        filter_zipIdx_eq_self fun y hy => hothers y (List.mem_append_left _ hy)]
      simp
    simp [pop, pop?, listed, hpositions]

theorem copy_listed [ReflBEq α] {l : List α} (h : Distinct l) : (listed l).copy = listed l := by
  have hsame : (listed l).items.foldl withKey [] = l := foldl_withKey_of_distinct h
  rw [copy, ofList_eq_listed, hsame]

/-- A saved state gives the set again, also if it was empty. -/
theorem restore_state_listed [ReflBEq α] {l : List α} (h : Distinct l) :
    restore (listed l).state = listed l := by
  cases l with
  | nil => rfl
  | cons a l =>
    have hkept : ((a :: l).map some).filterMap id = a :: l := by simp
    have hstate : restore (listed (a :: l)).state = ofList (((a :: l).map some).filterMap id) := by
      cases l <;> rfl
    rw [hstate, hkept]
    exact copy_listed h

/-! ## Calls -/

/-- A call on a set. -/
inductive Call (α : Type) where
  | add (k : α)
  | update (ks : List α)
  | discard (k : α)
  | pop
  | clear

/-- What a call gives back. -/
inductive Reply (α : Type) where
  | done
  | position (i : Option Nat)
  | element (k : α)
  | fault (f : Fault)
  deriving DecidableEq

/-- Makes a call.  One that gives no result leaves the set as it is. -/
def call (s : OrderedSet α) : Call α → OrderedSet α × Reply α
  | .add k => ((s.add k).1, .position (some (s.add k).2))
  | .update ks => ((s.update ks).1, .position (s.update ks).2)
  | .discard k => (s.discard k, .done)
  | .pop =>
    match s.pop with
    | .ok r => (r.2, .element r.1)
    | .error f => (s, .fault f)
  | .clear => (s.clear, .done)

/-- What a call does to a list without repetition. -/
def Call.onList (l : List α) : Call α → List α × Reply α
  | .add k => (withKey l k, .position (place? (withKey l k) k))
  | .update ks => (ks.foldl withKey l, .position (ks.getLast?.bind (place? (ks.foldl withKey l))))
  | .discard k => (l.filter fun a => !(a == k), .done)
  | .pop =>
    match l.getLast? with
    | some k => (l.dropLast, .element k)
    | none => (l, .fault (.missingKey (Text.quote "Set is empty")))
  | .clear => ([], .done)

/-- Makes calls one after the other, and collects what they give back. -/
def runCalls {σ : Type} (step : σ → Call α → σ × Reply α) : σ → List (Call α) → σ × List (Reply α)
  | s, [] => (s, [])
  | s, c :: rest =>
    ((runCalls step (step s c).1 rest).1, (step s c).2 :: (runCalls step (step s c).1 rest).2)

theorem Distinct.onList {l : List α} (h : Distinct l) (c : Call α) : Distinct (c.onList l).1 := by
  cases c with
  | add k => exact h.withKey k
  | update ks => exact h.foldl_withKey ks
  | discard k => exact h.sublist List.filter_sublist
  | pop =>
    rw [Call.onList]
    split
    · exact h.sublist (List.dropLast_sublist l)
    · exact h
  | clear => exact List.Pairwise.nil

/-- A call on the set of a list is the call on the list. -/
theorem call_listed [EquivBEq α] {l : List α} (h : Distinct l) (c : Call α) :
    (listed l).call c = (listed (c.onList l).1, (c.onList l).2) := by
  cases c with
  | add k => rw [call, add_listed, Call.onList, place?_withKey]
  | update ks => rw [call, update_listed, Call.onList]
  | discard k => rw [call, discard_listed h, Call.onList]
  | pop =>
    rw [call, pop_listed h, Call.onList]
    cases l.getLast? <;> rfl
  | clear => rfl

/-- Calls on the set of a list are the calls on the list, and leave no repetition. -/
theorem runCalls_listed [EquivBEq α] {l : List α} (h : Distinct l) (calls : List (Call α)) :
    runCalls call (listed l) calls =
        (listed (runCalls Call.onList l calls).1, (runCalls Call.onList l calls).2) ∧
      Distinct (runCalls Call.onList l calls).1 := by
  induction calls generalizing l with
  | nil => exact ⟨rfl, h⟩
  | cons c rest ih =>
    obtain ⟨hrun, hdistinct⟩ := ih (h.onList c)
    refine ⟨?_, hdistinct⟩
    rw [runCalls, call_listed h, hrun]
    rfl

theorem runCalls_ofList [EquivBEq α] (init : List α) (calls : List (Call α)) :
    runCalls call (ofList init) calls =
        (listed (runCalls Call.onList (init.foldl withKey []) calls).1,
          (runCalls Call.onList (init.foldl withKey []) calls).2) ∧
      Distinct (runCalls Call.onList (init.foldl withKey []) calls).1 := by
  rw [ofList_eq_listed]
  exact runCalls_listed (Distinct.foldl_withKey List.Pairwise.nil init) calls

/-! ## Positions of values -/

/-- The position of a value in a list, if it can be an element and is one. -/
def placeOf (l : List Loose) (k : Loose) : Except Fault Loose :=
  if k.isStable then
    match place? l k with
    | some i => .ok (.int i)
    | none => .error (.missingKey k.literal)
  else .error .wrongKind

theorem indexOf_eq_placeOf {s : OrderedSet Loose} {k : Loose}
    (h : s.position? k = place? s.items k) :
    (s.indexOf k).map (fun i => .int i) = placeOf s.items k := by
  rw [indexOf, asKey, placeOf, ← h]
  cases k.isStable with
  | false => rfl
  | true =>
    change Except.map _ (match s.position? k with | some i => _ | none => _) = _
    cases s.position? k <;> rfl

/-- A value that is no collection is looked up as one key. -/
theorem positionsOf_key (s : OrderedSet Loose) {k : Loose} (h : k.isCollection = false) :
    s.positionsOf k = (s.indexOf k).map fun i => .int i := by
  cases k with
  | list _ | record _ | range _ => cases h
  | null | bool _ | int _ | real _ | text _ | tuple _ => rfl

theorem positionsOfAll_eq_mapM (s : OrderedSet Loose) (ks : List Loose) :
    s.positionsOfAll ks = ks.mapM s.positionsOf := by
  induction ks with
  | nil => rfl
  | cons k ks ih => rw [positionsOfAll, List.mapM_cons, ih]

/-- For a collection the positions of its members are given, also where it can be an element. -/
theorem positionsOf_collection (s : OrderedSet Loose) {k : Loose} (h : k.isCollection = true) :
    ∃ members, k.elements? = some members ∧
      s.positionsOf k = (members.mapM s.positionsOf).map .list := by
  cases k with
  | null | bool _ | int _ | real _ | text _ | tuple _ => cases h
  | list ks =>
    refine ⟨ks, rfl, ?_⟩
    rw [positionsOf, positionsOfAll_eq_mapM]
    rfl
  | record _ | range _ =>
    refine ⟨_, rfl, ?_⟩
    rw [positionsOf, List.mapM_map]
    rfl

/-- A set that is made from a list and then called in any way is a list without repetition.  Every
call gives back what it gives on the list.  The positions that are kept beside the elements are
their places in the list, so that the position of a key is found.  A copy and a restored state are
the same set.

In a set of values the position that is given for a value is its place in the list.  For a
collection, be it an element or not, the positions of its members are given instead. -/
theorem runCalls_refines_list [EquivBEq α] (init : List α) (calls : List (Call α)) :
    let s := (runCalls call (ofList init) calls).1
    let l := (runCalls Call.onList (init.foldl withKey []) calls).1
    ((runCalls call (ofList init) calls).2 =
        (runCalls Call.onList (init.foldl withKey []) calls).2 ∧
      s.items = l ∧ l.Pairwise (fun a b => (a == b) = false) ∧
      s.positions = s.items.zipIdx ∧ (∀ k, s.position? k = s.items.findIdx? (· == k)) ∧
      s.copy = s ∧ restore s.state = s) ∧
    ∀ (init : List Loose) (calls : List (Call Loose)) (k : Loose),
      let s := (runCalls call (ofList init) calls).1
      (k.isCollection = false → s.positionsOf k = placeOf s.items k) ∧
      (k.isCollection = true → ∃ members, k.elements? = some members ∧
        s.positionsOf k = (members.mapM s.positionsOf).map .list) := by
  refine ⟨?_, fun init calls k => ⟨fun hkey => ?_, positionsOf_collection _⟩⟩
  · obtain ⟨hrun, hdistinct⟩ := runCalls_ofList init calls
    rw [hrun]
    exact ⟨rfl, rfl, hdistinct, rfl, position?_listed _, copy_listed hdistinct,
      restore_state_listed hdistinct⟩
  · rw [positionsOf_key _ hkey, (runCalls_ofList init calls).1]
    exact indexOf_eq_placeOf (position?_listed _ k)

/-- Calls on a set of values, in which a truth value and numbers of one value are one element. -/
def mixedCalls : List (Call Loose) :=
  [.clear, .pop, .update [.bool true, .text "b"], .add (.int 1), .add (.text "c"),
    .update [.text "a", .tuple [.null], .real 1.0], .discard (.text "b"), .pop, .add (.text "b"),
    .update []]

theorem runCalls_refines_list_mixedCalls :
    let s := (runCalls call (ofList [.null]) mixedCalls).1
    s.items = [.bool true, .text "c", .text "a", .text "b"] ∧
      s.positions = s.items.zipIdx ∧ s.position? (.real 1.0) = some 0 ∧ s.copy = s ∧
      restore s.state = s ∧ s.positionsOf (.text "a") = .ok (.int 2) ∧
      s.positionsOf (.text "d") = .error (.missingKey "'d'") ∧
      (∃ members, (Loose.list [.text "a"]).elements? = some members ∧
        s.positionsOf (.list [.text "a"]) = (members.mapM s.positionsOf).map .list) ∧
      (runCalls call (ofList [.null]) mixedCalls).2 =
        [.done, .fault (.missingKey "'Set is empty'"), .position (some 1), .position (some 0),
          .position (some 2), .position (some 0), .done, .element (.tuple [.null]),
          .position (some 3), .position none] := by
  obtain ⟨⟨hreplies, hitems, -, hpositions, hplaces, hcopy, hstate⟩, hvalues⟩ :=
    runCalls_refines_list [.null] mixedCalls
  have hkey := fun k => (hvalues [.null] mixedCalls k).1
  have hcollection := fun k => (hvalues [.null] mixedCalls k).2
  simp only [hitems] at hkey hplaces
  refine ⟨hitems.trans rfl, hpositions, (hplaces _).trans rfl, hcopy, hstate,
    (hkey _ rfl).trans rfl, (hkey _ rfl).trans rfl, hcollection _ rfl, hreplies.trans rfl⟩

/-- A range is an element like any other, but its own position is never given: asked for it, the
set gives the positions of the numbers in the range, as it gives those of the members of a list. -/
theorem positionsOf_range :
    let s := ofList [.int 0, .range 1]
    (Loose.range 1).isStable = true ∧ s.items = [.int 0, .range 1] ∧
      s.position? (.range 1) = some 1 ∧ s.positionsOf (.range 1) = .ok (.list [.int 0]) ∧
      s.positionsOf (.range 1) ≠ placeOf s.items (.range 1) ∧
      (ofList [.text "a", .text "b"]).positionsOf (.list [.text "a", .text "b"]) =
        .ok (.list [.int 0, .int 1]) := by
  refine ⟨rfl, rfl, rfl, rfl, fun h => ?_, rfl⟩
  cases h

end OrderedSet

end ControlLogic
