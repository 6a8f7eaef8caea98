import ControlLogic.Ladder.Rung

/-!
# Marking a rung

`markFrom` marks a text in one pass, with a flag that tells whether an operand list is open.  This
file says what becomes of each character, and that the marks can as well be set list by list.

* `markFrom_outside` and `markFrom_inside` pass stretches without marks and operand lists.
* `getElem?_markFrom`: the character at a place is marked by where it stands.  `InList` says that a
  place is in an operand list, and `exists_lastClosing` finds the end of the last one.
* `markFrom_markFrom`: what is marked stays as it is.
* `Marking` is the text in the course of rounds: one round marks what stands before the next operand
  list and goes on at its end.  `exists_ends` says that the rounds come to an end, with the same
  marks, if every operand list is closed.
-/

namespace ControlLogic.Ladder

/-! ## One pass -/

/-- Outside the operand lists, only commas and square brackets are marked. -/
theorem markFrom_outside {s : List Char}
    (h : ∀ c ∈ s, c ≠ '(' ∧ c ≠ ',' ∧ c ≠ '[' ∧ c ≠ ']') (rest : List Char) :
    markFrom false (s ++ rest) = s ++ markFrom false rest := by
  induction s with
  | nil => rfl
  | cons c s ih =>
    obtain ⟨hopen, hcomma, hleft, hright⟩ := h c List.mem_cons_self
    have hmark : markDelimiter c = c := by simp [markDelimiter, hcomma, hleft, hright]
    have hclosing : markClosing c = c := by simp [markClosing, hright]
    rw [List.cons_append, markFrom, if_neg Bool.false_ne_true, if_neg hopen, hmark, hclosing,
      ite_self, ih fun d hd => h d (List.mem_cons_of_mem _ hd), List.cons_append]

/-- An operand list is left alone up to its closing parenthesis. -/
theorem markFrom_inside {s : List Char} (h : ')' ∉ s) (rest : List Char) :
    markFrom true (s ++ ')' :: rest) = s ++ ')' :: markFrom false rest := by
  induction s with
  | nil => simp [markFrom]
  | cons c s ih =>
    have hc : c ≠ ')' := by rintro rfl; exact h List.mem_cons_self
    have hs : ')' ∉ s := fun hmem => h (List.mem_cons_of_mem _ hmem)
    rw [List.cons_append, markFrom, if_pos rfl]
    simp [hc, ih hs]

/-- Up to the next operand list all delimiters are marked. -/
theorem markFrom_before {a : List Char} (h : '(' ∉ a) (rest : List Char) :
    markFrom false (a ++ '(' :: rest) = a.map markDelimiter ++ '(' :: markFrom true rest := by
  induction a with
  | nil => simp [markFrom]
  | cons c a ih =>
    obtain ⟨hc, ha⟩ := List.ne_and_not_mem_of_not_mem_cons h
    rw [List.cons_append, markFrom, if_neg Bool.false_ne_true, if_neg (Ne.symm hc),
      if_pos (by simp), ih ha, List.map_cons, List.cons_append]

/-- Without a further operand list only closing brackets are marked. -/
theorem markFrom_after {s : List Char} (h : '(' ∉ s) :
    markFrom false s = s.map markClosing := by
  induction s with
  | nil => rfl
  | cons c s ih =>
    obtain ⟨hc, hs⟩ := List.ne_and_not_mem_of_not_mem_cons h
    rw [markFrom, if_neg Bool.false_ne_true, if_neg (Ne.symm hc), if_neg (by simpa using hs),
      ih hs, List.map_cons]

theorem markFrom_closing_paren (rest : List Char) :
    markFrom false (')' :: rest) = ')' :: markFrom false rest := by
  have hmark : markDelimiter ')' = ')' ∧ markClosing ')' = ')' := by decide
  rw [markFrom, if_neg Bool.false_ne_true, if_neg (by decide), hmark.1, hmark.2, ite_self]

theorem length_markFrom (inside : Bool) (s : List Char) :
    (markFrom inside s).length = s.length := by
  induction s generalizing inside with
  | nil => rfl
  | cons c s ih =>
    rw [markFrom]
    split
    · rw [List.length_cons, ih, List.length_cons]
    · split <;> rw [List.length_cons, ih, List.length_cons]

/-! ## Place by place -/

/-- Whether an operand list is open behind a text. -/
def openAfter : Bool → List Char → Bool
  | inside, [] => inside
  | inside, c :: rest => openAfter (if inside then c ≠ ')' else c = '(') rest

/-- The place is in an operand list: an opening parenthesis stands before it, and no closing one
between the two. -/
def InList (s : List Char) (i : Nat) : Prop :=
  ∃ a b, s.take i = a ++ '(' :: b ∧ ')' ∉ b

theorem openAfter_iff {inside : Bool} {s : List Char} :
    openAfter inside s = true ↔
      (inside = true ∧ ')' ∉ s) ∨ ∃ a b, s = a ++ '(' :: b ∧ ')' ∉ b := by
  induction s generalizing inside with
  | nil => simp [openAfter]
  | cons c s ih =>
    -- An opening parenthesis is the first character or stands behind it.
    have hsplit : (∃ a b, c :: s = a ++ '(' :: b ∧ ')' ∉ b) ↔
        (c = '(' ∧ ')' ∉ s) ∨ ∃ a b, s = a ++ '(' :: b ∧ ')' ∉ b := by
      constructor
      · rintro ⟨a, b, hab, hb⟩
        cases a with
        | nil =>
          cases hab
          exact .inl ⟨rfl, hb⟩
        | cons d a =>
          cases hab
          exact .inr ⟨a, b, rfl, hb⟩
      · rintro (⟨rfl, hs⟩ | ⟨a, b, rfl, hb⟩)
        · exact ⟨[], s, rfl, hs⟩
        · exact ⟨c :: a, b, rfl, hb⟩
    rw [openAfter, ih, hsplit, List.mem_cons, not_or, ← or_assoc]
    apply or_congr_left
    cases inside with
    | false => simp
    | true =>
      have hparen : ¬ (c = '(' ∧ c = ')') := by
        rintro ⟨rfl, h⟩
        exact absurd h (by decide)
      simp only [if_true, decide_eq_true_eq, true_and]
      constructor
      · exact fun h => .inl ⟨Ne.symm h.1, h.2⟩
      · rintro (h | ⟨rfl, hs⟩)
        · exact ⟨Ne.symm h.1, h.2⟩
        · exact ⟨by decide, hs⟩

theorem inList_iff (s : List Char) (i : Nat) : InList s i ↔ openAfter false (s.take i) = true := by
  rw [openAfter_iff, InList]
  simp

/-- The mark of a character by where it stands. -/
theorem getElem?_markFrom (inside : Bool) (s : List Char) (i : Nat) :
    (markFrom inside s)[i]? = s[i]?.map fun c =>
      if openAfter inside (s.take i) then c
      else if '(' ∈ s.drop i then markDelimiter c else markClosing c := by
  induction s generalizing inside i with
  | nil => rfl
  | cons c s ih =>
    cases i with
    | succ i =>
      have htail : (markFrom inside (c :: s))[i + 1]? =
          (markFrom (if inside then c ≠ ')' else c = '(') s)[i]? := by
        rw [markFrom]
        cases inside with
        | true => simp
        | false =>
          by_cases hc : c = '('
          · simp [hc]
          · simp [hc]
      rw [htail, ih, List.getElem?_cons_succ, List.take_succ_cons, openAfter, List.drop_succ_cons]
    | zero =>
      rw [markFrom, List.take_zero, openAfter, List.drop_zero, List.getElem?_cons_zero,
        Option.map_some]
      cases inside with
      | true => simp
      | false =>
        by_cases hc : c = '('
        · subst hc
          simp [markDelimiter]
        · have hmem : '(' ∈ c :: s ↔ '(' ∈ s := by simp [Ne.symm hc]
          simp [hc, hmem]

/-! ## Closed texts -/

/-- Every opening parenthesis has a closing one behind it. -/
def Closed : List Char → Prop
  | [] => True
  | c :: rest => (c = '(' → ')' ∈ rest) ∧ Closed rest

instance instDecidableClosed : (s : List Char) → Decidable (Closed s)
  | [] => .isTrue trivial
  | c :: rest =>
    have := instDecidableClosed rest
    inferInstanceAs (Decidable ((c = '(' → ')' ∈ rest) ∧ Closed rest))

theorem Closed.of_append {a b : List Char} (h : Closed (a ++ b)) : Closed b := by
  induction a with
  | nil => exact h
  | cons c a ih => exact ih h.2

/-- The opening parenthesis of a closed text has its closing one. -/
theorem Closed.mem_of_append {a b : List Char} (h : Closed (a ++ '(' :: b)) : ')' ∈ b :=
  h.of_append.1 rfl

theorem Closed.filter {s : List Char} (h : Closed s) : Closed (s.filter (· ≠ ' ')) := by
  induction s with
  | nil => trivial
  | cons c s ih =>
    rw [List.filter_cons]
    split
    · exact ⟨fun hc => List.mem_filter.2 ⟨h.1 hc, by decide⟩, ih h.2⟩
    · exact ih h.2

/-- The closing parenthesis of the last operand list. -/
theorem exists_lastClosing {s : List Char} (h : Closed s) (hopen : '(' ∈ s) :
    ∃ e, s[e]? = some ')' ∧ InList s e ∧ '(' ∉ s.drop e := by
  obtain ⟨q, p, hq, hlast⟩ := List.eq_append_cons_of_mem (List.mem_reverse.2 hopen)
  have hs : s = p.reverse ++ '(' :: q.reverse := by
    rw [← s.reverse_reverse, hq]
    simp
  obtain ⟨b, r, hb, hfirst⟩ := List.eq_append_cons_of_mem (hs ▸ h).mem_of_append
  have hcut : s = (p.reverse ++ '(' :: b) ++ ')' :: r := by
    rw [hs, hb]
    simp
  have hrest : '(' ∉ ')' :: r := by
    intro hmem
    refine hlast (List.mem_reverse.1 ?_)
    rw [hb]
    exact List.mem_append_right _ hmem
  refine ⟨(p.reverse ++ '(' :: b).length, ?_, ⟨p.reverse, b, ?_, hfirst⟩, ?_⟩
  · rw [hcut, List.getElem?_append_right (Nat.le_refl _), Nat.sub_self]
    rfl
  · rw [hcut, List.take_left]
  · rwa [hcut, List.drop_left]

/-- Outside the operand lists and before the end of the last one, a list is still to come. -/
theorem mem_drop_of_lt {s : List Char} {e i : Nat} (hclosing : InList s e) (hlt : i < e)
    (hi : ¬ InList s i) : '(' ∈ s.drop i := by
  obtain ⟨a, b, hab, hb⟩ := hclosing
  -- The list that ends there opens behind the place, since the place is not in it.
  have hbehind : i ≤ a.length := by
    refine Nat.le_of_not_lt fun hbefore => hi ⟨a, b.take (i - a.length - 1), ?_, ?_⟩
    · have htake : s.take i = (s.take e).take i := by
        rw [List.take_take, Nat.min_eq_left (Nat.le_of_lt hlt)]
      obtain ⟨n, hn⟩ : ∃ n, i = a.length + (n + 1) := ⟨i - a.length - 1, by omega⟩
      rw [htake, hab, hn, List.take_length_add_append, List.take_succ_cons]
      simp
    · exact fun hmem => hb (List.mem_of_mem_take hmem)
  have hopen : '(' ∈ (s.take e).drop i := by
    rw [hab, List.drop_append_of_le_length hbehind]
    simp
  rw [List.drop_take] at hopen
  exact List.mem_of_mem_take hopen

/-- No place behind the end of the last operand list is in one. -/
theorem not_inList_of_lt {s : List Char} {e i : Nat} (he : s[e]? = some ')')
    (hlast : '(' ∉ s.drop e) (hlt : e < i) : ¬ InList s i := by
  rintro ⟨a, b, hab, hb⟩
  have hlength : a.length < i ∧ a.length < s.length := by
    have := congrArg List.length hab
    rw [List.length_take, List.length_append, List.length_cons] at this
    omega
  have hopen : s[a.length]? = some '(' := by
    rw [← List.getElem?_take_of_lt hlength.1, hab, List.getElem?_append_right (Nat.le_refl _),
      Nat.sub_self]
    rfl
  have hbefore : a.length < e := by
    refine Nat.lt_of_not_le fun hle => hlast (List.mem_of_getElem? (i := a.length - e) ?_)
    rw [List.getElem?_drop, Nat.add_sub_of_le hle, hopen]
  -- So the closing parenthesis stands between the opening one and the place.
  refine hb (List.mem_of_getElem? (i := e - a.length - 1) ?_)
  have hclose := he
  rw [← List.getElem?_take_of_lt hlt, hab, List.getElem?_append_right (Nat.le_of_lt hbefore),
    List.getElem?_cons, if_neg (by omega)] at hclose
  exact hclose

/-! ## Marking again -/

theorem markDelimiter_markDelimiter (c : Char) :
    markDelimiter (markDelimiter c) = markDelimiter c := by
  grind [markDelimiter]

theorem markClosing_markClosing (c : Char) : markClosing (markClosing c) = markClosing c := by
  grind [markClosing]

/-- Only an opening parenthesis is marked as one, and only a space as one. -/
theorem mark_eq_iff {c d : Char} (hd : d = '(' ∨ d = ' ') :
    (markDelimiter c = d ↔ c = d) ∧ (markClosing c = d ↔ c = d) := by
  grind [markDelimiter, markClosing]

/-- Marking sets no parenthesis and no space, and takes none away. -/
theorem mem_markFrom {d : Char} (hd : d = '(' ∨ d = ' ') (inside : Bool) (s : List Char) :
    d ∈ markFrom inside s ↔ d ∈ s := by
  induction s generalizing inside with
  | nil => rfl
  | cons c s ih =>
    have hmark := @mark_eq_iff c d hd
    rw [markFrom]
    split
    · rw [List.mem_cons, ih, List.mem_cons]
    · split
      · rw [List.mem_cons, ih, List.mem_cons]
      · rw [List.mem_cons, ih, List.mem_cons, eq_comm]
        split
        · rw [hmark.1, eq_comm]
        · rw [hmark.2, eq_comm]

/-- What is marked stays as it is. -/
theorem markFrom_markFrom (inside : Bool) (s : List Char) :
    markFrom inside (markFrom inside s) = markFrom inside s := by
  induction s generalizing inside with
  | nil => rfl
  | cons c s ih =>
    cases inside with
    | true => simp [markFrom, ih]
    | false =>
      by_cases hc : c = '('
      · simp [markFrom, hc, ih]
      · have hmark := @mark_eq_iff c '(' (.inl rfl)
        have hrest := mem_markFrom (.inl rfl : '(' = '(' ∨ '(' = ' ') false s
        by_cases hs : '(' ∈ s
        · have hne : markDelimiter c ≠ '(' := fun h => hc (hmark.1.1 h)
          simp [markFrom, hc, hs, hne, hrest, ih, markDelimiter_markDelimiter]
        · have hne : markClosing c ≠ '(' := fun h => hc (hmark.2.1 h)
          simp [markFrom, hc, hs, hne, hrest, ih, markClosing_markClosing]

theorem markStages_markStages (text : String) :
    markStages (markStages text) = markStages text := by
  have hspaces : (markFrom false (text.toList.filter (· ≠ ' '))).filter (· ≠ ' ') =
      markFrom false (text.toList.filter (· ≠ ' ')) := by
    rw [List.filter_eq_self]
    intro c hc
    have hspace : c ≠ ' ' := by
      rintro rfl
      simp [mem_markFrom (.inr rfl)] at hc
    simpa using hspace
  rw [markStages, markStages, String.toList_ofList, hspaces, markFrom_markFrom]

/-! ## Round by round -/

/-- Where an index points: a negative one counts from the end. -/
def place (s : List Char) (i : Int) : Nat :=
  if 0 ≤ i then i.toNat else s.length - (-i).toNat

/-- The index of the first `c`, and `-1` where there is none. -/
def find (c : Char) (s : List Char) : Int :=
  match s.idxOf? c with
  | some i => i
  | none => -1

/-- An index behind a stretch of `n` characters, as an index of the whole. -/
def shift (n i : Int) : Int :=
  if i = -1 then -1 else i + n

/-- A text in the course of marking: `start` is where the last operand list ends, and `offset` where
the next one opens. -/
structure Marking where
  text : List Char
  start : Int
  offset : Int

/-- Before the first round. -/
def Marking.begin (s : List Char) : Marking :=
  ⟨s, 0, find '(' s⟩

/-- One round: what stands between two operand lists is marked, and the list behind it is passed. -/
def Marking.round (m : Marking) : Marking :=
  let start := place m.text m.start
  let offset := place m.text m.offset
  let text := m.text.take start ++ ((m.text.take offset).drop start).map markDelimiter ++
    m.text.drop offset
  let closing := find ')' (text.drop (place text m.offset)) + m.offset
  ⟨text, closing, shift closing (find '(' (text.drop (place text closing)))⟩

/-- The rounds from a state come to an end in another: there is no further operand list. -/
inductive Marking.Ends : Marking → Marking → Prop
  | done {m : Marking} : m.offset = -1 → m.Ends m
  | round {m m' : Marking} : m.offset ≠ -1 → m.round.Ends m' → m.Ends m'

/-- After the last round the closing brackets behind it are marked. -/
def Marking.finish (m : Marking) : List Char :=
  if m.start ≠ -1 then
    m.text.take (place m.text m.start) ++ (m.text.drop (place m.text m.start)).map markClosing
  else m.text

/-- The state between two rounds: what is done, and the rest as it was. -/
def Marking.between (done rest : List Char) : Marking :=
  ⟨done ++ rest, done.length, shift done.length (find '(' rest)⟩

@[simp] theorem place_natCast (s : List Char) (n : Nat) : place s n = n := by
  simp [place]

theorem find_of_not_mem {c : Char} {s : List Char} (h : c ∉ s) : find c s = -1 := by
  rw [find, List.idxOf?_eq_none_iff.2 h]

theorem find_append_cons {c : Char} {a : List Char} (h : c ∉ a) (rest : List Char) :
    find c (a ++ c :: rest) = a.length := by
  have : (a ++ c :: rest).idxOf? c = some a.length := by
    induction a with
    | nil => simp [List.idxOf?_cons]
    | cons d a ih =>
      obtain ⟨hd, ha⟩ := List.ne_and_not_mem_of_not_mem_cons h
      simp [List.idxOf?_cons, Ne.symm hd, ih ha]
  rw [find, this]

theorem shift_natCast (n : Int) (i : Nat) : shift n i = i + n := by
  rw [shift, if_neg (by omega)]

theorem Marking.begin_eq (s : List Char) : Marking.begin s = .between [] s := by
  simp [Marking.begin, Marking.between, shift]

/-- A round marks up to the next operand list and leaves the list and what follows it alone. -/
theorem Marking.round_between {a i : List Char} (ha : '(' ∉ a) (hi : ')' ∉ i)
    (done r : List Char) :
    (Marking.between done (a ++ '(' :: (i ++ ')' :: r))).round =
      .between (done ++ (a.map markDelimiter ++ '(' :: i)) (')' :: r) := by
  have hoffset : shift done.length (find '(' (a ++ '(' :: (i ++ ')' :: r))) =
      ((done ++ a.map markDelimiter).length : Nat) := by
    rw [find_append_cons ha, shift_natCast, List.length_append, List.length_map]
    omega
  have hlength : (done ++ a.map markDelimiter).length = (done ++ a).length := by simp
  have htext : (done ++ (a ++ '(' :: (i ++ ')' :: r))).take done.length ++
      (((done ++ (a ++ '(' :: (i ++ ')' :: r))).take (done ++ a.map markDelimiter).length).drop
        done.length).map markDelimiter ++
      (done ++ (a ++ '(' :: (i ++ ')' :: r))).drop (done ++ a.map markDelimiter).length =
      (done ++ a.map markDelimiter) ++ '(' :: (i ++ ')' :: r) := by
    rw [hlength, List.take_left, ← List.append_assoc, List.take_left, List.drop_left,
      List.drop_left]
  have hclosing : find ')' ('(' :: (i ++ ')' :: r)) + ((done ++ a.map markDelimiter).length : Nat) =
      ((done ++ (a.map markDelimiter ++ '(' :: i)).length : Nat) := by
    have hparen : ')' ∉ '(' :: i := by simpa using hi
    rw [← List.cons_append, find_append_cons hparen]
    simp
    omega
  have hcut : (done ++ a.map markDelimiter) ++ '(' :: (i ++ ')' :: r) =
      (done ++ (a.map markDelimiter ++ '(' :: i)) ++ ')' :: r := by simp
  simp only [Marking.round, Marking.between, hoffset, place_natCast, htext, List.drop_left,
    hclosing]
  rw [hcut, List.drop_left]

theorem Marking.finish_between {done rest : List Char} :
    (Marking.between done rest).finish = done ++ rest.map markClosing := by
  have hstart : ((done.length : Nat) : Int) ≠ -1 := by omega
  simp [Marking.finish, Marking.between, hstart]

/-- The rounds come to an end, with the marks of the one pass.  The invariant is that the rest has
not been touched; it gets shorter by an operand list in every round. -/
theorem Marking.exists_ends (done : List Char) {rest : List Char} (h : Closed rest) :
    ∃ m, (Marking.between done rest).Ends m ∧ m.finish = done ++ markFrom false rest := by
  induction hn : rest.length using Nat.strongRecOn generalizing done rest with
  | ind n ih =>
    by_cases hopen : '(' ∈ rest
    · obtain ⟨a, b, rfl, ha⟩ := List.eq_append_cons_of_mem hopen
      obtain ⟨i, r, rfl, hi⟩ := List.eq_append_cons_of_mem h.mem_of_append
      have hoffset : (Marking.between done (a ++ '(' :: (i ++ ')' :: r))).offset ≠ -1 := by
        rw [Marking.between, find_append_cons ha, shift_natCast]
        simp only
        omega
      have hcut : Closed ((a ++ '(' :: i) ++ ')' :: r) := (List.append_assoc a ('(' :: i) _).symm ▸ h
      obtain ⟨m, hm, hfinish⟩ :=
        ih (')' :: r).length (by simp at hn ⊢; omega) (done ++ (a.map markDelimiter ++ '(' :: i))
          hcut.of_append rfl
      refine ⟨m, .round hoffset (round_between ha hi done r ▸ hm), ?_⟩
      rw [hfinish, markFrom_before ha, markFrom_inside hi, markFrom_closing_paren]
      simp
    · refine ⟨_, .done ?_, ?_⟩
      · rw [Marking.between, find_of_not_mem hopen]
        rfl
      · rw [finish_between, markFrom_after hopen]

/-! ## The whole text -/

theorem getElem?_markFrom_of_inList {s : List Char} {i : Nat} (hi : InList s i) :
    (markFrom false s)[i]? = s[i]? := by
  rw [getElem?_markFrom, (inList_iff s i).1 hi]
  simp

theorem getElem?_markFrom_of_not_inList {s : List Char} {i : Nat} (hi : ¬ InList s i) :
    (markFrom false s)[i]? =
      s[i]?.map fun c => if '(' ∈ s.drop i then markDelimiter c else markClosing c := by
  rw [inList_iff] at hi
  rw [getElem?_markFrom]
  simp [hi]

/-- From the end of the last operand list on only closing brackets are marked. -/
theorem getElem?_markFrom_of_le {s : List Char} {e i : Nat} (he : s[e]? = some ')')
    (hein : InList s e) (hlast : '(' ∉ s.drop e) (hle : e ≤ i) :
    (markFrom false s)[i]? = s[i]?.map markClosing := by
  rcases Nat.lt_or_eq_of_le hle with hlt | rfl
  · have hrest : '(' ∉ s.drop i := by
      rw [← Nat.add_sub_of_le hle, ← List.drop_drop]
      exact fun hmem => hlast (List.mem_of_mem_drop hmem)
    rw [getElem?_markFrom_of_not_inList (not_inList_of_lt he hlast hlt)]
    simp [hrest]
  · rw [getElem?_markFrom_of_inList hein, he]
    rfl

/-- A text whose operand lists are closed is marked character by character, whether in one pass or
round by round: nothing changes in an operand list, delimiters are marked up to the end of the last
list, and from there on only closing brackets.  Marking it again changes nothing. -/
theorem markStages_scans (text : String) (hclosed : Closed text.toList) :
    let s := text.toList.filter (· ≠ ' ')
    let marked := (markStages text).toList
    (∃ m, (Marking.begin s).Ends m ∧ m.finish = marked) ∧
      marked.length = s.length ∧
      (∀ i, InList s i → marked[i]? = s[i]?) ∧
      ('(' ∈ s → ∃ e, s[e]? = some ')' ∧ InList s e ∧ '(' ∉ s.drop e ∧
        (∀ i < e, ¬ InList s i → marked[i]? = s[i]?.map markDelimiter) ∧
        ∀ i, e ≤ i → marked[i]? = s[i]?.map markClosing) ∧
      ('(' ∉ s → marked = s.map markClosing) ∧
      markStages (markStages text) = markStages text := by
  intro s marked
  have hs : Closed s := hclosed.filter
  have hmarked : marked = markFrom false s := String.toList_ofList
  rw [hmarked]
  refine ⟨?_, length_markFrom false s, fun i => getElem?_markFrom_of_inList, ?_, markFrom_after,
    markStages_markStages text⟩
  · rw [Marking.begin_eq]
    exact Marking.exists_ends [] hs
  · intro hopen
    obtain ⟨e, he, hein, hlast⟩ := exists_lastClosing hs hopen
    refine ⟨e, he, hein, hlast, ?_, fun i => getElem?_markFrom_of_le he hein hlast⟩
    intro i hlt hi
    rw [getElem?_markFrom_of_not_inList hi]
    simp [mem_drop_of_lt hein hlt hi]

theorem markStages_scans_nested :
    Closed "[XIC(a[1], b), XIO((c)], OTE(d], e) ]".toList ∧
      (∃ m, (Marking.begin "[XIC(a[1],b),XIO((c)],OTE(d],e)]".toList).Ends m ∧
        m.finish = "<XIC(a[1],b);XIO((c)>;OTE(d],e)>".toList) ∧
      markStages "<XIC(a[1],b);XIO((c)>;OTE(d],e)>" = "<XIC(a[1],b);XIO((c)>;OTE(d],e)>" := by
  have hmarked : markStages "[XIC(a[1], b), XIO((c)], OTE(d], e) ]" =
      "<XIC(a[1],b);XIO((c)>;OTE(d],e)>" := by decide
  have hclosed : Closed "[XIC(a[1], b), XIO((c)], OTE(d], e) ]".toList := by decide
  obtain ⟨hrounds, -, -, -, -, hagain⟩ := markStages_scans _ hclosed
  rw [hmarked] at hrounds hagain
  exact ⟨hclosed, hrounds, hagain⟩

end ControlLogic.Ladder
