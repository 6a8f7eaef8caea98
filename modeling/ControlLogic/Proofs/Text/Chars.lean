import ControlLogic.Text.Basic

/-!
# Laws of lists of characters

What the readers need to know about `Text.Chars`.  Nothing here mentions rungs or
statements.

* `join` is `List.intercalate`, so its laws are the library's.
* `contains` is the infix relation, and `replaceFirst` with nothing only takes away.
* Cutting at one character is `List.splitOn`; `infix_of_mem_splitOn` says that its pieces stand in
  the text.
* `splitOn` cuts at the first occurrence that `breakOn?` finds, `splitOn_eq_pair_iff` says when
  there are two pieces, and `words` cuts off the first word.
* `trim` keeps a text without characters of its class, and drops what stands around it.
* `not_mem_toString` and `toString_inj` are about numbers in a text.
* `HoldsInOrder` holds of pieces that stand in a text one after the other, as they do after
  `join`.
-/

namespace ControlLogic.Text.Chars

/-! ## Joining and searching -/

theorem join_eq_intercalate (sep : List Char) (pieces : List (List Char)) :
    join sep pieces = sep.intercalate pieces := by
  induction pieces with
  | nil => rfl
  | cons piece pieces ih =>
    cases pieces with
    | nil => simp [join]
    | cons next pieces => rw [join, ih, List.intercalate_cons_cons]; simp

/-- Joined lists are joined by one more separator. -/
theorem intercalate_append_of_ne_nil {sep : List Char} {a b : List (List Char)} (ha : a ≠ [])
    (hb : b ≠ []) : sep.intercalate (a ++ b) = sep.intercalate a ++ sep ++ sep.intercalate b := by
  induction a with
  | nil => exact absurd rfl ha
  | cons piece a ih =>
    cases a with
    | nil =>
      obtain ⟨next, b, rfl⟩ := List.exists_cons_of_ne_nil hb
      simp [List.intercalate_cons_cons]
    | cons next a =>
      have htail := ih (List.cons_ne_nil next a)
      rw [List.cons_append] at htail
      rw [List.cons_append, List.cons_append, List.intercalate_cons_cons, htail,
        List.intercalate_cons_cons]
      simp

/-- Joining joined groups joins all their pieces. -/
theorem intercalate_map_intercalate {sep : List Char} {groups : List (List (List Char))}
    (h : ∀ g ∈ groups, g ≠ []) :
    sep.intercalate (groups.map sep.intercalate) = sep.intercalate groups.flatten := by
  induction groups with
  | nil => rfl
  | cons g groups ih =>
    have htail := ih fun d hd => h d (List.mem_cons_of_mem _ hd)
    cases groups with
    | nil => simp
    | cons d groups =>
      have hflatten : (d :: groups).flatten ≠ [] := by
        simp [h d (by simp)]
      rw [List.flatten_cons, intercalate_append_of_ne_nil (h g List.mem_cons_self) hflatten,
        ← htail, List.map_cons, List.map_cons, List.intercalate_cons_cons]

/-- A text occurs in another exactly when it is an infix of it. -/
theorem contains_iff_infix {t s : List Char} : contains t s = true ↔ t <:+: s := by
  induction s with
  | nil => simp [contains]
  | cons d rest ih =>
    rw [contains, Bool.or_eq_true, ih, List.isPrefixOf_iff_prefix, List.infix_cons_iff]

/-- Taking a text out leaves no character that was not there. -/
theorem mem_of_mem_replaceFirst_nil {old s : List Char} {c : Char}
    (h : c ∈ replaceFirst old [] s) : c ∈ s := by
  induction s with
  | nil => simp [replaceFirst] at h
  | cons d rest ih =>
    rw [replaceFirst] at h
    split at h
    · rw [List.nil_append] at h
      exact List.mem_of_mem_drop h
    · rcases List.mem_cons.1 h with rfl | h
      · exact List.mem_cons_self
      · exact List.mem_cons_of_mem _ (ih h)

/-! ## Cutting at one character -/

theorem splitOn_cons_self (c : Char) (rest : List Char) :
    List.splitOn c (c :: rest) = [] :: List.splitOn c rest := by
  rw [List.splitOn_cons_eq_if_modifyHead, if_pos (beq_self_eq_true c)]

/-- A character other than the separator joins the first piece of what follows. -/
theorem splitOn_cons_of_ne {c d : Char} (h : d ≠ c) (rest : List Char) :
    ∃ piece pieces, List.splitOn c rest = piece :: pieces ∧
      List.splitOn c (d :: rest) = (d :: piece) :: pieces := by
  obtain ⟨piece, pieces, hsplit⟩ := List.exists_cons_of_ne_nil (List.splitOn_ne_nil c rest)
  refine ⟨piece, pieces, hsplit, ?_⟩
  rw [List.splitOn_cons_eq_if_modifyHead, if_neg (by simpa using h), hsplit]
  rfl

/-- Two texts are cut at the first separator in the same place. -/
theorem append_cons_inj {c : Char} {s t u v : List Char} (hs : c ∉ s) (ht : c ∉ t)
    (h : s ++ c :: u = t ++ c :: v) : s = t ∧ u = v := by
  have hsplit := congrArg (List.splitOn c) h
  rw [List.splitOn_append_cons_self_of_not_mem hs,
    List.splitOn_append_cons_self_of_not_mem ht] at hsplit
  obtain rfl := (List.cons.inj hsplit).1
  exact ⟨rfl, (List.cons.inj (List.append_cancel_left h)).2⟩

/-- No piece holds the separator. -/
theorem not_mem_of_mem_splitOn {c : Char} {s piece : List Char} (h : piece ∈ List.splitOn c s) :
    c ∉ piece := by
  induction s generalizing piece with
  | nil => simp [List.mem_singleton.1 h]
  | cons d rest ih =>
    by_cases hd : d = c
    · rw [hd, splitOn_cons_self] at h
      rcases List.mem_cons.1 h with rfl | h
      · simp
      · exact ih h
    · obtain ⟨first, pieces, hsplit, hcons⟩ := splitOn_cons_of_ne hd rest
      rw [hsplit] at ih
      rw [hcons] at h
      rcases List.mem_cons.1 h with rfl | h
      · simp [Ne.symm hd, ih List.mem_cons_self]
      · exact ih (List.mem_cons_of_mem _ h)

/-- The pieces of a text stand in it. -/
theorem infix_of_mem_splitOn {c : Char} {s piece : List Char} (h : piece ∈ List.splitOn c s) :
    piece <:+: s := by
  -- The first piece stands at the beginning, so that it can grow.
  have hpieces : ∀ first pieces, List.splitOn c s = first :: pieces →
      first <+: s ∧ ∀ p ∈ pieces, p <:+: s := by
    clear h
    induction s with
    | nil =>
      intro first pieces h
      cases h
      exact ⟨List.prefix_rfl, List.forall_mem_nil _⟩
    | cons d rest ih =>
      intro first pieces h
      by_cases hd : d = c
      · rw [hd, splitOn_cons_self] at h
        cases h
        refine ⟨List.nil_prefix, fun p hp => ?_⟩
        obtain ⟨first, pieces, hsplit⟩ := List.exists_cons_of_ne_nil (List.splitOn_ne_nil c rest)
        obtain ⟨hfirst, hpieces⟩ := ih first pieces hsplit
        rw [hsplit] at hp
        refine List.IsInfix.trans ?_ (List.suffix_cons d rest).isInfix
        rcases List.mem_cons.1 hp with rfl | hp
        · exact hfirst.isInfix
        · exact hpieces p hp
      · obtain ⟨piece, others, hsplit, hcons⟩ := splitOn_cons_of_ne hd rest
        obtain ⟨hfirst, hpieces⟩ := ih piece others hsplit
        rw [hcons] at h
        cases h
        exact ⟨List.cons_prefix_cons.2 ⟨rfl, hfirst⟩, fun p hp =>
          (hpieces p hp).trans (List.suffix_cons d rest).isInfix⟩
  obtain ⟨first, pieces, hsplit⟩ := List.exists_cons_of_ne_nil (List.splitOn_ne_nil c s)
  rw [hsplit] at h
  rcases List.mem_cons.1 h with rfl | h
  · exact (hpieces _ pieces hsplit).1.isInfix
  · exact (hpieces first pieces hsplit).2 _ h

theorem mem_of_mem_splitOn {c : Char} {s piece : List Char} (h : piece ∈ List.splitOn c s)
    {x : Char} (hx : x ∈ piece) : x ∈ s :=
  (infix_of_mem_splitOn h).subset hx

/-! ## Cutting at a text -/

section

variable {t : List Char}

theorem breakOn?_eq_none_iff {s : List Char} :
    breakOn? t s = none ↔ contains t s = false := by
  induction s with
  | nil => simp [breakOn?, contains]
  | cons d rest ih =>
    rw [breakOn?, contains, Bool.or_eq_false_iff, ← ih]
    cases t.isPrefixOf (d :: rest) <;> simp

/-- A text does not reach over a character it does not hold. -/
theorem isPrefixOf_append_sep {c : Char} (hc : c ∉ t) (s u : List Char) :
    t.isPrefixOf (s ++ c :: u) = t.isPrefixOf s := by
  induction t generalizing s with
  | nil => simp
  | cons x t ih =>
    rw [List.mem_cons, not_or] at hc
    cases s with
    | nil => simp [List.isPrefixOf, Ne.symm hc.1]
    | cons d s => rw [List.cons_append, List.isPrefixOf, List.isPrefixOf, ih hc.2]

/-- The search goes on behind such a character if it finds nothing before it. -/
theorem breakOn?_append_sep (ht : t ≠ []) {c : Char} (hc : c ∉ t) (s u : List Char) :
    breakOn? t (s ++ c :: u) = ((breakOn? t s).map fun r => (r.1, r.2 ++ c :: u)).or
      ((breakOn? t u).map fun r => (s ++ c :: r.1, r.2)) := by
  induction s with
  | nil =>
    have hprefix := isPrefixOf_append_sep hc [] u
    have hempty : t.isPrefixOf [] = false := by simpa [← Bool.not_eq_true] using ht
    rw [List.nil_append, hempty] at hprefix
    simp [breakOn?, hprefix, ht]
  | cons d s ih =>
    have hprefix := isPrefixOf_append_sep hc (d :: s) u
    rw [List.cons_append] at hprefix ⊢
    rw [breakOn?, breakOn?, hprefix]
    split
    · rename_i h
      have hlength := (List.isPrefixOf_iff_prefix.1 h).length_le
      rw [← List.cons_append, List.drop_append_of_le_length hlength]
      rfl
    · rw [ih]
      cases breakOn? t s with
      | some r => rfl
      | none => simp [Function.comp_def]

/-- A text is searched for on both sides of a character that it does not hold. -/
theorem contains_append_sep (ht : t ≠ []) {c : Char} (hc : c ∉ t)
    {s u : List Char} :
    contains t (s ++ c :: u) = false ↔ contains t s = false ∧ contains t u = false := by
  rw [← breakOn?_eq_none_iff, breakOn?_append_sep ht hc, Option.or_eq_none_iff,
    Option.map_eq_none_iff, Option.map_eq_none_iff, breakOn?_eq_none_iff, breakOn?_eq_none_iff]

theorem splitOnAux_eq_drop (n : Nat) (piece s : List Char) :
    splitOnAux t n piece s = splitOnAux t 0 piece (s.drop n) := by
  induction s generalizing n with
  | nil => cases n <;> simp [splitOnAux]
  | cons d s ih =>
    cases n with
    | zero => rfl
    | succ n => rw [splitOnAux, ih, List.drop_succ_cons]

/-- A text is cut at the first occurrence, and then what follows. -/
theorem splitOnAux_eq (ht : t ≠ []) (piece s : List Char) :
    splitOnAux t 0 piece s = ((breakOn? t s).map fun r =>
      (piece.reverse ++ r.1) :: splitOn t r.2).getD [piece.reverse ++ s] := by
  obtain ⟨x, t', rfl⟩ := List.exists_cons_of_ne_nil ht
  induction s generalizing piece with
  | nil => simp [splitOnAux, breakOn?]
  | cons d s ih =>
    rw [splitOnAux, breakOn?]
    split
    · rw [splitOnAux_eq_drop]
      simp [splitOn]
    · rw [ih]
      cases breakOn? (x :: t') s <;> simp

theorem splitOn_of_breakOn? (ht : t ≠ []) {s a b : List Char} (h : breakOn? t s = some (a, b)) :
    splitOn t s = a :: splitOn t b := by
  rw [splitOn, if_neg (by simpa using ht), splitOnAux_eq ht, h]
  rfl

theorem splitOn_of_not_contains (ht : t ≠ []) {s : List Char} (h : contains t s = false) :
    splitOn t s = [s] := by
  rw [splitOn, if_neg (by simpa using ht), splitOnAux_eq ht, breakOn?_eq_none_iff.2 h]
  rfl

/-- What stands before the first occurrence does not hold the text. -/
theorem contains_of_breakOn? (ht : t ≠ []) {s a b : List Char}
    (h : breakOn? t s = some (a, b)) : contains t a = false := by
  induction s generalizing a with
  | nil =>
    rw [breakOn?, if_neg (by simpa using ht)] at h
    cases h
  | cons d s ih =>
    rw [breakOn?] at h
    split at h
    · cases h
      rw [contains]
      simpa using ht
    · rename_i hnot
      obtain ⟨⟨a', b'⟩, hrest, heq⟩ := Option.map_eq_some_iff.1 h
      cases heq
      rw [contains, Bool.or_eq_false_iff]
      refine ⟨?_, ih hrest⟩
      -- the text would stand at the beginning of the whole, too
      rw [Bool.eq_false_iff, Ne, List.isPrefixOf_iff_prefix]
      intro hstart
      refine hnot <| List.isPrefixOf_iff_prefix.2 <| hstart.trans ?_
      rw [eq_of_breakOn? hrest, List.append_assoc]
      exact List.cons_prefix_cons.2 ⟨rfl, List.prefix_append _ _⟩

/-- A text whose first character does not come again in it is found where it is put, if what stands
before does not hold it. -/
theorem breakOn?_append_self {x : Char} {u a : List Char} (hx : x ∉ u)
    (ha : contains (x :: u) a = false) (b : List Char) :
    breakOn? (x :: u) (a ++ (x :: u) ++ b) = some (a, b) := by
  induction a with
  | nil => simp [breakOn?]
  | cons d a ih =>
    rw [contains, Bool.or_eq_false_iff] at ha
    have hbefore : ¬ x :: u <+: d :: a := by
      rw [← List.isPrefixOf_iff_prefix, ha.1]
      simp
    have hnot : ¬ x :: u <+: d :: (a ++ (x :: u) ++ b) := by
      intro hstart
      have hwhole : d :: a <+: d :: (a ++ (x :: u) ++ b) := by
        rw [List.append_assoc]
        exact List.cons_prefix_cons.2 ⟨rfl, List.prefix_append _ _⟩
      rcases List.prefix_or_prefix_of_prefix hstart hwhole with h | h
      · exact hbefore h
      · -- the text begins with `d :: a` and goes on with its own first character
        obtain ⟨v, hv⟩ := h
        cases v with
        | nil =>
          rw [List.append_nil] at hv
          exact hbefore ⟨[], by rw [List.append_nil, hv]⟩
        | cons y v =>
          rw [← hv, List.append_assoc, ← List.cons_append, List.prefix_append_right_inj, hv,
            List.cons_append, List.cons_prefix_cons] at hstart
          obtain ⟨-, hu⟩ := List.cons.inj hv
          exact hx (hu ▸ hstart.1 ▸ List.mem_append_right _ List.mem_cons_self)
    rw [List.cons_append, List.cons_append, breakOn?,
      if_neg (mt List.isPrefixOf_iff_prefix.1 hnot), ih ha.2]
    rfl

/-- A text is left in one piece exactly if it does not hold the separator. -/
theorem splitOn_eq_singleton_iff (ht : t ≠ []) {s a : List Char} :
    splitOn t s = [a] ↔ contains t s = false ∧ s = a := by
  cases hbreak : breakOn? t s with
  | none =>
    have hno := breakOn?_eq_none_iff.1 hbreak
    rw [splitOn_of_not_contains ht hno]
    simp [hno]
  | some parts =>
    obtain ⟨c, d⟩ := parts
    have hsome : contains t s ≠ false := by
      rw [Ne, ← breakOn?_eq_none_iff, hbreak]
      simp
    have hrest : splitOn t d ≠ [] := by
      rw [splitOn, if_neg (by simpa using ht), splitOnAux_eq ht]
      cases breakOn? t d <;> simp
    rw [splitOn_of_breakOn? ht hbreak]
    simp [hsome, hrest]

/-- A text is cut in two pieces exactly if it holds the separator between them and nowhere else. -/
theorem splitOn_eq_pair_iff {x : Char} {u : List Char} (hx : x ∉ u) {s a b : List Char} :
    splitOn (x :: u) s = [a, b] ↔
      s = a ++ (x :: u) ++ b ∧ contains (x :: u) a = false ∧ contains (x :: u) b = false := by
  have ht : x :: u ≠ [] := List.cons_ne_nil x u
  constructor
  · intro h
    cases hbreak : breakOn? (x :: u) s with
    | none =>
      rw [splitOn_of_not_contains ht (breakOn?_eq_none_iff.1 hbreak)] at h
      simp at h
    | some parts =>
      obtain ⟨c, d⟩ := parts
      rw [splitOn_of_breakOn? ht hbreak] at h
      obtain ⟨rfl, hrest⟩ := List.cons.inj h
      obtain ⟨hd, rfl⟩ := (splitOn_eq_singleton_iff ht).1 hrest
      exact ⟨eq_of_breakOn? hbreak, contains_of_breakOn? ht hbreak, hd⟩
  · rintro ⟨rfl, ha, hb⟩
    rw [splitOn_of_breakOn? ht (breakOn?_append_self hx ha b), splitOn_of_not_contains ht hb]

end

/-! ## Cutting into words -/

/-- The first stretch of a text begins with its first character. -/
theorem runs_cons (p : Char → Bool) (c : Char) (rest : List Char) :
    ∃ run more, runs p (c :: rest) = (c :: run) :: more := by
  rw [runs]
  split
  · split
    · exact ⟨_, _, rfl⟩
    · exact ⟨_, _, rfl⟩
  · exact ⟨_, _, rfl⟩

/-- The characters of the first stretch are all of the class of the first one. -/
theorem eq_of_mem_runs_head {p : Char → Bool} {s : List Char} {d : Char} {run : List Char}
    {more : List (List Char)} (h : runs p s = (d :: run) :: more) :
    ∀ c ∈ run, p c = p d := by
  induction s generalizing d run more with
  | nil => simp [runs] at h
  | cons c rest ih =>
    rw [runs] at h
    split at h
    · rename_i e run' more' hruns
      split at h
      · rename_i hce
        simp only [List.cons.injEq] at h
        obtain ⟨⟨rfl, rfl⟩, -⟩ := h
        have hce : p c = p e := by simpa using hce
        intro x hx
        rcases List.mem_cons.1 hx with rfl | hx
        · exact hce.symm
        · rw [hce]; exact ih hruns x hx
      · simp only [List.cons.injEq] at h
        obtain ⟨⟨rfl, rfl⟩, -⟩ := h
        simp
    · simp only [List.cons.injEq] at h
      obtain ⟨⟨rfl, rfl⟩, -⟩ := h
      simp

/-- A separator at the beginning is dropped. -/
theorem words_cons_of_sep {p : Char → Bool} {c : Char} (hc : p c = true) (rest : List Char) :
    words p (c :: rest) = words p rest := by
  unfold words
  rw [runs]
  split
  · rename_i d run more hruns
    rw [hruns]
    split
    · rename_i hcd
      -- Both stretches consist of separators, so the filter drops both.
      have hd : p d = true := by rw [hc] at hcd; simpa using hcd.symm
      have hrun : run.all p = true := by
        rw [List.all_eq_true]
        intro x hx
        rw [eq_of_mem_runs_head hruns x hx, hd]
      simp [hc, hd, hrun]
    · simp [hc]
  · simp [hc]

/-- A run ends where a character of another class begins. -/
theorem runs_append {p : Char → Bool} {b : Bool} {w t : List Char} (hne : w ≠ [])
    (hw : ∀ c ∈ w, p c = b) (ht : t.head?.any (p · == b) = false) :
    runs p (w ++ t) = w :: runs p t := by
  induction w with
  | nil => exact absurd rfl hne
  | cons c w ih =>
    have hc : p c = b := hw c List.mem_cons_self
    cases w with
    | nil =>
      cases t with
      | nil => rfl
      | cons d t =>
        obtain ⟨run, more, hruns⟩ := runs_cons p d t
        have hd : p d ≠ b := by simpa using ht
        rw [List.singleton_append, runs, hruns]
        simp [hc, hd.symm]
    | cons d w =>
      have hd : p d = b := hw d (by simp)
      rw [List.cons_append, runs, ih (List.cons_ne_nil d w) fun x hx => hw x (by simp_all)]
      simp [hc, hd]

/-- The first word ends at the first separator. -/
theorem words_word_append {p : Char → Bool} {w : List Char} (hne : w ≠ [])
    (hw : ∀ c ∈ w, p c = false) {sep : Char} (hsep : p sep = true) (rest : List Char) :
    words p (w ++ sep :: rest) = w :: words p rest := by
  have hkeep : w.all p = false := by
    obtain ⟨c, w, rfl⟩ := List.exists_cons_of_ne_nil hne
    simp [hw c List.mem_cons_self]
  rw [← words_cons_of_sep hsep rest, words, runs_append hne hw (by simp [hsep]), words]
  simp [hkeep]

/-! ## Dropping at the ends -/

theorem trim_of_forall_not {p : Char → Bool} {s : List Char} (h : ∀ c ∈ s, p c = false) :
    trim p s = s := by
  have hdrop : ∀ l : List Char, (∀ c ∈ l, p c = false) → l.dropWhile p = l := by
    intro l hl
    cases l with
    | nil => rfl
    | cons c l => rw [List.dropWhile_cons, hl c List.mem_cons_self]; simp
  rw [trim, trimLeft, trimRight, hdrop s h, hdrop s.reverse (by simpa using h),
    List.reverse_reverse]

theorem mem_of_mem_trim {p : Char → Bool} {s : List Char} {x : Char} (h : x ∈ trim p s) :
    x ∈ s := by
  rw [trim, trimRight, trimLeft, List.mem_reverse] at h
  have h' := (List.dropWhile_sublist p).subset h
  rw [List.mem_reverse] at h'
  exact (List.dropWhile_sublist p).subset h'

theorem trimRight_isPrefix (p : Char → Bool) (s : List Char) : trimRight p s <+: s := by
  rw [trimRight, ← List.reverse_suffix, List.reverse_reverse]
  exact List.dropWhile_suffix p

theorem trim_isInfix (p : Char → Bool) (s : List Char) : trim p s <:+: s :=
  (trimRight_isPrefix p _).isInfix.trans (List.dropWhile_suffix p).isInfix

theorem trimRight_append {p : Char → Bool} {s b : List Char} (hs : ∀ c ∈ s, p c = false)
    (hb : ∀ c ∈ b, p c = true) : trimRight p (s ++ b) = s := by
  rw [trimRight, List.reverse_append, List.dropWhile_append_of_pos (by simpa using hb)]
  cases hrev : s.reverse with
  | nil => simpa using hrev
  | cons c r =>
    have hc : p c = false := hs c (List.mem_reverse.1 (hrev ▸ List.mem_cons_self))
    rw [List.dropWhile_cons_of_neg (by simp [hc]), ← hrev, List.reverse_reverse]

/-- What stands around a text is dropped, up to the text. -/
theorem trim_append_append {p : Char → Bool} {a s b : List Char} (ha : ∀ c ∈ a, p c = true)
    (hs : ∀ c ∈ s, p c = false) (hb : ∀ c ∈ b, p c = true) : trim p (a ++ (s ++ b)) = s := by
  rw [trim, trimLeft, List.dropWhile_append_of_pos ha]
  cases s with
  | nil =>
    rw [List.nil_append, ← List.append_nil b, List.dropWhile_append_of_pos hb]
    rfl
  | cons c s =>
    rw [List.cons_append, List.dropWhile_cons_of_neg (by simp [hs c List.mem_cons_self]),
      ← List.cons_append, trimRight_append hs hb]

end ControlLogic.Text.Chars

namespace ControlLogic.Text

@[simp] theorem toList_join (sep : String) (pieces : List String) :
    (join sep pieces).toList = sep.toList.intercalate (pieces.map String.toList) := by
  rw [join, String.toList_ofList, Chars.join_eq_intercalate]

@[simp] theorem join_singleton (sep piece : String) : join sep [piece] = piece := by
  rw [← String.toList_inj]
  simp

/-- Lines joined behind others. -/
theorem toList_join_append {a b : List String} (ha : a ≠ []) (hb : b ≠ []) :
    (join "\n" (a ++ b)).toList = (join "\n" a).toList ++ '\n' :: (join "\n" b).toList := by
  rw [toList_join, List.map_append, Chars.intercalate_append_of_ne_nil (by simpa) (by simpa),
    List.append_assoc, toList_join, toList_join]
  rfl

theorem toList_join_cons (line : String) {b : List String} (hb : b ≠ []) :
    (join "\n" (line :: b)).toList = line.toList ++ '\n' :: (join "\n" b).toList := by
  rw [← List.singleton_append, toList_join_append (List.cons_ne_nil _ _) hb, join_singleton]

/-- Joined pieces are found again. -/
theorem split_join_of_toList {sep : String} {c : Char} (hsep : sep.toList = [c])
    {pieces : List String} (hne : pieces ≠ []) (h : ∀ piece ∈ pieces, c ∉ piece.toList) :
    split c (join sep pieces) = pieces := by
  obtain ⟨piece, pieces, rfl⟩ := List.exists_cons_of_ne_nil hne
  rw [split, toList_join, List.map_cons, hsep,
    List.splitOn_intercalate _ (by simpa using h) (List.cons_ne_nil _ _)]
  simp [Function.comp_def]

/-- Joined lines are found again. -/
theorem split_join {lines : List String} (hne : lines ≠ [])
    (h : ∀ line ∈ lines, '\n' ∉ line.toList) : split '\n' (join "\n" lines) = lines :=
  split_join_of_toList rfl hne h

/-- Pieces with something between them give nothing only if there is nothing to put it
between. -/
theorem join_eq_empty_iff {sep : String} (hsep : sep ≠ "") (pieces : List String) :
    join sep pieces = "" ↔ pieces = [] ∨ pieces = [""] := by
  have hsep : sep.toList ≠ [] := by simpa using hsep
  rw [← String.toList_inj, toList_join]
  rcases pieces with _ | ⟨piece, _ | ⟨next, pieces⟩⟩
  · simp
  · simp
  · simp [List.intercalate_cons_cons, hsep]

/-- Joining joined groups joins all their pieces. -/
theorem join_map_join (sep : String) {groups : List (List String)} (h : ∀ g ∈ groups, g ≠ []) :
    join sep (groups.map (join sep)) = join sep groups.flatten := by
  rw [← String.toList_inj, toList_join, toList_join, List.map_map, List.map_flatten]
  have hmap : groups.map (String.toList ∘ join sep) =
      (groups.map (·.map String.toList)).map sep.toList.intercalate := by
    rw [List.map_map]
    apply List.map_congr_left
    intro g _
    simp
  rw [hmap, Chars.intercalate_map_intercalate]
  intro g hg
  obtain ⟨d, hd, rfl⟩ := List.mem_map.1 hg
  simpa using h d hd

/-- The characters of joined pieces are those of the pieces and of what is put between. -/
theorem mem_toList_join {sep : String} {pieces : List String} {x : Char}
    (h : x ∈ (join sep pieces).toList) :
    x ∈ sep.toList ∨ ∃ piece ∈ pieces, x ∈ piece.toList := by
  rw [toList_join] at h
  induction pieces with
  | nil => simp at h
  | cons piece pieces ih =>
    cases pieces with
    | nil => exact .inr ⟨piece, List.mem_cons_self, by simpa using h⟩
    | cons next pieces =>
      rw [List.map_cons, List.map_cons, List.intercalate_cons_cons, List.mem_append,
        List.mem_append] at h
      rcases h with (h | h) | h
      · exact .inr ⟨piece, List.mem_cons_self, h⟩
      · exact .inl h
      · exact (ih h).imp_right fun ⟨q, hq, hx⟩ => ⟨q, List.mem_cons_of_mem _ hq, hx⟩

/-! ## Numbers -/

/-- A number is written in digits. -/
theorem isDigit_of_mem_toString {n : Nat} {c : Char} (h : c ∈ (toString n).toList) :
    c.isDigit = true := by
  rw [Nat.toString_eq_ofList_toDigits, String.toList_ofList] at h
  exact Nat.isDigit_of_mem_toDigits (by decide) (by decide) h

theorem not_mem_toString {c : Char} (hc : c.isDigit = false) (n : Nat) :
    c ∉ (toString n).toList := by
  intro hmem
  rw [isDigit_of_mem_toString hmem] at hc
  cases hc

/-- What holds of the characters of the first 128 codes holds of every character of ASCII. -/
theorem of_forall_ascii {P : Char → Prop} (h : ∀ n < 128, P (Char.ofNat n)) {c : Char}
    (hc : c.toNat < 128) : P c := by
  have hcode := h c.toNat hc
  rwa [Char.ofNat_toNat] at hcode

theorem toString_inj {m n : Nat} (h : (toString m).toList = (toString n).toList) : m = n := by
  rw [Nat.toString_eq_ofList_toDigits, Nat.toString_eq_ofList_toDigits, String.toList_ofList,
    String.toList_ofList] at h
  simpa using congrArg (Nat.ofDigitChars 10 · 0) h

/-! ## Pieces in order -/

/-- The pieces stand in the text one after the other. -/
def HoldsInOrder : List String → List Char → Prop
  | [], _ => True
  | piece :: pieces, s =>
    ∃ before after, s = before ++ piece.toList ++ after ∧ HoldsInOrder pieces after

theorem HoldsInOrder.append {pieces : List String} {s : List Char} (h : HoldsInOrder pieces s)
    (t : List Char) : HoldsInOrder pieces (t ++ s) := by
  cases pieces with
  | nil => trivial
  | cons piece pieces =>
    obtain ⟨before, after, rfl, hrest⟩ := h
    exact ⟨t ++ before, after, by simp only [List.append_assoc], hrest⟩

theorem HoldsInOrder.append_append {pieces pieces' : List String} {s t : List Char}
    (h : HoldsInOrder pieces s) (h' : HoldsInOrder pieces' t) :
    HoldsInOrder (pieces ++ pieces') (s ++ t) := by
  induction pieces generalizing s with
  | nil => exact h'.append s
  | cons piece pieces ih =>
    obtain ⟨before, after, rfl, hrest⟩ := h
    exact ⟨before, after ++ t, by simp only [List.append_assoc], ih hrest⟩

/-- What stands in order in each piece stands in order where the pieces do. -/
theorem HoldsInOrder.flatMap {α : Type} {f : α → List String} {g : α → String} {l : List α}
    {s : List Char} (hf : ∀ a, HoldsInOrder (f a) (g a).toList) (h : HoldsInOrder (l.map g) s) :
    HoldsInOrder (l.flatMap f) s := by
  induction l generalizing s with
  | nil => trivial
  | cons a l ih =>
    obtain ⟨before, after, rfl, hrest⟩ := h
    rw [List.append_assoc]
    exact ((hf a).append_append (ih hrest)).append before

theorem holdsInOrder_intercalate (sep : List Char) (pieces : List String) :
    HoldsInOrder pieces (sep.intercalate (pieces.map String.toList)) := by
  induction pieces with
  | nil => trivial
  | cons piece pieces ih =>
    cases pieces with
    | nil => exact ⟨[], [], by simp, trivial⟩
    | cons next pieces =>
      refine ⟨[], _, ?_, ih.append sep⟩
      rw [List.map_cons, List.map_cons, List.intercalate_cons_cons, List.nil_append,
        List.append_assoc]

/-- Joined pieces stand in order, after whatever is put before them. -/
theorem holdsInOrder_join (sep : String) (front pieces : List String) :
    HoldsInOrder pieces (join sep (front ++ pieces)).toList := by
  have hpieces := holdsInOrder_intercalate sep.toList pieces
  by_cases hfront : front = []
  · rw [hfront, List.nil_append, toList_join]
    exact hpieces
  by_cases hempty : pieces = []
  · rw [hempty]
    trivial
  rw [toList_join, List.map_append, Chars.intercalate_append_of_ne_nil (by simpa using hfront)
    (by simpa using hempty)]
  exact hpieces.append _

/-- In the empty text stand no pieces, unless they are empty. -/
theorem holdsInOrder_nil_iff {pieces : List String} (h : ∀ piece ∈ pieces, piece ≠ "") :
    HoldsInOrder pieces [] ↔ pieces = [] := by
  refine ⟨fun hpieces => ?_, fun hempty => hempty ▸ trivial⟩
  cases pieces with
  | nil => rfl
  | cons piece pieces =>
    obtain ⟨before, after, heq, -⟩ := hpieces
    simp only [List.nil_eq, List.append_eq_nil_iff, String.toList_eq_nil_iff] at heq
    exact absurd heq.1.2 (h piece List.mem_cons_self)

end ControlLogic.Text
