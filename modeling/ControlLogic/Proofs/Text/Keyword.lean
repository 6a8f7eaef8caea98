import ControlLogic.Proofs.Text.Chars
import ControlLogic.Text.Keyword

/-!
# Searching for keywords

Where a keyword is found does not depend on the lines around it: a character that is no letter of
the keyword separates texts that can be searched one by one.

* `afterKeyword?_append` and `exists_sameLetter_of_afterKeyword?` say what a keyword is spelled
  with.
* `breakKeyword?_append_sep` searches two texts with a separator between them, first the one and
  then the other.
* `Lacks` holds of texts without the keyword and of all stretches of them (`Lacks.of_infix`), and
  `lacks_append_sep` and `lacks_join` find it part by part.
-/

namespace ControlLogic.Text

/-- The character is none of the letters of the keyword. -/
def Separates (sep : Char) (k : List Char) : Prop :=
  ∀ x ∈ k, sameLetter x sep = false

instance (sep : Char) (k : List Char) : Decidable (Separates sep k) :=
  List.decidableBAll (fun x => sameLetter x sep = false) k

/-- The keyword does not occur in the text. -/
def Lacks (k s : List Char) : Prop :=
  breakKeyword? k s = none

instance (k s : List Char) : Decidable (Lacks k s) :=
  inferInstanceAs (Decidable (breakKeyword? k s = none))

/-- What follows a keyword is followed by all that follows. -/
theorem afterKeyword?_append {k s r : List Char} (h : afterKeyword? k s = some r) (t : List Char) :
    afterKeyword? k (s ++ t) = some (r ++ t) := by
  fun_induction afterKeyword? k s with
  | case1 s =>
    cases h
    rw [afterKeyword?]
  | case2 => cases h
  | case3 x k c s hx ih => rw [List.cons_append, afterKeyword?, if_pos hx, ih h]
  | case4 => cases h

/-- The letters of a keyword in any case are letters of the keyword. -/
theorem exists_sameLetter_of_afterKeyword? {k s : List Char} (h : afterKeyword? k s = some []) :
    ∀ c ∈ s, ∃ x ∈ k, sameLetter x c = true := by
  fun_induction afterKeyword? k s with
  | case1 s =>
    cases h
    exact List.forall_mem_nil _
  | case2 => cases h
  | case3 x k c s hx ih =>
    intro y hy
    rcases List.mem_cons.1 hy with rfl | hy
    · exact ⟨x, List.mem_cons_self, hx⟩
    · obtain ⟨z, hz, hsame⟩ := ih h y hy
      exact ⟨z, List.mem_cons_of_mem _ hz, hsame⟩
  | case4 => cases h

/-- A keyword begins with its first letter, in any case. -/
theorem exists_cons_of_afterKeyword? {x : Char} {k s r : List Char}
    (h : afterKeyword? (x :: k) s = some r) : ∃ c t, s = c :: t ∧ sameLetter x c = true := by
  cases s with
  | nil => cases h
  | cons c t =>
    rw [afterKeyword?] at h
    split at h
    · rename_i hc
      exact ⟨c, t, rfl, hc⟩
    · cases h

theorem afterKeyword?_eq_none {x c : Char} (h : sameLetter x c = false) (k t : List Char) :
    afterKeyword? (x :: k) (c :: t) = none := by
  rw [afterKeyword?, h]
  rfl

/-- A keyword is found where it is written. -/
theorem afterKeyword?_self (k t : List Char) : afterKeyword? k (k ++ t) = some t := by
  induction k with
  | nil => rw [List.nil_append, afterKeyword?]
  | cons x k ih =>
    have hx : sameLetter x x = true := by simp [sameLetter]
    rw [List.cons_append, afterKeyword?, if_pos hx, ih]

/-- A keyword of two parts is looked for part by part. -/
theorem afterKeyword?_append_keyword (k k' s : List Char) :
    afterKeyword? (k ++ k') s = (afterKeyword? k s).bind (afterKeyword? k') := by
  induction k generalizing s with
  | nil => rw [List.nil_append, afterKeyword?, Option.bind_some]
  | cons x k ih =>
    cases s with
    | nil => rfl
    | cons c s =>
      rw [List.cons_append, afterKeyword?, afterKeyword?, ih]
      split <;> rfl

section Stretches

variable {k s t a b : List Char}

theorem lacks_iff : Lacks k s ↔ ∀ t, t <:+ s → afterKeyword? k t = none := by
  induction s with
  | nil =>
    rw [Lacks, breakKeyword?, Option.map_eq_none_iff]
    constructor
    · intro h t ht
      rw [List.suffix_nil.1 ht, h]
    · exact fun h => h [] List.suffix_rfl
  | cons c s ih =>
    rw [Lacks, breakKeyword?]
    constructor
    · intro h t ht
      split at h
      · cases h
      · rename_i hnone
        rcases List.suffix_cons_iff.1 ht with rfl | ht
        · exact hnone
        · exact ih.1 (Option.map_eq_none_iff.1 h) t ht
    · intro h
      rw [h _ List.suffix_rfl]
      exact Option.map_eq_none_iff.2 (ih.2 fun t ht => h t (ht.trans (List.suffix_cons c s)))

/-- A stretch of a text lacks the keywords that the text lacks. -/
theorem Lacks.of_infix (h : Lacks k s) (ht : t <:+: s) : Lacks k t := by
  obtain ⟨a, b, rfl⟩ := ht
  refine lacks_iff.2 fun u hu => ?_
  cases hafter : afterKeyword? k u with
  | none => rfl
  | some r =>
    have hsuffix : u ++ b <:+ a ++ t ++ b := by
      obtain ⟨v, rfl⟩ := hu
      exact ⟨a ++ v, by simp⟩
    have hnone := lacks_iff.1 h _ hsuffix
    rw [afterKeyword?_append hafter] at hnone
    cases hnone

/-- A text lacks a keyword if it lacks the end of it. -/
theorem Lacks.of_append (h : Lacks k s) (a : List Char) : Lacks (a ++ k) s := by
  refine lacks_iff.2 fun t ht => ?_
  rw [afterKeyword?_append_keyword]
  cases hafter : afterKeyword? a t with
  | none => rfl
  | some r => exact lacks_iff.1 h r ((suffix_of_afterKeyword? hafter).trans ht)

/-- What stands before the first occurrence of a keyword lacks it. -/
theorem lacks_of_breakKeyword? (hk : k ≠ []) (h : breakKeyword? k s = some (a, b)) :
    Lacks k a ∧ a <+: s ∧ b <:+ s := by
  have hnil : Lacks k [] := by
    obtain ⟨x, k, rfl⟩ := List.exists_cons_of_ne_nil hk
    rfl
  induction s generalizing a with
  | nil => rw [hnil] at h; cases h
  | cons c s ih =>
    rw [breakKeyword?] at h
    split at h
    · rename_i rest hrest
      cases h
      exact ⟨hnil, List.nil_prefix, suffix_of_afterKeyword? hrest⟩
    · rename_i hnone
      obtain ⟨⟨a, b⟩, hbreak, heq⟩ := Option.map_eq_some_iff.1 h
      cases heq
      obtain ⟨hlacks, hprefix, hsuffix⟩ := ih hbreak
      refine ⟨lacks_iff.2 fun t ht => ?_, List.cons_prefix_cons.2 ⟨rfl, hprefix⟩,
        hsuffix.trans (List.suffix_cons c s)⟩
      rcases List.suffix_cons_iff.1 ht with rfl | ht
      · obtain ⟨u, rfl⟩ := hprefix
        cases hafter : afterKeyword? k (c :: a) with
        | none => rfl
        | some r =>
          have hlong := afterKeyword?_append hafter u
          rw [List.cons_append, hnone] at hlong
          cases hlong
      · exact lacks_iff.1 hlacks t ht

end Stretches

section Separator

variable {sep : Char} {k : List Char}

/-- A keyword does not reach over a separator. -/
theorem afterKeyword?_append_sep (hsep : Separates sep k) (s t : List Char) :
    afterKeyword? k (s ++ sep :: t) = (afterKeyword? k s).map (· ++ sep :: t) := by
  induction k generalizing s with
  | nil => simp [afterKeyword?]
  | cons x k ih =>
    have htail := ih fun y hy => hsep y (List.mem_cons_of_mem _ hy)
    cases s with
    | nil => simp [afterKeyword?, hsep x List.mem_cons_self]
    | cons c s =>
      rw [List.cons_append, afterKeyword?, afterKeyword?, htail]
      split <;> rfl

/-- The search goes on behind a separator if it finds nothing before it. -/
theorem breakKeyword?_append_sep (hk : k ≠ []) (hsep : Separates sep k) (s t : List Char) :
    breakKeyword? k (s ++ sep :: t) =
      ((breakKeyword? k s).map fun r => (r.1, r.2 ++ sep :: t)).or
        ((breakKeyword? k t).map fun r => (s ++ sep :: r.1, r.2)) := by
  obtain ⟨x, k', rfl⟩ := List.exists_cons_of_ne_nil hk
  induction s with
  | nil =>
    have hx : sameLetter x sep = false := hsep x List.mem_cons_self
    simp [breakKeyword?, afterKeyword?, hx]
  | cons c s ih =>
    have hafter := afterKeyword?_append_sep hsep (c :: s) t
    rw [List.cons_append] at hafter
    rw [List.cons_append, breakKeyword?, hafter, breakKeyword?, ih]
    cases afterKeyword? (x :: k') (c :: s) with
    | some rest => rfl
    | none =>
      cases breakKeyword? (x :: k') s with
      | some r => rfl
      | none => simp [Function.comp_def]

theorem lacks_append_sep (hk : k ≠ []) (hsep : Separates sep k) {s t : List Char} :
    Lacks k (s ++ sep :: t) ↔ Lacks k s ∧ Lacks k t := by
  rw [Lacks, breakKeyword?_append_sep hk hsep, Option.or_eq_none_iff, Option.map_eq_none_iff,
    Option.map_eq_none_iff]
  rfl

/-- What is found in a text is found before all that follows. -/
theorem breakKeyword?_of_eq_some (hk : k ≠ []) (hsep : Separates sep k) {s a b : List Char}
    (h : breakKeyword? k s = some (a, b)) (t : List Char) :
    breakKeyword? k (s ++ sep :: t) = some (a, b ++ sep :: t) := by
  rw [breakKeyword?_append_sep hk hsep, h]
  rfl

/-- A text that lacks the keyword is passed by. -/
theorem breakKeyword?_of_lacks (hk : k ≠ []) (hsep : Separates sep k) {s t : List Char}
    (hs : Lacks k s) :
    breakKeyword? k (s ++ sep :: t) = (breakKeyword? k t).map fun r => (s ++ sep :: r.1, r.2) := by
  rw [breakKeyword?_append_sep hk hsep, hs]
  rfl

/-- Lines lack a keyword one by one. -/
theorem lacks_join (hk : k ≠ []) (hsep : Separates '\n' k) {lines : List String} :
    Lacks k (join "\n" lines).toList ↔ ∀ line ∈ lines, Lacks k line.toList := by
  induction lines with
  | nil =>
    obtain ⟨x, k', rfl⟩ := List.exists_cons_of_ne_nil hk
    simp [Lacks, breakKeyword?, afterKeyword?]
  | cons line lines ih =>
    cases lines with
    | nil => simp
    | cons next lines =>
      rw [toList_join_cons line (List.cons_ne_nil next lines), lacks_append_sep hk hsep]
      simp only [ih, List.mem_cons, forall_eq_or_imp]

end Separator

end ControlLogic.Text
