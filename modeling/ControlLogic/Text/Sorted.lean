/-!
# Ascending texts

A set of texts is a list in ascending order without repeats, so that equal sets are equal
lists.  `mem_ascending` says that sorting changes no membership, `nodup_ascending` that nothing
is repeated, `pairwise_ascending` that the order is ascending; the other operations are filters.
-/

namespace ControlLogic.Text

/-- The texts of a list in ascending order, each once. -/
def ascending (l : List String) : List String :=
  l.eraseDups.mergeSort fun a b => decide (a ≤ b)

/-- The texts of both lists, in ascending order. -/
def union (a b : List String) : List String := ascending (a ++ b)

/-- The texts of `a` that are in `b`. -/
def meet (a b : List String) : List String := a.filter (b.contains ·)

/-- The texts of `a` that are not in `b`. -/
def minus (a b : List String) : List String := a.filter (!b.contains ·)

/-- Sorting keeps the members. -/
@[simp] theorem mem_ascending {s : String} {l : List String} : s ∈ ascending l ↔ s ∈ l := by
  simp [ascending]

theorem nodup_eraseDups (l : List String) : l.eraseDups.Nodup := by
  -- what is left behind the first text is filtered, so the induction is on the length
  induction hn : l.length using Nat.strongRecOn generalizing l with
  | ind n ih =>
    cases l with
    | nil => simp
    | cons a l =>
      subst hn
      rw [List.eraseDups_cons, List.nodup_cons]
      refine ⟨by simp, ih _ ?_ _ rfl⟩
      exact Nat.lt_succ_of_le (List.length_filter_le _ l)

/-- No text stands twice. -/
theorem nodup_ascending (l : List String) : (ascending l).Nodup :=
  (List.mergeSort_perm _ _).nodup_iff.2 (nodup_eraseDups l)

/-- The texts stand in ascending order. -/
theorem pairwise_ascending (l : List String) : (ascending l).Pairwise (· ≤ ·) := by
  have htrans : ∀ a b c : String, decide (a ≤ b) = true → decide (b ≤ c) = true →
      decide (a ≤ c) = true := by
    intro a b c hab hbc
    exact decide_eq_true (String.le_trans (of_decide_eq_true hab) (of_decide_eq_true hbc))
  have htotal : ∀ a b : String, (decide (a ≤ b) || decide (b ≤ a)) = true := by
    intro a b
    rw [Bool.or_eq_true, decide_eq_true_eq, decide_eq_true_eq]
    exact String.le_total a b
  exact (List.pairwise_mergeSort htrans htotal l.eraseDups).imp of_decide_eq_true

@[simp] theorem mem_union {s : String} {a b : List String} : s ∈ union a b ↔ s ∈ a ∨ s ∈ b := by
  simp [union]

@[simp] theorem mem_meet {s : String} {a b : List String} : s ∈ meet a b ↔ s ∈ a ∧ s ∈ b := by
  simp [meet]

@[simp] theorem mem_minus {s : String} {a b : List String} : s ∈ minus a b ↔ s ∈ a ∧ s ∉ b := by
  simp [minus]

end ControlLogic.Text
