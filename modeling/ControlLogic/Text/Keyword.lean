import ControlLogic.Text.Case
import ControlLogic.Text.Word

/-!
# Keywords

Searching for keywords without regard to case.
-/

namespace ControlLogic.Text

/-- What follows the keyword `k` at the beginning of a text. -/
def afterKeyword? : (k : List Char) → List Char → Option (List Char)
  | [], s => some s
  | _ :: _, [] => none
  | k :: ks, c :: rest => if sameLetter k c then afterKeyword? ks rest else none

/-- What stands before the first occurrence of the keyword `k`, and what stands after it. -/
def breakKeyword? (k : List Char) : List Char → Option (List Char × List Char)
  | [] => (afterKeyword? k []).map fun rest => ([], rest)
  | c :: rest =>
    match afterKeyword? k (c :: rest) with
    | some after => some ([], after)
    | none => (breakKeyword? k rest).map fun (a, b) => (c :: a, b)

/-- Whether a text begins with the keyword `k` as a whole word. -/
def startsWithWord (k s : String) : Bool :=
  match afterKeyword? k.toList s.toList with
  | some rest => !rest.head?.any isWordChar
  | none => false

theorem suffix_of_afterKeyword? {k s rest : List Char} (h : afterKeyword? k s = some rest) :
    rest <:+ s := by
  fun_induction afterKeyword? k s with
  | case1 s =>
    cases h
    exact List.suffix_rfl
  | case2 => cases h
  | case3 k ks c s _ ih => exact (ih h).trans (List.suffix_cons c s)
  | case4 => cases h

/-- What stands before and after a keyword stands in the text. -/
theorem subset_of_breakKeyword? {k s before after : List Char}
    (h : breakKeyword? k s = some (before, after)) : before ⊆ s ∧ after ⊆ s := by
  induction s generalizing before with
  | nil =>
    obtain ⟨rest, hrest, heq⟩ := Option.map_eq_some_iff.1 h
    cases heq
    exact ⟨List.nil_subset _, (suffix_of_afterKeyword? hrest).subset⟩
  | cons c s ih =>
    rw [breakKeyword?] at h
    split at h
    · rename_i rest hrest
      cases h
      exact ⟨List.nil_subset _, (suffix_of_afterKeyword? hrest).subset⟩
    · obtain ⟨⟨before', after'⟩, hbreak, heq⟩ := Option.map_eq_some_iff.1 h
      cases heq
      obtain ⟨hbefore, hafter⟩ := ih hbreak
      exact ⟨List.cons_subset_cons c hbefore, List.subset_cons_of_subset c hafter⟩

end ControlLogic.Text
