import ControlLogic.Analysis.Usage
import ControlLogic.Proofs.Text.Chars

/-!
# What one line writes and reads

`WritesTag` and `ReadsTag` say what a line does to a tag, and `mem_written` and `mem_read` that the
analyses find just this.
-/

namespace ControlLogic

namespace Analysis

/-- The line has one assignment sign, and the tag is what its left side refers to. -/
def WritesTag (line tag : String) : Prop :=
  ∃ left right, Text.splitOn ":=" line = [left, right] ∧
    firstReference? (Text.strip left) = some tag ∧ tag ≠ ""

/-- The tag is among those of the right side of a line with one assignment sign, or of the
condition of a line without. -/
def ReadsTag (line tag : String) : Prop :=
  (∃ left right, Text.splitOn ":=" line = [left, right] ∧
    tag ∈ references (Text.trimRight (· == ';') (Text.strip right))) ∨
  (Text.contains ":=" line = false ∧ ∃ condition, ifCondition? line = some condition ∧
    tag ∈ references condition)

theorem assignment?_eq_some {line : String} {sides : String × String} :
    assignment? line = some sides ↔ ∃ left right, Text.splitOn ":=" line = [left, right] ∧
      sides = (Text.strip left, Text.trimRight (· == ';') (Text.strip right)) := by
  rw [assignment?]
  rcases Text.splitOn ":=" line with _ | ⟨left, _ | ⟨right, _ | ⟨more, pieces⟩⟩⟩
  · simp
  · simp
  · constructor
    · rintro ⟨⟩
      exact ⟨left, right, rfl, rfl⟩
    · rintro ⟨_, _, ⟨⟩, rfl⟩
      rfl
  · simp

theorem assignment?_of_not_assigns {line : String} (h : assigns line = false) :
    assignment? line = none := by
  have hsplit : Text.splitOn ":=" line = [line] := by
    rw [Text.splitOn, Text.Chars.splitOn_of_not_contains (by decide) h]
    simp
  rw [assignment?, hsplit]

theorem mem_written {line tag : String} : tag ∈ written line ↔ WritesTag line tag := by
  have hwritten : tag ∈ written line ↔
      ∃ sides, assignment? line = some sides ∧ tag ∈ target? sides.1 := by
    rw [written]
    cases assignment? line <;> simp
  have htarget : ∀ left, tag ∈ target? left ↔ firstReference? left = some tag ∧ tag ≠ "" := by
    simp [target?, Text.isEmpty]
  simp only [hwritten, assignment?_eq_some, htarget, WritesTag]
  constructor
  · rintro ⟨_, ⟨left, right, hsplit, rfl⟩, htag⟩
    exact ⟨left, right, hsplit, htag⟩
  · rintro ⟨left, right, hsplit, htag⟩
    exact ⟨_, ⟨left, right, hsplit, rfl⟩, htag⟩

theorem mem_readByAssignment {line tag : String} : tag ∈ readByAssignment line ↔
    ∃ left right, Text.splitOn ":=" line = [left, right] ∧
      tag ∈ references (Text.trimRight (· == ';') (Text.strip right)) := by
  have hread : tag ∈ readByAssignment line ↔
      ∃ sides, assignment? line = some sides ∧ tag ∈ references sides.2 := by
    rw [readByAssignment]
    cases assignment? line <;> simp
  simp only [hread, assignment?_eq_some]
  constructor
  · rintro ⟨_, ⟨left, right, hsplit, rfl⟩, htag⟩
    exact ⟨left, right, hsplit, htag⟩
  · rintro ⟨left, right, hsplit, htag⟩
    exact ⟨_, ⟨left, right, hsplit, rfl⟩, htag⟩

theorem mem_read {line tag : String} : tag ∈ read line ↔ ReadsTag line tag := by
  rw [read, ReadsTag, ← mem_readByAssignment]
  cases hassigns : assigns line with
  | true =>
    have hcontains : Text.contains ":=" line = true := hassigns
    simp [hcontains]
  | false =>
    have hcontains : Text.contains ":=" line = false := hassigns
    rw [readByAssignment, assignment?_of_not_assigns hassigns]
    cases ifCondition? line <;> simp [hcontains]

/-- A line with one assignment sign reads what its right side refers to. -/
theorem readsTag_iff_of_splitOn {line left right tag : String}
    (hsplit : Text.splitOn ":=" line = [left, right]) :
    ReadsTag line tag ↔ tag ∈ references (Text.trimRight (· == ';') (Text.strip right)) := by
  constructor
  · rintro (⟨left', right', hsplit', htag⟩ | ⟨hno, -⟩)
    · rw [hsplit] at hsplit'
      cases hsplit'
      exact htag
    · have hnone := assignment?_of_not_assigns hno
      rw [assignment?, hsplit] at hnone
      cases hnone
  · intro htag
    exact .inl ⟨left, right, hsplit, htag⟩

end Analysis

end ControlLogic
