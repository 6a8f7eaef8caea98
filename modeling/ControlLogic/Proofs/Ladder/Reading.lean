import ControlLogic.Proofs.Ladder.Calls
import ControlLogic.Proofs.Ladder.Marking

/-!
# Reading written branches

The written form of a branch is its calls in a row, each a name with its operands in
parentheses and commas between them.  This file proves that reading undoes writing on one
branch.

* `markFrom_branch` says that marking leaves a written branch alone: its only commas and
  brackets stand in operand lists.
* `readCalls_chars` says that the calls are read back.
* `readRung_of_isBranch` puts the two together for a text that holds a branch, with spaces
  anywhere and perhaps a semicolon at the end.

Every stage and branch that is read has something in it (`ne_nil_of_mem_readRung`).
-/

namespace ControlLogic.Ladder

open Text

/-! ## Written calls -/

/-- The characters that delimit calls, operands, branches or stages wherever they stand. -/
def isDelimiter (c : Char) : Bool :=
  isBlank c || ['(', ')', ',', ';', '<', '>'].contains c

/-- A call that its written form determines: it has a name and operands, and no delimiter
stands in them.  Square brackets may stand in an operand. -/
structure Call.Readable (c : Call) : Prop where
  name_ne : c.name.toList ≠ []
  name_chars : ∀ d ∈ c.name.toList, isDelimiter d = false ∧ d ≠ '[' ∧ d ≠ ']'
  operands_ne : c.operands ≠ []
  operand_ne : ∀ p ∈ c.operands, p.toList ≠ []
  operand_chars : ∀ p ∈ c.operands, ∀ d ∈ p.toList, isDelimiter d = false

/-- The characters are gone through as lists: a quantifier over characters would be decided by
going through all characters there are. -/
instance (c : Call) : Decidable c.Readable :=
  decidable_of_iff
    (c.name.toList ≠ [] ∧
      (c.name.toList.all fun d => !isDelimiter d && d != '[' && d != ']') = true ∧
      c.operands ≠ [] ∧ (∀ p ∈ c.operands, p.toList ≠ []) ∧
      ∀ p ∈ c.operands, (p.toList.all fun d => !isDelimiter d) = true) <| by
    simp only [List.all_eq_true, Bool.and_eq_true, Bool.not_eq_true', bne_iff_ne, and_assoc]
    exact ⟨fun ⟨h₁, h₂, h₃, h₄, h₅⟩ => ⟨h₁, h₂, h₃, h₄, h₅⟩,
      fun h => ⟨h.name_ne, h.name_chars, h.operands_ne, h.operand_ne, h.operand_chars⟩⟩

/-- The text holds the branch `b` and nothing else: the written form with spaces anywhere and
perhaps a semicolon at the end. -/
def IsBranch (text : String) (b : Branch) : Prop :=
  text.toList.filter (· ≠ ' ') = branchChars b ∨
    text.toList.filter (· ≠ ' ') = branchChars b ++ [';']

theorem isDelimiter_eq_false {c : Char} (h : isDelimiter c = false) :
    isBlank c = false ∧ c ≠ '(' ∧ c ≠ ')' ∧ c ≠ ',' ∧ c ≠ ';' ∧ c ≠ '<' ∧ c ≠ '>' := by
  simpa [isDelimiter] using h

/-- The parts of a readable call can be told apart. -/
theorem Call.Readable.separable {c : Call} (h : c.Readable) : c.Separable where
  name_ne := h.name_ne
  name_chars d hd := by
    have hd := isDelimiter_eq_false (h.name_chars d hd).1
    simp [isCallMark, hd]
  operand_ne := h.operand_ne
  operand_chars p hp d hd := by
    have hd := isDelimiter_eq_false (h.operand_chars p hp d hd)
    simp [isCallMark, hd]

/-- The only delimiters in written operands are the commas between them. -/
theorem Call.Readable.operandChars_eq_comma {c : Call} (h : c.Readable) {d : Char}
    (hd : d ∈ c.operandChars) : d = ',' ∨ isDelimiter d = false := by
  rcases mem_intercalate hd with hd | ⟨s, hs, hd⟩
  · exact .inl (by simpa using hd)
  · obtain ⟨p, hp, rfl⟩ := List.mem_map.1 hs
    exact .inr (h.operand_chars p hp d hd)

/-! ## Marking -/

theorem markFrom_call {c : Call} (h : c.Readable) (rest : List Char) :
    markFrom false (c.chars ++ rest) = c.chars ++ markFrom false rest := by
  have hname : ∀ d ∈ c.name.toList, d ≠ '(' ∧ d ≠ ',' ∧ d ≠ '[' ∧ d ≠ ']' := by
    intro d hd
    obtain ⟨hdelim, hleft, hright⟩ := h.name_chars d hd
    obtain ⟨-, hopen, -, hcomma, -⟩ := isDelimiter_eq_false hdelim
    exact ⟨hopen, hcomma, hleft, hright⟩
  have hclose : ')' ∉ c.operandChars := fun hmem => by
    rcases h.operandChars_eq_comma hmem with heq | hdelim
    · exact absurd heq (by decide)
    · exact (isDelimiter_eq_false hdelim).2.2.1 rfl
  have hopening : ∀ s, markFrom false ('(' :: s) = '(' :: markFrom true s := fun s => by
    simp [markFrom]
  rw [Call.chars, List.append_assoc, markFrom_outside hname, List.cons_append, hopening,
    List.append_assoc, List.singleton_append, markFrom_inside hclose]
  simp

theorem markFrom_branch {b : Branch} (h : ∀ c ∈ b, c.Readable) (rest : List Char) :
    markFrom false (branchChars b ++ rest) = branchChars b ++ markFrom false rest := by
  induction b with
  | nil => rfl
  | cons c b ih =>
    rw [branchChars, List.flatMap_cons, List.append_assoc,
      markFrom_call (h c List.mem_cons_self)]
    rw [← branchChars, ih fun d hd => h d (List.mem_cons_of_mem _ hd), List.append_assoc]

/-! ## Reading calls -/

/-- The characters of a written branch are no delimiters but parentheses and commas. -/
theorem mem_branchChars {b : Branch} (h : ∀ c ∈ b, c.Readable) {d : Char}
    (hd : d ∈ branchChars b) : d = '(' ∨ d = ')' ∨ d = ',' ∨ isDelimiter d = false := by
  obtain ⟨c, hc, hd⟩ := List.mem_flatMap.1 hd
  simp only [Call.chars, List.mem_append, List.mem_cons, List.not_mem_nil, or_false] at hd
  rcases hd with hd | rfl | hd | rfl
  · exact .inr (.inr (.inr ((h c hc).name_chars d hd).1))
  · exact .inl rfl
  · rcases (h c hc).operandChars_eq_comma hd with rfl | hd
    · exact .inr (.inr (.inl rfl))
    · exact .inr (.inr (.inr hd))
  · exact .inr (.inl rfl)

/-- No delimiter of branches or stages stands in a written branch. -/
theorem not_mem_branchChars {b : Branch} (h : ∀ c ∈ b, c.Readable) {d : Char}
    (hd : d = ' ' ∨ d = ';' ∨ d = '<' ∨ d = '>') : d ∉ branchChars b := by
  intro hmem
  rcases mem_branchChars h hmem with rfl | rfl | rfl | hdelim
  · simp at hd
  · simp at hd
  · simp at hd
  · rcases hd with rfl | rfl | rfl | rfl <;> revert hdelim <;> decide

/-- The calls of a written branch are read back. -/
theorem readCalls_chars {b : Branch} (h : ∀ c ∈ b, c.Readable) :
    readCalls (branchChars b) = b := by
  have hspaces : (branchChars b).filter (· ≠ ' ') = branchChars b := by
    rw [List.filter_eq_self]
    intro d hd
    have : d ≠ ' ' := fun heq => not_mem_branchChars h (.inl heq) hd
    simpa using this
  exact readCalls_of_operands (fun c hc => (h c hc).separable) hspaces
    fun c hc => (h c hc).operands_ne

/-! ## Reading a rung of one branch -/

theorem readBranches_chars {b : Branch} (h : ∀ c ∈ b, c.Readable) :
    readBranches (branchChars b) = [b].filter (!·.isEmpty) := by
  have hsemi : ';' ∉ branchChars b := not_mem_branchChars h (by simp)
  rw [readBranches, List.splitOn_eq_singleton hsemi, List.map_singleton, readCalls_chars h]

/-- A semicolon at the end opens no further branch. -/
theorem readBranches_chars_semicolon {b : Branch} (h : ∀ c ∈ b, c.Readable) :
    readBranches (branchChars b ++ [';']) = [b].filter (!·.isEmpty) := by
  have hsemi : ';' ∉ branchChars b := not_mem_branchChars h (by simp)
  have hnil : readCalls [] = [] := rfl
  rw [readBranches, List.splitOn_append_cons_self_of_not_mem hsemi, List.splitOn_nil, List.map_cons,
    readCalls_chars h, List.map_singleton, hnil]
  cases b <;> simp

/-- A marked text without marks of stages holds one stage. -/
theorem readStages_ofList {s : List Char} (h : ∀ c ∈ s, c ≠ ' ' ∧ c ≠ '<' ∧ c ≠ '>') :
    readStages (String.ofList s) = [readBranches s].filter (!·.isEmpty) := by
  have hfilter : s.filter (· ≠ ' ') = s := by
    rw [List.filter_eq_self]
    intro c hc
    simpa using (h c hc).1
  have hmap : s.map (fun c => if c = '<' ∨ c = '>' then ' ' else c) = s.map id := by
    apply List.map_congr_left
    intro c hc
    simp [h c hc]
  rw [readStages, String.toList_ofList, hfilter, hmap, List.map_id,
    List.splitOn_eq_singleton fun hc => (h ' ' hc).1 rfl, List.map_singleton]

/-- A rung of one branch is read back. -/
theorem readRung_of_isBranch {text : String} {b : Branch} (h : ∀ c ∈ b, c.Readable)
    (htext : IsBranch text b) : readRung text = if b = [] then [] else [[b]] := by
  have hchars : ∀ c ∈ branchChars b, c ≠ ' ' ∧ c ≠ '<' ∧ c ≠ '>' := by
    intro c hc
    refine ⟨fun heq => ?_, fun heq => ?_, fun heq => ?_⟩ <;>
      exact not_mem_branchChars h (by simp [heq]) hc
  have hresult : ([[b].filter (!·.isEmpty)].filter (!·.isEmpty) : List Stage) =
      if b = [] then [] else [[b]] := by
    cases b <;> simp
  rw [← hresult, readRung, markStages]
  rcases htext with htext | htext
  · have hmark := markFrom_branch h []
    rw [List.append_nil] at hmark
    rw [htext, hmark]
    simp only [markFrom, List.append_nil]
    rw [readStages_ofList hchars, readBranches_chars h]
  · have hsemi : markFrom false [';'] = [';'] := by decide
    rw [htext, markFrom_branch h, hsemi, readStages_ofList, readBranches_chars_semicolon h]
    intro c hc
    rcases List.mem_append.1 hc with hc | hc
    · exact hchars c hc
    · rw [List.mem_singleton.1 hc]; decide

/-! ## What is read is not empty -/

/-- Every stage that is read has a branch, and every branch of it has a call. -/
theorem ne_nil_of_mem_readRung {text : String} {s : Stage} (hs : s ∈ readRung text) :
    s ≠ [] ∧ ∀ b ∈ s, b ≠ [] := by
  rw [readRung, readStages, List.mem_filter] at hs
  refine ⟨by simpa using hs.2, fun b hb => ?_⟩
  obtain ⟨piece, -, rfl⟩ := List.mem_map.1 hs.1
  rw [readBranches, List.mem_filter] at hb
  simpa using hb.2

end ControlLogic.Ladder
