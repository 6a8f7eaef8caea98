import ControlLogic.Ladder.Rung
import ControlLogic.Proofs.Text.Chars

/-!
# Reading written calls

The written form of a call is its name with its operands in parentheses and commas between them,
and a branch is written as its calls in a row.  The reader takes parentheses for blanks and pairs
the words between them: a name, its operands, the next name.

* `words_branchChars` says which words there are: two for a call with operands and one for a call
  without.
* `readCalls_of_operands`: calls that all have operands are read back.
* `readCalls_eq_self_iff`: a call without operands puts the pairs out of step, unless it stands
  alone.  The name of the next call is taken for its operands.
-/

namespace ControlLogic.Ladder

open Text

/-! ## Written calls -/

/-- The written operands of a call. -/
def Call.operandChars (c : Call) : List Char :=
  [','].intercalate (c.operands.map String.toList)

/-- The written form of a call. -/
def Call.chars (c : Call) : List Char :=
  c.name.toList ++ '(' :: (c.operandChars ++ [')'])

/-- The written form of a branch. -/
def branchChars (b : Branch) : List Char := b.flatMap Call.chars

/-- The characters that stand between names and operands. -/
def isCallMark (c : Char) : Bool := isBlank c || ['(', ')', ','].contains c

/-- A call whose name and operands can be told apart: none of them is empty, and none holds a
character that stands between them.  There may be no operands. -/
structure Call.Separable (c : Call) : Prop where
  name_ne : c.name.toList ≠ []
  name_chars : ∀ d ∈ c.name.toList, isCallMark d = false
  operand_ne : ∀ p ∈ c.operands, p.toList ≠ []
  operand_chars : ∀ p ∈ c.operands, ∀ d ∈ p.toList, isCallMark d = false

instance (c : Call) : Decidable c.Separable :=
  decidable_of_iff
    (c.name.toList ≠ [] ∧ (c.name.toList.all fun d => !isCallMark d) = true ∧
      (∀ p ∈ c.operands, p.toList ≠ []) ∧
      ∀ p ∈ c.operands, (p.toList.all fun d => !isCallMark d) = true) <| by
    simp only [List.all_eq_true, Bool.not_eq_true']
    exact ⟨fun ⟨h₁, h₂, h₃, h₄⟩ => ⟨h₁, h₂, h₃, h₄⟩,
      fun h => ⟨h.name_ne, h.name_chars, h.operand_ne, h.operand_chars⟩⟩

theorem isCallMark_eq_false {c : Char} (h : isCallMark c = false) :
    isBlank c = false ∧ c ≠ '(' ∧ c ≠ ')' ∧ c ≠ ',' := by
  simpa [isCallMark] using h

theorem mem_intercalate {α : Type} {x : α} {sep : List α} {pieces : List (List α)}
    (h : x ∈ sep.intercalate pieces) : x ∈ sep ∨ ∃ piece ∈ pieces, x ∈ piece := by
  induction pieces with
  | nil => simp at h
  | cons piece pieces ih =>
    cases pieces with
    | nil => exact .inr ⟨piece, by simp, by simpa using h⟩
    | cons next pieces =>
      rw [List.intercalate_cons_cons, List.mem_append, List.mem_append] at h
      rcases h with (h | h) | h
      · exact .inr ⟨piece, by simp, h⟩
      · exact .inl h
      · rcases ih h with h | ⟨q, hq, hx⟩
        · exact .inl h
        · exact .inr ⟨q, by simp [hq], hx⟩

/-- Parentheses become spaces. -/
def spaceParens (c : Char) : Char := if c = '(' ∨ c = ')' then ' ' else c

theorem map_spaceParens_of_forall {s : List Char} (h : ∀ c ∈ s, c ≠ '(' ∧ c ≠ ')') :
    s.map spaceParens = s := by
  have hsame : s.map spaceParens = s.map id := by
    apply List.map_congr_left
    intro c hc
    simp [spaceParens, h c hc]
  rw [hsame, List.map_id]

namespace Call.Separable

variable {c : Call} (h : c.Separable)
include h

/-- The only marks in written operands are the commas between them. -/
theorem eq_comma_of_mem_operandChars {d : Char} (hd : d ∈ c.operandChars) :
    d = ',' ∨ isCallMark d = false := by
  rcases mem_intercalate hd with hd | ⟨s, hs, hd⟩
  · exact .inl (by simpa using hd)
  · obtain ⟨p, hp, rfl⟩ := List.mem_map.1 hs
    exact .inr (h.operand_chars p hp d hd)

theorem operandChars_ne (hne : c.operands ≠ []) : c.operandChars ≠ [] := by
  obtain ⟨p, ps, hps⟩ := List.exists_cons_of_ne_nil hne
  have hp : p.toList ≠ [] := h.operand_ne p (by simp [hps])
  rw [operandChars, hps, List.map_cons]
  cases ps with
  | nil => simpa using hp
  | cons q ps => simp [List.intercalate_cons_cons]

theorem name_not_blank : ∀ d ∈ c.name.toList, isBlank d = false := fun d hd =>
  (isCallMark_eq_false (h.name_chars d hd)).1

theorem operandChars_not_blank : ∀ d ∈ c.operandChars, isBlank d = false := by
  intro d hd
  rcases h.eq_comma_of_mem_operandChars hd with rfl | hd
  · decide
  · exact (isCallMark_eq_false hd).1

theorem map_spaceParens_name : c.name.toList.map spaceParens = c.name.toList :=
  map_spaceParens_of_forall fun d hd =>
    have hd := isCallMark_eq_false (h.name_chars d hd)
    ⟨hd.2.1, hd.2.2.1⟩

theorem map_spaceParens_operandChars : c.operandChars.map spaceParens = c.operandChars := by
  refine map_spaceParens_of_forall fun d hd => ?_
  rcases h.eq_comma_of_mem_operandChars hd with rfl | hd
  · decide
  · have hd := isCallMark_eq_false hd
    exact ⟨hd.2.1, hd.2.2.1⟩

/-- No comma is lost from a name. -/
theorem name_filter_comma : c.name.toList.filter (· ≠ ',') = c.name.toList := by
  rw [List.filter_eq_self]
  intro d hd
  simpa using (isCallMark_eq_false (h.name_chars d hd)).2.2.2

end Call.Separable

/-! ## Operands -/

/-- Operands without commas and blanks are read back from the commas between them. -/
theorem readOperands_intercalate {ps : List String} (hps : ps ≠ [])
    (hne : ∀ p ∈ ps, p.toList ≠ []) (hchars : ∀ p ∈ ps, ∀ d ∈ p.toList, isCallMark d = false) :
    readOperands ([','].intercalate (ps.map String.toList)) = ps := by
  obtain ⟨p, rest, rfl⟩ := List.exists_cons_of_ne_nil hps
  have hsplit : List.splitOn ',' ([','].intercalate ((p :: rest).map String.toList)) =
      (p :: rest).map String.toList := by
    rw [List.map_cons]
    refine List.splitOn_intercalate _ (fun s hs => ?_) (List.cons_ne_nil _ _)
    rw [← List.map_cons] at hs
    obtain ⟨q, hq, rfl⟩ := List.mem_map.1 hs
    intro hcomma
    exact (isCallMark_eq_false (hchars q hq ',' hcomma)).2.2.2 rfl
  have htrim : ((p :: rest).map String.toList).map (Chars.trim isBlank) =
      (p :: rest).map String.toList := by
    rw [List.map_map]
    apply List.map_congr_left
    intro q hq
    exact Chars.trim_of_forall_not fun d hd => (isCallMark_eq_false (hchars q hq d hd)).1
  have hfilter : ((p :: rest).map String.toList).filter (!·.isEmpty) =
      (p :: rest).map String.toList := by
    rw [List.filter_eq_self]
    intro s hs
    obtain ⟨q, hq, rfl⟩ := List.mem_map.1 hs
    simpa using hne q hq
  rw [readOperands, hsplit, htrim, hfilter, List.map_map]
  simp

theorem readOperands_operandChars {c : Call} (h : c.Separable) (hne : c.operands ≠ []) :
    readOperands c.operandChars = c.operands :=
  readOperands_intercalate hne h.operand_ne h.operand_chars

/-- A name in the place of operands is read as one operand. -/
theorem readOperands_name {c : Call} (h : c.Separable) :
    readOperands c.name.toList = [c.name] := by
  have hname : readOperands ([','].intercalate ([c.name].map String.toList)) = [c.name] :=
    readOperands_intercalate (List.cons_ne_nil _ _) (List.forall_mem_singleton.2 h.name_ne)
      (List.forall_mem_singleton.2 h.name_chars)
  simpa using hname

/-! ## Words -/

/-- The words of a call: its name, and its operands if there are any. -/
def Call.words (c : Call) : List (List Char) :=
  c.name.toList :: if c.operands = [] then [] else [c.operandChars]

theorem words_call {c : Call} (h : c.Separable) (rest : List Char) :
    Chars.words isBlank ((c.chars ++ rest).map spaceParens) =
      c.words ++ Chars.words isBlank (rest.map spaceParens) := by
  have hspaced : (c.chars ++ rest).map spaceParens =
      c.name.toList ++ ' ' :: (c.operandChars ++ ' ' :: rest.map spaceParens) := by
    simp [Call.chars, h.map_spaceParens_name, h.map_spaceParens_operandChars, spaceParens]
  rw [hspaced, Chars.words_word_append h.name_ne h.name_not_blank (by decide), Call.words]
  by_cases hne : c.operands = []
  · have hnil : c.operandChars = [] := by simp [Call.operandChars, hne]
    rw [hnil, List.nil_append, Chars.words_cons_of_sep (by decide), if_pos hne]
    rfl
  · rw [Chars.words_word_append (h.operandChars_ne hne) h.operandChars_not_blank (by decide),
      if_neg hne]
    rfl

/-- The words of a written branch. -/
theorem words_branchChars {b : Branch} (h : ∀ c ∈ b, c.Separable) :
    Chars.words isBlank ((branchChars b).map spaceParens) = b.flatMap Call.words := by
  induction b with
  | nil => rfl
  | cons c b ih =>
    obtain ⟨hc, hb⟩ := List.forall_mem_cons.1 h
    rw [branchChars, List.flatMap_cons, words_call hc, ← branchChars, ih hb, List.flatMap_cons]

/-- A call without operands has one word less than the others. -/
theorem length_flatMap_words (b : Branch) :
    (b.flatMap Call.words).length + b.countP (·.operands = []) = 2 * b.length := by
  induction b with
  | nil => rfl
  | cons c b ih =>
    rw [List.flatMap_cons, List.length_append, List.countP_cons, List.length_cons, Call.words]
    by_cases hne : c.operands = []
    · simp only [hne, if_true, List.length_singleton, decide_true]
      omega
    · simp only [hne, if_false, List.length_cons, List.length_nil, decide_false,
        Bool.false_eq_true]
      omega

/-! ## Pairs -/

theorem length_pairCalls (tokens : List (List Char)) :
    (pairCalls tokens).length = tokens.length / 2 := by
  fun_induction pairCalls tokens with
  | case1 name operands rest ih =>
    rw [List.length_cons, ih, List.length_cons, List.length_cons]
    omega
  | case2 tokens hshort =>
    rcases tokens with _ | ⟨name, _ | ⟨operands, rest⟩⟩
    · rfl
    · simp
    · exact absurd rfl (hshort name operands rest)

/-- As long as there are operands, the pairs are the calls. -/
theorem pairCalls_append {b : Branch} (h : ∀ c ∈ b, c.Separable)
    (hne : ∀ c ∈ b, c.operands ≠ []) (tokens : List (List Char)) :
    pairCalls (b.flatMap Call.words ++ tokens) = b ++ pairCalls tokens := by
  induction b with
  | nil => rfl
  | cons c b ih =>
    obtain ⟨hc, hb⟩ := List.forall_mem_cons.1 h
    obtain ⟨hcne, hbne⟩ := List.forall_mem_cons.1 hne
    have hwords : c.words = [c.name.toList, c.operandChars] := by rw [Call.words, if_neg hcne]
    rw [List.flatMap_cons, hwords, List.append_assoc, List.cons_append, List.singleton_append,
      pairCalls, hc.name_filter_comma, String.ofList_toList, readOperands_operandChars hc hcne,
      ih hb hbne, List.cons_append]

/-! ## Reading -/

section Read

variable {s : List Char} {b : Branch} (h : ∀ c ∈ b, c.Separable)
  (hs : s.filter (· ≠ ' ') = branchChars b)
include h hs

/-- The words between which the reader looks for pairs. -/
theorem words_eq_flatMap : Chars.words isBlank ((s.filter (· ≠ ' ')).map
    fun c => if c = '(' ∨ c = ')' then ' ' else c) = b.flatMap Call.words := by
  rw [hs]
  exact words_branchChars h

/-- A call that stands alone is read back, with operands or without. -/
theorem readCalls_of_length_eq_one (hb : b.length = 1) : readCalls s = b := by
  obtain ⟨c, rfl⟩ := List.length_eq_one_iff.1 hb
  have hc := h c List.mem_cons_self
  rw [readCalls, words_eq_flatMap h hs, List.flatMap_singleton, Call.words]
  by_cases hne : c.operands = []
  · simp only [if_pos hne, hc.name_filter_comma, String.ofList_toList]
    rw [← hne]
  · simp only [if_neg hne, pairCalls, hc.name_filter_comma, String.ofList_toList,
      readOperands_operandChars hc hne]

/-- Two calls or more have two words or more, so that all are paired. -/
theorem readCalls_eq_pairCalls (hb : b.length ≠ 1) :
    readCalls s = pairCalls (b.flatMap Call.words) := by
  rw [readCalls, words_eq_flatMap h hs]
  rcases b with _ | ⟨c, _ | ⟨d, b⟩⟩
  · rfl
  · exact absurd rfl hb
  · have hwords : ∃ x y t, (c :: d :: b).flatMap Call.words = x :: y :: t := by
      rw [List.flatMap_cons, List.flatMap_cons, Call.words, Call.words]
      by_cases hne : c.operands = []
      · exact ⟨_, _, _, by rw [if_pos hne]; rfl⟩
      · exact ⟨_, _, _, by rw [if_neg hne]; rfl⟩
    obtain ⟨x, y, t, hwords⟩ := hwords
    rw [hwords]

/-- Calls that all have operands are read back. -/
theorem readCalls_of_operands (hne : ∀ c ∈ b, c.operands ≠ []) : readCalls s = b := by
  by_cases hb : b.length = 1
  · exact readCalls_of_length_eq_one h hs hb
  · have hpairs := pairCalls_append h hne []
    rw [List.append_nil] at hpairs
    rw [readCalls_eq_pairCalls h hs hb, hpairs]
    exact List.append_nil b

/-- How many calls are read: two calls without operands cost one. -/
theorem length_readCalls (hb : b.length ≠ 1) :
    (readCalls s).length = b.length - (b.countP (·.operands = []) + 1) / 2 := by
  have hwords := length_flatMap_words b
  rw [readCalls_eq_pairCalls h hs hb, length_pairCalls]
  omega

end Read

/-! ## Calls without operands -/

/-- The name behind the first call without operands is taken for its operands. -/
theorem pairCalls_takes_name {before after : Branch} {c d : Call}
    (h : ∀ e ∈ before ++ c :: d :: after, e.Separable) (hbefore : ∀ e ∈ before, e.operands ≠ [])
    (hc : c.operands = []) :
    before ++ [⟨c.name, [d.name]⟩] <+:
      pairCalls ((before ++ c :: d :: after).flatMap Call.words) := by
  obtain ⟨hall, hcs, hds, -⟩ := by
    simpa only [List.forall_mem_append, List.forall_mem_cons] using h
  obtain ⟨t, ht⟩ : ∃ t, (c :: d :: after).flatMap Call.words =
      c.name.toList :: d.name.toList :: t := by
    rw [List.flatMap_cons, List.flatMap_cons, Call.words, if_pos hc, Call.words]
    exact ⟨_, rfl⟩
  rw [List.flatMap_append, ht, pairCalls_append hall hbefore, pairCalls, hcs.name_filter_comma,
    String.ofList_toList, readOperands_name hds]
  exact (List.prefix_append_right_inj before).2 (List.prefix_append [_] _)

/-- What a call without operands does to its branch.  A branch is read back exactly if all its
calls have operands or it is a single call.  Otherwise calls are lost: behind the first call
without operands the next name is taken for its operands, and where there is no next call the call
itself is lost. -/
theorem readCalls_eq_self_iff {s : List Char} {b : Branch} (h : ∀ c ∈ b, c.Separable)
    (hs : s.filter (· ≠ ' ') = branchChars b) :
    (readCalls s = b ↔ b.length = 1 ∨ ∀ c ∈ b, c.operands ≠ []) ∧
    (b.length ≠ 1 → (readCalls s).length = b.length - (b.countP (·.operands = []) + 1) / 2) ∧
    (∀ before c d after, b = before ++ c :: d :: after → (∀ e ∈ before, e.operands ≠ []) →
      c.operands = [] → before ++ [⟨c.name, [d.name]⟩] <+: readCalls s) ∧
    ∀ before c, before ≠ [] → b = before ++ [c] → (∀ e ∈ before, e.operands ≠ []) →
      c.operands = [] → readCalls s = before := by
  refine ⟨⟨fun hread => ?_, ?_⟩, length_readCalls h hs, ?_, ?_⟩
  · by_cases hone : b.length = 1
    · exact .inl hone
    · -- One call without operands is enough to make the result shorter than the branch.
      refine .inr fun c hc hbare => ?_
      have hcount : 0 < b.countP (·.operands = []) :=
        List.countP_pos_iff.2 ⟨c, hc, by simpa using hbare⟩
      have hmost : b.countP (·.operands = []) ≤ b.length := List.countP_le_length
      have hlength := length_readCalls h hs hone
      rw [hread] at hlength
      omega
  · rintro (hone | hne)
    · exact readCalls_of_length_eq_one h hs hone
    · exact readCalls_of_operands h hs hne
  · rintro before c d after rfl hbefore hc
    rw [readCalls_eq_pairCalls h hs (by simp; omega)]
    exact pairCalls_takes_name h hbefore hc
  · rintro before c hne rfl hbefore hc
    have hlength : (before ++ [c]).length ≠ 1 := by simpa using hne
    rw [readCalls_eq_pairCalls h hs hlength, List.flatMap_append,
      pairCalls_append (List.forall_mem_append.1 h).1 hbefore, List.flatMap_singleton, Call.words,
      if_pos hc]
    exact List.append_nil before

theorem readCalls_eq_self_iff_instances :
    readCalls "XIC( a )MOV(5,Row[2]) OTE(b)".toList =
      [⟨"XIC", ["a"]⟩, ⟨"MOV", ["5", "Row[2]"]⟩, ⟨"OTE", ["b"]⟩] ∧
    [⟨"XIC", ["a"]⟩, ⟨"AFI", ["OTE"]⟩] <+: readCalls "XIC(a)AFI()OTE(b)NOP()".toList ∧
    readCalls "XIC(a)OTE(b)NOP()".toList = [⟨"XIC", ["a"]⟩, ⟨"OTE", ["b"]⟩] :=
  ⟨(readCalls_eq_self_iff (by decide) (by decide)).1.2 (.inr (by decide)),
    (readCalls_eq_self_iff (b := [⟨"XIC", ["a"]⟩, ⟨"AFI", []⟩, ⟨"OTE", ["b"]⟩, ⟨"NOP", []⟩])
      (by decide) (by decide)).2.2.1 [⟨"XIC", ["a"]⟩] ⟨"AFI", []⟩ ⟨"OTE", ["b"]⟩ [⟨"NOP", []⟩]
      rfl (by decide) rfl,
    (readCalls_eq_self_iff (b := [⟨"XIC", ["a"]⟩, ⟨"OTE", ["b"]⟩, ⟨"NOP", []⟩])
      (by decide) (by decide)).2.2.2 [⟨"XIC", ["a"]⟩, ⟨"OTE", ["b"]⟩] ⟨"NOP", []⟩ (by decide)
      rfl (by decide) rfl⟩

/-- A call without operands takes the name of its neighbour, and the neighbour is lost. -/
theorem neighbour_of_bare_call_lost :
    (∀ c ∈ ([⟨"NOP", []⟩, ⟨"OTE", ["b"]⟩] : Branch), c.Separable) ∧
    branchChars [⟨"NOP", []⟩, ⟨"OTE", ["b"]⟩] = "NOP()OTE(b)".toList ∧
    readCalls "NOP()OTE(b)".toList = [⟨"NOP", ["OTE"]⟩] ∧
    readCalls "NOP()".toList = [⟨"NOP", []⟩] := by
  decide

end ControlLogic.Ladder
