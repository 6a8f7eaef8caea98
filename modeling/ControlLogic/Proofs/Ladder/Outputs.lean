import ControlLogic.Ladder.Code
import ControlLogic.Proofs.Text.Chars

/-!
# The outputs in the text of a rung

Which instructions that act leave their statements in the Structured Text of a rung.

* `map_body_stageSteps`: the steps of a stage are its outputs in order, one step for each.
* `infix_stepsText`: the text of steps holds the statements of each of them.
* `text_eq_text_take_two`: only the first two stages of a rung have a part in its text.

Together they say that the outputs of the second stage are all written, and that an output of a
later stage is in the text only if the first two stages happen to write the same
(`holdsOutputs_iff_drop_two`).
-/

namespace ControlLogic.Ladder

open StructuredText

/-! ## Contacts and outputs -/

/-- An instruction gives a test exactly when it is a contact. -/
theorem isSome_contactTest? (c : Call) :
    (contactTest? c.name c.operands).isSome = c.isContact := by
  unfold contactTest? Call.isContact
  split <;> simp_all [contactNames]

/-- No contact is an output. -/
theorem outputBody?_of_isContact {c : Call} (h : c.isContact = true) (sense : Bool) :
    outputBody? c.name sense c.operands = none := by
  simp only [Call.isContact, contactNames, List.contains_eq_mem, decide_eq_true_eq, List.mem_cons,
    List.not_mem_nil, or_false] at h
  rcases h with h | h | h | h | h | h | h | h <;> rw [h] <;> rfl

/-- The steps of a branch are its outputs, one after the other. -/
theorem map_body_branchSteps (pending : List Test) (b : Branch) :
    (branchSteps pending b).map Step.body =
      (b.filter (!·.isContact)).map fun c => c.body true := by
  induction b generalizing pending with
  | nil => rfl
  | cons c b ih =>
    have hcontact := isSome_contactTest? c
    rw [branchSteps]
    cases htest : contactTest? c.name c.operands with
    | some t =>
      rw [htest, Option.isSome_some] at hcontact
      rw [List.filter_cons, ← hcontact]
      exact ih _
    | none =>
      rw [htest, Option.isSome_none] at hcontact
      rw [List.filter_cons, ← hcontact]
      simp only [List.map_cons, ih]
      rfl

theorem map_body_stageSteps (s : Stage) :
    (stageSteps s).map Step.body = (s.flatten.filter (!·.isContact)).map fun c => c.body true := by
  rw [stageSteps, List.map_flatMap, List.filter_flatten, List.map_flatten, List.flatMap_def,
    List.map_map]
  congr 1
  apply List.map_congr_left
  intro b _
  exact map_body_branchSteps [] b

/-! ## Statements in the text -/

theorem infix_text_step (tab : String) (s : Step) :
    (textOf s.body).toList <:+: (s.text tab).1.toList := by
  rw [Step.text]
  split
  · exact ⟨tab.toList, "\n".toList, by simp⟩
  · simp only [String.toList_append]
    -- Behind the statements stand a line end, the alternative and the last line.
    iterate 4 refine List.IsInfix.trans ?_ (List.prefix_append _ _).isInfix
    exact (List.suffix_append _ _).isInfix

theorem infix_stepsText {steps : List Step} {s : Step} (h : s ∈ steps) (tab : String) :
    (textOf s.body).toList <:+: (stepsText tab steps).toList := by
  induction steps generalizing tab with
  | nil => simp at h
  | cons t steps ih =>
    rw [stepsText, String.toList_append]
    rcases List.mem_cons.1 h with rfl | h
    · exact (infix_text_step tab s).trans (List.prefix_append _ _).isInfix
    · exact (ih h _).trans (List.suffix_append _ _).isInfix

/-- The text of a rung has no part of the stages behind the second. -/
theorem text_eq_text_take_two (stages : List Stage) (tab : String) :
    (rungCode stages).text tab = (rungCode (stages.take 2)).text tab := by
  rcases stages with _ | ⟨first, _ | ⟨second, later⟩⟩ <;> rfl

/-- The text holds the statements of every output of a stage. -/
def HoldsOutputs (text : String) (s : Stage) : Prop :=
  ∀ b ∈ s, ∀ c ∈ b, ∀ body, outputBody? c.name true c.operands = some body →
    Text.contains (textOf body) text = true

/-- The outputs of the second stage are in the text. -/
theorem holdsOutputs_second (first second : Stage) (later : List Stage) (tab : String) :
    HoldsOutputs ((rungCode (first :: second :: later)).text tab) second := by
  intro b hb c hc body hbody
  have hcontact : c.isContact = false := by
    cases h : c.isContact with
    | false => rfl
    | true => rw [outputBody?_of_isContact h] at hbody; cases hbody
  have hmem : body ∈ (stageSteps second).map Step.body := by
    rw [map_body_stageSteps]
    refine List.mem_map.2 ⟨c, ?_, by simp [Call.body, hbody]⟩
    exact List.mem_filter.2 ⟨List.mem_flatten.2 ⟨b, hb, hc⟩, by simp [hcontact]⟩
  obtain ⟨s, hs, rfl⟩ := List.mem_map.1 hmem
  rw [Text.contains, Text.Chars.contains_iff_infix, rungCode, RungCode.text]
  simp only [String.toList_append]
  exact ((infix_stepsText hs _).trans (List.suffix_append _ _).isInfix).trans
    (List.prefix_append _ _).isInfix

/-- Which outputs the text of a rung holds.  Only the first two stages have a part in it, and
the outputs of the second are all there.  So every output behind the first stage is there
exactly if those behind the second are in the text of the first two stages alone. -/
theorem holdsOutputs_iff_drop_two (stages : List Stage) (tab : String) :
    (rungCode stages).text tab = (rungCode (stages.take 2)).text tab ∧
    (∀ s, stages[1]? = some s → HoldsOutputs ((rungCode stages).text tab) s) ∧
    ((∀ s ∈ stages.tail, HoldsOutputs ((rungCode stages).text tab) s) ↔
      ∀ s ∈ stages.drop 2, HoldsOutputs ((rungCode (stages.take 2)).text tab) s) := by
  refine ⟨text_eq_text_take_two stages tab, ?_, ?_⟩
  · intro s hs
    rcases stages with _ | ⟨first, _ | ⟨second, later⟩⟩
    · simp at hs
    · simp at hs
    · obtain rfl : second = s := by simpa using hs
      exact holdsOutputs_second first second later tab
  · rw [text_eq_text_take_two]
    rcases stages with _ | ⟨first, _ | ⟨second, later⟩⟩
    · simp
    · simp
    · have hsecond := holdsOutputs_second first second [] tab
      simp only [List.tail_cons, List.take_succ_cons, List.take_zero, List.drop_succ_cons,
        List.drop_zero, List.forall_mem_cons]
      exact and_iff_right hsecond

theorem holdsOutputs_iff_drop_two_instance :
    HoldsOutputs ((rungCode (readRung "[XIC(a),XIO(b)][TON(T1,500),MOV(1,n)OTL(c)]")).text "\t")
      [[⟨"TON", ["T1", "500"]⟩], [⟨"MOV", ["1", "n"]⟩, ⟨"OTL", ["c"]⟩]] :=
  (holdsOutputs_iff_drop_two _ "\t").2.1 _ (by decide)

/-- The output of a third stage is not in the text. -/
theorem third_stage_output_missing :
    readRung "XIC(a)[OTE(b),OTE(c)]OTE(d)" =
      [[[⟨"XIC", ["a"]⟩]], [[⟨"OTE", ["b"]⟩], [⟨"OTE", ["c"]⟩]], [[⟨"OTE", ["d"]⟩]]] ∧
    ¬ HoldsOutputs ((rungCode (readRung "XIC(a)[OTE(b),OTE(c)]OTE(d)")).text "")
      [[⟨"OTE", ["d"]⟩]] :=
  ⟨by decide, fun h => absurd
    (h _ List.mem_cons_self ⟨"OTE", ["d"]⟩ List.mem_cons_self [.assign "d" "1"] rfl) (by decide)⟩

end ControlLogic.Ladder
