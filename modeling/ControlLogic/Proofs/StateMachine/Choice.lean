import ControlLogic.Proofs.StateMachine.Closed
import Mathlib.Data.List.Nodup

/-!
# The choice of the state variable

Candidates are collected from guards, assignments and switches, weighed, and ranked by a stable
sort.  This file says what comes first in the ranking, without the sort.

* `Evidence.IsCandidate`: a variable that a guard, an assignment or a switch names.
* `Evidence.score_pos`: each of the three ways of being found counts, so that no candidate is
  dropped for want of evidence.
* `of_head?_mergeSort_eq_some`: what a stable sort by falling weight puts first.
* `Evidence.IsBest` and `head?_ranking_eq_some_iff`: the first of the ranking is the best candidate.

`stateVariable?_best` is the result.
-/

namespace ControlLogic.StateMachine

/-! ## What a stable sort puts first -/

section StableSort

variable {α : Type} {weight : α → Nat} {l : List α}

theorem weight_trans (a b c : α) (hab : decide (weight b ≤ weight a) = true)
    (hbc : decide (weight c ≤ weight b) = true) : decide (weight c ≤ weight a) = true :=
  decide_eq_true (Nat.le_trans (of_decide_eq_true hbc) (of_decide_eq_true hab))

theorem weight_total (a b : α) :
    (decide (weight b ≤ weight a) || decide (weight a ≤ weight b)) = true := by
  rw [Bool.or_eq_true, decide_eq_true_eq, decide_eq_true_eq]
  exact Nat.le_total _ _

/-- The first element has the greatest weight, and stood before all others of the same weight. -/
theorem of_head?_mergeSort_eq_some {r : α → α → Prop} (hr : ∀ a, r a a) (hnodup : l.Nodup)
    (hl : l.Pairwise r) {x : α}
    (h : (l.mergeSort fun a b => decide (weight b ≤ weight a)).head? = some x) :
    x ∈ l ∧ (∀ y ∈ l, weight y ≤ weight x) ∧ ∀ y ∈ l, weight y = weight x → r x y := by
  obtain ⟨t, ht⟩ := List.head?_eq_some_iff.1 h
  have hperm := List.mergeSort_perm l fun a b => decide (weight b ≤ weight a)
  have hsorted := List.pairwise_mergeSort (@weight_trans α weight) weight_total l
  rw [ht] at hperm hsorted
  have hx : x ∉ t := (List.nodup_cons.1 (hperm.nodup_iff.2 hnodup)).1
  refine ⟨hperm.mem_iff.1 List.mem_cons_self, ?_, ?_⟩
  · intro y hy
    rcases List.mem_cons.1 (hperm.mem_iff.2 hy) with rfl | hy
    · exact Nat.le_refl _
    · exact of_decide_eq_true ((List.pairwise_cons.1 hsorted).1 y hy)
  · intro y hy hweight
    -- the elements of the weight of `x` keep their order, so `x` is the first of them in `l` too
    let ties := l.filter fun z => weight z = weight x
    have hties : ties.Pairwise fun a b => decide (weight b ≤ weight a) = true := by
      refine List.pairwise_of_forall_mem_list fun a ha b hb => ?_
      have hweights : weight b = weight a := by simp_all [ties]
      exact decide_eq_true (Nat.le_of_eq hweights)
    have hkept : ties.Sublist (x :: t) :=
      ht ▸ List.sublist_mergeSort weight_trans weight_total hties List.filter_sublist
    have hxties : x ∈ ties := by simp [ties, hperm.mem_iff.1 List.mem_cons_self]
    have hyties : y ∈ ties := by simp [ties, hy, hweight]
    rcases List.sublist_cons_iff.1 hkept with hsub | ⟨rest, hrest, -⟩
    · exact absurd (hsub.subset hxties) hx
    · have hpairs : (x :: rest).Pairwise r := hrest ▸ hl.sublist List.filter_sublist
      rw [hrest] at hyties
      rcases List.mem_cons.1 hyties with rfl | hyties
      · exact hr y
      · exact (List.pairwise_cons.1 hpairs).1 y hyties

end StableSort

/-! ## Candidates -/

namespace Evidence

variable {e : Evidence} {name : String}

/-- A variable that a guard, an assignment or a switch names. -/
def IsCandidate (e : Evidence) (name : String) : Prop :=
  isVariableName name ∧ ((∃ g ∈ e.guards, name ∈ g.parts) ∨ (∃ a ∈ e.assignments, a.name = name) ∨
    ∃ s ∈ e.switches, s.name = name)

/-- A candidate with no less evidence than any other, and with the smallest name among those with as
much. -/
structure IsBest (e : Evidence) (name : String) : Prop where
  isCandidate : e.IsCandidate name
  score_le : ∀ other, e.IsCandidate other → e.score other ≤ e.score name
  le_of_score_eq : ∀ other, e.IsCandidate other → e.score other = e.score name → name ≤ other

/-- The settings name the variable, and there is enough evidence for it. -/
def IsSaid (settings : Settings) (e : Evidence) (name : String) : Prop :=
  settings.variableName? = some name ∧ 3 ≤ e.score name

theorem mem_candidates_iff : name ∈ e.candidates ↔ e.IsCandidate name := by
  simp only [candidates, IsCandidate, Text.mem_ascending, List.mem_filter, List.mem_append,
    List.mem_flatMap, List.mem_map]
  grind

/-- However a candidate was found, there is evidence for it. -/
theorem score_pos (h : e.IsCandidate name) : 0 < e.score name := by
  unfold score
  obtain ⟨-, ⟨g, hg, hpart⟩ | ⟨a, ha, rfl⟩ | ⟨s, hs, rfl⟩⟩ := h
  · have hguard : g ∈ e.guards.filter (·.parts.contains name) := by simp [hg, hpart]
    have := List.length_pos_of_mem hguard
    omega
  · have hassigned : a ∈ e.assignmentsTo a.name := by simp [assignmentsTo, ha]
    have := List.length_pos_of_mem hassigned
    omega
  · have hswitched : s ∈ e.switches.filter (·.name == s.name) := by simp [hs]
    have := List.length_pos_of_mem hswitched
    omega

/-- No candidate is dropped. -/
theorem scored_eq (e : Evidence) :
    e.scored = e.candidates.map fun name => (name, e.score name) := by
  refine List.filter_eq_self.2 fun c hc => ?_
  obtain ⟨name, hname, rfl⟩ := List.mem_map.1 hc
  exact decide_eq_true (score_pos (mem_candidates_iff.1 hname))

theorem nodup_scored (e : Evidence) : e.scored.Nodup := by
  have hnames : e.candidates.Nodup := Text.nodup_ascending _
  refine List.Nodup.of_map Prod.fst ?_
  rw [scored_eq, List.map_map]
  simpa [Function.comp_def] using hnames

theorem pairwise_scored (e : Evidence) : e.scored.Pairwise fun a b => a.1 ≤ b.1 := by
  rw [scored_eq, List.pairwise_map]
  exact Text.pairwise_ascending _

/-! ## The best candidate -/

theorem IsBest.eq {other : String} (h : e.IsBest name) (hother : e.IsBest other) :
    name = other := by
  have hscore : e.score name = e.score other :=
    Nat.le_antisymm (hother.score_le name h.isCandidate) (h.score_le other hother.isCandidate)
  exact String.le_antisymm (h.le_of_score_eq other hother.isCandidate hscore.symm)
    (hother.le_of_score_eq name h.isCandidate hscore)

theorem isBest_of_head?_ranking {c : String × Nat} (h : e.ranking.head? = some c) :
    e.IsBest c.1 := by
  have hmem : ∀ {name}, e.IsCandidate name → (name, e.score name) ∈ e.scored := fun hname => by
    rw [scored_eq]
    exact List.mem_map_of_mem (mem_candidates_iff.2 hname)
  obtain ⟨hc, hgreatest, hfirst⟩ := of_head?_mergeSort_eq_some (fun c => String.le_refl c.1)
    (nodup_scored e) (pairwise_scored e) h
  rw [scored_eq] at hc
  obtain ⟨name, hname, rfl⟩ := List.mem_map.1 hc
  exact ⟨mem_candidates_iff.1 hname, fun other hother => hgreatest _ (hmem hother),
    fun other hother => hfirst _ (hmem hother)⟩

theorem head?_ranking_eq_none_iff : e.ranking.head? = none ↔ ∀ name, ¬e.IsCandidate name := by
  rw [List.head?_eq_none_iff, ranking, ← List.length_eq_zero_iff, List.length_mergeSort,
    List.length_eq_zero_iff, scored_eq, List.map_eq_nil_iff, List.eq_nil_iff_forall_not_mem]
  simp only [mem_candidates_iff]

/-- The first of the ranking is the best candidate. -/
theorem head?_ranking_eq_some_iff : e.ranking.head?.map (·.1) = some name ↔ e.IsBest name := by
  constructor
  · intro h
    obtain ⟨c, hc, rfl⟩ := Option.map_eq_some_iff.1 h
    exact isBest_of_head?_ranking hc
  · intro h
    cases hhead : e.ranking.head? with
    | none => exact absurd h.isCandidate (head?_ranking_eq_none_iff.1 hhead name)
    | some c => rw [Option.map_some, (isBest_of_head?_ranking hhead).eq h]

/-- Unless the settings name a variable with enough evidence, the ranking decides. -/
theorem stateVariable?_of_not_isSaid {settings : Settings} (h : ¬∃ said, e.IsSaid settings said) :
    e.stateVariable? settings = e.ranking.head?.map (·.1) := by
  unfold stateVariable?
  cases hname : settings.variableName? with
  | none => rfl
  | some said => exact if_neg fun hscore => h ⟨said, hname, hscore⟩

theorem IsSaid.stateVariable? {settings : Settings} (h : e.IsSaid settings name) :
    e.stateVariable? settings = some name :=
  stateVariable?_of_score h.1 h.2

end Evidence

/-- The state variable is the one that the settings name, if there is enough evidence for it, and
otherwise the best candidate.  There is none only if nothing is said and nothing is a candidate. -/
theorem stateVariable?_best (settings : Settings) (e : Evidence) :
    (∀ name, e.stateVariable? settings = some name ↔
      e.IsSaid settings name ∨ (¬∃ said, e.IsSaid settings said) ∧ e.IsBest name) ∧
    (e.stateVariable? settings = none ↔
      (¬∃ said, e.IsSaid settings said) ∧ ∀ name, ¬e.IsCandidate name) := by
  by_cases hsaid : ∃ said, e.IsSaid settings said
  · have ⟨said, hchosen⟩ := hsaid
    have hchoice := hchosen.stateVariable?
    refine ⟨fun name => ?_, ?_⟩
    · rw [hchoice, or_iff_left fun h => h.1 hsaid]
      constructor
      · rintro ⟨⟩
        exact hchosen
      · intro h
        rw [← hchoice, h.stateVariable?]
    · rw [hchoice]
      exact iff_of_false nofun fun h => h.1 hsaid
  · rw [Evidence.stateVariable?_of_not_isSaid hsaid]
    refine ⟨fun name => ?_, ?_⟩
    · rw [Evidence.head?_ranking_eq_some_iff, and_iff_right hsaid,
        or_iff_right fun h => hsaid ⟨name, h⟩]
    · rw [Option.map_eq_none_iff, Evidence.head?_ranking_eq_none_iff, and_iff_right hsaid]

/-- Two variables with one assignment each. -/
def pumpAndFan : Evidence where
  assignments := [⟨"pump", "RUN", "pump = RUN;"⟩, ⟨"fan", "RUN", "fan = RUN;"⟩]
  guards := []
  checks := []
  switches := []

/-- One assignment is not enough for the variable that is named, and of two candidates with as much
evidence the smaller name is taken. -/
theorem stateVariable?_best_pumpAndFan :
    pumpAndFan.stateVariable? { stateVariable := .text "pump" } = some "fan" := by
  have hcandidate : ∀ name, pumpAndFan.IsCandidate name → name = "pump" ∨ name = "fan" := by
    rintro name ⟨-, ⟨g, hg, -⟩ | ⟨a, ha, rfl⟩ | ⟨s, hs, -⟩⟩
    · exact absurd hg List.not_mem_nil
    · rcases List.mem_cons.1 ha with rfl | ha
      · exact .inl rfl
      · exact .inr (congrArg Assignment.name (List.mem_singleton.1 ha))
    · exact absurd hs List.not_mem_nil
  refine ((stateVariable?_best _ _).1 "fan").2 (.inr ⟨?_, ?_, ?_, ?_⟩)
  · rintro ⟨said, hname, hscore⟩
    cases hname
    exact absurd hscore (by decide)
  · exact ⟨by decide, .inr (.inl ⟨_, List.mem_cons_of_mem _ List.mem_cons_self, rfl⟩)⟩
  · intro other hother
    rcases hcandidate other hother with rfl | rfl <;> decide
  · intro other hother _
    rcases hcandidate other hother with rfl | rfl <;> decide

end ControlLogic.StateMachine
