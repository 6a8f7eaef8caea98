import ControlLogic.Proofs.Fault
import ControlLogic.StateMachine.Basic
import Mathlib.Data.List.Basic

/-!
# State machines are closed

The states and the transitions of a machine are collected apart from each other.  This file says
from the lines of the routines what either of them holds, and so that every transition leads to a
state.

* `Settings.Lists`: the states that the settings name.  `Settings.mem_knownStates` says that these
  are the known ones.
* `Gives` and `StandsWith`: the two ways in which a line shows a state of a variable.
* `mem_states_iff` and `mem_transitions_iff`: the states and the transitions by lines.
* `extract_eq_some_iff`: when there is a machine, and which.

`extract_closed` is the result.
-/

namespace ControlLogic.StateMachine

/-! ## Settings -/

/-- A text is an item of a list, a key of a record, or a character of a text. -/
def IsPart (s : String) : Json → Prop
  | .list items => .text s ∈ items
  | .record fields => ∃ v, (s, v) ∈ fields
  | .text t => ∃ c ∈ t.toList, s = String.ofList [c]
  | _ => False

/-- The settings name a state. -/
def Settings.Lists (settings : Settings) (state : String) : Prop :=
  IsPart state settings.explicitStates

theorem mapM_stateName_eq_ok {parts : List Json} {known : List String}
    (h : parts.mapM Settings.stateName = .ok known) : parts = known.map .text := by
  induction parts generalizing known with
  | nil =>
    cases h
    rfl
  | cons part parts ih =>
    rw [List.mapM_cons] at h
    obtain ⟨s, hs, h⟩ := exists_of_bind_eq_ok h
    obtain ⟨rest, hrest, h⟩ := exists_of_bind_eq_ok h
    cases h
    cases part with
    | text t =>
      cases hs
      rw [ih hrest, List.map_cons]
    | _ => cases hs

theorem map_text_inj {l l' : List String} : l.map Json.text = l'.map Json.text ↔ l = l' :=
  List.map_inj_right fun _ _ h => Json.text.inj h

theorem not_isPart_of_not_isTruthy {j : Json} (h : j.isTruthy = false) (s : String) :
    ¬IsPart s j := by
  cases j <;> simp_all [IsPart, Json.isTruthy, Text.isEmpty]

theorem mem_iff_isPart {j : Json} {texts : List String}
    (h : Analysis.walk j = .ok (texts.map .text)) (s : String) : s ∈ texts ↔ IsPart s j := by
  cases j with
  | list items =>
    rw [IsPart, Except.ok.inj h]
    simp
  | record fields =>
    obtain rfl := map_text_inj.1 ((List.map_map ..).trans (Except.ok.inj h))
    simp [IsPart]
  | text t =>
    obtain rfl := map_text_inj.1 ((List.map_map ..).trans (Except.ok.inj h))
    simp [IsPart, eq_comm]
  | _ => cases h

/-- The known states are those that the settings name. -/
theorem Settings.mem_knownStates {settings : Settings} {known : List String}
    (h : settings.knownStates = .ok known) (s : String) : s ∈ known ↔ settings.Lists s := by
  rw [Settings.knownStates] at h
  cases hgiven : settings.explicitStates.isTruthy with
  | false =>
    rw [hgiven] at h
    cases h
    exact iff_of_false List.not_mem_nil (not_isPart_of_not_isTruthy hgiven s)
  | true =>
    rw [hgiven] at h
    obtain ⟨parts, hparts, h⟩ := exists_of_bind_eq_ok h
    cases hcompound : parts.any isCompound with
    | true =>
      rw [hcompound] at h
      cases h
    | false =>
      rw [hcompound] at h
      rw [mapM_stateName_eq_ok h] at hparts
      exact mem_iff_isPart hparts s

/-! ## Lines -/

/-- The lines of the routines. -/
def lines (p : Project) : List String :=
  p.routines.flatMap fun r => (Text.split '\n' r.text).map Text.strip

/-- A line gives a variable a state. -/
def Gives (line name state : String) : Prop :=
  ∃ a, assignment? line = some a ∧ a.name = name ∧ unquoted (Text.strip a.value) = state ∧
    isStateName state

/-- A state stands with a variable in a guard of a line. -/
def StandsWith (line name state : String) : Prop :=
  ∃ g ∈ guardsOf line, name ∈ g.parts ∧ state ∈ g.parts ∧ state ≠ name ∧ isStateName state

/-- A line sets a condition. -/
def SetsCondition (line : String) : Prop := ∃ g ∈ guardsOf line, g.kind = .condition

theorem evidence_eq_ok_iff {p : Project} {e : Evidence} : evidence p = .ok e ↔
    (∀ r ∈ p.routines, r.content.isSome) ∧ e = .ofTexts (p.routines.map (·.text)) := by
  rw [evidence, ← List.all_eq_true]
  by_cases h : p.routines.all (·.content.isSome) = true
  · rw [if_pos h, Except.ok.injEq, eq_comm, and_iff_right h]
  · rw [if_neg h]
    exact ⟨fun heq => (nomatch heq), fun heq => absurd heq.1 h⟩

theorem lines_eq (p : Project) : lines p =
    (p.routines.map (·.text)).flatMap fun t => (Text.split '\n' t).map Text.strip := by
  rw [lines, List.flatMap_map]

theorem line_of_assignment? {line : String} {a : Assignment} (h : assignment? line = some a) :
    a.line = line := by
  obtain ⟨m, -, rfl⟩ := Option.map_eq_some_iff.1 h
  rfl

theorem line_of_mem_guardsOf {line : String} {g : Guard} (h : g ∈ guardsOf line) :
    g.line = line := by
  obtain ⟨kind, -, hkind⟩ := List.mem_flatMap.1 h
  obtain ⟨m, -, rfl⟩ := List.mem_map.1 hkind
  rfl

section Evidence

variable {p : Project} {e : Evidence}

theorem mem_assignmentsTo_iff (he : evidence p = .ok e) {name : String} {a : Assignment} :
    a ∈ e.assignmentsTo name ↔
      a.line ∈ lines p ∧ assignment? a.line = some a ∧ a.name = name := by
  obtain ⟨-, rfl⟩ := evidence_eq_ok_iff.1 he
  rw [Evidence.assignmentsTo, List.mem_filter, beq_iff_eq, lines_eq, ← and_assoc]
  refine and_congr_left fun _ => List.mem_filterMap.trans ⟨?_, fun h => ⟨a.line, h⟩⟩
  rintro ⟨line, hline, ha⟩
  obtain rfl := line_of_assignment? ha
  exact ⟨hline, ha⟩

theorem mem_guards_iff (he : evidence p = .ok e) {g : Guard} :
    g ∈ e.guards ↔ g.line ∈ lines p ∧ g ∈ guardsOf g.line := by
  obtain ⟨-, rfl⟩ := evidence_eq_ok_iff.1 he
  rw [lines_eq]
  refine List.mem_flatMap.trans ⟨?_, fun h => ⟨g.line, h⟩⟩
  rintro ⟨line, hline, hg⟩
  obtain rfl := line_of_mem_guardsOf hg
  exact ⟨hline, hg⟩

/-- The states of a variable are the known ones and those that lines show. -/
theorem mem_states_iff (he : evidence p = .ok e) {known : List String} {name s : String} :
    s ∈ e.states known name ↔
      s ∈ known ∨ ∃ line ∈ lines p, Gives line name s ∨ StandsWith line name s := by
  have hgiven : s ∈ ((e.assignmentsTo name).map fun a => unquoted (Text.strip a.value)).filter
      isStateName ↔ ∃ line ∈ lines p, Gives line name s := by
    rw [List.mem_filter, List.mem_map]
    constructor
    · rintro ⟨⟨a, ha, rfl⟩, hstate⟩
      obtain ⟨hline, hassign, hname⟩ := (mem_assignmentsTo_iff he).1 ha
      exact ⟨a.line, hline, a, hassign, hname, rfl, hstate⟩
    · rintro ⟨line, hline, a, hassign, hname, hvalue, hstate⟩
      obtain rfl := line_of_assignment? hassign
      exact ⟨⟨a, (mem_assignmentsTo_iff he).2 ⟨hline, hassign, hname⟩, hvalue⟩, hstate⟩
  have hguarded : s ∈ (e.guards.filter (·.parts.contains name)).flatMap (fun g =>
      g.parts.filter fun part => part != name && isStateName part) ↔
        ∃ line ∈ lines p, StandsWith line name s := by
    simp only [List.mem_flatMap, List.mem_filter, List.contains_iff_mem, mem_guards_iff he,
      Bool.and_eq_true, bne_iff_ne]
    constructor
    · rintro ⟨g, ⟨⟨hline, hg⟩, hname⟩, hs, hne, hstate⟩
      exact ⟨g.line, hline, g, hg, hname, hs, hne, hstate⟩
    · rintro ⟨line, hline, g, hg, hname, hs, hne, hstate⟩
      obtain rfl := line_of_mem_guardsOf hg
      exact ⟨g, ⟨⟨hline, hg⟩, hname⟩, hs, hne, hstate⟩
  rw [Evidence.states, Text.mem_ascending, List.mem_append, List.mem_append, hgiven, hguarded]
  grind

/-- Each line that sets a condition and each line that gives the variable a state make a
transition to it. -/
theorem mem_transitions_iff (he : evidence p = .ok e) {name : String} {t : Transition} :
    t ∈ e.transitions name ↔ (t.guard ∈ lines p ∧ SetsCondition t.guard) ∧
      t.action ∈ lines p ∧ Gives t.action name t.target := by
  simp only [Evidence.transitions, List.mem_flatMap, List.mem_filter, List.mem_filterMap,
    mem_guards_iff he, mem_assignmentsTo_iff he, beq_iff_eq]
  constructor
  · rintro ⟨g, ⟨⟨hguard, hg⟩, hkind⟩, a, ⟨haction, hassign, hname⟩, ht⟩
    obtain ⟨hstate, ht⟩ := Option.ite_none_right_eq_some.1 ht
    obtain rfl := Option.some.inj ht
    exact ⟨⟨hguard, g, hg, hkind⟩, haction, a, hassign, hname, rfl, hstate⟩
  · rintro ⟨⟨hguard, g, hg, hkind⟩, haction, a, hassign, hname, hvalue, hstate⟩
    have hgline := line_of_mem_guardsOf hg
    have haline := line_of_assignment? hassign
    refine ⟨g, ⟨⟨hgline ▸ hguard, hgline ▸ hg⟩, hkind⟩, a,
      ⟨haline ▸ haction, haline ▸ hassign, hname⟩, ?_⟩
    rw [hvalue, if_pos hstate, hgline, haline]

end Evidence

/-! ## Machines -/

/-- With enough evidence the variable that the settings name holds the state. -/
theorem Evidence.stateVariable?_of_score {settings : Settings} {e : Evidence} {name : String}
    (hname : settings.variableName? = some name) (hscore : 3 ≤ e.score name) :
    e.stateVariable? settings = some name := by
  rw [Evidence.stateVariable?, hname]
  exact if_pos hscore

/-- There is a machine if there is a state variable, if it has states or states are known, and if
they can be compared with those expected. -/
theorem Evidence.machine?_eq_some_iff {settings : Settings} {sourceType : Option String}
    {e : Evidence} {m : Machine} :
    e.machine? settings sourceType = .ok (some m) ↔ ∃ name known v,
      e.stateVariable? settings = some name ∧ settings.knownStates = .ok known ∧
      e.states known name ≠ [] ∧ validation settings name (e.states known name) = .ok v ∧
      m = { tracked := name, states := e.states known name, transitions := e.transitions name,
            sourceType, isImplicit := e.isImplicit name } := by
  constructor
  · intro h
    rw [Evidence.machine?] at h
    cases hname : e.stateVariable? settings with
    | none =>
      rw [hname] at h
      cases h
    | some name =>
      rw [hname] at h
      obtain ⟨known, hknown, h⟩ := exists_of_bind_eq_ok h
      by_cases hempty : e.states known name = []
      · rw [hempty] at h
        cases h
      · simp only [List.isEmpty_iff, hempty, if_false] at h
        obtain ⟨v, hvalid, h⟩ := exists_of_bind_eq_ok h
        cases h
        exact ⟨name, known, v, rfl, hknown, hempty, hvalid, rfl⟩
  · rintro ⟨name, known, v, hname, hknown, hempty, hvalid, rfl⟩
    rw [Evidence.machine?, hname, hknown]
    simp [hempty, hvalid, bind, Except.bind, pure, Except.pure]

theorem extract_eq_some_iff {settings : Settings} {p : Project} {m : Machine} :
    extract settings p = .ok (some m) ↔
      ∃ e, evidence p = .ok e ∧
        e.machine? settings p.controller.sourceType = .ok (some m) := by
  refine ⟨exists_of_bind_eq_ok, ?_⟩
  rintro ⟨e, he, h⟩
  rw [extract, he]
  exact h

/-- The states of a machine are distinct.  They are the ones that the settings name and the ones
that a line gives to the state variable or that stand with it in a guard.  A transition is a line
that sets a condition together with a line that gives a state, and it leads to a state. -/
theorem extract_closed {settings : Settings} {p : Project} {m : Machine}
    (h : extract settings p = .ok (some m)) :
    m.states.Nodup ∧
    (∀ s, s ∈ m.states ↔ settings.Lists s ∨
      ∃ line ∈ lines p, Gives line m.tracked s ∨ StandsWith line m.tracked s) ∧
    (∀ t, t ∈ m.transitions ↔ (t.guard ∈ lines p ∧ SetsCondition t.guard) ∧
      t.action ∈ lines p ∧ Gives t.action m.tracked t.target) ∧
    ∀ t ∈ m.transitions, t.target ∈ m.states := by
  obtain ⟨e, he, hmachine⟩ := extract_eq_some_iff.1 h
  obtain ⟨name, known, v, -, hknown, -, -, rfl⟩ := Evidence.machine?_eq_some_iff.1 hmachine
  refine ⟨Text.nodup_ascending _, fun s => ?_, fun t => mem_transitions_iff he, fun t ht => ?_⟩
  · rw [mem_states_iff he, Settings.mem_knownStates hknown]
  · obtain ⟨-, hline, hgives⟩ := (mem_transitions_iff he).1 ht
    exact (mem_states_iff he).2 (.inr ⟨t.action, hline, .inl hgives⟩)

/-- A routine whose mode changes from idle to running. -/
def mixing : Project.Routine where
  name := "Mixing"
  language := .st
  content := some "IF mode=IDLE\nTHEN\nmode = \"RUN\";\nEND_IF"

/-- A program of the one routine. -/
def mixer : Project where
  controller := { name := "Mixer" }
  programs := [{ name := "Main", routines := [mixing] }]

/-- Settings that name the variable and a state that no line shows. -/
def mixerSettings : Settings where
  stateVariable := .text "mode"
  explicitStates := .list [.text "FAULT"]

theorem lines_mixer : lines mixer = ["IF mode=IDLE", "THEN", "mode = \"RUN\";", "END_IF"] := by
  decide

theorem evidence_mixer : evidence mixer = .ok (.ofTexts [mixing.text]) := rfl

theorem gives_mixing : Gives "mode = \"RUN\";" "mode" "RUN" :=
  ⟨⟨"mode", "\"RUN\"", "mode = \"RUN\";"⟩, by decide, rfl, by decide,
    by decide⟩

theorem stateVariable?_mixer :
    (Evidence.ofTexts [mixing.text]).stateVariable? mixerSettings = some "mode" :=
  Evidence.stateVariable?_of_score rfl (by decide +kernel)

theorem extract_closed_mixer : ∃ m, extract mixerSettings mixer = .ok (some m) ∧
    m.states.Nodup ∧ "FAULT" ∈ m.states ∧
    (⟨"RUN", "IF mode=IDLE", "mode = \"RUN\";"⟩ : Transition) ∈ m.transitions ∧
    "RUN" ∈ m.states := by
  have hline : "mode = \"RUN\";" ∈ lines mixer := by simp [lines_mixer]
  have hguard : "IF mode=IDLE" ∈ lines mixer := by simp [lines_mixer]
  have hcondition : SetsCondition "IF mode=IDLE" := by
    rw [SetsCondition]
    decide
  have hstate : "RUN" ∈ (Evidence.ofTexts [mixing.text]).states ["FAULT"] "mode" :=
    (mem_states_iff evidence_mixer).2 (.inr ⟨_, hline, .inl gives_mixing⟩)
  have hmachine := extract_eq_some_iff.2 ⟨_, evidence_mixer,
    Evidence.machine?_eq_some_iff.2 ⟨"mode", ["FAULT"], {}, stateVariable?_mixer, rfl,
      List.ne_nil_of_mem hstate, rfl, rfl⟩⟩
  obtain ⟨hnodup, hstates, htransitions, htargets⟩ := extract_closed hmachine
  have ht := (htransitions ⟨"RUN", "IF mode=IDLE", "mode = \"RUN\";"⟩).2
    ⟨⟨hguard, hcondition⟩, hline, gives_mixing⟩
  exact ⟨_, hmachine, hnodup, (hstates "FAULT").2 (.inl List.mem_cons_self), ht, htargets _ ht⟩

end ControlLogic.StateMachine
