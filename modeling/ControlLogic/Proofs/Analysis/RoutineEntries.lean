import ControlLogic.Proofs.Analysis.Passages
import ControlLogic.Proofs.Table

/-!
# One entry for each routine

The flow graphs and the uses of tags are collected routine by routine and kept under the name of the
routine, whatever its program.

* `graphsFrom` lists the graphs of routines one after the other, and `flowGraphs_eq_ofList` says that
  the graphs of a project are the table of this list.
* `tagSummary_eq_ok_iff` says the same of the uses of tags, and when they are found.

`entry_for_each_routine_iff` draws from it that the last routine of a name is kept, so that there is
an entry for each routine exactly if no two have the same name.
-/

namespace ControlLogic.Analysis

/-! ## Flow graphs -/

/-- The routines that have a text. -/
def withText (p : Project) : List Project.Routine :=
  p.routines.filter fun r => !Text.isEmpty r.text

/-- The number of control structures in the texts of routines. -/
def structureCount (routines : List Project.Routine) : Nat :=
  (routines.flatMap fun r => liveLines r.text).countP opensStructure

/-- The graphs of routines, one after the other; control structures are numbered on. -/
def graphsFrom (counter : Nat) : List Project.Routine → List (String × FlowGraph)
  | [] => []
  | r :: rest =>
    (r.name, (flowGraph counter r.text).1) :: graphsFrom (flowGraph counter r.text).2 rest

namespace Draft

theorem counter_step (d : Draft) (line : String) :
    (d.step line).counter = d.counter + if opensStructure line then 1 else 0 := by
  rw [step]
  split
  · exact congrArg (· + 1) (counter_leave d)
  · split
    · unfold closeStructure
      cases d.opened <;> rfl
    · rfl

theorem counter_foldl_step (lines : List String) (d : Draft) :
    (lines.foldl step d).counter = d.counter + lines.countP opensStructure := by
  induction lines generalizing d with
  | nil => rfl
  | cons line lines ih =>
    rw [List.foldl_cons, ih, counter_step, List.countP_cons]
    omega

end Draft

/-- A text takes as many numbers as it opens control structures. -/
theorem counter_flowGraph (counter : Nat) (content : String) :
    (flowGraph counter content).2 = counter + (liveLines content).countP opensStructure := by
  show (((liveLines content).foldl Draft.step (Draft.start counter)).leave).counter = _
  rw [Draft.counter_leave, Draft.counter_foldl_step]
  rfl

theorem map_fst_graphsFrom (counter : Nat) (routines : List Project.Routine) :
    (graphsFrom counter routines).map (·.1) = routines.map (·.name) := by
  induction routines generalizing counter with
  | nil => rfl
  | cons r routines ih => rw [graphsFrom, List.map_cons, ih, List.map_cons]

/-- The graph of a routine, behind those of the routines before it. -/
theorem graphsFrom_append_cons (counter : Nat) (before : List Project.Routine)
    (r : Project.Routine) (after : List Project.Routine) :
    ∃ counter', graphsFrom counter (before ++ r :: after) = graphsFrom counter before ++
      (r.name, (flowGraph (counter + structureCount before) r.text).1) ::
        graphsFrom counter' after := by
  induction before generalizing counter with
  | nil => exact ⟨_, rfl⟩
  | cons s before ih =>
    obtain ⟨counter', h⟩ := ih (flowGraph counter s.text).2
    have hcount : (flowGraph counter s.text).2 + structureCount before =
        counter + structureCount (s :: before) := by
      rw [counter_flowGraph, structureCount, structureCount, List.flatMap_cons, List.countP_append]
      omega
    refine ⟨counter', ?_⟩
    rw [List.cons_append, graphsFrom, h, hcount, graphsFrom, List.cons_append]

/-- The graphs of a project are the table of the graphs of the routines with a text. -/
theorem flowGraphs_eq_ofList (p : Project) :
    flowGraphs p = Table.ofList (graphsFrom 0 (withText p)) := by
  have hfold : ∀ (routines : List Project.Routine) (s : Table String FlowGraph × Nat),
      (routines.foldl (fun s r => if Text.isEmpty r.text then s
        else (s.1.insert r.name (flowGraph s.2 r.text).1, (flowGraph s.2 r.text).2)) s).1 =
        (graphsFrom s.2 (routines.filter fun r => !Text.isEmpty r.text)).foldl
          (fun t e => t.insert e.1 e.2) s.1 := by
    intro routines
    induction routines with
    | nil => intro s; rfl
    | cons r routines ih =>
      intro s
      rw [List.foldl_cons, ih]
      cases htext : Text.isEmpty r.text with
      | true =>
        rw [List.filter_cons_of_neg (by simp [htext])]
        rfl
      | false =>
        rw [List.filter_cons_of_pos (by simp [htext]), graphsFrom]
        rfl
  exact hfold p.routines (Table.empty, 0)

/-! ## Uses of tags -/

/-- The use of tags in a routine, none where the account that came with it cannot be followed. -/
def usageOf (r : Project.Routine) : Usage :=
  match routineUsage r with
  | .ok u => u
  | .error _ => {}

theorem routineUsage_eq_ok_iff {r : Project.Routine} :
    (∃ u, routineUsage r = .ok u) ↔ routineUsage r = .ok (usageOf r) := by
  rw [usageOf]
  cases routineUsage r <;> simp

/-- Without an account the use of tags is that of the text. -/
theorem routineUsage_of_controlFlow_eq_none {r : Project.Routine} (h : r.controlFlow = none) :
    routineUsage r = .ok (usage r.text) := by
  rw [routineUsage, h]
  rfl

theorem tagSummary_eq_ok_iff {p : Project} {t : Table String Usage} :
    tagSummary p = .ok t ↔ (∀ r ∈ p.routines, ∃ u, routineUsage r = .ok u) ∧
      t = Table.ofList (p.routines.map fun r => (r.name, usageOf r)) := by
  have hfold : ∀ (routines : List Project.Routine) (s : Table String Usage),
      routines.foldlM (fun t r => do return t.insert r.name (← routineUsage r)) s = .ok t ↔
        (∀ r ∈ routines, ∃ u, routineUsage r = .ok u) ∧
          t = (routines.map fun r => (r.name, usageOf r)).foldl (fun t e => t.insert e.1 e.2) s := by
    intro routines
    induction routines with
    | nil =>
      intro s
      simp [pure, Except.pure, eq_comm]
    | cons r routines ih =>
      intro s
      rw [List.foldlM_cons, List.forall_mem_cons, List.map_cons, List.foldl_cons]
      cases hr : routineUsage r with
      | error f => simp [bind, Except.bind]
      | ok u =>
        have hu : usageOf r = u := by rw [usageOf, hr]
        rw [hu]
        simpa [bind, Except.bind, pure, Except.pure] using ih (s.insert r.name u)
  exact hfold p.routines Table.empty

/-! ## Both -/

/-- What is kept of the routines of a project.  The graph of a routine with a text is kept if no
later one has its name, and there are as many graphs as routines with a text exactly if their names
are distinct.  The uses of tags are found if every account can be followed, so always if there are
none; they too are kept if no later routine has the name, and there are as many as routines exactly
if the names are distinct. -/
theorem entry_for_each_routine_iff (p : Project) :
    ((∀ before r after, withText p = before ++ r :: after →
        (∀ later ∈ after, later.name ≠ r.name) →
        (flowGraphs p).get? r.name = some (flowGraph (structureCount before) r.text).1) ∧
      ((flowGraphs p).size = (withText p).length ↔ ((withText p).map (·.name)).Nodup)) ∧
    ((∀ r ∈ p.routines, r.controlFlow = none) → ∃ t, tagSummary p = .ok t) ∧
    ((∃ t, tagSummary p = .ok t) ↔ ∀ r ∈ p.routines, ∃ u, routineUsage r = .ok u) ∧
    ∀ t, tagSummary p = .ok t →
      (∀ before r after, p.routines = before ++ r :: after →
        (∀ later ∈ after, later.name ≠ r.name) →
        ∃ u, routineUsage r = .ok u ∧ t.get? r.name = some u) ∧
      (t.size = p.routines.length ↔ (p.routines.map (·.name)).Nodup) := by
  have hfound : (∃ t, tagSummary p = .ok t) ↔ ∀ r ∈ p.routines, ∃ u, routineUsage r = .ok u := by
    simp only [tagSummary_eq_ok_iff, exists_and_left, exists_eq, and_true]
  refine ⟨⟨?_, ?_⟩, ?_, hfound, ?_⟩
  · intro before r after hsplit hlater
    obtain ⟨counter, hgraphs⟩ := graphsFrom_append_cons 0 before r after
    have hnot : r.name ∉ (graphsFrom counter after).map (·.1) := by
      rw [map_fst_graphsFrom]
      simpa using hlater
    rw [flowGraphs_eq_ofList, hsplit, hgraphs, Table.get?_ofList_append_cons _ hnot, Nat.zero_add]
  · have hsize := Table.size_ofList_eq_iff (graphsFrom 0 (withText p))
    rwa [map_fst_graphsFrom, ← flowGraphs_eq_ofList, ← List.length_map (·.1), map_fst_graphsFrom,
      List.length_map] at hsize
  · intro hnone
    refine hfound.2 fun r hr => ?_
    exact ⟨_, routineUsage_of_controlFlow_eq_none (hnone r hr)⟩
  · intro t ht
    obtain ⟨hused, rfl⟩ := tagSummary_eq_ok_iff.1 ht
    refine ⟨?_, ?_⟩
    · intro before r after hsplit hlater
      have hr : r ∈ p.routines := hsplit ▸ List.mem_append_right before List.mem_cons_self
      have hnot : r.name ∉ (after.map fun r => (r.name, usageOf r)).map (·.1) := by
        simpa using hlater
      refine ⟨usageOf r, routineUsage_eq_ok_iff.1 (hused r hr), ?_⟩
      rw [hsplit, List.map_append, List.map_cons, Table.get?_ofList_append_cons _ hnot]
    · have hsize := Table.size_ofList_eq_iff (p.routines.map fun r => (r.name, usageOf r))
      rwa [List.length_map, List.map_map] at hsize

/-- The main routine of a program that fills a tank. -/
def feedMain : Project.Routine where
  name := "MainRoutine"
  language := .st
  content := some "IF TANK.LOW THEN\nVALVE.OPEN := 1;\nEND_IF"

/-- The main routine of a program that empties it. -/
def drainMain : Project.Routine where
  name := "MainRoutine"
  language := .st
  content := some "IF TANK.FULL THEN\nPUMP.RUN := 1;\nEND_IF"

/-- Two programs with a main routine each. -/
def feedAndDrain : Project where
  controller := { name := "Station" }
  programs := [{ name := "Feed", routines := [feedMain] },
    { name := "Drain", routines := [drainMain] }]

theorem withText_feedAndDrain : withText feedAndDrain = [feedMain, drainMain] := rfl

theorem entry_for_each_routine_iff_feedAndDrain :
    (flowGraphs feedAndDrain).get? "MainRoutine" = some (flowGraph 1 drainMain.text).1 ∧
    (flowGraphs feedAndDrain).size ≠ 2 ∧
    ∃ t, tagSummary feedAndDrain = .ok t ∧
      t.get? "MainRoutine" = some (usage drainMain.text) ∧ t.size ≠ 2 := by
  have hcount : structureCount [feedMain] = 1 := by decide
  obtain ⟨⟨hlast, hsize⟩, hreturns, -, htable⟩ := entry_for_each_routine_iff feedAndDrain
  obtain ⟨t, ht⟩ := hreturns fun r hr => by
    rcases List.mem_pair.1 hr with rfl | rfl <;> rfl
  obtain ⟨hkept, htotal⟩ := htable t ht
  obtain ⟨u, hu, hget⟩ := hkept [feedMain] drainMain [] rfl (by simp)
  have husage : u = usage drainMain.text :=
    Except.ok.inj (hu.symm.trans (routineUsage_of_controlFlow_eq_none rfl))
  refine ⟨?_, ?_, t, ht, husage ▸ hget, ?_⟩
  · rw [← hcount]
    exact hlast [feedMain] drainMain [] withText_feedAndDrain (by simp)
  · intro htwo
    exact absurd (hsize.1 htwo) (by decide)
  · intro htwo
    exact absurd (htotal.1 htwo) (by decide)

/-- Two programs have a main routine each, and only that of the second is kept. -/
theorem first_main_overwritten :
    (withText feedAndDrain).length = 2 ∧ feedAndDrain.routines.length = 2 ∧
    (flowGraphs feedAndDrain).entries = [("MainRoutine", (flowGraph 1 drainMain.text).1)] ∧
    ∃ t, tagSummary feedAndDrain = .ok t ∧
      t.entries = [("MainRoutine", usage drainMain.text)] := by
  have hcounter : (flowGraph 0 feedMain.text).2 = 1 := by decide
  refine ⟨rfl, rfl, ?_, Table.ofList [("MainRoutine", usage feedMain.text),
    ("MainRoutine", usage drainMain.text)], ?_, rfl⟩
  · rw [flowGraphs_eq_ofList, withText_feedAndDrain, graphsFrom, graphsFrom, hcounter]
    rfl
  · refine tagSummary_eq_ok_iff.2 ⟨fun r hr => ?_, rfl⟩
    rcases List.mem_pair.1 hr with rfl | rfl
    · exact ⟨_, routineUsage_of_controlFlow_eq_none rfl⟩
    · exact ⟨_, routineUsage_of_controlFlow_eq_none rfl⟩

end ControlLogic.Analysis
