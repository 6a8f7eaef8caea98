import ControlLogic.Analysis.FlowGraph
import ControlLogic.Proofs.Analysis.Lines
import Mathlib.Data.List.Basic
import Mathlib.Data.List.Nodup

/-!
# Data flow between routines, found in two ways

There are two lists of what goes from one routine to another through a tag.  `dependencies` takes it
from what the routines use, where a tag that a routine both reads and writes counts as its own
affair; `dataFlows` takes it from what they write and read, whatever else they do with the tag.

* `Writes` and `Reads` say what a routine does to a tag, by what one of its lines does.
* `mem_dependencies` and `mem_dataFlows` say what the two lists hold.
* `dependencies_eq_dataFlows_iff` compares them.
-/

namespace ControlLogic

namespace Table

variable {α β : Type} [DecidableEq α]

/-- A key under which a list with members is found is a key of the table. -/
theorem mem_keys_of_mem_getD_nil {t : Table α (List β)} {k : α} {b : β} (h : b ∈ t.getD k []) :
    k ∈ t.keys := by
  rw [← contains_iff_mem_keys, contains]
  rw [getD] at h
  cases hget : t.get? k with
  | some l => rfl
  | none =>
    rw [hget] at h
    exact absurd h List.not_mem_nil

/-- Values that are put at the end of lists under keys stand there in order. -/
theorem getD_foldl_alter (l : List (α × β)) (t : Table α (List β)) (k : α) :
    (l.foldl (fun t e => t.alter e.1 [] (· ++ [e.2])) t).getD k [] =
      t.getD k [] ++ (l.filter (·.1 = k)).map (·.2) := by
  induction l generalizing t with
  | nil => simp
  | cons e l ih =>
    rw [List.foldl_cons, ih, alter, getD, get?_insert]
    by_cases he : e.1 = k
    · rw [if_pos he, List.filter_cons_of_pos (by simpa using he), he]
      simp
    · rw [if_neg he, List.filter_cons_of_neg (by simpa using he), getD]

end Table

namespace Analysis

/-! ## What a routine does -/

/-- A live line of a routine with the name has a property. -/
def HasLine (p : Project) (routine : String) (P : String → Prop) : Prop :=
  ∃ r ∈ p.routines, r.name = routine ∧ ∃ line ∈ liveLines r.text, P line

/-- A line of the routine writes the tag. -/
def Writes (p : Project) (routine tag : String) : Prop := HasLine p routine (WritesTag · tag)

/-- A line of the routine reads the tag. -/
def Reads (p : Project) (routine tag : String) : Prop := HasLine p routine (ReadsTag · tag)

/-- With distinct names the lines under a name are those of one routine. -/
theorem hasLine_iff {p : Project} (hnames : (p.routines.map (·.name)).Nodup) {r : Project.Routine}
    (hr : r ∈ p.routines) {P : String → Prop} :
    HasLine p r.name P ↔ ∃ line ∈ liveLines r.text, P line := by
  constructor
  · rintro ⟨r', hr', hname, hline⟩
    rwa [List.inj_on_of_nodup_map hnames hr' hr hname] at hline
  · intro hline
    exact ⟨r, hr, rfl, hline⟩

/-- A routine that has lines of one kind and none of another. -/
theorem exists_routine_iff {p : Project} (hnames : (p.routines.map (·.name)).Nodup)
    {name : String} {P Q : String → Prop} :
    (∃ r ∈ p.routines, r.name = name ∧ (∃ line ∈ liveLines r.text, P line) ∧
      ¬ ∃ line ∈ liveLines r.text, Q line) ↔ HasLine p name P ∧ ¬ HasLine p name Q := by
  constructor
  · rintro ⟨r, hr, rfl, hP, hQ⟩
    exact ⟨(hasLine_iff hnames hr).2 hP, mt (hasLine_iff hnames hr).1 hQ⟩
  · rintro ⟨⟨r, hr, rfl, hP⟩, hQ⟩
    exact ⟨r, hr, rfl, hP, mt (hasLine_iff hnames hr).2 hQ⟩

/-- What a text only writes. -/
theorem mem_outputs {content tag : String} : tag ∈ (usage content).outputs ↔
    (∃ line ∈ liveLines content, WritesTag line tag) ∧
      ¬ ∃ line ∈ liveLines content, ReadsTag line tag := by
  simp only [usage, Text.mem_minus, Text.mem_meet, Text.mem_ascending, List.mem_flatMap,
    mem_written, mem_read]
  exact and_congr_right fun hwrites => not_congr (and_iff_left hwrites)

/-- What a text only reads. -/
theorem mem_inputs {content tag : String} : tag ∈ (usage content).inputs ↔
    (∃ line ∈ liveLines content, ReadsTag line tag) ∧
      ¬ ∃ line ∈ liveLines content, WritesTag line tag := by
  simp only [usage, Text.mem_minus, Text.mem_meet, Text.mem_ascending, List.mem_flatMap,
    mem_written, mem_read]
  exact and_congr_right fun hreads => not_congr (and_iff_right hreads)

/-! ## Dependencies -/

theorem mem_routinesByTag {p : Project} {f : Usage → List String} {tag name : String} :
    name ∈ (routinesByTag p f).getD tag [] ↔
      ∃ r ∈ p.routines, r.name = name ∧ tag ∈ f (usage r.text) := by
  have hlist : routinesByTag p f = (p.routines.flatMap fun r => (f (usage r.text)).map
      fun tag => (tag, r.name)).foldl (fun t e => t.alter e.1 [] (· ++ [e.2])) Table.empty := by
    simp only [routinesByTag, List.foldl_flatMap, List.foldl_map]
  have hempty : (Table.empty : Table String (List String)).getD tag [] = [] := rfl
  rw [hlist, Table.getD_foldl_alter, hempty, List.nil_append]
  simp only [List.mem_map, List.mem_filter, List.mem_flatMap, decide_eq_true_eq]
  constructor
  · rintro ⟨_, ⟨⟨r, hr, t, ht, rfl⟩, rfl⟩, rfl⟩
    exact ⟨r, hr, rfl, ht⟩
  · rintro ⟨r, hr, rfl, ht⟩
    exact ⟨(tag, r.name), ⟨⟨r, hr, tag, ht, rfl⟩, rfl⟩, rfl⟩

/-- A dependency is on a tag that one routine only writes and another only reads. -/
theorem mem_dependencies {p : Project} {d : Dependency} : d ∈ dependencies p ↔
    d.writer ≠ d.reader ∧
      (∃ r ∈ p.routines, r.name = d.writer ∧ d.tag ∈ (usage r.text).outputs) ∧
      ∃ r ∈ p.routines, r.name = d.reader ∧ d.tag ∈ (usage r.text).inputs := by
  simp only [dependencies, List.mem_flatMap, List.mem_map, List.mem_filter, Text.mem_ascending,
    Text.mem_meet, bne_iff_ne]
  constructor
  · rintro ⟨tag, -, writer, hwriter, reader, ⟨hreader, hne⟩, rfl⟩
    exact ⟨hne, mem_routinesByTag.1 hwriter, mem_routinesByTag.1 hreader⟩
  · rintro ⟨hne, hwriter, hreader⟩
    have hwriter := mem_routinesByTag.2 hwriter
    have hreader := mem_routinesByTag.2 hreader
    exact ⟨d.tag, ⟨Table.mem_keys_of_mem_getD_nil hwriter, Table.mem_keys_of_mem_getD_nil hreader⟩,
      d.writer, hwriter, d.reader, ⟨hreader, hne⟩, rfl⟩

/-! ## Data flows -/

theorem mem_flowsBetween {a b : String × List String × List String} {f : DataFlow} :
    f ∈ flowsBetween a b ↔
      a.1 = f.source ∧ b.1 = f.target ∧ f.tag ∈ a.2.1 ∧ f.tag ∈ b.2.2 := by
  simp only [flowsBetween, List.mem_map, Text.mem_meet]
  constructor
  · rintro ⟨tag, ⟨ha, hb⟩, rfl⟩
    exact ⟨rfl, rfl, ha, hb⟩
  · rintro ⟨hsource, htarget, ha, hb⟩
    exact ⟨f.tag, ⟨ha, hb⟩, by rw [hsource, htarget]⟩

/-- With distinct names, what flows among routines flows between two of them. -/
theorem mem_flowsAmong {l : List (String × List String × List String)} {f : DataFlow}
    (hl : (l.map (·.1)).Nodup) :
    f ∈ flowsAmong l ↔ f.source ≠ f.target ∧ ∃ a ∈ l, ∃ b ∈ l, f ∈ flowsBetween a b := by
  induction l with
  | nil => simp [flowsAmong]
  | cons c rest ih =>
    rw [List.map_cons, List.nodup_cons] at hl
    -- a routine of the rest has another name than the first
    have hne : ∀ b ∈ rest, c.1 ≠ b.1 := fun b hb heq => hl.1 (heq ▸ List.mem_map_of_mem hb)
    simp only [flowsAmong, List.mem_append, List.mem_flatMap, ih hl.2]
    constructor
    · rintro (⟨b, hb, hf | hf⟩ | ⟨hf, a, ha, b, hb, hab⟩)
      · obtain ⟨hsource, htarget, -⟩ := mem_flowsBetween.1 hf
        exact ⟨hsource ▸ htarget ▸ hne b hb, c, List.mem_cons_self, b,
          List.mem_cons_of_mem _ hb, hf⟩
      · obtain ⟨hsource, htarget, -⟩ := mem_flowsBetween.1 hf
        exact ⟨hsource ▸ htarget ▸ (hne b hb).symm, b, List.mem_cons_of_mem _ hb, c,
          List.mem_cons_self, hf⟩
      · exact ⟨hf, a, List.mem_cons_of_mem _ ha, b, List.mem_cons_of_mem _ hb, hab⟩
    · rintro ⟨hf, a, ha, b, hb, hab⟩
      rcases List.mem_cons.1 ha with hac | har
      · rcases List.mem_cons.1 hb with hbc | hbr
        · obtain ⟨hsource, htarget, -⟩ := mem_flowsBetween.1 hab
          exact absurd (hsource.symm.trans (hac.trans hbc.symm ▸ htarget)) hf
        · exact .inl ⟨b, hbr, .inl (hac ▸ hab)⟩
      · rcases List.mem_cons.1 hb with hbc | hbr
        · exact .inl ⟨a, har, .inr (hbc ▸ hab)⟩
        · exact .inr ⟨hf, a, har, b, hbr, hab⟩

theorem entries_flowTable {p : Project} (hnames : (p.routines.map (·.name)).Nodup) :
    (flowTable p).entries = p.routines.map fun r => (r.name, defsAndUses r.text) := by
  have hlist : flowTable p =
      Table.ofList (p.routines.map fun r => (r.name, defsAndUses r.text)) := by
    rw [Table.ofList, List.foldl_map, flowTable]
  rw [hlist, Table.entries_ofList]
  rwa [List.map_map]

/-- Data flows where one routine assigns to a tag that another reads in an assignment. -/
theorem mem_dataFlows {p : Project} (hnames : (p.routines.map (·.name)).Nodup) {f : DataFlow} :
    f ∈ dataFlows p ↔ f.source ≠ f.target ∧ HasLine p f.source (f.tag ∈ written ·) ∧
      HasLine p f.target (f.tag ∈ readByAssignment ·) := by
  have hentries := entries_flowTable hnames
  have hkeys : ((flowTable p).entries.map (·.1)).Nodup := by
    rw [hentries, List.map_map]
    exact hnames
  rw [dataFlows, mem_flowsAmong hkeys]
  simp only [mem_flowsBetween, hentries, List.mem_map]
  refine and_congr_right fun _ => ⟨?_, ?_⟩
  · rintro ⟨_, ⟨w, hw, rfl⟩, _, ⟨r, hr, rfl⟩, hsource, htarget, hdefs, huses⟩
    rw [defsAndUses, Text.mem_ascending, List.mem_flatMap] at hdefs huses
    exact ⟨⟨w, hw, hsource, hdefs⟩, r, hr, htarget, huses⟩
  · rintro ⟨⟨w, hw, hsource, hdefs⟩, r, hr, htarget, huses⟩
    refine ⟨_, ⟨w, hw, rfl⟩, _, ⟨r, hr, rfl⟩, hsource, htarget, ?_, ?_⟩
    · exact Text.mem_ascending.2 (List.mem_flatMap.2 hdefs)
    · exact Text.mem_ascending.2 (List.mem_flatMap.2 huses)

/-! ## The two compared -/

/-- A line that does not begin with `IF` reads by assignment only. -/
theorem readsTag_iff_of_not_opensWith {line tag : String} (h : opensWith "IF" line = false) :
    ReadsTag line tag ↔ tag ∈ readByAssignment line := by
  rw [ReadsTag, ← mem_readByAssignment]
  refine or_iff_left ?_
  rintro ⟨-, condition, hcondition, -⟩
  rw [ifCondition?, h] at hcondition
  cases hcondition

theorem mem_dataFlows_iff {p : Project} (hnames : (p.routines.map (·.name)).Nodup)
    (hif : ∀ r ∈ p.routines, ∀ line ∈ liveLines r.text, opensWith "IF" line = false)
    {w r tag : String} :
    ⟨w, r, tag⟩ ∈ dataFlows p ↔ w ≠ r ∧ Writes p w tag ∧ Reads p r tag := by
  rw [mem_dataFlows hnames]
  have hreads : HasLine p r (tag ∈ readByAssignment ·) ↔ Reads p r tag := by
    refine exists_congr fun a => and_congr_right fun ha => and_congr_right fun _ => ?_
    refine exists_congr fun line => and_congr_right fun hline => ?_
    exact (readsTag_iff_of_not_opensWith (hif a ha line hline)).symm
  simp only [hreads, mem_written, Writes]

theorem mem_dependencies_iff {p : Project} (hnames : (p.routines.map (·.name)).Nodup)
    {w r tag : String} : ⟨w, r, tag⟩ ∈ dependencies p ↔
      w ≠ r ∧ (Writes p w tag ∧ ¬ Reads p w tag) ∧ Reads p r tag ∧ ¬ Writes p r tag := by
  rw [mem_dependencies]
  simp only [mem_outputs, mem_inputs]
  rw [exists_routine_iff hnames, exists_routine_iff hnames]
  rfl

/-- Where routines have distinct names and no line begins with `IF`, the dependencies are those data
flows whose writer does not read the tag as well, and whose reader does not write it.  So the two
lists hold the same exactly if no tag that goes from one routine to another is both read and written
by one of the two. -/
theorem dependencies_eq_dataFlows_iff (p : Project) (hnames : (p.routines.map (·.name)).Nodup)
    (hif : ∀ r ∈ p.routines, ∀ line ∈ liveLines r.text, opensWith "IF" line = false) :
    (∀ w r tag, ⟨w, r, tag⟩ ∈ dataFlows p ↔ w ≠ r ∧ Writes p w tag ∧ Reads p r tag) ∧
    (∀ w r tag, ⟨w, r, tag⟩ ∈ dependencies p ↔
      ⟨w, r, tag⟩ ∈ dataFlows p ∧ ¬ Reads p w tag ∧ ¬ Writes p r tag) ∧
    ((∀ w r tag, ⟨w, r, tag⟩ ∈ dependencies p ↔ ⟨w, r, tag⟩ ∈ dataFlows p) ↔
      ∀ w r tag, w ≠ r → Writes p w tag → Reads p r tag →
        ¬ Reads p w tag ∧ ¬ Writes p r tag) := by
  have hflows : ∀ w r tag, ⟨w, r, tag⟩ ∈ dataFlows p ↔ w ≠ r ∧ Writes p w tag ∧ Reads p r tag :=
    fun w r tag => mem_dataFlows_iff hnames hif
  have hdependencies : ∀ w r tag, ⟨w, r, tag⟩ ∈ dependencies p ↔
      ⟨w, r, tag⟩ ∈ dataFlows p ∧ ¬ Reads p w tag ∧ ¬ Writes p r tag := by
    intro w r tag
    rw [mem_dependencies_iff hnames, hflows]
    tauto
  refine ⟨hflows, hdependencies, ?_, ?_⟩
  · intro hsame w r tag hne hwrites hreads
    have hflow := (hflows w r tag).2 ⟨hne, hwrites, hreads⟩
    exact ((hdependencies w r tag).1 ((hsame w r tag).2 hflow)).2
  · intro hapart w r tag
    rw [hdependencies, and_iff_left_iff_imp, hflows]
    rintro ⟨hne, hwrites, hreads⟩
    exact hapart w r tag hne hwrites hreads

/-- A routine that counts and sets a level. -/
def countRoutine : Project.Routine where
  name := "Count"
  language := .st
  content := some "COUNT.UP := COUNT.UP + STEP.SIZE;\nTANK.LEVEL := 5;"

/-- A routine that looks at both. -/
def showRoutine : Project.Routine where
  name := "Show"
  language := .st
  content := some "LAMP.ON := COUNT.UP;\nPUMP.RUN := TANK.LEVEL;"

def counting : Project where
  controller := { name := "Station" }
  programs := [{ name := "Main", routines := [countRoutine, showRoutine] }]

theorem names_counting : (counting.routines.map (·.name)).Nodup := by decide

theorem hasLine_count {P : String → Prop} : HasLine counting "Count" P ↔
    P "COUNT.UP := COUNT.UP + STEP.SIZE;" ∨ P "TANK.LEVEL := 5;" := by
  have hlines : liveLines countRoutine.text =
      ["COUNT.UP := COUNT.UP + STEP.SIZE;", "TANK.LEVEL := 5;"] := by decide
  refine (hasLine_iff names_counting (r := countRoutine) List.mem_cons_self).trans ?_
  simp [hlines]

theorem hasLine_show {P : String → Prop} : HasLine counting "Show" P ↔
    P "LAMP.ON := COUNT.UP;" ∨ P "PUMP.RUN := TANK.LEVEL;" := by
  have hlines : liveLines showRoutine.text =
      ["LAMP.ON := COUNT.UP;", "PUMP.RUN := TANK.LEVEL;"] := by decide
  have hmem : showRoutine ∈ counting.routines := List.mem_cons_of_mem _ List.mem_cons_self
  refine (hasLine_iff names_counting hmem).trans ?_
  simp [hlines]

theorem no_if_counting :
    ∀ r ∈ counting.routines, ∀ line ∈ liveLines r.text, opensWith "IF" line = false := by
  decide +kernel

theorem uses_counting :
    (Writes counting "Count" ".UP" ∧ Reads counting "Count" ".UP" ∧ Reads counting "Show" ".UP") ∧
    Writes counting "Count" ".LEVEL" ∧ ¬ Reads counting "Count" ".LEVEL" ∧
      Reads counting "Show" ".LEVEL" ∧ ¬ Writes counting "Show" ".LEVEL" := by
  have hcount : Text.splitOn ":=" "COUNT.UP := COUNT.UP + STEP.SIZE;" =
      ["COUNT.UP ", " COUNT.UP + STEP.SIZE;"] := by decide
  have htank : Text.splitOn ":=" "TANK.LEVEL := 5;" = ["TANK.LEVEL ", " 5;"] := by decide
  have hlamp : Text.splitOn ":=" "LAMP.ON := COUNT.UP;" = ["LAMP.ON ", " COUNT.UP;"] := by
    decide
  have hpump : Text.splitOn ":=" "PUMP.RUN := TANK.LEVEL;" = ["PUMP.RUN ", " TANK.LEVEL;"] := by
    decide
  simp only [Writes, Reads, hasLine_count, hasLine_show, ← mem_written,
    readsTag_iff_of_splitOn hcount, readsTag_iff_of_splitOn htank, readsTag_iff_of_splitOn hlamp,
    readsTag_iff_of_splitOn hpump, references, Text.mem_ascending]
  decide

theorem dependencies_eq_dataFlows_iff_counting :
    (counting.routines.map (·.name)).Nodup ∧
      (∀ r ∈ counting.routines, ∀ line ∈ liveLines r.text, opensWith "IF" line = false) ∧
      ⟨"Count", "Show", ".LEVEL"⟩ ∈ dependencies counting ∧
      ¬ ∀ w r tag, ⟨w, r, tag⟩ ∈ dependencies counting ↔ ⟨w, r, tag⟩ ∈ dataFlows counting := by
  obtain ⟨hflows, hdependencies, hsame⟩ :=
    dependencies_eq_dataFlows_iff counting names_counting no_if_counting
  obtain ⟨⟨hwrites, hreads, hshown⟩, hlevel, hunread, hseen, hunwritten⟩ := uses_counting
  refine ⟨names_counting, no_if_counting, ?_, ?_⟩
  · refine (hdependencies _ _ _).2 ⟨?_, hunread, hunwritten⟩
    exact (hflows _ _ _).2 ⟨by decide, hlevel, hseen⟩
  · rw [hsame]
    intro hapart
    exact (hapart "Count" "Show" ".UP" (by decide) hwrites hshown).1 hreads

/-- The first routine writes what the second reads, but since it also reads it there is no
dependency. -/
theorem count_without_dependency :
    (counting.routines.map (·.name)).Nodup ∧
      (∀ r ∈ counting.routines, ∀ line ∈ liveLines r.text, opensWith "IF" line = false) ∧
      ⟨"Count", "Show", ".UP"⟩ ∈ dataFlows counting ∧
      ⟨"Count", "Show", ".UP"⟩ ∉ dependencies counting := by
  obtain ⟨⟨hwrites, hreads, hshown⟩, -⟩ := uses_counting
  refine ⟨names_counting, no_if_counting, ?_, ?_⟩
  · exact (mem_dataFlows_iff names_counting no_if_counting).2 ⟨by decide, hwrites, hshown⟩
  · rw [mem_dependencies_iff names_counting]
    rintro ⟨-, ⟨-, hunread⟩, -⟩
    exact hunread hreads

end Analysis

end ControlLogic
