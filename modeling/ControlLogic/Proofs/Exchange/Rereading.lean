import ControlLogic.Proofs.Exchange.ProjectDocument
import ControlLogic.Proofs.Project.Fidelity

/-!
# Projects after a second reading

A project is written as a document and the document is read, by any opener.  How much of the
project is found again?  All data types are, member by member.  Of the rest only the programs with
tags are: no tag and no function block comes back.  Since nothing at all is read unless there is a
tag, the fidelity (`fidelity_of_comesBackAs`) is always less than one.
-/

namespace ControlLogic

namespace Project

/-- No two controller tags have the same name, and no two data types or programs. -/
structure DistinctNames (p : Project) : Prop where
  tags : (p.controller.tags.map (·.name)).Nodup
  dataTypes : (p.controller.dataTypes.map (·.name)).Nodup
  programs : (p.programs.map (·.name)).Nodup

/-- What comes back of a project is its data types and the programs that are listed. -/
theorem fidelity_of_comesBackAs {p q : Project} (h : p.DistinctNames) (hq : p.ComesBackAs q) :
    p.fidelity q =
      ⟨p.controller.dataTypes.length + (p.programs.filter Program.isListed).length,
        p.controller.tags.length + p.controller.dataTypes.length + p.programs.length⟩ := by
  have hkeys : (p.controller.tags.map Tag.key).Nodup := by
    refine List.Nodup.of_map Prod.snd ?_
    rw [List.map_map]
    exact h.tags
  have htags := share_map_filter (fun a b : Tag => a.dataType == b.dataType && a.scope == b.scope)
    hkeys (fun _ => false) id (fun _ => rfl) fun _ _ => by simp
  have htypes := share_map_filter (fun a b : DataType => a.members.length == b.members.length)
    h.dataTypes (fun _ => true) DataType.kept (fun _ => rfl) fun _ _ => by simp [DataType.kept]
  have hprograms := share_map_filter
    (fun a b : Program => a.routines.length == b.routines.length)
    h.programs Program.isListed Program.reread (fun _ => rfl) fun _ _ => by simp [Program.reread]
  rw [List.filter_false, List.map_nil, List.length_nil] at htags
  rw [List.filter_true] at htypes
  simp only [fidelity, hq.controller, hq.programs, Controller.reread, htags, htypes, hprograms,
    Share.add, Nat.zero_add]

end Project

namespace Exchange

open Project

/-- A station with a tag, a data type and a function block.  One of its two programs has a
tag. -/
def pumpStation (radix : Option String) : Project where
  controller := {
    name := "Station"
    tags := [{ name := "Level", dataType := "REAL", scope := .controller }]
    dataTypes := [{
      name := "Pump"
      baseType := some "Device"
      members := [
        { name := "Run", dataType := "BOOL", description := some "on & \"off\"\n", radix }] }]
    functionBlocks := [{
      name := "Valve"
      parameters := [{ name := "Open", dataType := "BOOL", kind := "Input" }] }] }
  programs := [
    { name := "Drain"
      tags := [{ name := "Speed", dataType := "REAL", scope := .program }]
      routines := [{ name := "Main", language := .st, content := some "Speed := Level;" }] },
    { name := "Idle" }]

/-- A place with the document of a station alone. -/
def stationFiles (radix : Option String) : Files :=
  Table.empty.insert "plc.L5X" (.text (projectElement (pumpStation radix)).render)

theorem distinctNames_pumpStation (radix : Option String) : (pumpStation radix).DistinctNames :=
  ⟨List.nodup_singleton _, List.nodup_singleton _, show ["Drain", "Idle"].Nodup by decide⟩

theorem load_pumpStation {radix : Option String} (hlegal : (pumpStation radix).Legal) :
    ∃ q, load Document.opener (stationFiles radix) "plc.L5X" none = .ok q ∧
      (pumpStation radix).ComesBackAs q :=
  (load_projectText Document.documented_opener hlegal (distinctNames_pumpStation radix).programs
    rfl rfl).2 (List.cons_ne_nil _ _) (List.cons_ne_nil _ _)

/-- The project of a document that was written from a project has the same data types in the
same order: each with its name and base type, and with its members in order, each with its name,
type, description, radix and access.  What was empty is absent. -/
theorem dataTypes_of_load {opener : Opener} (hopener : opener.HandsOutController) {p q : Project}
    (hlegal : p.Legal) {files : Files} {path text : String}
    (htext : projectText p = .ok text) (hfile : files.content path = .ok (.text text))
    (hload : load opener files path none = .ok q) :
    q.controller.dataTypes = p.controller.dataTypes.map DataType.kept := by
  obtain ⟨hdocument, hchild⟩ := holdsDocument_projectText hlegal htext hfile
  obtain ⟨s, hs, hproject⟩ := exists_opened_of_load hload
  have helement := hopener.element hdocument hchild hs
  obtain ⟨tags, -, hcontroller⟩ := exists_of_bind_eq_ok (of_project_eq_ok hproject).1
  rw [← Except.ok.inj hcontroller]
  exact dataTypes_of_element helement

theorem dataTypes_of_load_pumpStation :
    ∃ q, load Document.opener (stationFiles (some "")) "plc.L5X" none = .ok q ∧
      q.controller.dataTypes = [{
        name := "Pump"
        baseType := some "Device"
        members := [
          { name := "Run", dataType := "BOOL", description := some "on & \"off\"\n" }] }] := by
  have hlegal : (pumpStation (some "")).Legal := by decide
  obtain ⟨q, hload, -⟩ := load_pumpStation hlegal
  refine ⟨q, hload, ?_⟩
  rw [dataTypes_of_load Document.documented_opener.handsOutController hlegal rfl rfl hload]
  decide

/-- A project is read from the document of a project exactly if that has controller tags and
programs.  It holds the data types and the programs with tags whose names can be looked up, but
no tag and no function block, so that the two are never wholly alike. -/
theorem fidelity_of_load {opener : Opener} (hopener : opener.Documented) {p : Project}
    (hlegal : p.Legal) (hnames : p.DistinctNames) {files : Files} {path text : String}
    (htext : projectText p = .ok text) (hfile : files.content path = .ok (.text text)) :
    ((∃ q, load opener files path none = .ok q) ↔ p.controller.tags ≠ [] ∧ p.programs ≠ []) ∧
    ∀ q, load opener files path none = .ok q →
      p.fidelity q =
        ⟨p.controller.dataTypes.length + (p.programs.filter Program.isListed).length,
          p.controller.tags.length + p.controller.dataTypes.length + p.programs.length⟩ ∧
      (p.fidelity q).ratio < 1 ∧ q.controller.tags = [] ∧ q.controller.functionBlocks = [] := by
  obtain ⟨hfails, hreads⟩ := load_projectText hopener hlegal hnames.programs htext hfile
  by_cases hempty : p.controller.tags = [] ∨ p.programs = []
  · obtain ⟨f, hload⟩ := hfails hempty
    rw [hload]
    refine ⟨⟨?_, fun h => absurd hempty (not_or.2 h)⟩, ?_⟩
    · rintro ⟨q, hq⟩
      cases hq
    · intro q hq
      cases hq
  · obtain ⟨htags, hprograms⟩ := not_or.1 hempty
    obtain ⟨q, hload, hback⟩ := hreads htags hprograms
    rw [hload]
    refine ⟨⟨fun _ => ⟨htags, hprograms⟩, fun _ => ⟨_, rfl⟩⟩, fun q hq => ?_⟩
    cases hq
    have hfidelity := fidelity_of_comesBackAs hnames hback
    refine ⟨hfidelity, Share.ratio_lt_one ?_, ?_, ?_⟩
    · have hpos := List.length_pos_iff.2 htags
      have hlisted := List.length_filter_le Program.isListed p.programs
      rw [hfidelity]
      change _ + _ < _ + _ + _
      omega
    · rw [hback.controller]
      rfl
    · rw [hback.controller]
      rfl

theorem fidelity_of_load_pumpStation :
    ∃ q, load Document.opener (stationFiles none) "plc.L5X" none = .ok q ∧
      (pumpStation none).fidelity q = ⟨2, 4⟩ ∧ ((pumpStation none).fidelity q).ratio < 1 ∧
      q.controller.tags = [] ∧ q.controller.functionBlocks = [] := by
  have hlegal : (pumpStation none).Legal := by decide
  have hfile : (stationFiles none).content "plc.L5X" =
      .ok (.text (projectElement (pumpStation none)).render) := rfl
  obtain ⟨hreads, hread⟩ :=
    fidelity_of_load Document.documented_opener hlegal (distinctNames_pumpStation none) rfl hfile
  obtain ⟨q, hq⟩ := hreads.2 ⟨List.cons_ne_nil _ _, List.cons_ne_nil _ _⟩
  exact ⟨q, hq, hread q hq⟩

/-- Half of the station is lost: its tag and the program without tags, and its function block. -/
theorem tag_and_block_lost :
    ∃ q, load Document.opener (stationFiles none) "plc.L5X" none = .ok q ∧
      ((pumpStation none).fidelity q).ratio = 1 / 2 ∧
      (pumpStation none).controller.functionBlocks.map (·.name) = ["Valve"] ∧
      q.controller.functionBlocks = [] := by
  obtain ⟨q, hload, hback⟩ := load_pumpStation (by decide : (pumpStation none).Legal)
  refine ⟨q, hload, ?_, rfl, ?_⟩
  · rw [fidelity_of_comesBackAs (distinctNames_pumpStation none) hback]
    decide +kernel
  · rw [hback.controller]
    rfl

end Exchange

end ControlLogic
