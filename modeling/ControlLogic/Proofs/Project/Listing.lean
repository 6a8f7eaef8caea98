import ControlLogic.Analysis.Query
import ControlLogic.Project.Listing
import ControlLogic.Proofs.Exchange.Generated
import ControlLogic.Proofs.StructuredText.FirstSection

/-!
# The variables of a listing

A listing has its variables in one section, and a reader takes the first text between `VAR` and
`END_VAR` for it, wherever these letters stand.  So what is read depends on the names in the
sections before.

* `lacks_headLines`: the lines before the variables lack the mark of a section if the names in
  them do (`Unmistaken`).
* `lacks_sectionLines`: the lines of the variables lack the mark that ends them, and
  `lineDeclarations_tagLines` reads the lines of one tag.
* `declarations_of_no_tags`: without tags nothing is declared.
* `declarations_listing`: what is declared are the tags of the controller, in order.
-/

namespace ControlLogic.Project

open Text StructuredText

/-! ## Names -/

/-- The names of a project are words, its tags have distinct names, and nothing is described. -/
structure WordNames (p : Project) : Prop where
  tags : ∀ t ∈ Analysis.allTags p, t.named = true ∧ IsWord t.name ∧ IsWord t.dataType
  dataTypes : ∀ d ∈ p.controller.dataTypes,
    IsWord d.name ∧ ∀ m ∈ d.members, IsWord m.name ∧ IsWord m.dataType
  programs : ∀ q ∈ p.programs, IsWord q.name
  distinct : ((Analysis.allTags p).map (·.name)).Nodup
  undescribed : (∀ t ∈ Analysis.allTags p, t.description = none) ∧
    ∀ q ∈ p.programs, q.description = none ∧ ∀ r ∈ q.routines, r.description = none

/-- The texts of a tag that a listing shows. -/
def Tag.listedTexts (t : Tag) : List String :=
  [t.name, t.dataType] ++ t.initialValue.toList ++ t.externalAccess.toList

/-- No text of a project is mistaken for the mark of a section: what stands before the variables
holds no opening mark, and the variables hold no closing mark and keep to their lines.  Without
variables the first section is that of a program, if there is one. -/
structure Unmistaken (p : Project) : Prop where
  tasks : ∀ line ∈ p.tasks.flatMap taskLines, Lacks openingMark line.toList
  dataTypes : ∀ d ∈ p.controller.dataTypes, Lacks openingMark d.name.toList ∧
    ∀ m ∈ d.members, Lacks openingMark m.name.toList ∧ Lacks openingMark m.dataType.toList
  tags : ∀ t ∈ p.controller.tags, ∀ s ∈ t.listedTexts,
    Lacks closingMark s.toList ∧ '\n' ∉ s.toList
  blocks : p.controller.tags = [] → p.controller.functionBlocks = []
  programs : p.controller.tags = [] → ∀ q ∈ p.programs, ∀ s ∈ q.taskName.toList, ';' ∉ s.toList
  modules : p.controller.tags = [] → p.programs = [] →
    ∀ line ∈ p.modules.flatMap moduleLines, Lacks openingMark line.toList

/-! ## The lines before the variables -/

/-- The lines before the variables. -/
def headLines (p : Project) : List String :=
  ["// Generated Structured Text Code", "// Converted from L5X file"] ++
    (if p.isOverlaid then ["// Enhanced with L5K overlay context"] else []) ++ [""] ++
    headed ["// Task Definitions"] (p.tasks.flatMap taskLines) ++
    headed ["// Data Type Declarations"] (p.controller.dataTypes.flatMap dataTypeLines)

theorem mem_headed {heading lines : List String} {line : String} (h : line ∈ headed heading lines) :
    line ∈ heading ∨ line ∈ lines := by
  rw [headed] at h
  split at h
  · exact absurd h List.not_mem_nil
  · exact List.mem_append.1 h

theorem lacks_dataTypeLines {d : DataType} (hname : Lacks openingMark d.name.toList)
    (hmembers : ∀ m ∈ d.members, Lacks openingMark m.name.toList ∧
      Lacks openingMark m.dataType.toList) :
    ∀ line ∈ dataTypeLines d, Lacks openingMark line.toList := by
  have hspace := (separates_marks ' ' (by simp)).1
  have hsemicolon := (separates_marks ';' (by simp)).1
  have hfixed : ∀ line ∈ ["    STRUCT", "    END_STRUCT;", "END_TYPE", ""],
      Lacks openingMark line.toList := by decide
  have hopening : Lacks openingMark ("TYPE " ++ d.name ++ " :").toList := by
    have hlist : ("TYPE " ++ d.name ++ " :").toList =
        "TYPE".toList ++ ' ' :: (d.name.toList ++ ' ' :: ":".toList) := by simp
    rw [hlist, lacks_append_sep openingMark_ne_nil hspace,
      lacks_append_sep openingMark_ne_nil hspace]
    exact ⟨by decide, hname, by decide⟩
  have hmember : ∀ m ∈ d.members,
      Lacks openingMark ("        " ++ m.name ++ " : " ++ m.dataType ++ ";").toList := by
    intro m hm
    have hlist : ("        " ++ m.name ++ " : " ++ m.dataType ++ ";").toList =
        "       ".toList ++ ' ' :: (m.name.toList ++ ' ' :: (":".toList ++
          ' ' :: (m.dataType.toList ++ ';' :: []))) := by simp
    rw [hlist, lacks_append_sep openingMark_ne_nil hspace,
      lacks_append_sep openingMark_ne_nil hspace, lacks_append_sep openingMark_ne_nil hspace,
      lacks_append_sep openingMark_ne_nil hsemicolon]
    exact ⟨by decide, (hmembers m hm).1, by decide, (hmembers m hm).2, rfl⟩
  intro line hline
  simp only [dataTypeLines, List.mem_append, List.mem_cons, List.mem_map, List.not_mem_nil,
    or_false] at hline
  rcases hline with ((rfl | rfl) | ⟨m, hm, rfl⟩) | rfl | rfl | rfl
  · exact hopening
  · exact hfixed _ (by simp)
  · exact hmember m hm
  all_goals exact hfixed _ (by simp)

theorem lacks_headLines {p : Project} (h : p.Unmistaken) :
    ∀ line ∈ p.headLines, Lacks openingMark line.toList := by
  have hfirst : ∀ line ∈ ["// Generated Structured Text Code", "// Converted from L5X file"],
      Lacks openingMark line.toList := by decide
  have hoverlaid : Lacks openingMark "// Enhanced with L5K overlay context".toList := by decide
  have htasks : Lacks openingMark "// Task Definitions".toList := by decide
  have htypes : Lacks openingMark "// Data Type Declarations".toList := by decide
  intro line hline
  simp only [headLines, List.mem_append] at hline
  rcases hline with (((hline | hline) | hline) | hline) | hline
  · exact hfirst line hline
  · split at hline
    · exact List.mem_singleton.1 hline ▸ hoverlaid
    · exact absurd hline List.not_mem_nil
  · rw [List.mem_singleton.1 hline]
    rfl
  · rcases mem_headed hline with hline | hline
    · exact List.mem_singleton.1 hline ▸ htasks
    · exact h.tasks line hline
  · rcases mem_headed hline with hline | hline
    · exact List.mem_singleton.1 hline ▸ htypes
    · obtain ⟨d, hd, hline⟩ := List.mem_flatMap.1 hline
      exact lacks_dataTypeLines (h.dataTypes d hd).1 (h.dataTypes d hd).2 line hline

/-! ## The section of the variables -/

/-- The lines behind the variables. -/
def tailLines (p : Project) : List String :=
  headed ["// Function Blocks"] (p.controller.functionBlocks.flatMap functionBlockLines) ++
    p.programs.flatMap programLines ++
    headed ["// Module Configuration"] (p.modules.flatMap moduleLines)

theorem listingLines_of_tags {p : Project} (h : p.controller.tags ≠ []) :
    p.listingLines = p.headLines ++ (("// Variable Declarations" :: "VAR" ::
      p.controller.tags.flatMap tagLines) ++ ("END_VAR" :: "" :: p.tailLines)) := by
  have hempty : p.controller.tags.isEmpty = false := by simpa using h
  simp [listingLines, headLines, tailLines, hempty]

theorem listingLines_of_no_tags {p : Project} (h : p.controller.tags = []) :
    p.listingLines = p.headLines ++ p.tailLines := by
  simp [listingLines, headLines, tailLines, h]

/-- The lines that a reader takes for the section: the first of them is the end of a remark. -/
def sectionLines (p : Project) : List String :=
  ["iable Declarations", "VAR"] ++ p.controller.tags.flatMap tagLines

/-- The initial value that is written for a tag. -/
def Tag.listedValue (t : Tag) : Option String := t.initialValue.filter (!Text.isEmpty ·)

/-- A named tag without description is a declaration, and maybe a remark. -/
theorem tagLines_eq {t : Tag} (hnamed : t.named = true) (hdescription : t.description = none) :
    tagLines t = ("    " ++ writtenDeclaration t.name t.dataType t.listedValue) ::
      lineWith "    // External Access: " t.externalAccess := by
  have hinitial : (if hasText t.initialValue then " := " ++ t.initialValue.getD "" else "") =
      (t.listedValue.map (" := " ++ ·)).getD "" := by
    cases hvalue : t.initialValue with
    | none => simp [Tag.listedValue, hvalue, hasText]
    | some v =>
      cases hv : Text.isEmpty v <;>
        simp [Tag.listedValue, hvalue, hasText, Option.filter, hv]
  simp only [tagLines, hinitial, hdescription, Tag.writtenName, hnamed]
  simp [writtenDeclaration, lineWith, hasText, String.append_assoc]

theorem lacks_writtenDeclaration {name type : String} {initial : Option String}
    (h : ∀ s ∈ [name, type] ++ initial.toList, Lacks closingMark s.toList) :
    Lacks closingMark ("    " ++ writtenDeclaration name type initial).toList := by
  have hspace := (separates_marks ' ' (by simp)).2
  have hsemicolon := (separates_marks ';' (by simp)).2
  have hfixed : ∀ s ∈ ["   ", ":", ":=", ""], Lacks closingMark s.toList := by decide
  have hname := h name (by simp)
  have htype := h type (by simp)
  have hempty : Lacks closingMark [] := rfl
  cases initial with
  | none =>
    have hlist : ("    " ++ writtenDeclaration name type none).toList =
        "   ".toList ++ ' ' :: (name.toList ++ ' ' :: (":".toList ++
          ' ' :: (type.toList ++ ';' :: []))) := by simp [writtenDeclaration]
    simp only [hlist, lacks_append_sep closingMark_ne_nil hspace,
      lacks_append_sep closingMark_ne_nil hsemicolon]
    exact ⟨hfixed _ (by simp), hname, hfixed _ (by simp), htype, hempty⟩
  | some v =>
    have hlist : ("    " ++ writtenDeclaration name type (some v)).toList =
        "   ".toList ++ ' ' :: (name.toList ++ ' ' :: (":".toList ++
          ' ' :: (type.toList ++ ' ' :: (":=".toList ++ ' ' :: (v.toList ++ ';' :: []))))) := by
      simp [writtenDeclaration]
    simp only [hlist, lacks_append_sep closingMark_ne_nil hspace,
      lacks_append_sep closingMark_ne_nil hsemicolon]
    exact ⟨hfixed _ (by simp), hname, hfixed _ (by simp), htype, hfixed _ (by simp),
      h v (by simp), hempty⟩

theorem newline_not_mem_writtenDeclaration {name type : String} {initial : Option String}
    (h : ∀ s ∈ [name, type] ++ initial.toList, '\n' ∉ s.toList) :
    '\n' ∉ ("    " ++ writtenDeclaration name type initial).toList := by
  cases initial <;> simp_all [writtenDeclaration]

/-- The remark of a tag is made of a fixed text and of one that the tag gives. -/
theorem exists_of_mem_lineWith {lead line : String} {t : Option String}
    (h : line ∈ lineWith lead t) : ∃ s ∈ t.toList, line = lead ++ s := by
  rw [lineWith] at h
  cases t with
  | none => exact absurd h List.not_mem_nil
  | some s =>
    split at h
    · exact ⟨s, by simp, List.mem_singleton.1 h⟩
    · exact absurd h List.not_mem_nil

/-- The lines of a tag lack the closing mark and are single lines if its texts do. -/
theorem lacks_tagLines {t : Tag} (hnamed : t.named = true) (hdescription : t.description = none)
    (h : ∀ s ∈ t.listedTexts, Lacks closingMark s.toList ∧ '\n' ∉ s.toList) :
    ∀ line ∈ tagLines t, Lacks closingMark line.toList ∧ '\n' ∉ line.toList := by
  have hlisted : ∀ s ∈ [t.name, t.dataType] ++ t.listedValue.toList, s ∈ t.listedTexts := by
    intro s hs
    rcases List.mem_append.1 hs with hs | hs
    · exact List.mem_append_left _ (List.mem_append_left _ hs)
    · rw [Option.mem_toList, Tag.listedValue, Option.filter_eq_some_iff] at hs
      exact List.mem_append_left _ (List.mem_append_right _ (Option.mem_toList.2 hs.1))
  intro line hline
  rw [tagLines_eq hnamed hdescription, List.mem_cons] at hline
  rcases hline with rfl | hline
  · exact ⟨lacks_writtenDeclaration fun s hs => (h s (hlisted s hs)).1,
      newline_not_mem_writtenDeclaration fun s hs => (h s (hlisted s hs)).2⟩
  · obtain ⟨s, hs, rfl⟩ := exists_of_mem_lineWith hline
    have htext := h s (List.mem_append_right _ hs)
    have hlist : ("    // External Access: " ++ s).toList =
        "    // External Access:".toList ++ ' ' :: s.toList := by simp
    rw [hlist, lacks_append_sep closingMark_ne_nil (separates_marks ' ' (by simp)).2]
    exact ⟨⟨by decide, htext.1⟩, by simpa using htext.2⟩

theorem lacks_sectionLines {p : Project} (hwords : p.WordNames) (h : p.Unmistaken) :
    ∀ line ∈ p.sectionLines, Lacks closingMark line.toList ∧ '\n' ∉ line.toList := by
  have hfixed : ∀ line ∈ ["iable Declarations", "VAR"],
      Lacks closingMark line.toList ∧ '\n' ∉ line.toList := by decide
  intro line hline
  rw [sectionLines, List.mem_append] at hline
  rcases hline with hline | hline
  · exact hfixed line hline
  · obtain ⟨t, ht, hline⟩ := List.mem_flatMap.1 hline
    have hall : t ∈ Analysis.allTags p := List.mem_append_left _ ht
    exact lacks_tagLines (hwords.tags t hall).1 (hwords.undescribed.1 t hall) (h.tags t ht) line
      hline

/-! ## What is declared -/

/-- A tag as it is declared. -/
def Tag.declaration (t : Tag) : Declaration :=
  ⟨t.name, t.dataType, none, t.listedValue.map readValue⟩

theorem lineDeclarations_tagLines {t : Tag} (hnamed : t.named = true) (hname : IsWord t.name)
    (htype : IsWord t.dataType) (hdescription : t.description = none) :
    lineDeclarations (tagLines t) = [t.declaration] := by
  have hremark : lineDeclarations (lineWith "    // External Access: " t.externalAccess) = [] := by
    rw [lineWith]
    split
    · exact lineDeclarations_remark (" External Access: " ++ _)
    · rfl
  rw [tagLines_eq hnamed hdescription, ← List.singleton_append, lineDeclarations_append,
    lineDeclarations_written t.listedValue hname htype, hremark]
  rfl

/-- With tags, the tags of the controller are declared. -/
theorem declarations_of_tags {p : Project} (hwords : p.WordNames) (h : p.Unmistaken)
    (htags : p.controller.tags ≠ []) :
    declarations p.listing = p.controller.tags.map Tag.declaration := by
  have hremark : breakKeyword? openingMark "// Variable Declarations".toList =
      some ("// ".toList, "iable Declarations".toList) := by decide
  have hlisting : declarations p.listing = lineDeclarations p.sectionLines := by
    rw [listing, listingLines_of_tags htags]
    exact declarations_join (by simp [headLines]) (lacks_headLines h) hremark
      ⟨'i', _, rfl, by decide⟩ (lacks_sectionLines hwords h) (List.cons_ne_nil _ _)
  have hfixed : lineDeclarations ["iable Declarations", "VAR"] = [] :=
    lineDeclarations_eq_nil (by decide)
  have htag : ∀ t ∈ p.controller.tags, lineDeclarations (tagLines t) = [t.declaration] := by
    intro t ht
    have hall : t ∈ Analysis.allTags p := List.mem_append_left _ ht
    obtain ⟨hnamed, hname, htype⟩ := hwords.tags t hall
    exact lineDeclarations_tagLines hnamed hname htype (hwords.undescribed.1 t hall)
  rw [hlisting, sectionLines, lineDeclarations_append, hfixed, List.nil_append,
    lineDeclarations_flatMap, List.flatMap_congr htag, List.map_eq_flatMap]

/-! ## Projects without tags -/

/-- The lines of a program before the end of its section. -/
def openingLines (q : Program) : List String :=
  ["// Program: " ++ q.name] ++ lineWith "// Description: " q.description ++
    lineWith "// Associated Task: " q.taskName ++
    ["PROGRAM " ++ q.name, "VAR", "    // Program variables declared above"]

theorem semicolon_not_mem_openingLines {q : Program} (hname : IsWord q.name)
    (hdescription : q.description = none) (htask : ∀ s ∈ q.taskName.toList, ';' ∉ s.toList) :
    ∀ line ∈ openingLines q, ';' ∉ line.toList := by
  have hword : ';' ∉ q.name.toList := fun hx => absurd (hname.2 _ hx) (by decide)
  intro line hline
  simp only [openingLines, hdescription, List.mem_append] at hline
  rcases hline with ((hline | hline) | hline) | hline
  · simp [List.mem_singleton.1 hline, hword]
  · obtain ⟨s, hs, -⟩ := exists_of_mem_lineWith hline
    exact absurd hs List.not_mem_nil
  · obtain ⟨s, hs, rfl⟩ := exists_of_mem_lineWith hline
    simp [htask s hs]
  · simp only [List.mem_cons, List.not_mem_nil, or_false] at hline
    rcases hline with rfl | rfl | rfl
    · simp [hword]
    · decide
    · decide

/-- Without tags and programs no section begins. -/
theorem lacks_tailLines {p : Project} (h : p.Unmistaken) (htags : p.controller.tags = [])
    (hprograms : p.programs = []) : ∀ line ∈ p.tailLines, Lacks openingMark line.toList := by
  have hheading : Lacks openingMark "// Module Configuration".toList := by decide
  intro line hline
  simp only [tailLines, h.blocks htags, hprograms, List.flatMap_nil, List.append_nil,
    List.mem_append] at hline
  rcases hline with hline | hline
  · exact absurd hline List.not_mem_nil
  · rcases mem_headed hline with hline | hline
    · exact List.mem_singleton.1 hline ▸ hheading
    · exact h.modules htags hprograms line hline

/-- Without tags nothing is declared. -/
theorem declarations_of_no_tags {p : Project} (hwords : p.WordNames) (h : p.Unmistaken)
    (htags : p.controller.tags = []) : declarations p.listing = [] := by
  rw [listing, listingLines_of_no_tags htags]
  cases hprograms : p.programs with
  | nil =>
    have hlacks : Lacks openingMark (join "\n" (p.headLines ++ p.tailLines)).toList := by
      rw [lacks_join openingMark_ne_nil (separates_marks '\n' (by simp)).1]
      exact List.forall_mem_append.2 ⟨lacks_headLines h, lacks_tailLines h htags hprograms⟩
    rw [declarations, variableSection?_eq, hlacks]
    rfl
  | cons q rest =>
    have hq : q ∈ p.programs := by rw [hprograms]; exact List.mem_cons_self
    have hmark : ¬ Lacks openingMark "VAR".toList := by decide
    obtain ⟨more, htail⟩ : ∃ more, p.tailLines = openingLines q ++ "END_VAR" :: "" :: more := by
      simp only [tailLines, h.blocks htags, hprograms, List.flatMap_cons, programLines,
        openingLines, List.append_assoc, List.cons_append, List.nil_append]
      exact ⟨_, rfl⟩
    rw [htail]
    exact declarations_eq_nil (by simp [headLines]) (lacks_headLines h)
      ⟨"VAR", by simp [openingLines], hmark⟩
      (semicolon_not_mem_openingLines (hwords.programs q hq) (hwords.undescribed.2 q hq).1
        (h.programs htags q hq)) (List.cons_ne_nil _ _)

/-- What a listing declares are the tags of the controller, in order. -/
theorem declarations_listing {p : Project} (hwords : p.WordNames) (h : p.Unmistaken) :
    declarations p.listing = p.controller.tags.map Tag.declaration := by
  by_cases htags : p.controller.tags = []
  · rw [declarations_of_no_tags hwords h htags, htags, List.map_nil]
  · exact declarations_of_tags hwords h htags

/-! ## Reading a listing -/

/-- The variables that are read from a listing are the tags of the controller, in order, each with
its type and value.  So they are all tags of the project exactly if no program has any. -/
theorem vars_of_listing {p : Project} (hwords : p.WordNames) (h : p.Unmistaken) :
    let vars := (Exchange.readProgram Table.empty p.listing).vars
    vars.entries.map (·.2.declaration) = p.controller.tags.map Tag.declaration ∧
      vars.keys = p.controller.tags.map (·.name) ∧
      (vars.keys = (Analysis.allTags p).map (·.name) ↔ ∀ q ∈ p.programs, q.tags = []) := by
  have hdeclared := declarations_listing hwords h
  have hnames : ((declarations p.listing).map (·.name)) = p.controller.tags.map (·.name) := by
    rw [hdeclared, List.map_map]
    rfl
  have hnodup : (p.controller.tags.map (·.name)).Nodup := by
    have hdistinct := hwords.distinct
    rw [Analysis.allTags, List.map_append] at hdistinct
    exact (List.nodup_append.1 hdistinct).1
  have hentries : (Exchange.readProgram Table.empty p.listing).vars.entries =
      (declarations p.listing).map fun d => (d.name, ⟨d, none⟩) := by
    rw [Exchange.vars_readProgram]
    refine Table.entries_ofList ?_
    rwa [List.map_map, Function.comp_def, hnames]
  have hkeys : (Exchange.readProgram Table.empty p.listing).vars.keys =
      p.controller.tags.map (·.name) := by
    rw [Table.keys, hentries, List.map_map, ← hnames]
    rfl
  refine ⟨?_, hkeys, ?_⟩
  · rw [hentries, List.map_map, ← hdeclared]
    exact List.map_id _
  · rw [hkeys, Analysis.allTags, List.map_append, List.self_eq_append_right, List.map_eq_nil_iff,
      List.flatMap_eq_nil_iff]

/-- A station with a type of one member, and with one program. -/
def driveStation (member : String) (tags : List Tag) : Project where
  controller := {
    name := "Station"
    tags := [{
      name := "Level", dataType := "REAL", scope := .controller, initialValue := some "1.5" }]
    dataTypes := [{ name := "Drive", members := [{ name := member, dataType := "REAL" }] }] }
  programs := [{ name := "Main", tags }]

/-- A tag of a program. -/
def countTag : Tag := { name := "Count", dataType := "DINT", scope := .program }

theorem wordNames_driveStation {member : String} (hmember : IsWord member) :
    (driveStation member [countTag]).WordNames where
  tags := by
    have hwords : ∀ t ∈ Analysis.allTags (driveStation member [countTag]),
        t.named = true ∧ IsWord t.name ∧ IsWord t.dataType := by
      simp only [Analysis.allTags, driveStation, countTag, List.flatMap_cons, List.flatMap_nil,
        List.cons_append, List.nil_append, List.forall_mem_cons]
      decide
    exact hwords
  dataTypes := by
    have hfixed : IsWord "Drive" ∧ IsWord "REAL" := by decide
    intro d hd
    obtain rfl := List.mem_singleton.1 hd
    refine ⟨hfixed.1, fun m hm => ?_⟩
    obtain rfl := List.mem_singleton.1 hm
    exact ⟨hmember, hfixed.2⟩
  programs := by
    have hfixed : IsWord "Main" := by decide
    intro q hq
    obtain rfl := List.mem_singleton.1 hq
    exact hfixed
  distinct := by
    simp [Analysis.allTags, driveStation, countTag]
  undescribed := by
    simp [Analysis.allTags, driveStation, countTag]

theorem unmistaken_driveStation (tags : List Tag) : (driveStation "Speed" tags).Unmistaken where
  tasks := List.forall_mem_nil _
  dataTypes := by
    intro d hd
    obtain rfl := List.mem_singleton.1 hd
    refine ⟨by decide, fun m hm => ?_⟩
    obtain rfl := List.mem_singleton.1 hm
    decide
  tags := by
    intro t ht
    obtain rfl := List.mem_singleton.1 ht
    simp only [Tag.listedTexts]
    decide
  blocks := fun _ => rfl
  programs := by simp [driveStation]
  modules := fun _ _ line hline => absurd hline List.not_mem_nil

theorem vars_of_listing_driveStation :
    (driveStation "Speed" [countTag]).WordNames ∧ (driveStation "Speed" [countTag]).Unmistaken ∧
      (Exchange.readProgram Table.empty (driveStation "Speed" [countTag]).listing).vars.keys =
        ["Level"] ∧
      (Exchange.readProgram Table.empty (driveStation "Speed" [countTag]).listing).vars.keys ≠
        (Analysis.allTags (driveStation "Speed" [countTag])).map (·.name) := by
  have hwords : (driveStation "Speed" [countTag]).WordNames :=
    wordNames_driveStation (by decide)
  have hmarks := unmistaken_driveStation [countTag]
  obtain ⟨-, hkeys, hexact⟩ := vars_of_listing hwords hmarks
  refine ⟨hwords, hmarks, hkeys, fun heq => ?_⟩
  have hempty := hexact.1 heq _ (List.mem_cons_self)
  exact absurd hempty (List.cons_ne_nil countTag [])

/-- The section of a station is taken to begin within its type. -/
theorem declarations_driveStation :
    declarations (driveStation "VarSpeed" [countTag]).listing =
      lineDeclarations ["Speed : REAL;", "    END_STRUCT;", "END_TYPE", "",
        "// Variable Declarations", "VAR", "    Level : REAL := 1.5;"] := by
  have hmember : breakKeyword? openingMark "        VarSpeed : REAL;".toList =
      some ("        ".toList, "Speed : REAL;".toList) := by decide
  have hbefore : ∀ line ∈ ["// Generated Structured Text Code", "// Converted from L5X file", "",
      "// Data Type Declarations", "TYPE Drive :", "    STRUCT"],
      Lacks openingMark line.toList := by decide
  have hlines : (driveStation "VarSpeed" [countTag]).listingLines =
      ["// Generated Structured Text Code", "// Converted from L5X file", "",
        "// Data Type Declarations", "TYPE Drive :", "    STRUCT"] ++ "        VarSpeed : REAL;" ::
      (["    END_STRUCT;", "END_TYPE", "", "// Variable Declarations", "VAR",
        "    Level : REAL := 1.5;"] ++ "END_VAR" :: ["", "// Program: Main", "PROGRAM Main", "VAR",
        "    // Program variables declared above", "END_VAR", "", "END_PROGRAM", ""]) := by
    decide
  rw [listing, hlines]
  exact declarations_join (List.cons_ne_nil _ _) hbefore hmember ⟨'S', _, rfl, by decide⟩
    (by decide) (List.cons_ne_nil _ _)

/-- A tag is lost and a variable invented: the tag of the program is not listed, and the member of
the type is read as the variable `Speed`. -/
theorem tag_lost_and_invented :
    (driveStation "VarSpeed" [countTag]).WordNames ∧
      (Analysis.allTags (driveStation "VarSpeed" [countTag])).map (·.name) = ["Level", "Count"] ∧
      (Exchange.readProgram Table.empty (driveStation "VarSpeed" [countTag]).listing).vars.keys =
        ["Speed", "Level"] := by
  refine ⟨wordNames_driveStation (by decide), rfl, ?_⟩
  rw [Exchange.vars_readProgram, declarations_driveStation]
  decide

end ControlLogic.Project
