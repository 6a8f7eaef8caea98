import ControlLogic.Exchange.Document
import ControlLogic.Proofs.Exchange.Opener
import ControlLogic.Proofs.Overlay.Additions
import ControlLogic.Proofs.Plant.Conflicts

/-!
# The types of tags

A source declares types for its tags.  The project that is read from the source gives a tag
another: the type that the text of the declared type would have as a value.  A text that is
neither a numeral nor a truth value counts as a string, and so does nearly every type.  All this
is said of any source; a document is one.

* `valueType_eq_self_iff`: only the type of strings stays as it is.
* `exists_mem_readTags` and `dataType_of_mem_readTags`: the tags of one scope and their types.
* `exists_project_of_projectWith`: an overlay leaves the types of the tags it finds.
* `Plant.exists_of_mem_conflicts` then leaves no conflict in the types of a plant.
-/

namespace ControlLogic.Exchange

open Markup StructuredText Overlay

/-! ## The type of a text -/

/-- A text that is no value: neither a numeral nor a truth value. -/
def IsTypeName (s : String) : Prop :=
  Text.isNumeral s = false ∧ Text.upper s ∉ ["TRUE", "FALSE", "1", "0"]

instance (s : String) : Decidable (IsTypeName s) := inferInstanceAs (Decidable (_ ∧ _))

theorem valueType_of_isTypeName {s : String} (h : IsTypeName s) : valueType s = "STRING" := by
  rw [valueType, h.1, if_neg Bool.false_ne_true, if_neg (by simpa using h.2)]

theorem valueType_mem (s : String) : valueType s ∈ ["REAL", "INT", "BOOL", "STRING"] := by
  rw [valueType]
  split
  · split <;> decide
  · split <;> decide

/-- Only the type of strings stays as it is. -/
theorem valueType_eq_self_iff {s : String} : valueType s = s ↔ s = "STRING" := by
  constructor
  · intro h
    have hmem := valueType_mem s
    rw [h] at hmem
    simp only [List.mem_cons, List.not_mem_nil, or_false] at hmem
    rcases hmem with rfl | rfl | rfl | hs
    · exact absurd h (by decide)
    · exact absurd h (by decide)
    · exact absurd h (by decide)
    · exact hs
  · rintro rfl
    decide

/-! ## The tags of one scope -/

/-- The scope lists a tag under a name, and the tag has a declared type. -/
def ScopeSource.Declares (s : ScopeSource) (name type : String) : Prop :=
  ∃ d names t, s.tags = some d ∧ d.names = .ok names ∧ name ∈ names ∧ d.get name = .ok t ∧
    t.dataType = .text type

theorem of_readTag?_eq_some {scope : Project.Scope} {name : String} {s : TagSource}
    {t : Project.Tag} (h : readTag? scope name s = some t) :
    t.name = name ∧ t.named = true ∧ tagType? s.dataType = some t.dataType := by
  obtain ⟨type, htype, ht⟩ := Option.bind_eq_some_iff.1 h
  cases ht
  exact ⟨rfl, rfl, htype⟩

/-- A tag was read from what is listed under its name. -/
theorem exists_of_mem_readTags {scope : Project.Scope} {d : Directory TagSource}
    {tags : List Project.Tag} (h : readTags scope (some d) = .ok tags) {t : Project.Tag}
    (ht : t ∈ tags) :
    ∃ names s, d.names = .ok names ∧ t.name ∈ names ∧ d.get t.name = .ok s ∧ t.named = true ∧
      tagType? s.dataType = some t.dataType := by
  obtain ⟨entries, hentries, htags⟩ := exists_of_bind_eq_ok h
  cases htags
  obtain ⟨e, he, hread⟩ := List.mem_filterMap.1 ht
  obtain ⟨hname, hnamed, htype⟩ := of_readTag?_eq_some hread
  obtain ⟨⟨names, hnames, hlisted⟩, hget⟩ := (mem_entries hentries).1 he
  rw [hname]
  exact ⟨names, e.2, hnames, hlisted, hget, hnamed, htype⟩

/-- A tag with a declared type is read. -/
theorem exists_mem_readTags {scope : Project.Scope} {s : ScopeSource} {tags : List Project.Tag}
    (h : readTags scope s.tags = .ok tags) {name type : String}
    (hdeclares : s.Declares name type) : ∃ t ∈ tags, t.name = name ∧ t.named = true := by
  obtain ⟨d, names, source, hd, hnames, hlisted, hget, hsource⟩ := hdeclares
  rw [hd] at h
  obtain ⟨entries, hentries, htags⟩ := exists_of_bind_eq_ok h
  cases htags
  have he : (name, source) ∈ entries := (mem_entries hentries).2 ⟨⟨names, hnames, hlisted⟩, hget⟩
  obtain ⟨t, ht⟩ : ∃ t, readTag? scope name source = some t := by
    rw [readTag?, hsource]
    exact ⟨_, rfl⟩
  obtain ⟨hname, hnamed, -⟩ := of_readTag?_eq_some ht
  exact ⟨t, List.mem_filterMap.2 ⟨_, he, ht⟩, hname, hnamed⟩

/-- A tag that is read has the type of the text of its declared type. -/
theorem dataType_of_mem_readTags {scope : Project.Scope} {s : ScopeSource}
    {tags : List Project.Tag} (h : readTags scope s.tags = .ok tags) {t : Project.Tag}
    (ht : t ∈ tags) {type : String} (hdeclares : s.Declares t.name type) :
    t.dataType = valueType type := by
  obtain ⟨d, -, source, hd, -, -, hget, hsource⟩ := hdeclares
  rw [hd] at h
  obtain ⟨-, source', -, -, hget', -, htype⟩ := exists_of_mem_readTags h ht
  rw [hget] at hget'
  cases hget'
  rw [hsource] at htype
  exact (Option.some.inj htype).symm

/-- Where only names of types are declared all tags are strings. -/
theorem dataType_eq_string {scope : Project.Scope} {s : ScopeSource} {tags : List Project.Tag}
    (h : readTags scope s.tags = .ok tags)
    (hnames : ∀ name type, s.Declares name type → IsTypeName type) :
    ∀ t ∈ tags, t.dataType = "STRING" := by
  intro t ht
  cases hd : s.tags with
  | none =>
    rw [hd] at h
    cases h
    exact absurd ht List.not_mem_nil
  | some d =>
    rw [hd] at h
    obtain ⟨names, source, hlisting, hlisted, hget, -, htype⟩ := exists_of_mem_readTags h ht
    cases hsource : source.dataType with
    | missing =>
      rw [hsource] at htype
      exact (Option.some.inj htype).symm.trans (valueType_of_isTypeName (by decide))
    | empty =>
      rw [hsource] at htype
      cases htype
    | text type =>
      rw [hsource] at htype
      have hname := hnames t.name type ⟨d, names, source, hd, hlisting, hlisted, hget, hsource⟩
      exact (Option.some.inj htype).symm.trans (valueType_of_isTypeName hname)

/-! ## Sources -/

/-- The program of a source with a name. -/
def ProjectSource.HasProgram (s : ProjectSource) (name : String) (scope : ScopeSource) : Prop :=
  ∃ d, s.programs = some d ∧ d.get name = .ok scope

/-- The tags of the controller that was read are those of its scope. -/
theorem tags_of_controller {s : ProjectSource} {p : Project} (h : s.project = .ok p) :
    readTags .controller s.controller.tags = .ok p.controller.tags := by
  obtain ⟨tags, htags, hcontroller⟩ := exists_of_bind_eq_ok (of_project_eq_ok h).1
  rw [← Except.ok.inj hcontroller]
  exact htags

/-- The tags of a program that was read are those of its scope. -/
theorem tags_of_mem_programs {s : ProjectSource} {p : Project} (h : s.project = .ok p)
    {q : Project.Program} (hq : q ∈ p.programs) {scope : ScopeSource}
    (hscope : s.HasProgram q.name scope) : readTags .program scope.tags = .ok q.tags := by
  obtain ⟨d, hd, hget⟩ := hscope
  have hprograms := (of_project_eq_ok h).2
  rw [hd] at hprograms
  obtain ⟨entries, hentries, hread⟩ := exists_of_bind_eq_ok hprograms
  rw [← Except.ok.inj hread] at hq
  obtain ⟨e, he, hprogram⟩ := List.mem_filterMap.1 hq
  obtain ⟨tags, htags, hprogram⟩ := Option.bind_eq_some_iff.1 hprogram
  cases hprogram
  have hget' := ((mem_entries hentries).1 he).2
  rw [hget] at hget'
  cases hget'
  cases hscope : readTags .program e.2.tags with
  | error f =>
    rw [hscope] at htags
    cases htags
  | ok tags' =>
    rw [hscope] at htags
    exact congrArg Except.ok (Option.some.inj htags)

/-- With an overlay or without, a project comes from the project of the source. -/
theorem exists_project_of_projectWith {s : ProjectSource} {files : Files}
    {overlay : Option String} {p : Project} (h : s.projectWith files overlay = .ok p) :
    ∃ p₀, s.project = .ok p₀ ∧ (p = p₀ ∨ ∃ o : Overlay, p = o.apply p₀) := by
  obtain ⟨p₀, hp₀, h⟩ := exists_of_bind_eq_ok h
  refine ⟨p₀, hp₀, ?_⟩
  cases overlay with
  | none => exact .inl (Except.ok.inj h).symm
  | some path =>
    simp only at h
    split at h
    · exact .inr ⟨_, (Except.ok.inj h).symm⟩
    · exact .inl (Except.ok.inj h).symm

/-- A tag that the controller declares is read, and has the type of the text of its declared
type. -/
theorem dataType_of_controller {s : ProjectSource} {files : Files} {overlay : Option String}
    {p : Project} (hp : s.projectWith files overlay = .ok p) {name type : String}
    (hdeclares : s.controller.Declares name type) :
    (∃ t ∈ p.controller.tags, t.name = name) ∧
      ∀ t ∈ p.controller.tags, t.name = name → t.dataType = valueType type := by
  obtain ⟨p₀, hp₀, hover⟩ := exists_project_of_projectWith hp
  have htags := tags_of_controller hp₀
  have htypes : ∀ t ∈ p₀.controller.tags, t.name = name → t.dataType = valueType type := by
    rintro t ht rfl
    exact dataType_of_mem_readTags htags ht hdeclares
  obtain ⟨u, hu, huname, hunamed⟩ := exists_mem_readTags htags hdeclares
  rcases hover with rfl | ⟨o, rfl⟩
  · exact ⟨⟨u, hu, huname⟩, htypes⟩
  · obtain ⟨kept, added, hrun, hadded⟩ := tags_apply o p₀
    rw [hrun]
    constructor
    · obtain ⟨t, ht, hgrows⟩ := hadded.exists_kept hu
      exact ⟨t, List.mem_append_left _ ht, (TagKept.of_grows hgrows).name.trans huname⟩
    · intro t ht htname
      rcases List.mem_append.1 ht with ht | ht
      · obtain ⟨t₀, ht₀, hgrows⟩ := hadded.exists_old ht
        have hkept := TagKept.of_grows hgrows
        rw [hkept.dataType]
        exact htypes t₀ ht₀ (hkept.name.symm.trans htname)
      · -- a new tag has a name that the source does not declare
        obtain ⟨o', -, hgrows⟩ := hadded.first t ht
        obtain ⟨n, hn, hnew⟩ := hadded.exists_name ht
        have hname : tagName? t = some name := by
          rw [tagName?, (TagKept.of_grows hgrows).named, htname]
          rfl
        have huname' : tagName? u = some name := by rw [tagName?, hunamed, huname]; rfl
        have hn : n = name := Option.some.inj (hn.symm.trans hname)
        exact absurd (List.mem_filterMap.2 ⟨u, hu, huname'⟩) (hn ▸ hnew)

/-- A tag that a program declares has, if it is read, the type of the text of its declared
type. -/
theorem dataType_of_program {s : ProjectSource} {files : Files} {overlay : Option String}
    {p : Project} (hp : s.projectWith files overlay = .ok p) {program : String}
    {scope : ScopeSource} (hscope : s.HasProgram program scope) {name type : String}
    (hdeclares : scope.Declares name type) :
    ∀ q ∈ p.programs, q.name = program → ∀ t ∈ q.tags, t.name = name →
      t.dataType = valueType type := by
  obtain ⟨p₀, hp₀, hover⟩ := exists_project_of_projectWith hp
  have htypes : ∀ q ∈ p₀.programs, q.name = program → ∀ t ∈ q.tags, t.name = name →
      t.dataType = valueType type := by
    rintro q hq rfl t ht rfl
    exact dataType_of_mem_readTags (tags_of_mem_programs hp₀ hq hscope) ht hdeclares
  rcases hover with rfl | ⟨o, rfl⟩
  · exact htypes
  · obtain ⟨kept, added, hrun, hadded⟩ := programs_apply o p₀
    rw [hrun]
    intro q hq hname t ht
    rcases List.mem_append.1 hq with hq | hq
    · obtain ⟨q₀, hq₀, hgrows⟩ := hadded.exists_old hq
      have hkept := ProgramKept.of_grows hgrows
      exact htypes q₀ hq₀ (hkept.name.symm.trans hname) t (hkept.tags ▸ ht)
    · obtain ⟨u, -, hgrows⟩ := hadded.first q hq
      rw [(ProgramKept.of_grows hgrows).tags] at ht
      exact absurd ht List.not_mem_nil

/-- A source whose controller declares names of types alone. -/
def ProjectSource.NamesTypes (s : ProjectSource) : Prop :=
  ∀ name type, s.controller.Declares name type → IsTypeName type

/-- A plant of sources that declare names of types shows no conflict in the types, whatever the
types are. -/
theorem conflicts_of_sources {p : Plant}
    (h : ∀ e ∈ p.controllers.entries, ∃ s : ProjectSource, s.project = .ok e.2 ∧
      s.NamesTypes) : ∀ c ∈ p.conflicts, c.difference ≠ .dataTypes := by
  have hstring : ∀ tag v, p.Declares tag v → v.dataType = "STRING" := by
    rintro tag v ⟨e, he, t, ht, -, rfl⟩
    obtain ⟨s, hs, hnames⟩ := h e he
    exact dataType_eq_string (tags_of_controller hs) hnames t ht
  intro c hc htypes
  obtain ⟨v, w, hv, hw, hne⟩ := Plant.exists_of_mem_conflicts hc htypes
  exact hne ((hstring _ v hv).trans (hstring _ w hw).symm)

/-- The types of a source.  A tag of the controller that declares a type is read, and its type
is that of the text of the declared type; so is the type of a tag of a program, where it is
read.  It is the declared type for strings alone: the names of all other types become strings.
So no plant shows a conflict in the types, whatever its sources declare. -/
theorem types_of_source {s : ProjectSource} {files : Files} {overlay : Option String} {p : Project}
    (hp : s.projectWith files overlay = .ok p) :
    (∀ name type, s.controller.Declares name type →
      (∃ t ∈ p.controller.tags, t.name = name) ∧
      ∀ t ∈ p.controller.tags, t.name = name →
        t.dataType = valueType type ∧ (t.dataType = type ↔ type = "STRING")) ∧
    (∀ program scope name type, s.HasProgram program scope → scope.Declares name type →
      ∀ q ∈ p.programs, q.name = program → ∀ t ∈ q.tags, t.name = name →
        t.dataType = valueType type ∧ (t.dataType = type ↔ type = "STRING")) ∧
    (∀ type, IsTypeName type → valueType type = "STRING") ∧
    ∀ plant : Plant, (∀ e ∈ plant.controllers.entries, ∃ s' : ProjectSource,
      s'.project = .ok e.2 ∧ s'.NamesTypes) →
      ∀ c ∈ plant.conflicts, c.difference ≠ .dataTypes := by
  have hself : ∀ {t : Project.Tag} {type : String}, t.dataType = valueType type →
      t.dataType = valueType type ∧ (t.dataType = type ↔ type = "STRING") :=
    fun h => ⟨h, h ▸ valueType_eq_self_iff⟩
  refine ⟨fun name type hdeclares => ?_, ?_, fun _ => valueType_of_isTypeName,
    fun _ => conflicts_of_sources⟩
  · obtain ⟨hread, htypes⟩ := dataType_of_controller hp hdeclares
    exact ⟨hread, fun t ht hname => hself (htypes t ht hname)⟩
  · intro program scope name type hscope hdeclares q hq hname t ht htname
    exact hself (dataType_of_program hp hscope hdeclares q hq hname t ht htname)

/-- A tag of a whole number. -/
def wholeTag (name type : String) : Element where
  tag := "Tag"
  attributes := .ofList [("Name", name), ("TagType", "Base"), ("DataType", type)]
  children := [{
    tag := "Data"
    attributes := .ofList [("Format", "Decorated")]
    children := [.leaf "DataValue" [("DataType", type), ("Value", "1")]] }]

/-- A document with a tag in its controller and a tag in its program. -/
def levelDocument (type : String) : Document where
  language := none
  controller := {
    tag := "Controller"
    children := [{ tag := "Tags", children := [wholeTag "Level" type] }, {
      tag := "Programs"
      children := [{
        tag := "Program"
        attributes := .ofList [("Name", "Main")]
        children := [{ tag := "Tags", children := [wholeTag "Count" "SINT"] }] }] }] }

theorem declares_level (type : String) :
    (levelDocument type).source.controller.Declares "Level" type :=
  ⟨_, _, _, rfl, rfl, List.mem_cons_self, rfl, rfl⟩

theorem declares_count (type : String) :
    ∃ scope, (levelDocument type).source.HasProgram "Main" scope ∧
      scope.Declares "Count" "SINT" :=
  ⟨_, ⟨_, rfl, rfl⟩, _, _, _, rfl, rfl, List.mem_cons_self, rfl, rfl⟩

theorem namesTypes_levelDocument {type : String} (h : IsTypeName type) :
    (levelDocument type).source.NamesTypes := by
  rintro name type' ⟨d, names, t, hd, hnames, hlisted, hget, htype⟩
  cases hd
  cases hnames
  obtain rfl := List.mem_singleton.1 hlisted
  cases hget
  cases htype
  exact h

/-- Two controllers under names of their own. -/
def twoControllers (p q : Project) : Plant := ⟨⟨[("North", p), ("South", q)]⟩⟩

theorem types_of_source_levelDocument :
    ∃ p q, (levelDocument "DINT").source.projectWith Table.empty none = .ok p ∧
      (levelDocument "BOOL").source.project = .ok q ∧
      (∃ t ∈ p.controller.tags, t.name = "Level" ∧ t.dataType = "STRING") ∧
      (∃ r ∈ p.programs, ∃ t ∈ r.tags, t.name = "Count" ∧ t.dataType = "STRING") ∧
      ∀ c ∈ (twoControllers p q).conflicts, c.difference ≠ .dataTypes := by
  obtain ⟨p, hp, r, hr, hname, t, ht, htname⟩ :
      ∃ p, (levelDocument "DINT").source.project = .ok p ∧
        ∃ r ∈ p.programs, r.name = "Main" ∧ ∃ t ∈ r.tags, t.name = "Count" :=
    ⟨_, rfl, _, List.mem_cons_self, rfl, _, List.mem_cons_self, rfl⟩
  obtain ⟨q, hq⟩ : ∃ q, (levelDocument "BOOL").source.project = .ok q := ⟨_, rfl⟩
  have hwith : (levelDocument "DINT").source.projectWith Table.empty none = .ok p := by
    rw [ProjectSource.projectWith, hp]
    rfl
  obtain ⟨hcontroller, hprogram, hstring, hplant⟩ := types_of_source hwith
  obtain ⟨⟨u, hu, huname⟩, htypes⟩ := hcontroller _ _ (declares_level "DINT")
  obtain ⟨scope, hscope, hdeclares⟩ := declares_count "DINT"
  have hu' := (htypes u hu huname).1.trans (hstring _ (by decide))
  have ht' := (hprogram _ _ _ _ hscope hdeclares r hr hname t ht htname).1.trans
    (hstring _ (by decide))
  refine ⟨p, q, hwith, hq, ⟨u, hu, huname, hu'⟩, ⟨r, hr, t, ht, htname, ht'⟩, hplant _ ?_⟩
  exact List.forall_mem_cons.2 ⟨⟨_, hp, namesTypes_levelDocument (by decide)⟩,
    List.forall_mem_singleton.2 ⟨_, hq, namesTypes_levelDocument (by decide)⟩⟩

/-- A tag that is a number in one document and a truth value in another is a string in both
projects, and nobody sees a conflict. -/
theorem declared_types_lost :
    (levelDocument "DINT").source.controller.Declares "Level" "DINT" ∧
    (levelDocument "BOOL").source.controller.Declares "Level" "BOOL" ∧
    ∃ p q, (levelDocument "DINT").source.project = .ok p ∧
      (levelDocument "BOOL").source.project = .ok q ∧
      p.controller.tags.map (fun t => (t.name, t.dataType)) = [("Level", "STRING")] ∧
      q.controller.tags.map (fun t => (t.name, t.dataType)) = [("Level", "STRING")] ∧
      (twoControllers p q).conflicts = [] :=
  ⟨declares_level "DINT", declares_level "BOOL", _, _, rfl, rfl, rfl, rfl, rfl⟩

end ControlLogic.Exchange
