import ControlLogic.Exchange.Import
import ControlLogic.Markup.Reader
import ControlLogic.Proofs.Fault
import Mathlib.Data.List.Basic

/-!
# What is relied on of an opener

How a file is opened as a source is a parameter of all readers.  This file states what is relied
on of it, in the words of its documentation, and what the readers make of a source then.

* `HoldsDocument`: the files in question, texts of an element without character sections.
* `Directory.Lists`: a section lists its children by the attribute `Name`.
* `TagMade`: a tag has to say its kind, and unless it is an alias it has to have data.
* `ScopeSource.Shows` and `ProjectSource.Shows`: controllers and programs hand out their elements
  and list what is below them.
* `Opener.Documented` puts these together, and `Opener.HandsOutController` is the part of it that is
  about the element of the controller.

Nothing of this is about reading.  `entries_of_lists` and `exists_child_of_mem_entries` go from a
section to what is listed, and `readTags_of_lists` and `readTags_eq_nil` from there to tags.
-/

namespace ControlLogic.Exchange

open Markup

/-! ## Documented behaviour -/

/-- The file holds a document: a text without character sections, which is read as an element with
the name of documents. -/
structure HoldsDocument (files : Files) (path : String) (root : Element) : Prop where
  text : ∃ text, files.read path = .ok text ∧ ¬ "<![CDATA[".toList <:+: text.toList ∧
    Element.parse? text = some root
  tag : root.tag = "RSLogix5000Content"

/-- The directory lists the children of a section.  What a look-up gives for a child `c` is some
`r` with `Made c r`. -/
structure Directory.Lists {α : Type} (d : Directory α) (parent : Option Element)
    (Made : Element → Except Fault α → Prop) : Prop where
  /-- Without a section there is no listing. -/
  absent : parent = none → ∃ f, d.names = .error f
  /-- The names are the attributes `Name` of the children, which all have to be there. -/
  names : ∀ s names, parent = some s →
    (d.names = .ok names ↔ s.children.map (·.attribute? "Name") = names.map some)
  /-- A look-up meets the first child with the name. -/
  get : ∀ s name c, parent = some s →
    s.children.find? (fun c => c.attribute? "Name" == some name) = some c →
    Text.contains "'" name = false → Made c (d.get name)
  /-- A name with a quote cannot be looked up. -/
  quoted : ∀ name, Text.contains "'" name = true → ∃ f, d.get name = .error f

/-- The tag has data: a child `Data` in the decorated format with an element in it. -/
def HasData (tag : Element) : Prop :=
  ∃ d ∈ tag.childrenNamed "Data", d.attribute? "Format" = some "Decorated" ∧ d.children ≠ []

/-- What a look-up gives for the element of a tag. -/
structure TagMade (e : Element) (r : Except Fault TagSource) : Prop where
  /-- A tag has to say its kind, and unless it is an alias it has to have data. -/
  exists_ok_iff : (∃ t, r = .ok t) ↔
    ∃ kind, e.attribute? "TagType" = some kind ∧ (kind = "Alias" ∨ HasData e)
  /-- The type of a tag that is no alias is its attribute `DataType`. -/
  dataType : ∀ t type, r = .ok t → e.attribute? "TagType" ≠ some "Alias" →
    e.attribute? "DataType" = some type → t.dataType = .text type

/-- The scope shows an element: it hands the element out and lists its tags, and has nothing
else. -/
def ScopeSource.Shows (s : ScopeSource) (e : Element) : Prop :=
  ∃ tags : Directory TagSource, tags.Lists (e.child? "Tags") TagMade ∧
    s = { tags := some tags, element := some e }

/-- The source shows the element of a controller and lists its programs, each of which shows an
element of its own. -/
structure ProjectSource.Shows (s : ProjectSource) (e : Element) : Prop where
  controller : s.controller.Shows e
  programs : ∃ programs : Directory ScopeSource, s.programs = some programs ∧
    programs.Lists (e.child? "Programs") fun c r => ∃ scope, r = .ok scope ∧ scope.Shows c

/-- A file with a document is opened as a source that shows the controller of the document. -/
structure Opener.Documented (opener : Opener) : Prop where
  opens : ∀ {files : Files} {path : String} {root controller : Element},
    HoldsDocument files path root → root.child? "Controller" = some controller →
    ∃ s, opener files path = .ok s ∧ s.Shows controller

/-- A source that a file with a document is opened as hands out the controller of the document. -/
structure Opener.HandsOutController (opener : Opener) : Prop where
  element : ∀ {files : Files} {path : String} {root controller : Element} {s : ProjectSource},
    HoldsDocument files path root → root.child? "Controller" = some controller →
    opener files path = .ok s → s.controller.element = some controller

theorem Opener.Documented.handsOutController {opener : Opener} (h : opener.Documented) :
    opener.HandsOutController where
  element hdocument hcontroller hs := by
    obtain ⟨s', hs', hshows⟩ := h.opens hdocument hcontroller
    rw [hs] at hs'
    cases hs'
    obtain ⟨tags, -, hscope⟩ := hshows.controller
    rw [hscope]

/-! ## What is listed -/

/-- The name under which an element is listed. -/
def nameOf (c : Element) : String := c.attributeD "Name" ""

theorem nameOf_eq {c : Element} {name : String} (h : c.attribute? "Name" = some name) :
    nameOf c = name := by
  rw [nameOf, Element.attributeD, h]
  rfl

theorem attribute?_name {c : Element} (h : (c.attribute? "Name").isSome = true) :
    c.attribute? "Name" = some (nameOf c) := by
  obtain ⟨name, hname⟩ := Option.isSome_iff_exists.1 h
  rw [nameOf_eq hname, hname]

/-- The entries are the listed names with what is found under them. -/
theorem mem_entries {α : Type} {d : Directory α} {entries : List (String × α)}
    (h : d.entries = .ok entries) {e : String × α} :
    e ∈ entries ↔ (∃ names, d.names = .ok names ∧ e.1 ∈ names) ∧ d.get e.1 = .ok e.2 := by
  obtain ⟨names, hnames, hentries⟩ := exists_of_bind_eq_ok h
  cases hentries
  rw [List.mem_filterMap]
  constructor
  · rintro ⟨n, hn, hget⟩
    split at hget
    · rename_i a ha
      cases hget
      exact ⟨⟨names, hnames, hn⟩, ha⟩
    · cases hget
  · rintro ⟨⟨names', hnames', hn⟩, hget⟩
    rw [hnames] at hnames'
    cases hnames'
    exact ⟨e.1, hn, by rw [hget]⟩

theorem find?_of_nodup {α : Type} {name : α → String} {l : List α} (h : (l.map name).Nodup)
    {a : α} (ha : a ∈ l) : l.find? (fun b => name b == name a) = some a := by
  induction l with
  | nil => exact absurd ha List.not_mem_nil
  | cons b l ih =>
    rw [List.map_cons, List.nodup_cons] at h
    rcases List.mem_cons.1 ha with rfl | ha
    · exact List.find?_cons_of_pos (beq_self_eq_true _)
    · have hne : name b ≠ name a := fun heq => h.1 (heq ▸ List.mem_map_of_mem ha)
      rw [List.find?_cons_of_neg (by simpa using hne), ih h.2 ha]

section

variable {α : Type} {d : Directory α} {Made : Element → Except Fault α → Prop}

/-- A directory whose children have names lists these names. -/
theorem names_of_lists {s : Element} (h : d.Lists (some s) Made)
    (hnames : ∀ c ∈ s.children, (c.attribute? "Name").isSome = true) :
    d.names = .ok (s.children.map nameOf) := by
  rw [h.names s _ rfl, List.map_map]
  exact List.map_congr_left fun c hc => attribute?_name (hnames c hc)

/-- What is listed under a name was made of a child with the name. -/
theorem exists_child_of_mem_entries {parent : Option Element} (h : d.Lists parent Made)
    {entries : List (String × α)} (hentries : d.entries = .ok entries) {e : String × α}
    (he : e ∈ entries) :
    ∃ s, parent = some s ∧ ∃ c ∈ s.children, c.attribute? "Name" = some e.1 ∧
      Made c (.ok e.2) := by
  obtain ⟨⟨names, hnames, hname⟩, hget⟩ := (mem_entries hentries).1 he
  cases parent with
  | none =>
    obtain ⟨f, hf⟩ := h.absent rfl
    rw [hnames] at hf
    cases hf
  | some s =>
    have hmem : some e.1 ∈ s.children.map (·.attribute? "Name") := by
      rw [(h.names s names rfl).1 hnames]
      exact List.mem_map_of_mem hname
    obtain ⟨c, hc, hcname⟩ := List.mem_map.1 hmem
    have hfound : (s.children.find? fun c => c.attribute? "Name" == some e.1).isSome = true :=
      List.find?_isSome.2 ⟨c, hc, by rw [hcname]; exact beq_self_eq_true _⟩
    obtain ⟨first, hfirst⟩ := Option.isSome_iff_exists.1 hfound
    have hquote : Text.contains "'" e.1 = false := by
      rw [← Bool.not_eq_true]
      intro hquote
      obtain ⟨f, hf⟩ := h.quoted e.1 hquote
      rw [hget] at hf
      cases hf
    have hmade := h.get s e.1 first rfl hfirst hquote
    rw [hget] at hmade
    have hfirstname : first.attribute? "Name" = some e.1 := by
      simpa using List.find?_some hfirst
    exact ⟨s, rfl, first, List.mem_of_find?_eq_some hfirst, hfirstname, hmade⟩

/-- Where the names are distinct, each child is met under its name. -/
theorem made_of_lists {s : Element} (h : d.Lists (some s) Made)
    (hnames : ∀ c ∈ s.children, (c.attribute? "Name").isSome = true)
    (hdistinct : (s.children.map nameOf).Nodup) {c : Element} (hc : c ∈ s.children)
    (hquote : Text.contains "'" (nameOf c) = false) : Made c (d.get (nameOf c)) := by
  refine h.get s (nameOf c) c rfl ?_ hquote
  rw [← find?_of_nodup hdistinct hc, ← List.head?_filter, ← List.head?_filter]
  refine congrArg List.head? (List.filter_congr fun b hb => ?_)
  rw [attribute?_name (hnames b hb), Option.some_beq_some]

/-- What a section with names lists: the children whose names can be looked up, if something is
found under them. -/
theorem entries_of_lists {s : Element} (h : d.Lists (some s) Made)
    (hnames : ∀ c ∈ s.children, (c.attribute? "Name").isSome = true) :
    d.entries = .ok ((s.children.filter fun c => !Text.contains "'" (nameOf c)).filterMap fun c =>
      (d.get (nameOf c)).toOption.map fun a => (nameOf c, a)) := by
  rw [Directory.entries, names_of_lists h hnames]
  refine congrArg Except.ok ?_
  rw [List.filterMap_map, List.filterMap_filter]
  refine List.filterMap_congr fun c _ => ?_
  rw [Function.comp_apply]
  by_cases hquote : Text.contains "'" (nameOf c) = true
  · obtain ⟨f, hf⟩ := h.quoted _ hquote
    rw [hf, hquote]
    rfl
  · rw [Bool.not_eq_true] at hquote
    rw [hquote]
    cases d.get (nameOf c) <;> rfl

/-- Without a section nothing is listed. -/
theorem entries_of_absent (h : d.Lists none Made) : ∃ f, d.entries = .error f := by
  obtain ⟨f, hf⟩ := h.absent rfl
  exact ⟨f, by rw [Directory.entries, hf]; rfl⟩

end

/-! ## Tags -/

section

variable {d : Directory TagSource} (scope : Project.Scope)

theorem scope_of_readTag? {name : String} {s : TagSource} {t : Project.Tag}
    (h : readTag? scope name s = some t) : t.scope = scope := by
  obtain ⟨type, -, ht⟩ := Option.bind_eq_some_iff.1 h
  cases ht
  rfl

/-- A section of tags that are no aliases, have data and declare types is read tag by tag, in
order and under their names. -/
theorem readTags_of_lists {s : Element} (h : d.Lists (some s) TagMade)
    (hnames : ∀ c ∈ s.children, (c.attribute? "Name").isSome = true)
    (hdistinct : (s.children.map nameOf).Nodup)
    (hquote : ∀ c ∈ s.children, Text.contains "'" (nameOf c) = false)
    (hkind : ∀ c ∈ s.children, ∃ kind, c.attribute? "TagType" = some kind ∧ kind ≠ "Alias")
    (hdata : ∀ c ∈ s.children, HasData c)
    (htype : ∀ c ∈ s.children, (c.attribute? "DataType").isSome = true) :
    ∃ tags, readTags scope (some d) = .ok tags ∧
      tags.map (·.name) = s.children.map nameOf ∧ ∀ t ∈ tags, t.scope = scope := by
  have hread : ∀ c ∈ s.children, ∃ source, d.get (nameOf c) = .ok source ∧
      ∃ t, readTag? scope (nameOf c) source = some t ∧ t.name = nameOf c := by
    intro c hc
    have hmade := made_of_lists h hnames hdistinct hc (hquote c hc)
    obtain ⟨kind, hkind, halias⟩ := hkind c hc
    obtain ⟨source, hsource⟩ := hmade.exists_ok_iff.2 ⟨kind, hkind, .inr (hdata c hc)⟩
    obtain ⟨type, htype⟩ := Option.isSome_iff_exists.1 (htype c hc)
    have hdeclared := hmade.dataType source type hsource
      (by rw [hkind]; simpa using halias) htype
    refine ⟨source, hsource, ?_⟩
    rw [readTag?, hdeclared]
    exact ⟨_, rfl, rfl⟩
  rw [readTags, entries_of_lists h hnames]
  refine ⟨_, rfl, ?_, ?_⟩
  · have hall : s.children.filter (fun c => !Text.contains "'" (nameOf c)) = s.children :=
      List.filter_eq_self.2 fun c hc => by rw [hquote c hc]; rfl
    rw [hall, List.filterMap_filterMap, List.map_filterMap, ← List.filterMap_eq_map]
    refine List.filterMap_congr fun c hc => ?_
    obtain ⟨source, hsource, t, ht, hname⟩ := hread c hc
    rw [hsource]
    change ((readTag? scope (nameOf c) source).map (·.name)) = some (nameOf c)
    rw [ht, Option.map_some, hname]
  · intro t ht
    obtain ⟨e, -, he⟩ := List.mem_filterMap.1 ht
    exact scope_of_readTag? scope he

/-- No tag is read from a section of tags that are no aliases and have no data. -/
theorem readTags_eq_nil {s : Element} (h : d.Lists (some s) TagMade)
    (hnames : ∀ c ∈ s.children, (c.attribute? "Name").isSome = true)
    (hkind : ∀ c ∈ s.children, ∃ kind, c.attribute? "TagType" = some kind ∧ kind ≠ "Alias")
    (hdata : ∀ c ∈ s.children, ¬ HasData c) : readTags scope (some d) = .ok [] := by
  have hentries := entries_of_lists h hnames
  have hnil : ∀ e, e ∉ (s.children.filter fun c => !Text.contains "'" (nameOf c)).filterMap fun c =>
      (d.get (nameOf c)).toOption.map fun a => (nameOf c, a) := by
    intro e he
    obtain ⟨s', hs', c, hc, -, hmade⟩ := exists_child_of_mem_entries h hentries he
    cases hs'
    obtain ⟨kind, hkind, halias⟩ := hkind c hc
    obtain ⟨kind', hkind', hdata'⟩ := hmade.exists_ok_iff.1 ⟨_, rfl⟩
    rw [hkind] at hkind'
    cases hkind'
    exact hdata'.elim halias (hdata c hc)
  rw [readTags, hentries, List.eq_nil_iff_forall_not_mem.2 hnil]
  rfl

end

/-! ## Programs -/

/-- A section of programs with distinct names is read program by program, those left out whose
names cannot be looked up. -/
theorem readPrograms_of_lists {d : Directory ScopeSource} {s : Element}
    (h : d.Lists (some s) fun c r => ∃ scope, r = .ok scope ∧ scope.Shows c)
    {β : Type} {l : List β} {element : β → Element} (hchildren : s.children = l.map element)
    {name : β → String} (hname : ∀ b, (element b).attribute? "Name" = some (name b))
    (hdistinct : (l.map name).Nodup) {program? : β → Option Project.Program}
    (hread : ∀ b ∈ l, ∀ scope : ScopeSource, scope.Shows (element b) →
      readProgram? (name b) scope = program? b) :
    readPrograms (some d) =
      .ok ((l.filter fun b => !Text.contains "'" (name b)).filterMap program?) := by
  obtain rfl : name = fun b => nameOf (element b) := funext fun b => (nameOf_eq (hname b)).symm
  have hnames : ∀ c ∈ s.children, (c.attribute? "Name").isSome = true := by
    rw [hchildren]
    exact List.forall_mem_map.2 fun b _ => by rw [hname]; rfl
  have hnodup : (s.children.map nameOf).Nodup := by
    rw [hchildren, List.map_map]
    exact hdistinct
  rw [readPrograms, entries_of_lists h hnames]
  refine congrArg Except.ok ?_
  rw [List.filterMap_filterMap, hchildren, List.filter_map, List.filterMap_map]
  refine List.filterMap_congr fun b hb => ?_
  obtain ⟨hb, hquote⟩ := List.mem_filter.1 hb
  have hc : element b ∈ s.children := by
    rw [hchildren]
    exact List.mem_map_of_mem hb
  have hquote : Text.contains "'" (nameOf (element b)) = false := by simpa using hquote
  obtain ⟨scope, hscope, hshows⟩ := made_of_lists h hnames hnodup hc hquote
  rw [Function.comp_apply, hscope]
  exact hread b hb scope hshows

/-! ## Projects -/

/-- A file is loaded as the project of the source that it is opened as. -/
theorem load_of_opened {opener : Opener} {files : Files} {path : String} {s : ProjectSource}
    (h : opener files path = .ok s) : load opener files path none = s.project := by
  rw [load, h]
  change (s.project >>= _) = _
  cases s.project <;> rfl

theorem exists_opened_of_load {opener : Opener} {files : Files} {path : String} {q : Project}
    (h : load opener files path none = .ok q) :
    ∃ s, opener files path = .ok s ∧ s.project = .ok q := by
  obtain ⟨s, hs, -⟩ := exists_of_bind_eq_ok h
  exact ⟨s, hs, load_of_opened hs ▸ h⟩

/-- The parts of a project that was read. -/
theorem of_project_eq_ok {s : ProjectSource} {p : Project} (h : s.project = .ok p) :
    readController s.controller = .ok p.controller ∧ readPrograms s.programs = .ok p.programs := by
  obtain ⟨controller, hcontroller, h⟩ := exists_of_bind_eq_ok h
  obtain ⟨programs, hprograms, h⟩ := exists_of_bind_eq_ok h
  cases h
  exact ⟨hcontroller, hprograms⟩

end ControlLogic.Exchange
