import ControlLogic.Exchange.Export
import ControlLogic.Proofs.Exchange.Routine

/-!
# The document of a project, read again

A project is written as a document, and from the document a project is read.  This file says
what comes back, part by part.

* Texts.  `Project.Legal` holds of the projects whose texts may stand in a document, and
  `writable_projectElement` says that their documents can be written.
* Names.  `TagsIn` bounds the names of the elements in a part of the document.  By it a search
  through the whole controller meets the parts that it is meant for.
* Data types come back as `DataType.kept`: `readDataType_dataTypeElement`.
* Tags do not come back, since they are written without data: `readTags_section`.  Nor do
  function blocks, which are written under another name than they are looked for.
* `load_projectText` puts the parts together: `Project.ComesBackAs` says what is read, by any
  opener that does what is documented.
-/

namespace ControlLogic

namespace Project

open Markup

/-! ## Texts -/

/-- The texts of a member. -/
def Member.texts (m : Member) : List String :=
  [m.name, m.dataType] ++ m.description.toList ++ m.radix.toList ++ m.externalAccess.toList

/-- The texts of a data type. -/
def DataType.texts (d : DataType) : List String :=
  [d.name] ++ d.baseType.toList ++ d.description.toList ++ d.members.flatMap Member.texts

/-- The texts of a parameter. -/
def Parameter.texts (p : Parameter) : List String := [p.name, p.dataType, p.kind]

/-- The texts of a function block. -/
def FunctionBlock.texts (b : FunctionBlock) : List String :=
  [b.name] ++ b.description.toList ++ b.parameters.flatMap Parameter.texts ++
    b.localVariables.flatMap Parameter.texts

/-- The texts of a tag. -/
def Tag.texts (t : Tag) : List String :=
  [t.name, t.dataType] ++ t.value.toList ++ t.description.toList ++ t.externalAccess.toList ++
    t.radix.toList ++ t.aliasFor.toList

/-- The texts of a routine. -/
def Routine.texts (r : Routine) : List String :=
  [r.name] ++ r.description.toList ++ r.content.toList

/-- The texts of a program. -/
def Program.texts (p : Program) : List String :=
  [p.name] ++ p.description.toList ++ p.tags.flatMap Tag.texts ++
    p.routines.flatMap Routine.texts ++ p.mainRoutine.toList

/-- The texts of a project. -/
def texts (p : Project) : List String :=
  [p.controller.name] ++ p.controller.dataTypes.flatMap DataType.texts ++
    p.controller.functionBlocks.flatMap FunctionBlock.texts ++
    p.controller.tags.flatMap Tag.texts ++ p.programs.flatMap Program.texts

/-- All texts of the project may stand in a document. -/
def Legal (p : Project) : Prop := ∀ s ∈ p.texts, IsLegal s

instance (p : Project) : Decidable p.Legal :=
  inferInstanceAs (Decidable (∀ s ∈ p.texts, IsLegal s))

/-! ## What comes back -/

/-- A text that is not empty. -/
def present (v : Option String) : Option String := v.filter (!Text.isEmpty ·)

/-- What comes back of a member. -/
def Member.kept (m : Member) : Member where
  name := m.name
  dataType := m.dataType
  description := present m.description
  radix := present m.radix
  externalAccess := present m.externalAccess

/-- What comes back of a data type. -/
def DataType.kept (d : DataType) : DataType where
  name := d.name
  baseType := present d.baseType
  members := d.members.map Member.kept

/-- Whether a program comes back: it has tags, and its name can be looked up. -/
def Program.isListed (p : Program) : Bool := !p.tags.isEmpty && !Text.contains "'" p.name

/-- What comes back of a program. -/
def Program.reread (p : Program) : Program where
  name := p.name
  routines := p.routines.map fun r => Exchange.documentRoutine (Exchange.routineElement r).unified

/-- What comes back of a controller. -/
def Controller.reread (c : Controller) : Controller where
  name := "Unknown_Controller"
  dataTypes := c.dataTypes.map .kept

/-- The controller and the programs of a project come back as those of another. -/
structure ComesBackAs (p q : Project) : Prop where
  controller : q.controller = p.controller.reread
  programs : q.programs = (p.programs.filter Program.isListed).map Program.reread

end Project

namespace Exchange

open Markup Markup.Element

/-! ## Attributes -/

theorem plain_given {k : String} (hname : IsPlainName k) (hk : k ≠ "xmlns") {v : Option String}
    (h : ∀ s, v = some s → IsLegal s) : ∀ a ∈ given k v, Token.IsPlainAttribute a := by
  intro a ha
  cases v with
  | none => exact absurd ha List.not_mem_nil
  | some s =>
    rw [given] at ha
    split at ha
    · exact absurd ha List.not_mem_nil
    · rw [List.mem_singleton] at ha
      subst ha
      exact ⟨hname, hk, h s rfl⟩

theorem get?_ofList_given (k : String) (v : Option String) (j : String) :
    (Table.ofList (given k v)).get? j = if k = j then Project.present v else none := by
  cases v with
  | none => simp [given, Table.get?_ofList_nil, Project.present]
  | some s =>
    rw [given]
    split
    · rename_i hs
      simp [Table.get?_ofList_nil, Project.present, Option.filter, hs]
    · rename_i hs
      simp [Table.get?_ofList_cons, Table.get?_ofList_nil, Project.present, Option.filter, hs]

/-! ## Sections -/

theorem mem_sectionOf {tag : String} {es : List Element} {x : Element} (h : x ∈ sectionOf tag es) :
    x = { tag, children := es } := by
  rw [sectionOf] at h
  split at h
  · exact absurd h List.not_mem_nil
  · exact List.mem_singleton.1 h

theorem writable_section {tag : String} {es : List Element} (htag : IsPlainName tag)
    (h : ∀ e ∈ es, e.Writable) : ∀ x ∈ sectionOf tag es, x.Writable := by
  intro x hx
  rw [mem_sectionOf hx]
  exact writable_iff.2 ⟨.of_attributes htag plain_nil es, h⟩

/-- The names of the element and of all below it are among `l`. -/
def TagsIn (l : List String) (e : Element) : Prop := ∀ x ∈ e.all, x.tag ∈ l

theorem tagsIn_iff {l : List String} {e : Element} :
    TagsIn l e ↔ e.tag ∈ l ∧ ∀ c ∈ e.children, TagsIn l c :=
  forall_mem_all

theorem TagsIn.mono {l l' : List String} (hl : l ⊆ l') {e : Element} (h : TagsIn l e) :
    TagsIn l' e :=
  fun x hx => hl (h x hx)

theorem tagsIn_leaf {l : List String} {tag : String} (h : tag ∈ l)
    (attributes : List (String × String)) : TagsIn l (.leaf tag attributes) :=
  tagsIn_iff.2 ⟨h, List.forall_mem_nil _⟩

theorem tagsIn_section {l : List String} {tag : String} {es : List Element} (htag : tag ∈ l)
    (h : ∀ e ∈ es, TagsIn l e) : ∀ x ∈ sectionOf tag es, TagsIn l x := by
  intro x hx
  rw [mem_sectionOf hx]
  exact tagsIn_iff.2 ⟨htag, h⟩

/-- What is not among the names is not found. -/
theorem filter_allOf_eq_nil {l : List String} {tag : String} {es : List Element}
    (h : ∀ e ∈ es, TagsIn l e) (htag : tag ∉ l) :
    (allOf es).filter (·.tag == tag) = [] := by
  rw [List.filter_eq_nil_iff, allOf_eq_flatMap]
  intro x hx heq
  obtain ⟨e, he, hx⟩ := List.mem_flatMap.1 hx
  rw [beq_iff_eq] at heq
  exact htag (heq ▸ h e he x hx)

theorem filter_allOf_append (es es' : List Element) (tag : String) :
    (allOf (es ++ es')).filter (·.tag == tag) =
      (allOf es).filter (·.tag == tag) ++ (allOf es').filter (·.tag == tag) := by
  rw [allOf_eq_flatMap, allOf_eq_flatMap, allOf_eq_flatMap, List.flatMap_append,
    List.filter_append]

/-- In a section of another name the elements of the section are searched. -/
theorem filter_allOf_section {tag name : String} (hne : name ≠ tag) (es : List Element) :
    (allOf (sectionOf name es)).filter (·.tag == tag) = (allOf es).filter (·.tag == tag) := by
  rw [sectionOf]
  split
  · rename_i hempty
    rw [List.isEmpty_iff.1 hempty]
  · rw [allOf, all_eq_cons, descendants, allOf, List.append_nil]
    refine List.filter_cons_of_neg ?_
    simpa using hne

/-- The section with a name, if it is there. -/
def sectionOf? (tag : String) (es : List Element) : Option Element := (sectionOf tag es).head?

theorem find?_section (name tag : String) (es : List Element) :
    (sectionOf name es).find? (·.tag == tag) = if name = tag then sectionOf? name es else none := by
  rw [sectionOf?, sectionOf]
  split
  · simp
  · by_cases h : name = tag <;> simp [h]

theorem sectionOf?_eq (tag : String) (es : List Element) :
    sectionOf? tag es = if es.isEmpty then none else some { tag, children := es } := by
  rw [sectionOf?, sectionOf]
  split <;> rfl

/-! ## Data types -/

theorem writable_memberElement {m : Project.Member} (h : ∀ s ∈ m.texts, IsLegal s) :
    (memberElement m).Writable := by
  simp only [Project.Member.texts, List.forall_mem_append, List.forall_mem_cons,
    Option.mem_toList] at h
  obtain ⟨⟨⟨⟨hname, htype, -⟩, hdescription⟩, hradix⟩, haccess⟩ := h
  refine writable_leaf (by decide) ?_
  simp only [List.forall_mem_append]
  exact ⟨⟨⟨plain_cons (by decide) (by decide) hname
      (plain_cons (by decide) (by decide) htype plain_nil),
    plain_given (by decide) (by decide) hdescription⟩,
    plain_given (by decide) (by decide) hradix⟩,
    plain_given (by decide) (by decide) haccess⟩

theorem writable_dataTypeElement {d : Project.DataType} (h : ∀ s ∈ d.texts, IsLegal s) :
    (dataTypeElement d).Writable := by
  simp only [Project.DataType.texts, List.forall_mem_append, List.forall_mem_cons,
    Option.mem_toList] at h
  obtain ⟨⟨⟨⟨hname, -⟩, hbase⟩, hdescription⟩, hmembers⟩ := h
  refine writable_iff.2 ⟨.of_attributes (by decide) ?_ _, ?_⟩
  · simp only [List.forall_mem_append]
    exact ⟨⟨plain_cons (by decide) (by decide) hname plain_nil,
      plain_given (by decide) (by decide) hbase⟩,
      plain_given (by decide) (by decide) hdescription⟩
  · intro c hc
    obtain ⟨m, hm, rfl⟩ := List.mem_map.1 hc
    exact writable_memberElement fun s hs => hmembers s (List.mem_flatMap.2 ⟨m, hm, hs⟩)

theorem tagsIn_dataTypeElement (d : Project.DataType) :
    TagsIn ["DataType", "Member"] (dataTypeElement d) := by
  refine tagsIn_iff.2 ⟨List.mem_cons_self, ?_⟩
  intro c hc
  obtain ⟨m, -, rfl⟩ := List.mem_map.1 hc
  exact tagsIn_leaf (by decide) _

/-- A member is read from the element that was written for it. -/
theorem readMember_memberElement (m : Project.Member) :
    readMember (memberElement m) = m.kept := by
  have hget : ∀ k, (memberElement m).attribute? k = (Table.ofList
      ([("Name", m.name), ("DataType", m.dataType)] ++ given "Description" m.description ++
        given "Radix" m.radix ++ given "ExternalAccess" m.externalAccess)).get? k :=
    fun _ => rfl
  simp [readMember, Project.Member.kept, attributeD, hget, Table.get?_ofList_append,
    get?_ofList_given, Table.get?_ofList_cons]

/-- A data type is read from the element that was written for it. -/
theorem readDataType_dataTypeElement (d : Project.DataType) :
    readDataType (dataTypeElement d) = d.kept := by
  have hget : ∀ k, (dataTypeElement d).attribute? k = (Table.ofList ([("Name", d.name)] ++
      given "Use" d.baseType ++ given "Description" d.description)).get? k :=
    fun _ => rfl
  have hmembers : (dataTypeElement d).descendantsNamed "Member" = d.members.map memberElement := by
    rw [descendantsNamed_eq_childrenNamed, childrenNamed, List.filter_eq_self.2]
    · rfl
    · intro c hc
      obtain ⟨m, -, rfl⟩ := List.mem_map.1 hc
      rfl
    · intro c hc
      obtain ⟨m, -, rfl⟩ := List.mem_map.1 hc
      rfl
  rw [readDataType, hmembers, List.map_map, Project.DataType.kept]
  simp [attributeD, hget, Table.get?_ofList_append, get?_ofList_given, Table.get?_ofList_cons,
    Function.comp_def, readMember_memberElement]

/-- Data types are found again among elements that hold no others. -/
theorem filter_allOf_dataTypes (ds : List Project.DataType) :
    (allOf (ds.map dataTypeElement)).filter (·.tag == "DataType") = ds.map dataTypeElement := by
  rw [filter_allOf, List.filter_eq_self.2]
  · exact List.forall_mem_map.2 fun _ _ => rfl
  · refine List.forall_mem_map.2 fun d _ => ?_
    refine filter_allOf_eq_nil (l := ["Member"]) (List.forall_mem_map.2 fun m _ => ?_) (by decide)
    exact tagsIn_leaf List.mem_cons_self _

theorem readDataType_unified (e : Element) : readDataType e.unified = readDataType e := by
  have hmember : ∀ x : Element, readMember x.unified = readMember x := by
    intro x
    simp only [readMember, attributeD_unified, attribute?_unified]
  simp only [readDataType, attributeD_unified, attribute?_unified, descendantsNamed_unified,
    List.map_map, Function.comp_def, hmember]

/-! ## Function blocks -/

theorem writable_functionBlockElement {b : Project.FunctionBlock}
    (h : ∀ s ∈ b.texts, IsLegal s) : (functionBlockElement b).Writable := by
  simp only [Project.FunctionBlock.texts, List.forall_mem_append, List.forall_mem_cons,
    Option.mem_toList] at h
  obtain ⟨⟨⟨⟨hname, -⟩, hdescription⟩, hparameters⟩, hlocals⟩ := h
  have hparameter : ∀ p ∈ b.parameters, (parameterElement p).Writable := by
    intro p hp
    have htexts := fun s hs => hparameters s (List.mem_flatMap.2 ⟨p, hp, hs⟩)
    simp only [Project.Parameter.texts, List.forall_mem_cons] at htexts
    obtain ⟨hname, htype, hkind, -⟩ := htexts
    have hrequired : IsLegal (if p.required then "true" else "false") := by
      split <;> decide
    exact writable_leaf (by decide) (plain_cons (by decide) (by decide) hname
      (plain_cons (by decide) (by decide) htype (plain_cons (by decide) (by decide) hkind
        (plain_cons (by decide) (by decide) hrequired plain_nil))))
  have hlocal : ∀ p ∈ b.localVariables, (localElement p).Writable := by
    intro p hp
    have htexts := fun s hs => hlocals s (List.mem_flatMap.2 ⟨p, hp, hs⟩)
    simp only [Project.Parameter.texts, List.forall_mem_cons] at htexts
    obtain ⟨hname, htype, -⟩ := htexts
    exact writable_leaf (by decide) (plain_cons (by decide) (by decide) hname
      (plain_cons (by decide) (by decide) htype plain_nil))
  refine writable_iff.2 ⟨.of_attributes (by decide) ?_ _, List.forall_mem_append.2 ⟨?_, ?_⟩⟩
  · exact List.forall_mem_append.2 ⟨plain_cons (by decide) (by decide) hname plain_nil,
      plain_given (by decide) (by decide) hdescription⟩
  · exact writable_section (by decide) (List.forall_mem_map.2 hparameter)
  · exact writable_section (by decide) (List.forall_mem_map.2 hlocal)

theorem tagsIn_functionBlockElement (b : Project.FunctionBlock) :
    TagsIn ["AddOnInstructionDefinition", "Parameters", "Parameter", "LocalTags", "LocalTag"]
      (functionBlockElement b) := by
  refine tagsIn_iff.2 ⟨List.mem_cons_self, List.forall_mem_append.2 ⟨?_, ?_⟩⟩
  · exact tagsIn_section (by decide) (List.forall_mem_map.2 fun _ _ => tagsIn_leaf (by decide) _)
  · exact tagsIn_section (by decide) (List.forall_mem_map.2 fun _ _ => tagsIn_leaf (by decide) _)

/-! ## Tags -/

theorem writable_projectTagElement {t : Project.Tag} (h : ∀ s ∈ t.texts, IsLegal s) :
    (projectTagElement t).Writable := by
  simp only [Project.Tag.texts, List.forall_mem_append, List.forall_mem_cons,
    Option.mem_toList] at h
  obtain ⟨⟨⟨⟨⟨⟨hname, htype, -⟩, hvalue⟩, hdescription⟩, haccess⟩, hradix⟩, halias⟩ := h
  have hconstant : ∀ a ∈ (if t.constant then [("Constant", "true")] else []),
      Token.IsPlainAttribute a := by
    split <;> decide
  refine writable_leaf (by decide) ?_
  simp only [List.forall_mem_append]
  exact ⟨⟨⟨⟨⟨⟨plain_cons (by decide) (by decide) hname (plain_cons (by decide) (by decide)
      (by decide) (plain_cons (by decide) (by decide) htype plain_nil)),
    plain_given (by decide) (by decide) hvalue⟩,
    plain_given (by decide) (by decide) hdescription⟩,
    plain_given (by decide) (by decide) haccess⟩,
    plain_given (by decide) (by decide) hradix⟩, hconstant⟩,
    plain_given (by decide) (by decide) halias⟩

theorem tagsIn_projectTagElement (t : Project.Tag) : TagsIn ["Tag"] (projectTagElement t) :=
  tagsIn_leaf List.mem_cons_self _

theorem attribute?_projectTagElement (t : Project.Tag) (k : String) :
    (projectTagElement t).attribute? k = (Table.ofList
      ([("Name", t.name), ("TagType", "Base"), ("DataType", t.dataType)] ++
        given "Value" t.value ++ given "Description" t.description ++
        given "ExternalAccess" t.externalAccess ++ given "Radix" t.radix ++
        (if t.constant then [("Constant", "true")] else []) ++
        given "AliasFor" t.aliasFor)).get? k :=
  rfl

theorem get?_ofList_constant (b : Bool) {k : String} (hk : k ≠ "Constant") :
    (Table.ofList (if b then [("Constant", "true")] else [])).get? k = none := by
  cases b with
  | false => rfl
  | true => simp [Table.get?_ofList_cons, Table.get?_ofList_nil, hk.symm]

theorem name_projectTagElement (t : Project.Tag) :
    (projectTagElement t).attribute? "Name" = some t.name := by
  simp [attribute?_projectTagElement, Table.get?_ofList_append, get?_ofList_given,
    get?_ofList_constant, Table.get?_ofList_cons]

theorem kind_projectTagElement (t : Project.Tag) :
    (projectTagElement t).attribute? "TagType" = some "Base" := by
  simp [attribute?_projectTagElement, Table.get?_ofList_append, get?_ofList_given,
    get?_ofList_constant, Table.get?_ofList_cons]

/-- A tag is written without data. -/
theorem not_hasData_projectTagElement (t : Project.Tag) : ¬ HasData (projectTagElement t) := by
  rintro ⟨d, hd, -⟩
  exact absurd hd List.not_mem_nil

/-- No tags come back.  Where none were written there is no section to list. -/
theorem readTags_section (scope : Project.Scope) {tags : List Project.Tag}
    {d : Directory TagSource}
    (h : d.Lists ((sectionOf? "Tags" (tags.map projectTagElement)).map unified) TagMade) :
    (tags = [] → ∃ f, readTags scope (some d) = .error f) ∧
      (tags ≠ [] → readTags scope (some d) = .ok []) := by
  rw [sectionOf?_eq, List.isEmpty_map] at h
  constructor
  · rintro rfl
    obtain ⟨f, hf⟩ := entries_of_absent h
    exact ⟨f, by rw [readTags, hf]; rfl⟩
  · intro hne
    rw [if_neg (by simpa using hne)] at h
    have hchildren : ∀ {P : Element → Prop}, (∀ t, P (projectTagElement t)) →
        ∀ c ∈ (unified { tag := "Tags", children := tags.map projectTagElement }).children,
          P c := by
      intro P hP c hc
      rw [children_unified, List.map_map] at hc
      obtain ⟨t, -, rfl⟩ := List.mem_map.1 hc
      exact hP t
    refine readTags_eq_nil scope h (hchildren fun t => ?_) (hchildren fun t => ?_)
      (hchildren not_hasData_projectTagElement)
    · rw [name_projectTagElement]
      rfl
    · exact ⟨"Base", kind_projectTagElement t, by decide⟩

/-! ## Programs -/

theorem mem_children_routineElement {r : Project.Routine} {c : Element}
    (h : c ∈ (routineElement r).children) :
    r.text ≠ "" ∧ c = { tag := "Text", children := [.ofText "CDATAContent" r.text] } := by
  change c ∈ (if Text.isEmpty r.text then [] else _) at h
  split at h
  · exact absurd h List.not_mem_nil
  · rename_i hne
    exact ⟨fun hempty => hne (hempty ▸ rfl), List.mem_singleton.1 h⟩

theorem writable_routineElement {r : Project.Routine} (h : ∀ s ∈ r.texts, IsLegal s) :
    (routineElement r).Writable := by
  simp only [Project.Routine.texts, List.forall_mem_append, List.forall_mem_cons,
    Option.mem_toList] at h
  obtain ⟨⟨⟨hname, -⟩, hdescription⟩, hcontent⟩ := h
  have hlanguage : IsLegal r.language.name := by cases r.language <;> decide
  have htext : IsLegal r.text := by
    rw [Project.Routine.text]
    cases hr : r.content with
    | none => decide
    | some s => exact hcontent s hr
  refine writable_iff.2 ⟨.of_attributes (by decide) ?_ _, ?_⟩
  · exact List.forall_mem_append.2 ⟨plain_cons (by decide) (by decide) hname
        (plain_cons (by decide) (by decide) hlanguage plain_nil),
      plain_given (by decide) (by decide) hdescription⟩
  · intro c hc
    obtain ⟨hne, rfl⟩ := mem_children_routineElement hc
    refine writable_iff.2 ⟨.of_attributes (by decide) plain_nil _, ?_⟩
    exact List.forall_mem_singleton.2 (writable_ofText (by decide) hne htext)

theorem tagsIn_children_routineElement (r : Project.Routine) :
    ∀ c ∈ (routineElement r).children, TagsIn ["Text", "CDATAContent"] c := by
  intro c hc
  obtain ⟨-, rfl⟩ := mem_children_routineElement hc
  refine tagsIn_iff.2 ⟨List.mem_cons_self, List.forall_mem_singleton.2 ?_⟩
  exact tagsIn_iff.2 ⟨List.mem_cons_of_mem _ List.mem_cons_self,
    List.forall_mem_nil _⟩

theorem tagsIn_routineElement (r : Project.Routine) :
    TagsIn ["Routine", "Text", "CDATAContent"] (routineElement r) :=
  tagsIn_iff.2 ⟨List.mem_cons_self, fun c hc =>
    (tagsIn_children_routineElement r c hc).mono (List.subset_cons_self _ _)⟩

theorem writable_programElement {p : Project.Program} (h : ∀ s ∈ p.texts, IsLegal s) :
    (programElement p).Writable := by
  simp only [Project.Program.texts, List.forall_mem_append, List.forall_mem_cons,
    Option.mem_toList] at h
  obtain ⟨⟨⟨⟨⟨hname, -⟩, hdescription⟩, htags⟩, hroutines⟩, hmain⟩ := h
  refine writable_iff.2 ⟨.of_attributes (by decide) ?_ _,
    List.forall_mem_append.2 ⟨List.forall_mem_append.2 ⟨?_, ?_⟩, List.forall_mem_map.2 ?_⟩⟩
  · exact List.forall_mem_append.2 ⟨plain_cons (by decide) (by decide) hname plain_nil,
      plain_given (by decide) (by decide) hdescription⟩
  · refine writable_section (by decide) (List.forall_mem_map.2 fun t ht => ?_)
    exact writable_projectTagElement fun s hs => htags s (List.mem_flatMap.2 ⟨t, ht, hs⟩)
  · refine writable_section (by decide) (List.forall_mem_map.2 fun r hr => ?_)
    exact writable_routineElement fun s hs => hroutines s (List.mem_flatMap.2 ⟨r, hr, hs⟩)
  · intro a ha
    refine writable_leaf (by decide) (List.forall_mem_singleton.2 ?_)
    exact plain_given (by decide) (by decide) hmain a ha

/-- The names of the elements in the sections of a program. -/
def programTags : List String :=
  ["Program", "Tags", "Tag", "Routines", "Routine", "Text", "CDATAContent", "MainRoutineName"]

theorem tagsIn_programElement (p : Project.Program) : TagsIn programTags (programElement p) := by
  refine tagsIn_iff.2 ⟨List.mem_cons_self,
    List.forall_mem_append.2 ⟨List.forall_mem_append.2 ⟨?_, ?_⟩, List.forall_mem_map.2 ?_⟩⟩
  · refine tagsIn_section (by decide) (List.forall_mem_map.2 fun t _ => ?_)
    exact (tagsIn_projectTagElement t).mono (by decide)
  · refine tagsIn_section (by decide) (List.forall_mem_map.2 fun r _ => ?_)
    exact (tagsIn_routineElement r).mono (by decide)
  · exact fun a _ => tagsIn_leaf (by decide) [a]

theorem name_programElement (p : Project.Program) :
    (programElement p).attribute? "Name" = some p.name := by
  have hget : (programElement p).attribute? "Name" = (Table.ofList ([("Name", p.name)] ++
      given "Description" p.description)).get? "Name" := rfl
  simp [hget, get?_ofList_given, Table.get?_ofList_cons]

/-- The leaf for the main routine is no section. -/
theorem find?_mainRoutine {tag : String} (htag : "MainRoutineName" ≠ tag) (v : Option String) :
    ((given "Value" v).map fun a => leaf "MainRoutineName" [a]).find? (·.tag == tag) = none := by
  rw [List.find?_eq_none]
  intro c hc
  obtain ⟨a, -, rfl⟩ := List.mem_map.1 hc
  simpa [leaf] using htag

theorem child?_programElement (p : Project.Program) {tag : String}
    (htag : "MainRoutineName" ≠ tag) :
    (programElement p).child? tag =
      (if "Tags" = tag then sectionOf? "Tags" (p.tags.map projectTagElement) else none).or
        (if "Routines" = tag then sectionOf? "Routines" (p.routines.map routineElement)
          else none) := by
  rw [child?, programElement, List.find?_append, List.find?_append, find?_section, find?_section,
    find?_mainRoutine htag, Option.or_none]

/-- The routines that were written are found again. -/
theorem routineElements_programElement (p : Project.Program) :
    routineElements (programElement p) = p.routines.map routineElement := by
  have hbelow : ∀ x ∈ (programElement p).children, x.descendantsNamed "Routines" = [] := by
    refine List.forall_mem_append.2
      ⟨List.forall_mem_append.2 ⟨fun x hx => ?_, fun x hx => ?_⟩, List.forall_mem_map.2 ?_⟩
    · rw [mem_sectionOf hx]
      exact filter_allOf_eq_nil (List.forall_mem_map.2 fun t _ => tagsIn_projectTagElement t)
        (by decide)
    · rw [mem_sectionOf hx]
      exact filter_allOf_eq_nil (List.forall_mem_map.2 fun r _ => tagsIn_routineElement r)
        (by decide)
    · exact fun _ _ => rfl
  rw [routineElements, descendant?_eq_child? hbelow, child?_programElement p (by decide),
    if_neg (by decide), if_pos rfl, Option.none_or, sectionOf?_eq, List.isEmpty_map]
  cases hempty : p.routines.isEmpty with
  | true => rw [List.isEmpty_iff.1 hempty]; rfl
  | false =>
    change descendantsNamed { tag := "Routines", children := p.routines.map routineElement } _ = _
    rw [descendantsNamed_eq_childrenNamed, childrenNamed, List.filter_eq_self.2]
    · exact List.forall_mem_map.2 fun r _ => rfl
    · refine List.forall_mem_map.2 fun r _ => ?_
      exact filter_allOf_eq_nil (tagsIn_children_routineElement r) (by decide)

theorem routineElements_unified (e : Element) :
    routineElements e.unified = (routineElements e).map unified := by
  rw [routineElements, routineElements, descendant?_unified]
  cases e.descendant? "Routines" with
  | none => rfl
  | some s => exact descendantsNamed_unified s "Routine"

/-- A program comes back if it has tags. -/
theorem readProgram?_programElement (p : Project.Program) {s : ScopeSource}
    (h : s.Shows (programElement p).unified) :
    readProgram? p.name s = if p.tags.isEmpty then none else some p.reread := by
  have hroutines : readRoutines s = p.reread.routines := by
    rw [readRoutines_of_shows h, routineElements_unified, routineElements_programElement,
      List.map_map, List.map_map]
    rfl
  obtain ⟨tags, htags, rfl⟩ := h
  rw [child?_unified, child?_programElement p (by decide), if_pos rfl, if_neg (by decide),
    Option.or_none] at htags
  obtain ⟨hnone, hsome⟩ := readTags_section .program htags
  rw [readProgram?, hroutines]
  split
  · rename_i hempty
    obtain ⟨f, hf⟩ := hnone (List.isEmpty_iff.1 hempty)
    rw [hf]
    rfl
  · rename_i hempty
    rw [hsome (by simpa using hempty)]
    rfl

/-- The section of the written programs, as it is read. -/
def programSection (programs : List Project.Program) : Element :=
  unified { tag := "Programs", children := programs.map programElement }

theorem children_programSection (programs : List Project.Program) :
    (programSection programs).children = programs.map fun p => (programElement p).unified := by
  rw [programSection, children_unified, List.map_map]
  rfl

theorem name_unified_programElement (p : Project.Program) :
    (programElement p).unified.attribute? "Name" = some p.name := by
  rw [attribute?_unified, name_programElement]

/-- The programs that come back are those with tags whose names can be looked up. -/
theorem readPrograms_programSection {programs : List Project.Program}
    (hdistinct : (programs.map (·.name)).Nodup) {d : Directory ScopeSource}
    (h : d.Lists (some (programSection programs))
      fun c r => ∃ scope, r = .ok scope ∧ scope.Shows c) :
    readPrograms (some d) =
      .ok ((programs.filter Project.Program.isListed).map Project.Program.reread) := by
  rw [readPrograms_of_lists h (children_programSection programs) name_unified_programElement
    hdistinct fun p _ _ => readProgram?_programElement p, ← List.filterMap_eq_map,
    List.filterMap_filter, List.filterMap_filter]
  refine congrArg Except.ok (List.filterMap_congr fun p _ => ?_)
  rw [Project.Program.isListed]
  cases p.tags.isEmpty <;> cases Text.contains "'" p.name <;> rfl

/-! ## Projects -/

theorem writable_controllerElement {p : Project} (h : p.Legal) :
    (controllerElement p).Writable := by
  simp only [Project.Legal, Project.texts, List.forall_mem_append, List.forall_mem_cons] at h
  obtain ⟨⟨⟨⟨⟨hname, -⟩, htypes⟩, hblocks⟩, htags⟩, hprograms⟩ := h
  refine writable_iff.2 ⟨.of_attributes (by decide) ?_ _, List.forall_mem_append.2
    ⟨List.forall_mem_append.2 ⟨List.forall_mem_append.2 ⟨?_, ?_⟩, ?_⟩, ?_⟩⟩
  · refine plain_cons (by decide) (by decide) hname ?_
    decide
  · refine writable_section (by decide) (List.forall_mem_map.2 fun d hd => ?_)
    exact writable_dataTypeElement fun s hs => htypes s (List.mem_flatMap.2 ⟨d, hd, hs⟩)
  · refine writable_section (by decide) (List.forall_mem_map.2 fun b hb => ?_)
    exact writable_functionBlockElement fun s hs => hblocks s (List.mem_flatMap.2 ⟨b, hb, hs⟩)
  · refine writable_section (by decide) (List.forall_mem_map.2 fun t ht => ?_)
    exact writable_projectTagElement fun s hs => htags s (List.mem_flatMap.2 ⟨t, ht, hs⟩)
  · refine writable_section (by decide) (List.forall_mem_map.2 fun q hq => ?_)
    exact writable_programElement fun s hs => hprograms s (List.mem_flatMap.2 ⟨q, hq, hs⟩)

/-- The document of a project with texts that may stand in a document can be written. -/
theorem writable_projectElement {p : Project} (h : p.Legal) : (projectElement p).Writable := by
  have hname : IsLegal p.controller.name := by
    refine h _ ?_
    simp [Project.texts]
  refine writable_iff.2 ⟨.of_attributes (by decide) ?_ _,
    List.forall_mem_singleton.2 (writable_controllerElement h)⟩
  exact plain_cons (by decide) (by decide) (by decide) (plain_cons (by decide) (by decide)
    (by decide) (plain_cons (by decide) (by decide) hname (by decide)))

theorem child?_controllerElement (p : Project) (tag : String) :
    (controllerElement p).child? tag =
      ((((if "DataTypes" = tag then
          sectionOf? "DataTypes" (p.controller.dataTypes.map dataTypeElement) else none).or
        (if "AddOnInstructionDefinitions" = tag then
          sectionOf? "AddOnInstructionDefinitions"
            (p.controller.functionBlocks.map functionBlockElement) else none)).or
        (if "Tags" = tag then
          sectionOf? "Tags" (p.controller.tags.map projectTagElement) else none)).or
        (if "Programs" = tag then
          sectionOf? "Programs" (p.programs.map programElement) else none)) := by
  rw [child?, controllerElement, List.find?_append, List.find?_append, List.find?_append,
    find?_section, find?_section, find?_section, find?_section]

/-- The elements of a name below the controller, section by section. -/
theorem descendantsNamed_controllerElement (p : Project) {tag : String}
    (htag : tag ∉ ["DataTypes", "AddOnInstructionDefinitions", "Tags", "Programs"]) :
    (controllerElement p).descendantsNamed tag =
      (allOf (p.controller.dataTypes.map dataTypeElement)).filter (·.tag == tag) ++
      (allOf (p.controller.functionBlocks.map functionBlockElement)).filter (·.tag == tag) ++
      (allOf (p.controller.tags.map projectTagElement)).filter (·.tag == tag) ++
      (allOf (p.programs.map programElement)).filter (·.tag == tag) := by
  simp only [List.mem_cons, List.not_mem_nil, or_false, not_or] at htag
  obtain ⟨htypes, hblocks, htags, hprograms⟩ := htag
  rw [descendantsNamed, descendants, controllerElement, filter_allOf_append, filter_allOf_append,
    filter_allOf_append, filter_allOf_section (Ne.symm htypes),
    filter_allOf_section (Ne.symm hblocks), filter_allOf_section (Ne.symm htags),
    filter_allOf_section (Ne.symm hprograms)]

/-- All data types below the controller are those that were written. -/
theorem dataTypes_controllerElement (p : Project) :
    (controllerElement p).descendantsNamed "DataType" =
      p.controller.dataTypes.map dataTypeElement := by
  rw [descendantsNamed_controllerElement p (by decide), filter_allOf_dataTypes,
    filter_allOf_eq_nil (List.forall_mem_map.2 fun b _ => tagsIn_functionBlockElement b)
      (by decide),
    filter_allOf_eq_nil (List.forall_mem_map.2 fun t _ => tagsIn_projectTagElement t) (by decide),
    filter_allOf_eq_nil (List.forall_mem_map.2 fun q _ => tagsIn_programElement q) (by decide),
    List.append_nil, List.append_nil, List.append_nil]

/-- Function blocks are not written under the name that they are looked for. -/
theorem functionBlocks_controllerElement (p : Project) :
    (controllerElement p).descendantsNamed "AddOnInstruction" = [] := by
  rw [descendantsNamed_controllerElement p (by decide),
    filter_allOf_eq_nil (List.forall_mem_map.2 fun d _ => tagsIn_dataTypeElement d) (by decide),
    filter_allOf_eq_nil (List.forall_mem_map.2 fun b _ => tagsIn_functionBlockElement b)
      (by decide),
    filter_allOf_eq_nil (List.forall_mem_map.2 fun t _ => tagsIn_projectTagElement t) (by decide),
    filter_allOf_eq_nil (List.forall_mem_map.2 fun q _ => tagsIn_programElement q) (by decide)]
  rfl

/-- The data types come back from any scope that hands out the element of the controller. -/
theorem dataTypes_of_element {p : Project} {s : ScopeSource}
    (h : s.element = some (controllerElement p).unified) :
    (below s "DataType").map readDataType = p.controller.dataTypes.map .kept := by
  rw [below, h]
  change ((controllerElement p).unified.descendantsNamed "DataType").map readDataType = _
  rw [descendantsNamed_unified, dataTypes_controllerElement, List.map_map, List.map_map]
  refine List.map_congr_left fun d _ => ?_
  simp only [Function.comp_apply, readDataType_unified, readDataType_dataTypeElement]

/-- What comes back of a controller: its data types, if it has tags. -/
theorem readController_controllerElement (p : Project) {s : ScopeSource}
    (h : s.Shows (controllerElement p).unified) :
    (p.controller.tags = [] → ∃ f, readController s = .error f) ∧
      (p.controller.tags ≠ [] → readController s = .ok p.controller.reread) := by
  obtain ⟨tags, htags, rfl⟩ := h
  rw [child?_unified, child?_controllerElement] at htags
  simp only [String.reduceEq, if_false, if_true, Option.none_or, Option.or_none] at htags
  obtain ⟨hnone, hsome⟩ := readTags_section .controller htags
  refine ⟨fun hempty => ?_, fun hne => ?_⟩
  · obtain ⟨f, hf⟩ := hnone hempty
    exact ⟨f, by rw [readController, hf]; rfl⟩
  · have hblocks : below { tags := some tags, element := some (controllerElement p).unified }
        "AddOnInstruction" = [] := by
      change (controllerElement p).unified.descendantsNamed "AddOnInstruction" = []
      rw [descendantsNamed_unified, functionBlocks_controllerElement, List.map_nil]
    rw [readController, hsome hne, dataTypes_of_element rfl, hblocks]
    rfl

/-- What comes back of the programs, if there are any. -/
theorem readPrograms_controllerElement {p : Project} (hdistinct : (p.programs.map (·.name)).Nodup)
    {d : Directory ScopeSource}
    (h : d.Lists ((controllerElement p).unified.child? "Programs")
      fun c r => ∃ scope, r = .ok scope ∧ scope.Shows c) :
    (p.programs = [] → ∃ f, readPrograms (some d) = .error f) ∧
      (p.programs ≠ [] → readPrograms (some d) =
        .ok ((p.programs.filter Project.Program.isListed).map Project.Program.reread)) := by
  rw [child?_unified, child?_controllerElement] at h
  simp only [String.reduceEq, if_false, if_true, Option.none_or] at h
  rw [sectionOf?_eq, List.isEmpty_map] at h
  refine ⟨fun hempty => ?_, fun hne => ?_⟩
  · rw [hempty] at h
    obtain ⟨f, hf⟩ := entries_of_absent h
    exact ⟨f, by rw [readPrograms, hf]; rfl⟩
  · rw [if_neg (by simpa using hne)] at h
    exact readPrograms_programSection hdistinct h

/-- A file with the document of a project holds the controller of the project. -/
theorem holdsDocument_projectText {p : Project} (h : p.Legal) {files : Files}
    {path text : String} (htext : projectText p = .ok text)
    (hfile : files.content path = .ok (.text text)) :
    HoldsDocument files path (projectElement p).unified ∧
      (projectElement p).unified.child? "Controller" = some (controllerElement p).unified := by
  rw [projectText] at htext
  split at htext
  · cases htext
    refine ⟨holdsDocument_render hfile (writable_projectElement h) rfl, ?_⟩
    rw [child?_unified]
    rfl
  · cases htext

/-- What comes back of a project.  Nothing does unless there are controller tags and programs,
since only these have sections to list. -/
theorem load_projectText {opener : Opener} (hopener : opener.Documented) {p : Project}
    (h : p.Legal) (hdistinct : (p.programs.map (·.name)).Nodup) {files : Files}
    {path text : String} (htext : projectText p = .ok text)
    (hfile : files.content path = .ok (.text text)) :
    (p.controller.tags = [] ∨ p.programs = [] → ∃ f, load opener files path none = .error f) ∧
      (p.controller.tags ≠ [] → p.programs ≠ [] →
        ∃ q, load opener files path none = .ok q ∧ p.ComesBackAs q) := by
  obtain ⟨hdocument, hchild⟩ := holdsDocument_projectText h htext hfile
  obtain ⟨s, hs, hcontroller, d, hd, hlists⟩ := hopener.opens hdocument hchild
  obtain ⟨hnotags, htags⟩ := readController_controllerElement p hcontroller
  obtain ⟨hnoprograms, hprograms⟩ := readPrograms_controllerElement hdistinct hlists
  rw [load_of_opened hs, ProjectSource.project, hd]
  refine ⟨fun hempty => ?_, fun htagged hprogrammed => ?_⟩
  · by_cases hne : p.controller.tags = []
    · obtain ⟨f, hf⟩ := hnotags hne
      exact ⟨f, by rw [hf]; rfl⟩
    · obtain ⟨f, hf⟩ := hnoprograms (hempty.resolve_left hne)
      exact ⟨f, by rw [htags hne, hf]; rfl⟩
  · rw [htags htagged, hprograms hprogrammed]
    exact ⟨_, rfl, rfl, rfl⟩

end Exchange

end ControlLogic
