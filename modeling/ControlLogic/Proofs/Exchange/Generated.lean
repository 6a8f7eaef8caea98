import ControlLogic.Exchange.Generate
import ControlLogic.Proofs.Exchange.Routine
import ControlLogic.Proofs.StructuredText.Declarations

/-!
# Generated documents, read again

A document is generated from Structured Text, and from the document a project is read, by any
opener that does what is documented.

* `generate_eq`: every source gives a document, in which each declared variable has an element
  (`declaredElement`) and the statements stand in the text of one routine.
* `readTags_tagSection`: the declared variables come back as controller tags, in order.
* `documentRoutine_routineElement`: the program comes back with its routine, but without the
  statements.  They are written as one text, and the reader looks for lines.
* `load_generated` puts the parts together.
-/

namespace ControlLogic.Exchange

open Markup Markup.Element StructuredText

/-! ## Variables -/

/-- The variables of a source are the declared ones, with nothing kept. -/
theorem vars_readProgram (source : String) :
    (readProgram Table.empty source).vars =
      Table.ofList ((declarations source).map fun d => (d.name, ⟨d, none⟩)) := by
  rw [Table.ofList, List.foldl_map]
  rfl

theorem of_mem_vars {source : String} {e : String × Variable}
    (h : e ∈ (readProgram Table.empty source).vars.entries) :
    ∃ d ∈ declarations source, e = (d.name, ⟨d, none⟩) := by
  rw [vars_readProgram] at h
  obtain ⟨d, hd, heq⟩ := List.mem_map.1 (Table.mem_of_mem_entries_ofList h)
  exact ⟨d, hd, heq.symm⟩

theorem nodup_keys_vars (source : String) : (readProgram Table.empty source).vars.keys.Nodup := by
  rw [vars_readProgram]
  exact Table.nodup_keys_ofList _

/-! ## Tags -/

/-- The type that is written for a declared variable. -/
def writtenType (d : Declaration) : String := if d.type = "Unknown" then "DINT" else d.type

/-- The element with the initial value, if there is one. -/
def initialElements (d : Declaration) : List Element :=
  match d.initial with
  | some s => if s = "" then [] else [ofText "Value" s]
  | none => []

/-- The element of a declared variable. -/
def declaredElement (d : Declaration) : Element where
  tag := "Tag"
  attributes := .ofList ([("Name", d.name), ("DataType", writtenType d), ("Scope", "Controller"),
    ("TagType", "Base")] ++ (d.range.map fun r => ("Dimension", r)).toList)
  children := initialElements d ++ [dataElement (writtenType d)]

theorem attributeText_writtenType (d : Declaration) :
    attributeText (Variable.facts ⟨d, none⟩).writtenType = .ok (writtenType d) := by
  have htype : (Variable.facts ⟨d, none⟩).type = .text d.type := rfl
  rw [TagFacts.writtenType, htype, writtenType]
  by_cases h : d.type = "Unknown"
  · rw [if_pos h, h]
    rfl
  · rw [if_neg h, if_neg (by simpa [Json.isText] using h)]
    rfl

theorem optionalElement_initialValue (d : Declaration) :
    optionalElement "Value" (Variable.facts ⟨d, none⟩).initialValue = .ok (initialElements d) := by
  rw [initialElements]
  cases hinitial : d.initial with
  | none =>
    have hvalue : (Variable.facts ⟨d, none⟩).initialValue = .text "" := by
      rw [Variable.facts, hinitial]
      rfl
    rw [hvalue]
    rfl
  | some s =>
    have hvalue : (Variable.facts ⟨d, none⟩).initialValue = .text s := by
      rw [Variable.facts, hinitial]
      rfl
    rw [hvalue, optionalElement]
    by_cases hs : s = "" <;> simp [hs]

/-- Every declared variable can be written. -/
theorem tagElement_declared (d : Declaration) :
    tagElement d.name (Variable.facts ⟨d, none⟩) = .ok (declaredElement d) := by
  rw [tagElement, attributeText_writtenType, optionalElement_initialValue, declaredElement,
    TagFacts.checkRange]
  cases hrange : d.range with
  | none =>
    simp only [Variable.facts, hrange]
    rfl
  | some range =>
    simp only [Variable.facts, hrange]
    rfl

theorem checkRange_declared (d : Declaration) :
    (Variable.facts ⟨d, none⟩).checkRange = .ok () := by
  rw [TagFacts.checkRange]
  cases hrange : d.range <;> simp [Variable.facts, hrange]

theorem forM_eq_ok {α : Type} {f : α → Except Fault Unit} {l : List α}
    (h : ∀ a ∈ l, f a = .ok ()) : l.forM f = .ok () := by
  induction l with
  | nil => rfl
  | cons a l ih =>
    change (f a >>= fun _ => l.forM f) = _
    rw [h a List.mem_cons_self]
    exact ih fun b hb => h b (List.mem_cons_of_mem _ hb)

/-- The elements of the variables of a source. -/
def declaredElements (source : String) : List Element :=
  (readProgram Table.empty source).vars.entries.map fun e => declaredElement e.2.declaration

theorem tagElements_declared (source : String) :
    tagElements ((readProgram Table.empty source).vars.entries.map fun e => (e.1, e.2.facts)) =
      .ok (declaredElements source) := by
  rw [tagElements, forM_eq_ok]
  · change List.mapM (fun t : String × TagFacts => tagElement t.1 t.2) _ = _
    rw [List.mapM_map]
    refine mapM_eq_ok fun e he => ?_
    obtain ⟨d, -, rfl⟩ := of_mem_vars he
    exact tagElement_declared d
  · refine List.forall_mem_map.2 fun e he => ?_
    obtain ⟨d, -, rfl⟩ := of_mem_vars he
    exact checkRange_declared d

theorem controllerVariables_readProgram (source : String) :
    (readProgram Table.empty source).controllerVariables =
      (readProgram Table.empty source).vars.entries := by
  refine List.filter_eq_self.2 fun e he => ?_
  obtain ⟨d, -, rfl⟩ := of_mem_vars he
  rfl

theorem programVariables_readProgram (source : String) :
    (readProgram Table.empty source).programVariables = [] := by
  refine List.filter_eq_nil_iff.2 fun e he => ?_
  obtain ⟨d, -, rfl⟩ := of_mem_vars he
  exact Bool.false_ne_true

/-! ## Legal texts -/

theorem isLegal_of_mem_declarations {source : String} (h : IsLegal source) {d : Declaration}
    (hd : d ∈ declarations source) : ∀ s ∈ d.texts, IsLegal s :=
  fun s hs x hx => h x (mem_of_mem_declarations hd s hs x hx)

theorem isLegal_append {s t : String} (hs : IsLegal s) (ht : IsLegal t) : IsLegal (s ++ t) := by
  intro c hc
  rw [String.toList_append, List.mem_append] at hc
  exact hc.elim (hs c) (ht c)

theorem isLegal_join {sep : String} (hsep : IsLegal sep) {pieces : List String}
    (h : ∀ s ∈ pieces, IsLegal s) : IsLegal (Text.join sep pieces) := by
  intro c hc
  rcases Text.mem_toList_join hc with hc | ⟨s, hs, hc⟩
  · exact hsep c hc
  · exact h s hs c hc

theorem isLegal_declarationLine {d : Declaration} (h : ∀ s ∈ d.texts, IsLegal s) :
    IsLegal (declarationLine d.name ⟨d, none⟩) := by
  simp only [Declaration.texts, List.forall_mem_append, List.forall_mem_cons,
    Option.mem_toList] at h
  obtain ⟨⟨⟨hname, htype, -⟩, hrange⟩, -⟩ := h
  have hdisplay : (Variable.facts ⟨d, none⟩).type.display = d.type := rfl
  rw [declarationLine, hdisplay]
  split
  · rename_i range hr
    exact isLegal_append (isLegal_append (isLegal_append (isLegal_append (isLegal_append
      (isLegal_append (by decide) hname) (by decide)) (hrange range hr)) (by decide)) htype)
      (by decide)
  · exact isLegal_append (isLegal_append (isLegal_append (isLegal_append (by decide) hname)
      (by decide)) htype) (by decide)

/-- The text of the routine may stand in a document. -/
theorem isLegal_routineText {source : String} (h : IsLegal source) :
    IsLegal (readProgram Table.empty source).routineText := by
  have hlines : ∀ s ∈ (readProgram Table.empty source).vars.entries.map
      (fun e => declarationLine e.1 e.2), IsLegal s := by
    refine List.forall_mem_map.2 fun e he => ?_
    obtain ⟨d, hd, rfl⟩ := of_mem_vars he
    exact isLegal_declarationLine (isLegal_of_mem_declarations h hd)
  have hlogic : ∀ s ∈ (readProgram Table.empty source).logic, IsLegal s :=
    fun s hs x hx => h x (mem_of_mem_programLines hs x hx)
  refine isLegal_join (by decide) ?_
  simp only [List.forall_mem_append]
  refine ⟨⟨by decide, ?_⟩, hlogic⟩
  split
  · exact List.forall_mem_nil _
  · simp only [List.forall_mem_append, List.forall_mem_cons]
    exact ⟨⟨by decide, hlines⟩, by decide⟩

theorem routineText_ne_empty (p : Program) : p.routineText ≠ "" := by
  intro h
  rw [Program.routineText, Text.join_eq_empty_iff (by decide)] at h
  simp at h

/-! ## The document -/

theorem writable_declaredElement {d : Declaration} (h : ∀ s ∈ d.texts, IsLegal s) :
    (declaredElement d).Writable := by
  simp only [Declaration.texts, List.forall_mem_append, List.forall_mem_cons,
    Option.mem_toList] at h
  obtain ⟨⟨⟨hname, htype, -⟩, hrange⟩, hinitial⟩ := h
  have hwritten : IsLegal (writtenType d) := by
    rw [writtenType]
    split
    · decide
    · exact htype
  refine writable_iff.2 ⟨.of_attributes (by decide) ?_ _, List.forall_mem_append.2 ⟨?_, ?_⟩⟩
  · refine List.forall_mem_append.2 ⟨?_, ?_⟩
    · exact plain_cons (by decide) (by decide) hname
        (plain_cons (by decide) (by decide) hwritten (by decide))
    · intro a ha
      obtain ⟨range, hr, rfl⟩ := Option.map_eq_some_iff.1 (Option.mem_toList.1 ha)
      exact plain_cons (by decide) (by decide) (hrange range hr) plain_nil _ List.mem_cons_self
  · intro e he
    rw [initialElements] at he
    split at he
    · rename_i s hs
      split at he
      · exact absurd he List.not_mem_nil
      · rename_i hne
        rw [List.mem_singleton.1 he]
        exact writable_ofText (by decide) hne (hinitial s hs)
    · exact absurd he List.not_mem_nil
  · refine List.forall_mem_singleton.2 (writable_iff.2 ⟨.of_attributes (by decide) (by decide) _,
      List.forall_mem_singleton.2 (writable_iff.2 ⟨?_, List.forall_mem_nil _⟩)⟩)
    refine Plain.withText (.of_attributes (by decide) ?_ []) (by decide) (by decide)
    exact plain_cons (by decide) (by decide) hwritten (by decide)

theorem writable_mainRoutine {source : String} (h : IsLegal source) :
    (readProgram Table.empty source).routineElement.Writable := by
  refine writable_iff.2 ⟨.of_attributes (by decide) (by decide) _,
    List.forall_mem_singleton.2 (writable_iff.2 ⟨?_, List.forall_mem_nil _⟩)⟩
  exact Plain.withText (.of_attributes (by decide) (by decide) [])
    (routineText_ne_empty _) (isLegal_routineText h)

theorem writable_basicTypeElements : ∀ e ∈ basicTypeElements, e.Writable := by
  have hlegal : ∀ t ∈ basicTypes, IsLegal t := by decide
  refine List.forall_mem_map.2 fun t ht => writable_leaf (by decide) ?_
  exact plain_cons (by decide) (by decide) (hlegal t ht) (plain_cons (by decide) (by decide)
    (by decide) (plain_cons (by decide) (by decide) (hlegal t ht) (by decide)))

theorem writable_taskElement : taskElement.Writable := by
  refine writable_iff.2 ⟨.of_attributes (by decide) (by decide) _, ?_⟩
  refine List.forall_mem_cons.2 ⟨writable_leaf (by decide) (by decide),
    List.forall_mem_singleton.2 (writable_iff.2 ⟨.of_attributes (by decide) plain_nil _, ?_⟩)⟩
  exact List.forall_mem_singleton.2 (writable_leaf (by decide) (by decide))

/-- The controller of the document of a source. -/
def generatedController (source : String) : Element :=
  mainControllerElement (declaredElements source)
    (mainProgramElement [] (readProgram Table.empty source).routineElement)

/-- Every source gives a document. -/
theorem generate_eq (source : String) :
    generate source = .ok (documentElement (generatedController source)) := by
  have htags := tagElements_declared source
  rw [← controllerVariables_readProgram] at htags
  rw [generate, Program.document]
  change (tagElements ((readProgram Table.empty source).controllerVariables.map
    fun e => (e.1, e.2.facts)) >>= _) = _
  rw [htags, programVariables_readProgram]
  rfl

theorem writable_documentElement {source : String} (h : IsLegal source) :
    (documentElement (generatedController source)).Writable := by
  have htags : ∀ e ∈ declaredElements source, e.Writable := by
    refine List.forall_mem_map.2 fun e he => ?_
    obtain ⟨d, hd, rfl⟩ := of_mem_vars he
    exact writable_declaredElement (isLegal_of_mem_declarations h hd)
  have hprogram :
      (mainProgramElement [] (readProgram Table.empty source).routineElement).Writable := by
    refine writable_iff.2 ⟨.of_attributes (by decide) (by decide) _, List.forall_mem_cons.2
      ⟨writable_leaf (by decide) plain_nil, List.forall_mem_singleton.2 (writable_iff.2 ?_)⟩⟩
    exact ⟨.of_attributes (by decide) plain_nil _,
      List.forall_mem_singleton.2 (writable_mainRoutine h)⟩
  have hsection : ∀ {tag : String} {es : List Element}, IsPlainName tag →
      (∀ e ∈ es, e.Writable) → Writable { tag, children := es } := fun htag hes =>
    writable_iff.2 ⟨.of_attributes htag plain_nil _, hes⟩
  refine writable_iff.2 ⟨.of_attributes (by decide) (by decide) _,
    List.forall_mem_singleton.2
      (writable_iff.2 ⟨.of_attributes (by decide) (by decide) _, ?_⟩)⟩
  refine List.forall_mem_cons.2 ⟨hsection (by decide) writable_basicTypeElements,
    List.forall_mem_cons.2 ⟨hsection (by decide) htags,
    List.forall_mem_cons.2 ⟨hsection (by decide) (List.forall_mem_singleton.2 hprogram),
    List.forall_mem_singleton.2 (hsection (by decide)
      (List.forall_mem_singleton.2 writable_taskElement))⟩⟩⟩

/-! ## The variables as tags -/

theorem attribute?_declaredElement (d : Declaration) {k : String} (hk : k ≠ "Dimension") :
    (declaredElement d).attribute? k = (Table.ofList [("Name", d.name),
      ("DataType", writtenType d), ("Scope", "Controller"), ("TagType", "Base")]).get? k := by
  refine Table.get?_ofList_append_of_not_mem fun hmem => ?_
  obtain ⟨a, ha, rfl⟩ := List.mem_map.1 hmem
  obtain ⟨range, -, rfl⟩ := Option.map_eq_some_iff.1 (Option.mem_toList.1 ha)
  exact hk rfl

theorem name_declaredElement (d : Declaration) :
    (declaredElement d).unified.attribute? "Name" = some d.name := by
  rw [attribute?_unified, attribute?_declaredElement d (by decide)]
  rfl

/-- Every variable is written with data. -/
theorem hasData_declaredElement (d : Declaration) : HasData (declaredElement d).unified := by
  refine ⟨(dataElement (writtenType d)).unified, ?_, ?_, ?_⟩
  · rw [childrenNamed, children_unified, declaredElement, List.mem_filter]
    exact ⟨List.mem_map_of_mem (List.mem_append_right _ List.mem_cons_self), rfl⟩
  · rw [attribute?_unified]
    rfl
  · rw [children_unified]
    exact List.cons_ne_nil _ _

/-- The section of the tags of a source, as it is read. -/
def tagSection (source : String) : Element :=
  unified { tag := "Tags", children := declaredElements source }

theorem children_tagSection (source : String) :
    (tagSection source).children = (readProgram Table.empty source).vars.entries.map fun e =>
      (declaredElement e.2.declaration).unified := by
  rw [tagSection, children_unified, declaredElements, List.map_map]
  rfl

theorem nameOf_declaredElement (d : Declaration) : nameOf (declaredElement d).unified = d.name :=
  nameOf_eq (name_declaredElement d)

/-- The names in the section are those of the variables. -/
theorem names_tagSection (source : String) :
    (tagSection source).children.map nameOf = (readProgram Table.empty source).vars.keys := by
  rw [children_tagSection, List.map_map, Table.keys]
  refine List.map_congr_left fun e he => ?_
  obtain ⟨d, -, rfl⟩ := of_mem_vars he
  exact nameOf_declaredElement d

theorem contains_quote_eq_false {s : String} (h : ∀ x ∈ s.toList, Text.isWordChar x = true) :
    Text.contains "'" s = false := by
  rw [← Bool.not_eq_true, Text.contains, Text.Chars.contains_iff_infix]
  intro hoccurs
  have hquote := h '\'' (hoccurs.subset List.mem_cons_self)
  revert hquote
  decide

/-- The declared variables come back as tags. -/
theorem readTags_tagSection (source : String) {d : Directory TagSource}
    (h : d.Lists (some (tagSection source)) TagMade) :
    ∃ tags, readTags .controller (some d) = .ok tags ∧
      tags.map (·.name) = (readProgram Table.empty source).vars.keys ∧
      ∀ t ∈ tags, t.scope = .controller := by
  have hchildren : ∀ {P : Element → Prop},
      (∀ d ∈ declarations source, P (declaredElement d).unified) →
      ∀ c ∈ (tagSection source).children, P c := by
    intro P hP
    rw [children_tagSection]
    refine List.forall_mem_map.2 fun e he => ?_
    obtain ⟨d, hd, rfl⟩ := of_mem_vars he
    exact hP d hd
  rw [← names_tagSection]
  refine readTags_of_lists .controller h (hchildren fun d _ => ?_) ?_ (hchildren fun d hd => ?_)
    (hchildren fun d _ => ?_) (hchildren fun d _ => hasData_declaredElement d)
    (hchildren fun d _ => ?_)
  · rw [name_declaredElement]
    rfl
  · rw [names_tagSection]
    exact nodup_keys_vars source
  · rw [nameOf_declaredElement]
    exact contains_quote_eq_false (isWordChar_of_mem_declarations hd)
  · rw [attribute?_unified, attribute?_declaredElement d (by decide)]
    exact ⟨"Base", rfl, by decide⟩
  · rw [attribute?_unified, attribute?_declaredElement d (by decide)]
    rfl

/-! ## The program and its routine -/

/-- The program that is read from every generated document. -/
def mainProgram : Project.Program where
  name := "MainProgram"
  routines := [{ name := "MainRoutine", language := .st, content := some "" }]

/-- The text of the routine stands in no line, so that nothing of it is read. -/
theorem documentRoutine_routineElement (p : Program) :
    documentRoutine p.routineElement.unified =
      { name := "MainRoutine", language := .st, content := some "" } := by
  have hlanguage : languageOf (p.routineElement.unified.attributeD "Type" "ST") = .st := by
    change languageOf "ST" = .st
    decide
  have hlines : documentLines p.routineElement.unified = [] := rfl
  have hcontent : documentContent .st p.routineElement.unified = "" := by
    change Text.join "\n" (documentLines p.routineElement.unified) = ""
    rw [hlines]
    rfl
  rw [documentRoutine, hlanguage, hcontent]
  rfl

theorem readProgram?_mainProgramElement (p : Program) {s : ScopeSource}
    (h : s.Shows (mainProgramElement [] p.routineElement).unified) :
    readProgram? "MainProgram" s = some mainProgram := by
  have helements : routineElements (mainProgramElement [] p.routineElement).unified =
      [p.routineElement.unified] := rfl
  have hroutines : readRoutines s = mainProgram.routines := by
    rw [readRoutines_of_shows h, helements, List.map_singleton, documentRoutine_routineElement]
    rfl
  obtain ⟨tags, htags, rfl⟩ := h
  have hread : readTags .program (some tags) = .ok [] := by
    refine readTags_eq_nil .program (s := unified { tag := "Tags" }) htags ?_ ?_ ?_
    all_goals exact List.forall_mem_nil _
  rw [readProgram?, hroutines, hread]
  rfl

/-- The section of the program, as it is read. -/
def mainProgramSection (p : Program) : Element :=
  unified { tag := "Programs", children := [mainProgramElement [] p.routineElement] }

/-- The section of the program is read as the program. -/
theorem readPrograms_mainProgramSection (p : Program) {d : Directory ScopeSource}
    (h : d.Lists (some (mainProgramSection p)) fun c r => ∃ scope, r = .ok scope ∧ scope.Shows c) :
    readPrograms (some d) = .ok [mainProgram] := by
  have hchildren : (mainProgramSection p).children =
      [p].map fun p => (mainProgramElement [] p.routineElement).unified := by
    rw [mainProgramSection, children_unified]
    rfl
  have hname : ∀ p : Program,
      (mainProgramElement [] p.routineElement).unified.attribute? "Name" = some "MainProgram" :=
    fun _ => rfl
  have hquote : (!Text.contains "'" "MainProgram") = true := by decide
  have hread : ∀ q ∈ [p], ∀ scope : ScopeSource,
      scope.Shows (mainProgramElement [] q.routineElement).unified →
        readProgram? "MainProgram" scope = some mainProgram :=
    fun q _ _ => readProgram?_mainProgramElement q
  rw [readPrograms_of_lists h hchildren hname (by simp) hread, hquote]
  rfl

/-- What is read from the document of a source. -/
theorem load_generated {opener : Opener} (hopener : opener.Documented) {source : String}
    (h : IsLegal source) {files : Files} {path : String}
    (hfile : files.content path =
      .ok (.text (documentElement (generatedController source)).render)) :
    ∃ q, load opener files path none = .ok q ∧
      q.controller.tags.map (·.name) = (readProgram Table.empty source).vars.keys ∧
      (∀ t ∈ q.controller.tags, t.scope = .controller) ∧
      q.programs = [mainProgram] := by
  have hdocument := holdsDocument_render hfile (writable_documentElement h) rfl
  have hchild : (documentElement (generatedController source)).unified.child? "Controller" =
      some (generatedController source).unified := by
    rw [child?_unified]
    rfl
  obtain ⟨s, hs, ⟨tags, htags, hcontroller⟩, programs, hprograms, hlists⟩ :=
    hopener.opens hdocument hchild
  rw [child?_unified] at htags hlists
  obtain ⟨read, hread, hnames, hscopes⟩ := readTags_tagSection source htags
  have hmain := readPrograms_mainProgramSection (readProgram Table.empty source) hlists
  rw [load_of_opened hs, ProjectSource.project, hcontroller, readController, hread, hprograms,
    hmain]
  exact ⟨_, rfl, hnames, hscopes, rfl⟩

/-- The element with the text of the routine. -/
def stContent (p : Program) : Element :=
  { leaf "STContent" [("Use", "Context")] with text := some p.routineText }

theorem mem_stContent (source : String) :
    stContent (readProgram Table.empty source) ∈
      (documentElement (generatedController source)).all := by
  -- controller, section of the programs, program, section of the routines, routine
  refine mem_all_of_child List.mem_cons_self (mem_all_of_child
    (List.mem_cons_of_mem _ (List.mem_cons_of_mem _ List.mem_cons_self)) (mem_all_of_child
    List.mem_cons_self (mem_all_of_child (List.mem_cons_of_mem _ List.mem_cons_self)
    (mem_all_of_child List.mem_cons_self (mem_all_of_child List.mem_cons_self ?_)))))
  rw [all_eq_cons]
  exact List.mem_cons_self

theorem generateText_eq (source : String) :
    generateText source = .ok (documentElement (generatedController source)).render := by
  rw [generateText, generate_eq]
  rfl

/-- The declared variables of a source come back from its document as the controller tags, each
name once and in order.  The one program comes back with its one routine. -/
theorem tags_of_generated {opener : Opener} (hopener : opener.Documented) {source : String}
    (h : IsLegal source) :
    ∃ text, generateText source = .ok text ∧
      ∀ (files : Files) (path : String), files.content path = .ok (.text text) →
        ∃ q, load opener files path none = .ok q ∧
          q.controller.tags.map (·.name) = (readProgram Table.empty source).vars.keys ∧
          (q.controller.tags.map (·.name)).Nodup ∧
          (∀ t ∈ q.controller.tags, t.scope = .controller) ∧
          q.programs.map (·.name) = ["MainProgram"] ∧
          q.routines.map (fun r => (r.name, r.language)) = [("MainRoutine", .st)] := by
  refine ⟨_, generateText_eq source, fun files path hfile => ?_⟩
  obtain ⟨q, hload, hnames, hscopes, hprograms⟩ := load_generated hopener h hfile
  refine ⟨q, hload, hnames, hnames ▸ nodup_keys_vars source, hscopes, ?_, ?_⟩
  · rw [hprograms]
    rfl
  · rw [Project.routines, hprograms]
    rfl

/-- A place with the document of a source alone. -/
def generatedFiles (source : String) : Files :=
  Table.empty.insert "plc.L5X"
    (.text (documentElement (generatedController source)).render)

/-- A source with a plain variable, an array and two statements. -/
def pumpSource : String :=
  "VAR\nLevel : REAL := 1;\nPumps : ARRAY[1..4] OF BOOL;\nEND_VAR\nLevel := 2;\nRun(); // all"

theorem isLegal_pumpSource : IsLegal pumpSource := by decide

theorem tags_of_generated_pumpSource :
    ∃ q, load Document.opener (generatedFiles pumpSource) "plc.L5X" none = .ok q ∧
      q.controller.tags.map (·.name) = ["Level", "Pumps"] ∧
      (∀ t ∈ q.controller.tags, t.scope = .controller) ∧
      q.programs.map (·.name) = ["MainProgram"] ∧
      q.routines.map (fun r => (r.name, r.language)) = [("MainRoutine", .st)] := by
  have hkeys : (readProgram Table.empty pumpSource).vars.keys = ["Level", "Pumps"] := by
    decide
  obtain ⟨text, htext, hread⟩ := tags_of_generated Document.documented_opener isLegal_pumpSource
  rw [generateText_eq] at htext
  cases htext
  obtain ⟨q, hload, hnames, -, hscopes, hprograms, hroutines⟩ :=
    hread (generatedFiles pumpSource) "plc.L5X" rfl
  exact ⟨q, hload, hnames.trans hkeys, hscopes, hprograms, hroutines⟩

/-- The statements of a source stand in its document in order, but nothing of them is read: the
routine comes back empty.  So the statements come back only if there are none. -/
theorem statements_of_generated {opener : Opener} (hopener : opener.Documented) {source : String}
    (h : IsLegal source) :
    ∃ root text, generate source = .ok root ∧ generateText source = .ok text ∧
      (∃ e ∈ root.all, e.tag = "STContent" ∧
        Text.HoldsInOrder (readProgram Table.empty source).logic e.content.toList) ∧
      ∀ (files : Files) (path : String), files.content path = .ok (.text text) →
        ∃ q, load opener files path none = .ok q ∧
          q.routines.map (fun r => (r.name, r.content)) = [("MainRoutine", some "")] ∧
          ∀ r ∈ q.routines,
            (Text.HoldsInOrder (readProgram Table.empty source).logic r.text.toList ↔
              (readProgram Table.empty source).logic = []) := by
  refine ⟨_, _, generate_eq source, generateText_eq source, ?_, fun files path hfile => ?_⟩
  · refine ⟨_, mem_stContent source, rfl, ?_⟩
    exact Text.holdsInOrder_join "\n" _ (readProgram Table.empty source).logic
  · obtain ⟨q, hload, -, -, hprograms⟩ := load_generated hopener h hfile
    have hroutines : q.routines = mainProgram.routines := by
      rw [Project.routines, hprograms]
      rfl
    refine ⟨q, hload, ?_, ?_⟩
    · rw [hroutines]
      rfl
    · rw [hroutines]
      refine List.forall_mem_singleton.2 ?_
      exact Text.holdsInOrder_nil_iff fun line hline => ne_empty_of_mem_programLines hline

theorem statements_of_generated_pumpSource :
    (readProgram Table.empty pumpSource).logic = ["Level := 2;", "Run();"] ∧
    (∃ root, generate pumpSource = .ok root ∧ ∃ e ∈ root.all, e.tag = "STContent" ∧
      Text.HoldsInOrder (readProgram Table.empty pumpSource).logic e.content.toList) ∧
    ∃ q, load Document.opener (generatedFiles pumpSource) "plc.L5X" none = .ok q ∧
      q.routines.map (fun r => (r.name, r.content)) = [("MainRoutine", some "")] := by
  obtain ⟨root, text, hroot, htext, hwritten, hread⟩ :=
    statements_of_generated Document.documented_opener isLegal_pumpSource
  rw [generateText_eq] at htext
  cases htext
  obtain ⟨q, hload, hroutines, -⟩ := hread (generatedFiles pumpSource) "plc.L5X" rfl
  exact ⟨by decide +kernel, ⟨root, hroot, hwritten⟩, q, hload, hroutines⟩

/-- A single statement is lost. -/
theorem statement_lost :
    (readProgram Table.empty "x := 1;").logic = ["x := 1;"] ∧
    ∃ q, load Document.opener (generatedFiles "x := 1;") "plc.L5X" none = .ok q ∧
      q.routines.map (fun r => (r.name, r.content)) = [("MainRoutine", some "")] ∧
      ¬ Text.HoldsInOrder ["x := 1;"] "".toList := by
  have hlegal : IsLegal "x := 1;" := by decide
  have hfile : (generatedFiles "x := 1;").content "plc.L5X" =
      .ok (.text (documentElement (generatedController "x := 1;")).render) := rfl
  obtain ⟨q, hload, -, -, hprograms⟩ := load_generated Document.documented_opener hlegal hfile
  refine ⟨by decide +kernel, q, hload, ?_, ?_⟩
  · rw [Project.routines, hprograms]
    rfl
  · exact fun hholds => absurd ((Text.holdsInOrder_nil_iff (by decide)).1 hholds) (by decide)

end ControlLogic.Exchange
