import ControlLogic.Exchange.Survey
import ControlLogic.Proofs.Exchange.Document

/-!
# The ladders of a document

Two readers take the ladders of a document.  The reader of projects goes through all rungs
below a routine and takes the text of a rung from its attribute `Text`.  The survey goes from
child to child and takes the text of a rung from the character section in its child `Text`.
This file says what the content of a routine is and when the two agree.  What it says of projects
holds of every source that shows its controller, whatever opened it.

* `exists_element_of_mem_programs`: the routines of a program are those of its element.
* `content_ladder`: the content of a ladder is the code of its attributes.  A ladder that
  carries its rungs in character sections has no content (`content_of_no_attribute`).
* `documentRungs_eq_ladderRungs`: in the plain layout both readers meet the same rungs.
* `routineText_ladder`: the survey writes the code of the character sections.
-/

namespace ControlLogic.Exchange

open Markup

/-! ## Programs and their elements -/

/-- The elements of the programs of a controller. -/
def programElements (controller : Element) : List Element :=
  match controller.child? "Programs" with
  | some s => s.children
  | none => []

/-- The elements of the routines of a program. -/
def routineElements (program : Element) : List Element :=
  match program.descendant? "Routines" with
  | some s => s.descendantsNamed "Routine"
  | none => []

theorem documentRoutines_eq_map (program : Element) :
    documentRoutines program = (routineElements program).map documentRoutine := by
  rw [documentRoutines, routineElements]
  cases program.descendant? "Routines" <;> rfl

/-- A scope that shows an element lists no routines, so that those of the element are read. -/
theorem readRoutines_of_shows {s : ScopeSource} {e : Element} (h : s.Shows e) :
    readRoutines s = (routineElements e).map documentRoutine := by
  obtain ⟨tags, -, rfl⟩ := h
  exact documentRoutines_eq_map e

/-- A program of a project that was read has the routines of an element of the controller with
its name. -/
theorem exists_element_of_mem_programs {s : ProjectSource} {controller : Element}
    (hs : s.Shows controller) {p : Project} (hp : s.project = .ok p) {q : Project.Program}
    (hq : q ∈ p.programs) :
    ∃ e ∈ programElements controller, e.attribute? "Name" = some q.name ∧
      q.routines = (routineElements e).map documentRoutine := by
  obtain ⟨programs, hprograms, hlists⟩ := hs.programs
  have hread := (of_project_eq_ok hp).2
  rw [hprograms] at hread
  obtain ⟨entries, hentries, hread⟩ := exists_of_bind_eq_ok hread
  rw [← Except.ok.inj hread] at hq
  obtain ⟨entry, hentry, hq⟩ := List.mem_filterMap.1 hq
  obtain ⟨listing, hlisting, e, he, hname, scope, hscope, hshows⟩ :=
    exists_child_of_mem_entries hlists hentries hentry
  obtain rfl := Except.ok.inj hscope
  obtain ⟨tags, -, hq⟩ := Option.bind_eq_some_iff.1 hq
  obtain rfl := Option.some.inj hq
  refine ⟨e, ?_, hname, readRoutines_of_shows hshows⟩
  rw [programElements, hlisting]
  exact he

/-! ## The rungs of a ladder -/

/-- The rungs of a ladder routine as the reader of projects meets them. -/
def documentRungs (r : Element) : List Element :=
  ((r.descendant? "RLLContent").getD r).descendantsNamed "Rung"

/-- The rungs of a ladder routine as the survey meets them. -/
def ladderRungs (r : Element) : List Element := Survey.inside r "RLLContent" "Rung"

/-- The text of a rung in its attribute, if it is not empty. -/
def rungAttribute? (rung : Element) : Option String :=
  (some (rung.attributeD "Text" "")).filter (!Text.isEmpty ·)

/-- The text of a rung in its character section, without blanks at its ends, if it is not
empty. -/
def rungSection? (rung : Element) : Option String := (rung.child? "Text").bind Survey.sectionText?

/-- The ladder stands as it is exported: its content is a child of the routine, and the rungs
are children of the content. -/
structure PlainLadder (r : Element) : Prop where
  hasContent : (r.child? "RLLContent").isSome = true
  content : ∀ x ∈ r.children, x.descendantsNamed "RLLContent" = []
  rungs : ∀ c, r.child? "RLLContent" = some c → ∀ x ∈ c.children, x.descendantsNamed "Rung" = []

/-- Both readers meet the same rungs in a ladder as it is exported. -/
theorem documentRungs_eq_ladderRungs {r : Element} (h : PlainLadder r) :
    documentRungs r = ladderRungs r := by
  obtain ⟨c, hc⟩ := Option.isSome_iff_exists.1 h.hasContent
  rw [documentRungs, Element.descendant?_eq_child? h.content, ladderRungs, Survey.inside, hc]
  exact Element.descendantsNamed_eq_childrenNamed (h.rungs c hc)

/-! ## The content of a ladder -/

/-- The code that the survey writes for the rungs of a ladder. -/
def surveyedCode (r : Element) : List String :=
  ((ladderRungs r).filterMap rungSection?).map Ladder.rungText

/-- The content of a ladder is the code that the survey writes for it, line by line. -/
def AgreesWithSurvey (r : Element) : Prop :=
  (documentRoutine r).content = some (Text.join "\n" (surveyedCode r))

/-- The content of a ladder is the code of the attributes of its rungs. -/
theorem content_ladder {r : Element} (h : r.attribute? "Type" = some "RLL") :
    (documentRoutine r).content = some (Text.join "\n"
      (((documentRungs r).filterMap rungAttribute?).map Ladder.rungText)) := by
  have hlanguage : languageOf (r.attributeD "Type" "ST") = .rll := by
    rw [Element.attributeD, h]
    decide
  have hlines : ladderLines r =
      ((documentRungs r).filterMap rungAttribute?).map Ladder.rungText := by
    rw [ladderLines, documentRungs, List.map_filterMap]
    apply List.filterMap_congr
    intro rung _
    rw [rungAttribute?]
    cases hempty : Text.isEmpty (rung.attributeD "Text" "") <;> simp [Option.filter, hempty]
  rw [documentRoutine, hlanguage, ← hlines]
  rfl

/-- A ladder without text in attributes has no content. -/
theorem content_of_no_attribute {r : Element} (h : r.attribute? "Type" = some "RLL")
    (hnone : ∀ rung ∈ documentRungs r, rungAttribute? rung = none) :
    (documentRoutine r).content = some "" := by
  rw [content_ladder h, List.filterMap_eq_nil_iff.2 hnone]
  rfl

/-- A ladder without text in attributes agrees with the survey only where the survey writes no
code. -/
theorem agreesWithSurvey_iff_of_no_attribute {r : Element}
    (h : r.attribute? "Type" = some "RLL")
    (hnone : ∀ rung ∈ documentRungs r, rungAttribute? rung = none) :
    AgreesWithSurvey r ↔ surveyedCode r = [] ∨ surveyedCode r = [""] := by
  rw [AgreesWithSurvey, content_of_no_attribute h hnone, Option.some.injEq, eq_comm]
  have hsep : "\n" ≠ "" := by decide
  exact Text.join_eq_empty_iff hsep (surveyedCode r)

/-- A ladder whose rungs have the same text in both places agrees with the survey. -/
theorem agreesWithSurvey_of_eq {r : Element} (h : r.attribute? "Type" = some "RLL")
    (hplain : PlainLadder r)
    (hsame : ∀ rung ∈ ladderRungs r, rungAttribute? rung = rungSection? rung) :
    AgreesWithSurvey r := by
  rw [AgreesWithSurvey, content_ladder h, documentRungs_eq_ladderRungs hplain, surveyedCode,
    List.filterMap_congr hsame]

/-! ## The survey of a ladder -/

/-- A rung as the survey writes it: its number and the code of its character section, or a
remark that there is none. -/
def surveyedRung (rung : Element) : String :=
  "\n// Rung " ++ rung.attributeD "Number" "Unknown" ++
    match rungSection? rung with
    | some t => "\n" ++ Ladder.rungText t ++ "\n"
    | none => if (rung.child? "Text").isSome then " - No content\n" else " - No text element\n"

theorem rungText_eq_surveyedRung (rung : Element) : Survey.rungText rung = surveyedRung rung := by
  rw [Survey.rungText, surveyedRung, rungSection?]
  cases rung.child? "Text" with
  | none => rfl
  | some t => cases hsection : Survey.sectionText? t <;> simp [hsection, String.append_assoc]

/-- The survey writes the rungs of a ladder under the name of the routine. -/
theorem routineText_ladder {r : Element} (h : r.attribute? "Type" = some "RLL")
    (hcontent : (r.child? "RLLContent").isSome = true) :
    Survey.routineText r = "\n// Routine: " ++ r.attributeD "Name" "Unknown" ++
      " (Ladder Logic)\n" ++ String.join ((ladderRungs r).map surveyedRung) := by
  obtain ⟨c, hc⟩ := Option.isSome_iff_exists.1 hcontent
  have htype : r.attributeD "Type" "Unknown" = "RLL" := by rw [Element.attributeD, h]; rfl
  rw [Survey.routineText, htype, ladderRungs, Survey.inside, hc,
    ← funext rungText_eq_surveyedRung]
  rfl

/-! ## Both readers -/

/-- The ladders of a program.  The content of a ladder is the code of the attributes of its
rungs.  Where the texts stand in character sections alone it is empty, and it is what the survey
writes only if the survey writes nothing.  Where they stand in both places the content is the
code of the survey, which always writes the character sections. -/
theorem ladders_of_program {s : ProjectSource} {controller : Element} (hs : s.Shows controller)
    {p : Project} (hp : s.project = .ok p) {q : Project.Program} (hq : q ∈ p.programs) :
    ∃ e ∈ programElements controller, e.attribute? "Name" = some q.name ∧
      q.routines = (routineElements e).map documentRoutine ∧
      ∀ r ∈ routineElements e, r.attribute? "Type" = some "RLL" →
        (documentRoutine r).content = some (Text.join "\n"
          (((documentRungs r).filterMap rungAttribute?).map Ladder.rungText)) ∧
        ((∀ rung ∈ documentRungs r, rungAttribute? rung = none) →
          (documentRoutine r).content = some "" ∧
          (AgreesWithSurvey r ↔ surveyedCode r = [] ∨ surveyedCode r = [""])) ∧
        (PlainLadder r → (∀ rung ∈ ladderRungs r, rungAttribute? rung = rungSection? rung) →
          AgreesWithSurvey r) ∧
        ((r.child? "RLLContent").isSome = true →
          Survey.routineText r = "\n// Routine: " ++ r.attributeD "Name" "Unknown" ++
            " (Ladder Logic)\n" ++ String.join ((ladderRungs r).map surveyedRung)) := by
  obtain ⟨e, he, hname, hroutines⟩ := exists_element_of_mem_programs hs hp hq
  refine ⟨e, he, hname, hroutines, fun r _ htype => ⟨content_ladder htype, fun hnone => ?_,
    fun hplain hsame => agreesWithSurvey_of_eq htype hplain hsame, routineText_ladder htype⟩⟩
  exact ⟨content_of_no_attribute htype hnone, agreesWithSurvey_iff_of_no_attribute htype hnone⟩

/-- A ladder of one rung, with the attributes `attributes` beside its character section. -/
def oneRung (name : String) (attributes : List (String × String)) : Element where
  tag := "Routine"
  attributes := .ofList [("Name", name), ("Type", "RLL")]
  children := [{
    tag := "RLLContent"
    children := [{
      tag := "Rung"
      attributes := .ofList (("Number", "0") :: attributes)
      children := [{ tag := "Text", children := [.ofText "CDATAContent" "XIC(a)OTE(b);"] }] }] }]

/-- A program with two ladders, of which only the second has the text of its rung in an
attribute as well. -/
def twoLadders : Element where
  tag := "Program"
  attributes := .ofList [("Name", "MainProgram")]
  children := [{ tag := "Tags" }, {
    tag := "Routines"
    children := [oneRung "Main" [], oneRung "Both" [("Text", "XIC(a)OTE(b);")]] }]

def ladderDocument : Document where
  language := none
  controller := {
    tag := "Controller"
    children := [{ tag := "Tags" }, { tag := "Programs", children := [twoLadders] }] }

theorem ladders_of_program_instance :
    ladderDocument.source.Shows ladderDocument.controller ∧
    ∃ p q, ladderDocument.source.project = .ok p ∧ q ∈ p.programs ∧ q.name = "MainProgram" ∧
      q.routines = [oneRung "Main" [], oneRung "Both" [("Text", "XIC(a)OTE(b);")]].map
        documentRoutine ∧
      (documentRoutine (oneRung "Main" [])).content = some "" ∧
      AgreesWithSurvey (oneRung "Both" [("Text", "XIC(a)OTE(b);")]) := by
  obtain ⟨p, hp, hprograms⟩ : ∃ p, ladderDocument.source.project = .ok p ∧ p.programs ≠ [] :=
    ⟨_, rfl, List.cons_ne_nil _ _⟩
  obtain ⟨q, hq⟩ := List.exists_mem_of_ne_nil _ hprograms
  obtain ⟨e, he, hname, hroutines, hladders⟩ :=
    ladders_of_program ladderDocument.shows_source hp hq
  obtain rfl : e = twoLadders := List.mem_singleton.1 he
  have helements : routineElements twoLadders =
      [oneRung "Main" [], oneRung "Both" [("Text", "XIC(a)OTE(b);")]] := rfl
  rw [helements] at hroutines hladders
  obtain ⟨-, hmain, -⟩ := hladders (oneRung "Main" []) List.mem_cons_self (by decide)
  obtain ⟨-, -, hboth, -⟩ := hladders (oneRung "Both" [("Text", "XIC(a)OTE(b);")])
    (List.mem_cons_of_mem _ List.mem_cons_self) (by decide)
  have hname' : twoLadders.attribute? "Name" = some "MainProgram" := by decide
  refine ⟨ladderDocument.shows_source, p, q, hp, hq, Option.some.inj (hname.symm.trans hname'),
    hroutines, (hmain ?_).1, hboth ⟨rfl, ?_, ?_⟩ ?_⟩
  · decide
  · decide
  · decide
  · decide

/-- A rung in a character section is lost: the content is empty where the survey writes code. -/
theorem section_rung_lost :
    (ladderRungs (oneRung "Main" [])).map rungSection? = [some "XIC(a)OTE(b);"] ∧
    (documentRoutine (oneRung "Main" [])).content = some "" ∧
    surveyedCode (oneRung "Main" []) =
      ["IF (((a = 1))) THEN\n\tb := 1;\nELSE\n\tb := 0;\nEND_IF;\n"] ∧
    ¬ AgreesWithSurvey (oneRung "Main" []) := by
  have hnone : ∀ rung ∈ documentRungs (oneRung "Main" []), rungAttribute? rung = none := by
    decide
  have hcode : surveyedCode (oneRung "Main" []) =
      ["IF (((a = 1))) THEN\n\tb := 1;\nELSE\n\tb := 0;\nEND_IF;\n"] := by
    decide +kernel
  refine ⟨by decide, content_of_no_attribute (by decide) hnone, hcode, ?_⟩
  rw [agreesWithSurvey_iff_of_no_attribute (by decide) hnone, hcode]
  decide

end ControlLogic.Exchange
