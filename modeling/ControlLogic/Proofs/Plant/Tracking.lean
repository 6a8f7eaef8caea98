import ControlLogic.Proofs.Analysis.Reference
import ControlLogic.Proofs.Plant.Dependencies

/-!
# The names that tags are tracked under

A plant tracks a tag under what is kept of the references to it, which is their last part.

* `assignmentLine` is a line that assigns.  `writesTag_assignmentLine` and
  `readsTag_assignmentLine` say what such a line writes and reads if a reference stands on one side.
* `isPart_of_writes` and `isPart_of_reads`: what is tracked is always a last part.
* `dependencies_by_last_part` puts this together for two lines of different controllers.  Whether
  they are connected depends on the last parts of their references, and not on the references.
-/

namespace ControlLogic

namespace Analysis

open Text

/-- A line that assigns what is right to what is left. -/
def assignmentLine (left right : String) : String := left ++ " := " ++ right ++ ";"

theorem toList_assignmentLine (left right : String) : (assignmentLine left right).toList =
    left.toList ++ ' ' :: (":=".toList ++ ' ' :: (right.toList ++ [';'])) := by
  simp [assignmentLine]

theorem breakOn?_assignmentLine {left : String} (hleft : contains ":=" left = false)
    (right : String) : Chars.breakOn? ":=".toList (assignmentLine left right).toList =
      some (left.toList ++ [' '], ' ' :: (right.toList ++ [';'])) := by
  have hnone : Chars.breakOn? ":=".toList left.toList = none := Chars.breakOn?_eq_none_iff.2 hleft
  rw [toList_assignmentLine, Chars.breakOn?_append_sep (by decide) (by decide), hnone]
  rfl

/-- Such a line has two sides if no further sign stands in them. -/
theorem splitOn_assignmentLine {left right : String} (hleft : contains ":=" left = false)
    (hright : contains ":=" right = false) :
    splitOn ":=" (assignmentLine left right) = [left ++ " ", " " ++ right ++ ";"] := by
  have hnone : Chars.breakOn? ":=".toList right.toList = none :=
    Chars.breakOn?_eq_none_iff.2 hright
  have hrest : Chars.breakOn? ":=".toList (' ' :: (right.toList ++ [';'])) = none := by
    rw [← List.nil_append (' ' :: _), Chars.breakOn?_append_sep (by decide) (by decide),
      Chars.breakOn?_append_sep (by decide) (by decide), hnone]
    rfl
  rw [splitOn, Chars.splitOn_of_breakOn? (by decide) (breakOn?_assignmentLine hleft right),
    Chars.splitOn_of_not_contains (by decide) (Chars.breakOn?_eq_none_iff.1 hrest)]
  simp [← String.toList_inj]

theorem contains_assignmentLine {left : String} (hleft : contains ":=" left = false)
    (right : String) : contains ":=" (assignmentLine left right) = true := by
  rw [← Bool.not_eq_false]
  intro hcontains
  have hnone := Chars.breakOn?_eq_none_iff.2 hcontains
  rw [breakOn?_assignmentLine hleft] at hnone
  cases hnone

/-! ## References on a side -/

theorem isBlank_of_isNamePart {c : Char} (h : isNamePart c = true) : isBlank c = false := by
  have hrange := isNamePart_iff.1 h
  rw [← Bool.not_eq_true]
  intro hblank
  simp only [isBlank, Bool.or_eq_true, Bool.and_eq_true, decide_eq_true_eq, beq_iff_eq] at hblank
  omega

namespace TagPath

variable (T : TagPath)

theorem isBlank_of_mem_text {c : Char} (h : c ∈ T.text.toList) : isBlank c = false := by
  rcases T.mem_text h with hc | rfl
  · exact isBlank_of_isNamePart hc
  · decide

theorem not_mem_text {c : Char} (hc : isNamePart c = false) (hdot : c ≠ '.') :
    c ∉ T.text.toList := by
  intro h
  rcases T.mem_text h with hpart | rfl
  · rw [hc] at hpart
    cases hpart
  · exact hdot rfl

theorem contains_text : contains ":=" T.text = false := by
  rw [← Bool.not_eq_true]
  intro h
  have hcolon : ':' ∈ T.text.toList :=
    (Chars.contains_iff_infix.1 h).subset (by decide : ':' ∈ ":=".toList)
  exact T.not_mem_text (by decide) (by decide) hcolon

/-- The left side of an assignment to a reference. -/
theorem strip_text_append : strip (T.text ++ " ") = T.text := by
  have htrim : Chars.trim isBlank ([] ++ (T.text.toList ++ [' '])) = T.text.toList :=
    Chars.trim_append_append (by simp) (fun c hc => T.isBlank_of_mem_text hc)
      (List.forall_mem_singleton.2 (by decide))
  rw [← String.toList_inj, strip, String.toList_ofList, String.toList_append]
  exact htrim

/-- The right side of an assignment of a reference. -/
theorem trimRight_strip_text : trimRight (· == ';') (strip (" " ++ T.text ++ ";")) = T.text := by
  have hblank : ∀ c ∈ T.text.toList ++ [';'], isBlank c = false := by
    intro c hc
    rcases List.mem_append.1 hc with hc | hc
    · exact T.isBlank_of_mem_text hc
    · rw [List.mem_singleton.1 hc]
      decide
  have hsemicolon : ∀ c ∈ T.text.toList, (c == ';') = false := by
    rintro c hc
    refine beq_false_of_ne ?_
    rintro rfl
    exact T.not_mem_text (by decide) (by decide) hc
  have htrim : Chars.trim isBlank ([' '] ++ ((T.text.toList ++ [';']) ++ [])) =
      T.text.toList ++ [';'] :=
    Chars.trim_append_append (List.forall_mem_singleton.2 (by decide)) hblank (by simp)
  have hend : Chars.trimRight (· == ';') (T.text.toList ++ [';']) = T.text.toList :=
    Chars.trimRight_append hsemicolon (List.forall_mem_singleton.2 (by decide))
  rw [← String.toList_inj, trimRight, strip, String.toList_ofList, String.toList_ofList,
    String.toList_append, String.toList_append, List.append_assoc]
  rw [List.append_nil] at htrim
  exact (congrArg (Chars.trimRight (· == ';')) htrim).trans hend

/-- References are confused if they have the same last part. -/
theorem kept_eq_kept_iff {T U : TagPath} :
    T.kept = U.kept ↔ T.parts.getLast? = U.parts.getLast? := by
  have hne : ∀ s : String, "." ++ s ≠ "" := by simp
  rw [kept, kept]
  cases T.parts.getLast? with
  | none =>
    cases U.parts.getLast? with
    | none => simp
    | some u => simp [(hne u).symm]
  | some t =>
    cases U.parts.getLast? with
    | none => simp [hne t]
    | some u => simp

end TagPath

/-- An assignment to a reference writes its last part. -/
theorem writesTag_assignmentLine (T : TagPath) {e : String} (he : contains ":=" e = false)
    {tag : String} :
    WritesTag (assignmentLine T.text e) tag ↔ T.parts ≠ [] ∧ tag = T.kept := by
  have hkept : T.kept ≠ "" ↔ T.parts ≠ [] := not_congr T.kept_eq_empty_iff
  rw [WritesTag, splitOn_assignmentLine T.contains_text he]
  constructor
  · rintro ⟨_, _, ⟨⟩, htag, hne⟩
    rw [T.strip_text_append, firstReference?_text] at htag
    cases htag
    exact ⟨hkept.1 hne, rfl⟩
  · rintro ⟨hparts, rfl⟩
    refine ⟨_, _, rfl, ?_, hkept.2 hparts⟩
    rw [T.strip_text_append, firstReference?_text]

/-- An assignment of a reference reads its last part. -/
theorem readsTag_assignmentLine (T : TagPath) {x : String} (hx : contains ":=" x = false)
    {tag : String} :
    ReadsTag (assignmentLine x T.text) tag ↔ T.parts ≠ [] ∧ tag = T.kept := by
  have hreferences : tag ∈ references T.text ↔ T.parts ≠ [] ∧ tag = T.kept := by
    rw [references_text]
    by_cases hparts : T.parts = []
    · simp [hparts]
    · simp [hparts]
  rw [ReadsTag, splitOn_assignmentLine hx T.contains_text, contains_assignmentLine hx,
    ← hreferences]
  constructor
  · rintro (⟨_, _, ⟨⟩, htag⟩ | ⟨⟨⟩, _⟩)
    rwa [T.trimRight_strip_text] at htag
  · intro htag
    refine .inl ⟨_, _, rfl, ?_⟩
    rwa [T.trimRight_strip_text]

end Analysis

namespace Plant

open Analysis Text

theorem HasLine.of_eq {p : Plant} {controller line : String} {P : String → Prop}
    (h : p.HasLine controller (· = line)) (hP : P line) : p.HasLine controller P := by
  obtain ⟨e, he, hname, q, hq, r, hr, line, hline, rfl⟩ := h
  exact ⟨e, he, hname, q, hq, r, hr, line, hline, hP⟩

theorem isPart_of_writes {p : Plant} {controller tag : String} (h : p.Writes controller tag) :
    IsPart tag := by
  obtain ⟨e, -, -, q, -, r, -, line, -, left, right, -, htag, hne⟩ := h
  exact isPart_of_firstReference? htag hne

theorem isPart_of_reads {p : Plant} {controller tag : String} (h : p.Reads controller tag) :
    IsPart tag := by
  obtain ⟨e, -, -, q, -, r, -, line, -, ⟨left, right, -, htag⟩ | ⟨-, condition, -, htag⟩⟩ := h
  · exact isPart_of_mem_references htag
  · exact isPart_of_mem_references htag

/-- The tag of a dependency is a last part. -/
theorem isPart_of_mem_dependencies {p : Plant} (hp : p.controllers.keys.Nodup) {d : Dependency}
    (hd : d ∈ p.dependencies) : IsPart d.tag :=
  isPart_of_writes ((mem_dependencies hp).1 hd).2.1

/-- Two lines are connected by a dependency under what the one writes and the other reads. -/
def Connects (d : Dependency) (writing reading : String) : Prop :=
  WritesTag writing d.tag ∧ ReadsTag reading d.tag

theorem exists_connects_iff {p : Plant} (hp : p.controllers.keys.Nodup) {T U : TagPath}
    {w r e x : String} (hne : w ≠ r) (hwrites : p.HasLine w (· = assignmentLine T.text e))
    (hreads : p.HasLine r (· = assignmentLine x U.text)) (he : contains ":=" e = false)
    (hx : contains ":=" x = false) :
    (∃ d ∈ p.dependencies, d.writer = w ∧ d.reader = r ∧
      Connects d (assignmentLine T.text e) (assignmentLine x U.text)) ↔
      T.parts ≠ [] ∧ T.parts.getLast? = U.parts.getLast? := by
  simp only [Connects, writesTag_assignmentLine T he, readsTag_assignmentLine U hx]
  constructor
  · rintro ⟨d, -, -, -, ⟨hparts, htag⟩, -, htag'⟩
    exact ⟨hparts, TagPath.kept_eq_kept_iff.1 (htag.symm.trans htag')⟩
  · rintro ⟨hparts, hlast⟩
    have hkept : T.kept = U.kept := TagPath.kept_eq_kept_iff.2 hlast
    have hparts' : U.parts ≠ [] := by
      intro hnil
      rw [hnil] at hlast
      exact hparts (List.getLast?_eq_none_iff.1 hlast)
    refine ⟨⟨T.kept, w, r, (p.definition? w T.kept).map (·.dataType),
      (p.definition? w T.kept).bind (·.description)⟩, ?_, rfl, rfl, ⟨hparts, rfl⟩, hparts', hkept⟩
    refine (mem_dependencies hp).2 ⟨hne, hwrites.of_eq ?_, hreads.of_eq ?_, rfl, rfl⟩
    · exact (writesTag_assignmentLine T he).2 ⟨hparts, rfl⟩
    · exact (readsTag_assignmentLine U hx).2 ⟨hparts', hkept⟩

/-- Tags are tracked under the last parts of their references.  An expression that is a reference
gives its last part, which is never the reference itself, and nothing if there is no part.  Nothing
is written, read or reported under a reference; and an assignment to one reference and, in another
controller, an assignment of one, the same or not, are connected exactly if they have the last part
in common. -/
theorem dependencies_by_last_part (p : Plant) (hp : p.controllers.keys.Nodup) :
    (∀ T : TagPath, firstReference? T.text = some T.kept ∧
      references T.text = (if T.parts = [] then [] else [T.kept]) ∧ T.kept ≠ T.text) ∧
    (∀ (T : TagPath) (controller : String),
      ¬ p.Writes controller T.text ∧ ¬ p.Reads controller T.text) ∧
    (∀ d ∈ p.dependencies, ∀ T : TagPath, d.tag ≠ T.text) ∧
    ∀ (T U : TagPath) (w r e x : String), w ≠ r →
      p.HasLine w (· = assignmentLine T.text e) → p.HasLine r (· = assignmentLine x U.text) →
      contains ":=" e = false → contains ":=" x = false →
      ((∃ d ∈ p.dependencies, d.writer = w ∧ d.reader = r ∧
        Connects d (assignmentLine T.text e) (assignmentLine x U.text)) ↔
        T.parts ≠ [] ∧ T.parts.getLast? = U.parts.getLast?) := by
  refine ⟨fun T => ⟨firstReference?_text T, references_text T, T.kept_ne_text⟩, ?_, ?_, ?_⟩
  · intro T controller
    exact ⟨fun h => (isPart_of_writes h).ne_text T rfl, fun h => (isPart_of_reads h).ne_text T rfl⟩
  · intro d hd T
    exact (isPart_of_mem_dependencies hp hd).ne_text T
  · intro T U w r e x hne hwrites hreads he hx
    exact exists_connects_iff hp hne hwrites hreads he hx

def levelPath : TagPath := ⟨"LEVEL", [], by decide⟩

def tankRun : TagPath := ⟨"TANK", ["RUN"], by decide⟩

def pumpRun : TagPath := ⟨"PUMP", ["RUN"], by decide⟩

/-- The first controller writes a tag that the second reads, and another that it does not. -/
def mixedPlant : Plant where
  controllers := ⟨[
    ("P1", oneRoutine
      [{ name := "LEVEL", dataType := "REAL", scope := .controller, description := some "tank" }]
      [assignmentLine levelPath.text "SENSOR", assignmentLine tankRun.text "1"]),
    ("P2", oneRoutine []
      [assignmentLine "X" levelPath.text, assignmentLine "Y" pumpRun.text])]⟩

theorem dependencies_by_last_part_mixedPlant :
    mixedPlant.controllers.keys.Nodup ∧ tankRun.text ≠ pumpRun.text ∧
      mixedPlant.HasLine "P1" (· = assignmentLine tankRun.text "1") ∧
      mixedPlant.HasLine "P2" (· = assignmentLine "Y" pumpRun.text) ∧
      contains ":=" "1" = false ∧ contains ":=" "Y" = false ∧
      ∃ d ∈ mixedPlant.dependencies, d.writer = "P1" ∧ d.reader = "P2" ∧
        Connects d (assignmentLine tankRun.text "1") (assignmentLine "Y" pumpRun.text) := by
  have hkeys : mixedPlant.controllers.keys.Nodup := by decide
  have hwrites : mixedPlant.HasLine "P1" (· = assignmentLine tankRun.text "1") :=
    hasLine_oneRoutine _ List.mem_cons_self (by decide) rfl
  have hreads : mixedPlant.HasLine "P2" (· = assignmentLine "Y" pumpRun.text) :=
    hasLine_oneRoutine _ (List.mem_cons_of_mem _ List.mem_cons_self) (by decide) rfl
  refine ⟨hkeys, by decide, hwrites, hreads, by decide, by decide, ?_⟩
  obtain ⟨-, -, -, hconnected⟩ := dependencies_by_last_part mixedPlant hkeys
  exact (hconnected tankRun pumpRun "P1" "P2" "1" "Y" (by decide) hwrites hreads (by decide)
    (by decide)).2 (by decide)

/-- The first controller writes `LEVEL` and the second reads it, but nothing is reported of it; and
what the first does with `TANK.RUN` and the second with `PUMP.RUN` is reported as one tag. -/
theorem level_missed_and_run_confused :
    firstReference? "LEVEL" = some "" ∧ references "LEVEL" = [] ∧
      mixedPlant.HasLine "P1" (· = "LEVEL := SENSOR;") ∧
      mixedPlant.HasLine "P2" (· = "X := LEVEL;") ∧
      (∀ d ∈ mixedPlant.dependencies, d.tag ≠ "LEVEL") ∧
      mixedPlant.HasLine "P1" (· = "TANK.RUN := 1;") ∧
      mixedPlant.HasLine "P2" (· = "Y := PUMP.RUN;") ∧
      ⟨".RUN", "P1", "P2", none, none⟩ ∈ mixedPlant.dependencies := by
  have hkeys : mixedPlant.controllers.keys.Nodup := by decide
  have hfirst : ∀ line ∈ ["LEVEL := SENSOR;", "TANK.RUN := 1;"],
      mixedPlant.HasLine "P1" (· = line) := fun line hline =>
    hasLine_oneRoutine _ List.mem_cons_self (by revert line; decide) rfl
  have hsecond : ∀ line ∈ ["X := LEVEL;", "Y := PUMP.RUN;"],
      mixedPlant.HasLine "P2" (· = line) := fun line hline =>
    hasLine_oneRoutine _ (List.mem_cons_of_mem _ List.mem_cons_self)
      (by revert line; decide) rfl
  refine ⟨firstReference?_text levelPath, references_text levelPath, hfirst _ (by simp),
    hsecond _ (by simp), fun d hd => (isPart_of_mem_dependencies hkeys hd).ne_text levelPath,
    hfirst _ (by simp), hsecond _ (by simp), ?_⟩
  refine (mem_dependencies hkeys).2 ⟨by decide, (hfirst "TANK.RUN := 1;" (by simp)).of_eq ?_,
    (hsecond "Y := PUMP.RUN;" (by simp)).of_eq ?_, by decide, by decide⟩
  · exact (writesTag_assignmentLine tankRun (e := "1") (by decide)).2 (by decide)
  · exact (readsTag_assignmentLine pumpRun (x := "Y") (by decide)).2 (by decide)

end Plant

end ControlLogic
