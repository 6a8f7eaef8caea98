import ControlLogic.Proofs.Ladder.Reading
import Mathlib.Data.List.Chain

/-!
# Reading written rungs

The written form of a rung is its stages in a row.  A stage stands in square brackets with
commas between its branches.  A stage of one branch may stand bare, unless a bare stage is next
to it.  This file proves that reading undoes writing on whole rungs.

There are three groups.

* The written forms.  `WrittenStage` is a stage with the choice of brackets, and `IsRung` says
  that a text holds given stages, with spaces anywhere and perhaps a semicolon at the end.
* Marking.  `markFrom_stages` says that exactly the delimiters of stages and branches are
  marked.  A comma or an opening bracket is marked only if an operand list follows it, and one
  does, since every branch has a call.
* Cutting.  `readPieces` is the cut of a marked text at the marks of stages.
  `readPieces_stages` reads the stages off one by one; that no two bare stages touch is what
  keeps them apart.

`readRung_of_isRung` is the result.
-/

namespace ControlLogic.Ladder

open Text

/-! ## Written stages and rungs -/

/-- A stage with the way it is written. -/
structure WrittenStage where
  /-- Whether the stage stands without brackets. -/
  bare : Bool
  stage : Stage
  deriving DecidableEq

namespace WrittenStage

/-- The branches of a stage with commas between them. -/
def inner (w : WrittenStage) : List Char := [','].intercalate (w.stage.map branchChars)

/-- The written form of a stage. -/
def chars (w : WrittenStage) : List Char :=
  if w.bare then w.inner else '[' :: (w.inner ++ [']'])

end WrittenStage

/-- The written form of a rung. -/
def rungChars (ws : List WrittenStage) : List Char := ws.flatMap WrittenStage.chars

/-- The stages may be written so: only a stage of one branch is bare, and no two bare stages
stand side by side. -/
def Separated (ws : List WrittenStage) : Prop :=
  (∀ w ∈ ws, w.bare = true → w.stage.length = 1) ∧
    ws.IsChain fun v w => ¬ (v.bare = true ∧ w.bare = true)

instance (ws : List WrittenStage) : Decidable (Separated ws) :=
  inferInstanceAs (Decidable (_ ∧ _))

/-- The text holds the rung with these stages and nothing else: a written form with spaces
anywhere and perhaps a semicolon at the end. -/
def IsRung (text : String) (stages : List Stage) : Prop :=
  ∃ ws : List WrittenStage, ws.map WrittenStage.stage = stages ∧ Separated ws ∧
    (text.toList.filter (· ≠ ' ') = rungChars ws ∨
      text.toList.filter (· ≠ ' ') = rungChars ws ++ [';'])

/-- A stage that its written form determines: it has branches, each of them has calls, and the
calls are readable. -/
structure ReadableStage (s : Stage) : Prop where
  ne_nil : s ≠ []
  branch_ne_nil : ∀ b ∈ s, b ≠ []
  readable : ∀ b ∈ s, ∀ c ∈ b, c.Readable

theorem ReadableStage.tail {b : Branch} {s : Stage} (h : ReadableStage (b :: s)) (hs : s ≠ []) :
    ReadableStage s where
  ne_nil := hs
  branch_ne_nil := fun d hd => h.branch_ne_nil d (List.mem_cons_of_mem _ hd)
  readable := fun d hd => h.readable d (List.mem_cons_of_mem _ hd)

/-! ## Marking -/

/-- A written branch has an operand list. -/
theorem open_mem_branchChars {b : Branch} (h : b ≠ []) : '(' ∈ branchChars b := by
  obtain ⟨c, b, rfl⟩ := List.exists_cons_of_ne_nil h
  simp [branchChars, Call.chars]

theorem open_mem_intercalate {sep : Char} {s : Stage} (hs : s ≠ []) (h : ∀ b ∈ s, b ≠ []) :
    '(' ∈ [sep].intercalate (s.map branchChars) := by
  obtain ⟨b, s, rfl⟩ := List.exists_cons_of_ne_nil hs
  have hb : '(' ∈ branchChars b := open_mem_branchChars (h b List.mem_cons_self)
  cases s with
  | nil => simpa using hb
  | cons c s => simp [List.intercalate_cons_cons, hb]

/-- A delimiter outside the operand lists is marked if an operand list follows. -/
theorem markFrom_delimiter {c : Char} (hc : c ≠ '(') {rest : List Char} (h : '(' ∈ rest) :
    markFrom false (c :: rest) = markDelimiter c :: markFrom false rest := by
  rw [markFrom, if_neg Bool.false_ne_true, if_neg hc, if_pos (by simpa using h)]

/-- A closing bracket outside the operand lists is marked wherever it stands. -/
theorem markFrom_closing (rest : List Char) :
    markFrom false (']' :: rest) = '>' :: markFrom false rest := by
  have hmark : markDelimiter ']' = '>' := by decide
  have hclosing : markClosing ']' = '>' := by decide
  rw [markFrom, if_neg Bool.false_ne_true, if_neg (by decide), hmark, hclosing, ite_self]

/-- The commas between branches are marked. -/
theorem markFrom_branches {s : Stage} (h : ReadableStage s) (rest : List Char) :
    markFrom false ([','].intercalate (s.map branchChars) ++ rest) =
      [';'].intercalate (s.map branchChars) ++ markFrom false rest := by
  induction s with
  | nil => exact absurd rfl h.ne_nil
  | cons b s ih =>
    have hb := h.readable b List.mem_cons_self
    cases s with
    | nil => simpa using markFrom_branch hb rest
    | cons c s =>
      have htail := h.tail (List.cons_ne_nil c s)
      have hopen : '(' ∈ [','].intercalate ((c :: s).map branchChars) ++ rest :=
        List.mem_append_left _ (open_mem_intercalate htail.ne_nil htail.branch_ne_nil)
      have hcomma : markDelimiter ',' = ';' := by decide
      simp only [List.map_cons, List.intercalate_cons_cons, List.append_assoc,
        List.cons_append, List.nil_append] at hopen ih ⊢
      rw [markFrom_branch hb, markFrom_delimiter (by decide) hopen, hcomma, ih htail]

namespace WrittenStage

/-- The marked form of a stage. -/
def marked (w : WrittenStage) : List Char :=
  if w.bare then [';'].intercalate (w.stage.map branchChars)
  else '<' :: ([';'].intercalate (w.stage.map branchChars) ++ ['>'])

/-- The delimiters of a stage and of its branches are marked. -/
theorem markFrom_chars {w : WrittenStage} (h : ReadableStage w.stage) (rest : List Char) :
    markFrom false (w.chars ++ rest) = w.marked ++ markFrom false rest := by
  rw [chars, marked, inner]
  split
  · exact markFrom_branches h rest
  · have hopen : '(' ∈ [','].intercalate (w.stage.map branchChars) ++ ']' :: rest :=
      List.mem_append_left _ (open_mem_intercalate h.ne_nil h.branch_ne_nil)
    have hbracket : markDelimiter '[' = '<' := by decide
    simp only [List.cons_append, List.append_assoc, List.nil_append]
    rw [markFrom_delimiter (by decide) hopen, hbracket, markFrom_branches h, markFrom_closing]

end WrittenStage

theorem markFrom_stages {ws : List WrittenStage} (h : ∀ w ∈ ws, ReadableStage w.stage)
    (rest : List Char) :
    markFrom false (rungChars ws ++ rest) =
      ws.flatMap WrittenStage.marked ++ markFrom false rest := by
  induction ws with
  | nil => rfl
  | cons w ws ih =>
    rw [rungChars, List.flatMap_cons, List.append_assoc,
      WrittenStage.markFrom_chars (h w List.mem_cons_self), ← rungChars,
      ih fun v hv => h v (List.mem_cons_of_mem _ hv), List.flatMap_cons, List.append_assoc]

/-! ## Reading branches -/

/-- The branches of a stage, marked. -/
theorem readBranches_intercalate {s : Stage} (h : ReadableStage s) :
    readBranches ([';'].intercalate (s.map branchChars)) = s := by
  have hsplit : List.splitOn ';' ([';'].intercalate (s.map branchChars)) = s.map branchChars := by
    obtain ⟨b, bs, rfl⟩ := List.exists_cons_of_ne_nil h.ne_nil
    rw [List.map_cons]
    refine List.splitOn_intercalate _ (fun piece hpiece => ?_) (List.cons_ne_nil _ _)
    rw [← List.map_cons] at hpiece
    obtain ⟨d, hd, rfl⟩ := List.mem_map.1 hpiece
    exact not_mem_branchChars (h.readable d hd) (by simp)
  have hcalls : (s.map branchChars).map readCalls = s := by
    rw [List.map_map]
    conv_rhs => rw [← List.map_id s]
    apply List.map_congr_left
    intro b hb
    exact readCalls_chars (h.readable b hb)
  rw [readBranches, hsplit, hcalls, List.filter_eq_self]
  intro b hb
  simpa using h.branch_ne_nil b hb

/-- A semicolon behind the only branch of a stage opens no further branch. -/
theorem readBranches_intercalate_semicolon {s : Stage} (h : ReadableStage s)
    (hone : s.length = 1) :
    readBranches ([';'].intercalate (s.map branchChars) ++ [';']) = s := by
  obtain ⟨b, rfl⟩ := List.length_eq_one_iff.1 hone
  have hb : b ≠ [] := h.branch_ne_nil b List.mem_cons_self
  simpa [hb] using readBranches_chars_semicolon (h.readable b List.mem_cons_self)

/-! ## Cutting at the marks of stages -/

/-- The marks of stages become spaces. -/
def spaceMarks (c : Char) : Char := if c = '<' ∨ c = '>' then ' ' else c

/-- The stages between spaces. -/
def readPieces (s : List Char) : List Stage :=
  ((List.splitOn ' ' s).map readBranches).filter (!·.isEmpty)

theorem readStages_eq_readPieces {s : List Char} (h : ' ' ∉ s) :
    readStages (String.ofList s) = readPieces (s.map spaceMarks) := by
  have hfilter : s.filter (· ≠ ' ') = s := by
    rw [List.filter_eq_self]
    intro c hc
    have : c ≠ ' ' := by rintro rfl; exact h hc
    simpa using this
  rw [readStages, String.toList_ofList, hfilter]
  rfl

/-- A space at the beginning opens no stage. -/
theorem readPieces_space (rest : List Char) : readPieces (' ' :: rest) = readPieces rest := by
  have hnil : readBranches [] = [] := rfl
  rw [readPieces, Chars.splitOn_cons_self, List.map_cons, hnil]
  rfl

/-- The first stage ends at the first space. -/
theorem readPieces_append_space {piece : List Char} (h : ' ' ∉ piece)
    (hread : readBranches piece ≠ []) (rest : List Char) :
    readPieces (piece ++ ' ' :: rest) = readBranches piece :: readPieces rest := by
  rw [readPieces, List.splitOn_append_cons_self_of_not_mem h, List.map_cons,
    List.filter_cons_of_pos]
  · rfl
  · simpa using hread

theorem readPieces_of_not_mem {piece : List Char} (h : ' ' ∉ piece)
    (hread : readBranches piece ≠ []) : readPieces piece = [readBranches piece] := by
  rw [readPieces, List.splitOn_eq_singleton h, List.map_singleton, List.filter_cons_of_pos]
  · rfl
  · simpa using hread

/-- No mark of a stage stands between the branches of a stage. -/
theorem not_mem_intercalate {s : Stage} (h : ReadableStage s) {d : Char}
    (hd : d = ' ' ∨ d = '<' ∨ d = '>') : d ∉ [';'].intercalate (s.map branchChars) := by
  intro hmem
  rcases mem_intercalate hmem with hmem | ⟨piece, hpiece, hmem⟩
  · rw [List.mem_singleton.1 hmem] at hd
    revert hd
    decide
  · obtain ⟨b, hb, rfl⟩ := List.mem_map.1 hpiece
    exact not_mem_branchChars (h.readable b hb) (by rcases hd with rfl | rfl | rfl <;> simp) hmem

theorem map_spaceMarks_intercalate {s : Stage} (h : ReadableStage s) :
    ([';'].intercalate (s.map branchChars)).map spaceMarks =
      [';'].intercalate (s.map branchChars) := by
  conv_rhs => rw [← List.map_id ([';'].intercalate (s.map branchChars))]
  apply List.map_congr_left
  intro c hc
  have hleft : c ≠ '<' := by rintro rfl; exact not_mem_intercalate h (by simp) hc
  have hright : c ≠ '>' := by rintro rfl; exact not_mem_intercalate h (by simp) hc
  simp [spaceMarks, hleft, hright]

namespace WrittenStage

/-- The marked form of a stage with spaces for its marks. -/
theorem map_spaceMarks_marked {w : WrittenStage} (h : ReadableStage w.stage) :
    w.marked.map spaceMarks =
      if w.bare then [';'].intercalate (w.stage.map branchChars)
      else ' ' :: ([';'].intercalate (w.stage.map branchChars) ++ [' ']) := by
  rw [marked]
  split
  · exact map_spaceMarks_intercalate h
  · rw [List.map_cons, List.map_append, map_spaceMarks_intercalate h]
    rfl

theorem space_not_mem_marked {w : WrittenStage} (h : ReadableStage w.stage) :
    ' ' ∉ w.marked := by
  have hbody : ' ' ∉ [';'].intercalate (w.stage.map branchChars) :=
    not_mem_intercalate h (by simp)
  rw [marked]
  split
  · exact hbody
  · simp [hbody]

end WrittenStage

/-- What may stand behind the last stage: nothing or a semicolon. -/
def IsEnding (rest : List Char) : Prop := rest = [] ∨ rest = [';']

/-- A stage that ends the text is read off, with what stands behind it. -/
theorem readPieces_last {s : Stage} (h : ReadableStage s) (hone : s.length = 1)
    {rest : List Char} (hrest : IsEnding rest) :
    readPieces ([';'].intercalate (s.map branchChars) ++ rest) = [s] := by
  have hspace : ' ' ∉ [';'].intercalate (s.map branchChars) := not_mem_intercalate h (by simp)
  have hread : readBranches ([';'].intercalate (s.map branchChars) ++ rest) = s := by
    rcases hrest with rfl | rfl
    · rw [List.append_nil, readBranches_intercalate h]
    · exact readBranches_intercalate_semicolon h hone
  rw [readPieces_of_not_mem, hread]
  · rcases hrest with rfl | rfl <;> simp [hspace]
  · rw [hread]; exact h.ne_nil

/-- The stages of a marked text are read off one by one.  The induction is on the stages; a
bare stage is read off together with the space that opens the stage behind it. -/
theorem readPieces_stages {ws : List WrittenStage} (h : ∀ w ∈ ws, ReadableStage w.stage)
    (hsep : Separated ws) {rest : List Char} (hrest : IsEnding rest) :
    readPieces (ws.flatMap (fun w => w.marked.map spaceMarks) ++ rest) =
      ws.map WrittenStage.stage := by
  induction ws with
  | nil => rcases hrest with rfl | rfl <;> rfl
  | cons w ws ih =>
    have hw : ReadableStage w.stage := h w List.mem_cons_self
    have hspace : ' ' ∉ [';'].intercalate (w.stage.map branchChars) :=
      not_mem_intercalate hw (by simp)
    have hread : readBranches ([';'].intercalate (w.stage.map branchChars)) = w.stage :=
      readBranches_intercalate hw
    have hne : readBranches ([';'].intercalate (w.stage.map branchChars)) ≠ [] := by
      rw [hread]; exact hw.ne_nil
    have htail := ih (fun v hv => h v (List.mem_cons_of_mem _ hv))
      ⟨fun v hv => hsep.1 v (List.mem_cons_of_mem _ hv), hsep.2.tail⟩
    rw [List.flatMap_cons, WrittenStage.map_spaceMarks_marked hw, List.map_cons]
    cases hbare : w.bare with
    | false =>
      simp only [Bool.false_eq_true, if_false, List.cons_append, List.append_assoc,
        List.nil_append]
      rw [readPieces_space, readPieces_append_space hspace hne, hread, htail]
    | true =>
      rw [if_pos rfl]
      cases ws with
      | nil =>
        rw [List.flatMap_nil, List.append_nil]
        exact readPieces_last hw (hsep.1 w List.mem_cons_self hbare) hrest
      | cons v ws =>
        have hv : v.bare = false := by
          have := (List.isChain_cons_cons.1 hsep.2).1
          simpa [hbare] using this
        rw [List.flatMap_cons,
          WrittenStage.map_spaceMarks_marked (h v (by simp)), hv] at htail ⊢
        simp only [Bool.false_eq_true, if_false, List.cons_append, List.append_assoc,
          List.nil_append] at htail ⊢
        rw [readPieces_space] at htail
        rw [readPieces_append_space hspace hne, hread, htail]

/-! ## Reading undoes writing -/

/-- Reading undoes writing: a text that holds a rung is read as exactly its stages, branches
and calls with their operands in order, and among the calls that were read the contacts are
those with the name of a contact. -/
theorem readRung_of_isRung {text : String} {stages : List Stage}
    (hstages : ∀ s ∈ stages, s ≠ []) (hbranches : ∀ s ∈ stages, ∀ b ∈ s, b ≠ [])
    (hcalls : ∀ s ∈ stages, ∀ b ∈ s, ∀ c ∈ b, c.Readable) (htext : IsRung text stages) :
    readRung text = stages ∧
    ∀ s ∈ readRung text, ∀ b ∈ s, ∀ c ∈ b, c.isContact = true ↔
      c.name ∈ ["EQU", "NEQ", "XIC", "XIO", "GRT", "GEQ", "LES", "LEQ"] := by
  obtain ⟨ws, rfl, hsep, htext⟩ := htext
  have hreadable : ∀ w ∈ ws, ReadableStage w.stage := fun w hw =>
    have hmem : w.stage ∈ ws.map WrittenStage.stage := List.mem_map_of_mem hw
    ⟨hstages _ hmem, hbranches _ hmem, hcalls _ hmem⟩
  obtain ⟨rest, hrest, htext⟩ : ∃ rest, IsEnding rest ∧
      text.toList.filter (· ≠ ' ') = rungChars ws ++ rest := by
    rcases htext with htext | htext
    · exact ⟨[], .inl rfl, by rw [htext, List.append_nil]⟩
    · exact ⟨[';'], .inr rfl, htext⟩
  have hending : markFrom false rest = rest ∧ ' ' ∉ rest ∧ rest.map spaceMarks = rest := by
    rcases hrest with rfl | rfl <;> decide
  have hmarked : ' ' ∉ ws.flatMap WrittenStage.marked ++ rest := by
    intro hmem
    rcases List.mem_append.1 hmem with hmem | hmem
    · obtain ⟨w, hw, hmem⟩ := List.mem_flatMap.1 hmem
      exact WrittenStage.space_not_mem_marked (hreadable w hw) hmem
    · exact hending.2.1 hmem
  refine ⟨?_, fun s _ b _ c _ => by simp [Call.isContact, contactNames]⟩
  rw [readRung, markStages, htext, markFrom_stages hreadable, hending.1,
    readStages_eq_readPieces hmarked, List.map_append, List.map_flatMap, hending.2.2]
  exact readPieces_stages hreadable hsep hrest

theorem readRung_of_isRung_instance :
    readRung " XIC(In[2].0) [OTE( a ),EQU(n,Row[1]) MOV(5,n)][TON(T,500)]OTL(b) ;" =
      [[[⟨"XIC", ["In[2].0"]⟩]],
        [[⟨"OTE", ["a"]⟩], [⟨"EQU", ["n", "Row[1]"]⟩, ⟨"MOV", ["5", "n"]⟩]],
        [[⟨"TON", ["T", "500"]⟩]], [[⟨"OTL", ["b"]⟩]]] :=
  (readRung_of_isRung (by decide) (by decide) (by decide)
    ⟨[⟨true, [[⟨"XIC", ["In[2].0"]⟩]]⟩,
      ⟨false, [[⟨"OTE", ["a"]⟩], [⟨"EQU", ["n", "Row[1]"]⟩, ⟨"MOV", ["5", "n"]⟩]]⟩,
      ⟨false, [[⟨"TON", ["T", "500"]⟩]]⟩, ⟨true, [[⟨"OTL", ["b"]⟩]]⟩],
      rfl, by decide, .inr (by decide)⟩).1

end ControlLogic.Ladder
