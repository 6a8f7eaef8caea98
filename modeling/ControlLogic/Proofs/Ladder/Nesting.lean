import ControlLogic.Ladder.Code
import ControlLogic.Proofs.Ladder.OneLine
import Mathlib.Data.List.TakeWhile

/-!
# The nesting of the code of a rung

The text of a rung is put together from lines: statements, and the lines that open, divide and
close a condition.  This file says how the text of a rung is made of the texts of its parts, and
that its conditions are nested.

* Indentation.  `outdent_deeper`: in an indentation of spaces and tabulators behind them, the first
  tabulator is as good as the last, so every step leaves the indentation as it was.  From this
  `stepsText_append` follows.
* Emission.  `RungCode.lines` are the lines that are written, and `CodeLine.control?` says which of
  them control.  `nestingAfter` goes through controls with a stack of the open conditions, and
  `nestingAfter_steps` says that steps leave the stack alone.
* Reading.  `textControls` finds the controls in a text line by line.  `textControls_linesText` says
  that it finds those that were written, if no line ends within a name or an operand.
-/

namespace ControlLogic.Ladder

open StructuredText Text

/-! ## Indentation -/

/-- An indentation of spaces with tabulators behind them. -/
def IsTabbed (tab : String) : Prop :=
  ∃ m n : Nat, tab.toList = List.replicate m ' ' ++ List.replicate n '\t'

theorem IsTabbed.deeper {tab : String} (h : IsTabbed tab) : IsTabbed (tab ++ "\t") := by
  obtain ⟨m, n, h⟩ := h
  refine ⟨m, n + 1, ?_⟩
  rw [String.toList_append, h, List.replicate_succ']
  simp

/-- The first tabulator may be taken away for the last. -/
theorem outdent_deeper {tab : String} (h : IsTabbed tab) : outdent (tab ++ "\t") = tab := by
  obtain ⟨m, n, h⟩ := h
  have hspaces : ∀ m, Chars.replaceFirst ['\t'] [] (List.replicate m ' ' ++ '\t' ::
      List.replicate n '\t') = List.replicate m ' ' ++ List.replicate n '\t' := by
    intro m
    induction m with
    | zero => simp [Chars.replaceFirst]
    | succ m ih =>
      rw [List.replicate_succ, List.cons_append, Chars.replaceFirst, ih]
      simp
  rw [outdent, replaceFirst, ← String.toList_inj, String.toList_ofList, String.toList_append, h]
  have htabs : List.replicate m ' ' ++ List.replicate n '\t' ++ "\t".toList =
      List.replicate m ' ' ++ '\t' :: List.replicate n '\t' := by
    rw [← List.replicate_succ, List.replicate_succ', List.append_assoc]
    rfl
  rw [htabs]
  exact hspaces m

/-- A step leaves the indentation as it was. -/
theorem Step.text_snd {tab : String} (h : IsTabbed tab) (s : Step) : (s.text tab).2 = tab := by
  rw [Step.text]
  split
  · rfl
  · exact outdent_deeper h

theorem stepsText_append {tab : String} (h : IsTabbed tab) (xs ys : List Step) :
    stepsText tab (xs ++ ys) = stepsText tab xs ++ stepsText tab ys := by
  induction xs with
  | nil => simp [stepsText]
  | cons s xs ih =>
    rw [List.cons_append, stepsText, stepsText, Step.text_snd h, ih, String.append_assoc]

/-! ## Emission -/

/-- What a line of control does to a condition. -/
inductive Control where
  | opens
  | divides
  | closes
  deriving DecidableEq

/-- Lines as they are written. -/
inductive CodeLine where
  /-- The outer condition. -/
  | outer (branches : List (List Part))
  /-- The condition of a step. -/
  | header (tab : String) (guards : List Test)
  /-- Statements. -/
  | body (tab : String) (statements : List Statement)
  | divider (tab : String)
  | closing (tab : String)

def CodeLine.text : CodeLine → String
  | outer branches => conditionText branches
  | header tab guards => tab ++ "IF (" ++ join " AND " (guards.map Test.text) ++ ") THEN\n"
  | body tab statements => tab ++ textOf statements ++ "\n"
  | divider tab => tab ++ "ELSE\n"
  | closing tab => tab ++ "END_IF;\n"

def CodeLine.control? : CodeLine → Option Control
  | outer _ => some .opens
  | header _ _ => some .opens
  | body _ _ => none
  | divider _ => some .divides
  | closing _ => some .closes

/-- The lines one after the other. -/
def linesText (lines : List CodeLine) : String :=
  String.ofList (lines.flatMap (·.text.toList))

/-- The lines of a step. -/
def Step.lines (tab : String) (s : Step) : List CodeLine :=
  if s.guards = [] then [.body tab s.body]
  else
    .header tab s.guards :: .body (tab ++ "\t") s.body ::
      (match s.otherwise with
        | some body => [.divider tab, .body (tab ++ "\t") body]
        | none => []) ++ [.closing tab]

/-- The lines of a rung. -/
def RungCode.lines (tab : String) (c : RungCode) : List CodeLine :=
  match c.condition with
  | none => c.steps.flatMap (Step.lines tab)
  | some branches =>
    .outer branches :: c.steps.flatMap (Step.lines (tab ++ "\t")) ++ [.closing ""]

theorem linesText_append (xs ys : List CodeLine) :
    linesText (xs ++ ys) = linesText xs ++ linesText ys := by
  simp [linesText]

theorem linesText_cons (x : CodeLine) (xs : List CodeLine) :
    linesText (x :: xs) = x.text ++ linesText xs := by
  simp [linesText]

@[simp] theorem linesText_nil : linesText [] = "" := rfl

theorem Step.text_fst {tab : String} (h : IsTabbed tab) (s : Step) :
    (s.text tab).1 = linesText (s.lines tab) := by
  rw [Step.text, Step.lines]
  split
  · simp [linesText_cons, CodeLine.text]
  · simp only [outdent_deeper h]
    cases s.otherwise with
    | none => simp [linesText_cons, CodeLine.text, String.append_assoc]
    | some body => simp [linesText_cons, CodeLine.text, String.append_assoc]

theorem stepsText_eq {tab : String} (h : IsTabbed tab) (steps : List Step) :
    stepsText tab steps = linesText (steps.flatMap (Step.lines tab)) := by
  induction steps with
  | nil => rfl
  | cons s steps ih =>
    rw [stepsText, Step.text_snd h, Step.text_fst h, ih, List.flatMap_cons, linesText_append]

theorem RungCode.text_eq {tab : String} (h : IsTabbed tab) (c : RungCode) :
    c.text tab = linesText (c.lines tab) := by
  rw [RungCode.text, RungCode.lines]
  cases c.condition with
  | none => exact stepsText_eq h c.steps
  | some branches =>
    simp [stepsText_eq h.deeper, linesText_cons, linesText_append, CodeLine.text,
      String.append_assoc]

/-! ## Nesting -/

/-- The stack of open conditions after some lines of control: for each of them, the innermost first,
whether it has been divided.  There is none if a line does not fit: only an open condition can be
closed, and only one that has not been divided can be divided. -/
def nestingAfter : List Bool → List Control → Option (List Bool)
  | stack, [] => some stack
  | stack, .opens :: rest => nestingAfter (false :: stack) rest
  | false :: stack, .divides :: rest => nestingAfter (true :: stack) rest
  | _ :: stack, .closes :: rest => nestingAfter stack rest
  | _, _ => none

/-- Every condition that is opened is closed once. -/
def Balanced (cs : List Control) : Prop := nestingAfter [] cs = some []

theorem nestingAfter_append (stack : List Bool) (cs ds : List Control) :
    nestingAfter stack (cs ++ ds) = (nestingAfter stack cs).bind (nestingAfter · ds) := by
  induction cs generalizing stack with
  | nil => rfl
  | cons c cs ih =>
    rcases stack with _ | ⟨_ | _, stack⟩ <;> cases c <;> simp [nestingAfter, ih]

/-- A step closes what it opens. -/
theorem nestingAfter_step (stack : List Bool) (tab : String) (s : Step) :
    nestingAfter stack ((s.lines tab).filterMap CodeLine.control?) = some stack := by
  rw [Step.lines]
  split
  · rfl
  · cases s.otherwise with
    | none => rfl
    | some body => rfl

theorem nestingAfter_steps (stack : List Bool) (tab : String) (steps : List Step) :
    nestingAfter stack ((steps.flatMap (Step.lines tab)).filterMap CodeLine.control?) =
      some stack := by
  induction steps with
  | nil => rfl
  | cons s steps ih =>
    rw [List.flatMap_cons, List.filterMap_append, nestingAfter_append, nestingAfter_step,
      Option.bind_some, ih]

theorem balanced_lines (tab : String) (c : RungCode) :
    Balanced ((c.lines tab).filterMap CodeLine.control?) := by
  rw [Balanced, RungCode.lines]
  cases c.condition with
  | none => exact nestingAfter_steps [] tab c.steps
  | some branches =>
    simp only [List.cons_append, List.filterMap_cons, CodeLine.control?, List.filterMap_append,
      List.filterMap_nil, nestingAfter, nestingAfter_append, nestingAfter_steps, Option.bind_some]

/-! ## Reading -/

def isTabOrSpace (c : Char) : Bool := c = ' ' || c = '\t'

/-- The control that a line has, by what stands behind its indentation.  A line that ends with a
semicolon is a statement, whatever it begins with. -/
def lineControl? (line : List Char) : Option Control :=
  let s := line.dropWhile isTabOrSpace
  if "IF (".toList.isPrefixOf s ∧ s.getLast? ≠ some ';' then some .opens
  else if s = "ELSE".toList then some .divides
  else if s = "END_IF;".toList then some .closes
  else none

/-- The controls of the lines of a text. -/
def textControls (s : List Char) : List Control :=
  (List.splitOn '\n' s).filterMap lineControl?

theorem textControls_line {l : List Char} (h : '\n' ∉ l) (rest : List Char) :
    textControls (l ++ '\n' :: rest) = (lineControl? l).toList ++ textControls rest := by
  rw [textControls, List.splitOn_append_cons_self_of_not_mem h, List.filterMap_cons, textControls]
  cases lineControl? l <;> rfl

/-- The text begins with an indentation and a character that begins no control. -/
def Quiet (s : List Char) : Prop :=
  ∃ c, (s.dropWhile isTabOrSpace).head? = some c ∧ c ≠ 'I' ∧ c ≠ 'E'

theorem Quiet.lineControl? {l : List Char} (h : Quiet l) : lineControl? l = none := by
  obtain ⟨c, hc, hI, hE⟩ := h
  obtain ⟨t, ht⟩ := List.head?_eq_some_iff.1 hc
  simp [Ladder.lineControl?, ht, Ne.symm hI, hE]

theorem Quiet.append {s : List Char} (h : Quiet s) (t : List Char) : Quiet (s ++ t) := by
  obtain ⟨c, hc, hne⟩ := h
  obtain ⟨u, hu⟩ := List.head?_eq_some_iff.1 hc
  refine ⟨c, ?_, hne⟩
  rw [List.dropWhile_append, hu]
  rfl

theorem Quiet.indent {g s : List Char} (hg : ∀ c ∈ g, isTabOrSpace c = true) (h : Quiet s) :
    Quiet (g ++ s) := by
  obtain ⟨c, hc, hne⟩ := h
  refine ⟨c, ?_, hne⟩
  rwa [List.dropWhile_append_of_pos hg]

/-- A line opens a condition if it does not end as a statement. -/
theorem lineControl?_opens {g l : List Char} (hg : ∀ c ∈ g, isTabOrSpace c = true) (hl : l ≠ [])
    (hlast : l.getLast? ≠ some ';') : lineControl? (g ++ ("IF (".toList ++ l)) = some .opens := by
  have hindent : (g ++ ("IF (".toList ++ l)).dropWhile isTabOrSpace = "IF (".toList ++ l := by
    rw [List.dropWhile_append_of_pos hg]
    rfl
  have hend : ("IF (".toList ++ l).getLast? = l.getLast? := by
    rw [List.getLast?_append, List.getLast?_eq_some_getLast hl]
    rfl
  rw [lineControl?, hindent, hend, if_pos ⟨by simp, hlast⟩]

/-- A line with a semicolon at its end and a sign in it that no control has is a statement. -/
theorem lineControl?_of_stop {x : Char} {l : List Char} (hx : x ∈ l)
    (hindent : isTabOrSpace x = false) (hclosing : x ∉ "END_IF;".toList) : lineControl? (l ++ [';']) = none := by
  obtain ⟨u, hu⟩ : ∃ u, (l ++ [';']).dropWhile isTabOrSpace = u ++ [';'] := by
    rw [List.dropWhile_append]
    split
    · exact ⟨[], rfl⟩
    · exact ⟨_, rfl⟩
  have hmem : x ∈ u ++ [';'] := by
    have hsplit := List.takeWhile_append_dropWhile (p := isTabOrSpace) (l := l ++ [';'])
    rw [hu] at hsplit
    rcases List.mem_append.1 (hsplit ▸ List.mem_append_left _ hx) with h | h
    · exact absurd (List.mem_takeWhile_imp h) (by simp [hindent])
    · exact h
  have hdivides : u ++ [';'] ≠ "ELSE".toList := by
    intro h
    simpa using congrArg List.getLast? h
  have hcloses : u ++ [';'] ≠ "END_IF;".toList := fun h => hclosing (h ▸ hmem)
  rw [lineControl?, hu, if_neg (by simp), if_neg hdivides, if_neg hcloses]

theorem lineControl?_statement {g : List Char} (hg : ∀ c ∈ g, isTabOrSpace c = true)
    (s : Statement) : lineControl? (g ++ s.text.toList) = none := by
  cases s with
  | assign target value =>
    have hline : g ++ (Statement.assign target value).text.toList =
        (g ++ (target ++ " := " ++ value).toList) ++ [';'] := by
      simp [Statement.text]
    rw [hline]
    exact lineControl?_of_stop (x := ':') (by simp) (by decide) (by decide)
  | invoke name arguments =>
    have hline : g ++ (Statement.invoke name arguments).text.toList =
        (g ++ (name ++ "(" ++ join ", " arguments ++ ")").toList) ++ [';'] := by
      simp [Statement.text]
    rw [hline]
    exact lineControl?_of_stop (x := '(') (by simp) (by decide) (by decide)
  | remark words =>
    have hquiet : Quiet (Statement.remark words).text.toList :=
      ⟨'/', by simp [Statement.text, isTabOrSpace], by decide⟩
    exact (hquiet.indent hg).lineControl?

/-- Statements hold no control. -/
theorem textControls_body {g : List Char} (hg : ∀ c ∈ g, isTabOrSpace c = true)
    {body : List Statement} (h : ∀ s ∈ body, OneLine s.text) (rest : List Char) :
    textControls (g ++ (textOf body).toList ++ '\n' :: rest) = textControls rest := by
  have hindent : '\n' ∉ g := fun hmem => absurd (hg _ hmem) (by decide)
  induction body generalizing g with
  | nil =>
    have hline : lineControl? g = none := by
      rw [lineControl?, List.dropWhile_eq_nil_iff.2 hg]
      rfl
    have hempty : (textOf []).toList = [] := rfl
    rw [hempty, List.append_nil, textControls_line hindent, hline]
    rfl
  | cons s body ih =>
    have hline : '\n' ∉ g ++ s.text.toList := fun hmem =>
      (List.mem_append.1 hmem).elim hindent (h s List.mem_cons_self)
    have hcontrol := lineControl?_statement hg s
    cases body with
    | nil =>
      have htext : (textOf [s]).toList = s.text.toList := by simp [textOf]
      rw [htext, textControls_line hline, hcontrol]
      rfl
    | cons s' body =>
      -- The statements behind the first stand without indentation.
      have htext : (textOf (s :: s' :: body)).toList =
          s.text.toList ++ '\n' :: (textOf (s' :: body)).toList := by
        rw [textOf, List.map_cons, toList_join_cons _ (by simp), textOf]
      have hcut : g ++ (textOf (s :: s' :: body)).toList ++ '\n' :: rest =
          (g ++ s.text.toList) ++ '\n' :: ((textOf (s' :: body)).toList ++ '\n' :: rest) := by
        rw [htext]
        simp
      rw [hcut, textControls_line hline, hcontrol]
      exact ih (g := []) (by simp) (fun t ht => h t (List.mem_cons_of_mem _ ht)) (by simp)

/-! ## Conditions over several lines -/

/-- The text goes on with a condition, and what stands behind the condition has the controls of
`rest`.  The condition may go over several lines: its line does not end as a statement, and no
further line of it has a control. -/
def Continues (s rest : List Char) : Prop :=
  ∃ l r, s = l ++ '\n' :: r ∧ '\n' ∉ l ∧ Quiet l ∧ l.getLast? ≠ some ';' ∧
    textControls r = textControls rest

theorem Continues.textControls {s rest : List Char} (h : Continues s rest) :
    textControls s = textControls rest := by
  obtain ⟨l, r, rfl, hline, hquiet, -, hr⟩ := h
  rw [textControls_line hline, hquiet.lineControl?, ← hr]
  rfl

/-- A last line, or one that is followed by another of the condition. -/
theorem continues_line {l : String} (hline : '\n' ∉ l.toList) (hquiet : Quiet l.toList)
    (hlast : l.toList.getLast? ≠ some ';') {s rest : List Char}
    (hs : Ladder.textControls s = Ladder.textControls rest) :
    Continues ((l ++ "\n").toList ++ s) rest :=
  ⟨l.toList, s, by simp, hline, hquiet, hlast, hs⟩

theorem Quiet.ne_nil {s : List Char} (h : Quiet s) : s ≠ [] := by
  rintro rfl
  obtain ⟨c, hc, -⟩ := h
  simp at hc

theorem Continues.append {u s rest : List Char} (hu : '\n' ∉ u) (hquiet : Quiet u)
    (h : Continues s rest) : Continues (u ++ s) rest := by
  obtain ⟨l, r, rfl, hline, hl, hlast, hr⟩ := h
  refine ⟨u ++ l, r, by simp, ?_, hquiet.append l, ?_, hr⟩
  · exact fun hmem => (List.mem_append.1 hmem).elim hu hline
  · rwa [List.getLast?_append, List.getLast?_eq_some_getLast hl.ne_nil, Option.some_or,
      ← List.getLast?_eq_some_getLast hl.ne_nil]

theorem Continues.parts {s rest : List Char} (h : Continues s rest) {ps : List Part}
    (hps : ∀ t, .test t ∈ ps → OneLine t.text) (left : Nat) :
    Continues ((partsText left ps).toList ++ s) rest := by
  induction ps generalizing left with
  | nil => exact h
  | cons p ps ih =>
    have ih := fun left => ih (fun t ht => hps t (List.mem_cons_of_mem _ ht)) left
    cases p with
    | misplaced =>
      rw [partsText_misplaced, String.toList_append, List.append_assoc]
      exact continues_line (by decide) ⟨'/', by decide⟩ (by decide)
        (ih left).textControls
    | test t =>
      have hend : OneLine t.text := hps t List.mem_cons_self
      have hquiet : Quiet t.text.toList := by
        cases t <;> exact ⟨'(', by simp [Test.text, isTabOrSpace], by decide⟩
      have hand : '\n' ∉ (if 0 < left then " AND " else "").toList := by
        split <;> decide
      rw [partsText_test, String.toList_append, List.append_assoc, String.toList_append]
      refine (ih _).append ?_ (hquiet.append _)
      exact fun hmem => (List.mem_append.1 hmem).elim hend hand

theorem Continues.branches {s rest : List Char} (h : Continues s rest)
    {branches : List (List Part)}
    (hbranches : ∀ b ∈ branches, ∀ t, .test t ∈ b → OneLine t.text) :
    Continues ((join " OR " (branches.map fun b => partsText (b.length - 1) b)).toList ++ s)
      rest := by
  induction branches with
  | nil => exact h
  | cons b branches ih =>
    have hb := hbranches b List.mem_cons_self
    have ih := ih fun c hc => hbranches c (List.mem_cons_of_mem _ hc)
    cases branches with
    | nil =>
      rw [List.map_singleton, join_singleton]
      exact h.parts hb _
    | cons c branches =>
      have hor : Continues (" OR ".toList ++ _) rest :=
        ih.append (by decide) ⟨'O', by decide⟩
      rw [toList_join, List.map_cons, List.map_cons, List.map_cons, List.map_cons,
        List.intercalate_cons_cons, List.append_assoc, List.append_assoc]
      rw [toList_join, List.map_cons, List.map_cons] at hor
      exact hor.parts hb _

/-- The outer condition has one control. -/
theorem textControls_condition {branches : List (List Part)}
    (h : ∀ b ∈ branches, ∀ t, .test t ∈ b → OneLine t.text) (rest : List Char) :
    textControls ((conditionText branches).toList ++ rest) = .opens :: textControls rest := by
  have hend : Continues (") THEN\n".toList ++ rest) rest :=
    continues_line (l := ") THEN") (by decide) ⟨')', by decide⟩ (by decide) rfl
  obtain ⟨l, r, hs, hline, hquiet, hlast, hr⟩ := hend.branches h
  have hcut : (conditionText branches).toList ++ rest = ("IF (".toList ++ l) ++ '\n' :: r := by
    rw [conditionText, String.toList_append, String.toList_append, List.append_assoc,
      List.append_assoc, hs]
    simp
  have hopens := lineControl?_opens (g := []) (by simp) hquiet.ne_nil hlast
  rw [List.nil_append] at hopens
  have hline : '\n' ∉ "IF (".toList ++ l :=
    fun hmem => (List.mem_append.1 hmem).elim (by decide) hline
  rw [hcut, textControls_line hline, hopens, hr]
  rfl

/-! ## Lines as they are read -/

/-- The line is read as it is written: its indentation is one, and no line ends in its tests and
statements. -/
def CodeLine.Readable : CodeLine → Prop
  | outer branches => ∀ b ∈ branches, ∀ t, .test t ∈ b → OneLine t.text
  | header tab guards =>
    (∀ c ∈ tab.toList, isTabOrSpace c = true) ∧ ∀ t ∈ guards, OneLine t.text
  | body tab statements =>
    (∀ c ∈ tab.toList, isTabOrSpace c = true) ∧ ∀ s ∈ statements, OneLine s.text
  | divider tab => ∀ c ∈ tab.toList, isTabOrSpace c = true
  | closing tab => ∀ c ∈ tab.toList, isTabOrSpace c = true

/-- A line of one control behind an indentation. -/
theorem textControls_indented {tab : String} (htab : ∀ c ∈ tab.toList, isTabOrSpace c = true)
    {l : List Char} (hl : '\n' ∉ l) {x : Control} (hx : lineControl? (tab.toList ++ l) = some x)
    (rest : List Char) :
    textControls (tab.toList ++ l ++ '\n' :: rest) = x :: textControls rest := by
  have hline : '\n' ∉ tab.toList ++ l := fun hmem =>
    (List.mem_append.1 hmem).elim (fun h => absurd (htab _ h) (by decide)) hl
  rw [textControls_line hline, hx]
  rfl

theorem textControls_codeLine {line : CodeLine} (h : line.Readable) (rest : List Char) :
    textControls (line.text.toList ++ rest) = line.control?.toList ++ textControls rest := by
  cases line with
  | outer branches => exact textControls_condition h rest
  | header tab guards =>
    have htests : '\n' ∉ (join " AND " (guards.map Test.text)).toList := by
      intro hmem
      rcases mem_toList_join hmem with hmem | ⟨piece, hpiece, hmem⟩
      · exact absurd hmem (by decide)
      · obtain ⟨t, ht, rfl⟩ := List.mem_map.1 hpiece
        exact h.2 t ht hmem
    have hline := textControls_indented h.1
      (l := "IF (".toList ++ ((join " AND " (guards.map Test.text)).toList ++ ") THEN".toList))
      (by simpa using htests) (lineControl?_opens h.1 (by simp) (by simp)) rest
    simpa [CodeLine.text, CodeLine.control?] using hline
  | body tab statements =>
    have hbody := textControls_body h.1 h.2 rest
    simpa [CodeLine.text, CodeLine.control?] using hbody
  | divider tab =>
    have hline := textControls_indented h (l := "ELSE".toList) (by decide) (x := .divides)
      (by rw [lineControl?, List.dropWhile_append_of_pos h]; rfl) rest
    simpa [CodeLine.text, CodeLine.control?] using hline
  | closing tab =>
    have hline := textControls_indented h (l := "END_IF;".toList) (by decide) (x := .closes)
      (by rw [lineControl?, List.dropWhile_append_of_pos h]; rfl) rest
    simpa [CodeLine.text, CodeLine.control?] using hline

/-- The controls that are read are those of the lines that are written. -/
theorem textControls_linesText {lines : List CodeLine} (h : ∀ line ∈ lines, line.Readable) :
    textControls (linesText lines).toList = lines.filterMap CodeLine.control? := by
  induction lines with
  | nil => rfl
  | cons line lines ih =>
    rw [linesText_cons, String.toList_append, textControls_codeLine (h line List.mem_cons_self),
      ih fun l hl => h l (List.mem_cons_of_mem _ hl), List.filterMap_cons]
    cases line.control? <;> rfl

/-! ## Rungs -/

theorem IsTabbed.isTabOrSpace {tab : String} (h : IsTabbed tab) :
    ∀ c ∈ tab.toList, isTabOrSpace c = true := by
  obtain ⟨m, n, h⟩ := h
  intro c hc
  rw [h, List.mem_append, List.mem_replicate, List.mem_replicate] at hc
  rcases hc with ⟨-, rfl⟩ | ⟨-, rfl⟩ <;> rfl

/-- No line ends in the tests and the statements. -/
structure Step.OneLine (s : Step) : Prop where
  guards : ∀ t ∈ s.guards, Ladder.OneLine t.text
  body : OneLineEach s.body
  otherwise : ∀ body ∈ s.otherwise, OneLineEach body

theorem oneLine_branchSteps {pending : List Test} (hpending : ∀ t ∈ pending, OneLine t.text)
    {b : Branch} (h : ∀ c ∈ b, c.OneLine) : ∀ s ∈ branchSteps pending b, s.OneLine := by
  induction b generalizing pending with
  | nil => simp [branchSteps]
  | cons c b ih =>
    have hc := h c List.mem_cons_self
    have ih := fun {pending} hpending =>
      @ih pending hpending fun d hd => h d (List.mem_cons_of_mem _ hd)
    rw [branchSteps]
    cases htest : contactTest? c.name c.operands with
    | some t =>
      refine ih fun u hu => ?_
      rcases List.mem_append.1 hu with hu | hu
      · exact hpending u hu
      · exact List.mem_singleton.1 hu ▸ hc.test htest
    | none =>
      refine List.forall_mem_cons.2 ⟨⟨hpending, hc.body true, ?_⟩, ih (by simp)⟩
      intro body hbody
      simp only [Call.step] at hbody
      split at hbody
      · cases hbody
        exact hc.body false
      · cases hbody

theorem Step.OneLine.readable {s : Step} (h : s.OneLine) {tab : String} (htab : IsTabbed tab) :
    ∀ line ∈ s.lines tab, line.Readable := by
  have hdeeper : (CodeLine.body (tab ++ "\t") s.body).Readable := ⟨htab.deeper.isTabOrSpace, h.body⟩
  have hclosing : (CodeLine.closing tab).Readable := htab.isTabOrSpace
  rw [Step.lines]
  split
  · exact List.forall_mem_singleton.2 ⟨htab.isTabOrSpace, h.body⟩
  · rw [List.cons_append, List.cons_append, List.forall_mem_cons, List.forall_mem_cons,
      List.forall_mem_append]
    refine ⟨⟨htab.isTabOrSpace, h.guards⟩, hdeeper, ?_, List.forall_mem_singleton.2 hclosing⟩
    cases hotherwise : s.otherwise with
    | none => simp
    | some body =>
      have hbody : (CodeLine.body (tab ++ "\t") body).Readable :=
        ⟨htab.deeper.isTabOrSpace, h.otherwise body hotherwise⟩
      exact List.forall_mem_cons.2 ⟨htab.isTabOrSpace, List.forall_mem_singleton.2 hbody⟩

/-- The lines of the steps of a stage. -/
theorem readable_stageSteps {s : Stage} (h : ∀ b ∈ s, ∀ c ∈ b, c.OneLine) {tab : String}
    (htab : IsTabbed tab) :
    ∀ line ∈ (stageSteps s).flatMap (Step.lines tab), line.Readable := by
  intro line hline
  obtain ⟨step, hstep, hline⟩ := List.mem_flatMap.1 hline
  obtain ⟨b, hb, hstep⟩ := List.mem_flatMap.1 hstep
  exact (oneLine_branchSteps (by simp) (h b hb) step hstep).readable htab line hline

theorem readable_lines {stages : List Stage} (h : ∀ s ∈ stages, ∀ b ∈ s, ∀ c ∈ b, c.OneLine)
    {tab : String} (htab : IsTabbed tab) :
    ∀ line ∈ (rungCode stages).lines tab, line.Readable := by
  rcases stages with _ | ⟨first, _ | ⟨second, later⟩⟩
  · simp [rungCode, RungCode.lines]
  · exact readable_stageSteps (h first (by simp)) htab
  · have hsteps := readable_stageSteps (h second (by simp)) htab.deeper
    have hclosing : (CodeLine.closing "").Readable := by simp [CodeLine.Readable]
    have houter : (CodeLine.outer (first.map (·.map Call.part))).Readable := by
      intro parts hparts t ht
      obtain ⟨b, hb, rfl⟩ := List.mem_map.1 hparts
      obtain ⟨c, hc, hpart⟩ := List.mem_map.1 ht
      rw [Call.part] at hpart
      split at hpart
      · next t' htest =>
        cases hpart
        exact (h first (by simp) b hb c hc).test htest
      · cases hpart
    exact List.forall_mem_append.2
      ⟨List.forall_mem_cons.2 ⟨houter, hsteps⟩, List.forall_mem_singleton.2 hclosing⟩

/-- The code of a rung at an indentation of spaces and tabulators is put together from the code of
its branches, and what it opens it closes.  The text of one stage is the texts of its branches one
after the other; the text of two stages is the header of the first around the text of the second,
one tabulator deeper.  In the lines that are written every condition is closed once and divided at
most once, while it is open and the innermost.  Those are the controls that a reader of the text
finds line by line, if no line ends in a name or an operand. -/
theorem text_rungCode_nested (tab : String) (htab : IsTabbed tab) :
    (∀ bs cs : Stage, (rungCode [bs ++ cs]).text tab =
      (rungCode [bs]).text tab ++ (rungCode [cs]).text tab) ∧
    (∀ a bs : Stage, (rungCode [a, bs]).text tab =
      conditionText (a.map (·.map Call.part)) ++ (rungCode [bs]).text (tab ++ "\t") ++
        "END_IF;\n") ∧
    ∀ stages : List Stage,
      (rungCode stages).text tab = linesText ((rungCode stages).lines tab) ∧
      Balanced (((rungCode stages).lines tab).filterMap CodeLine.control?) ∧
      ((∀ s ∈ stages, ∀ b ∈ s, ∀ c ∈ b, c.OneLine) →
        textControls ((rungCode stages).text tab).toList =
          ((rungCode stages).lines tab).filterMap CodeLine.control?) := by
  refine ⟨?_, fun a bs => rfl, fun stages => ⟨?_, balanced_lines tab _, ?_⟩⟩
  · intro bs cs
    have hsteps : stageSteps (bs ++ cs) = stageSteps bs ++ stageSteps cs := List.flatMap_append
    simp only [rungCode, RungCode.text, hsteps, stepsText_append htab]
  · exact RungCode.text_eq htab _
  · intro h
    rw [RungCode.text_eq htab, textControls_linesText (readable_lines h htab)]

/-- An output coil in a condition breaks its line, and an operand may look like a header. -/
theorem text_rungCode_nested_brokenHeader :
    IsTabbed "  \t" ∧
      (rungCode [[[⟨"XIC", ["a"]⟩, ⟨"OTE", ["x"]⟩]], [[⟨"XIO", ["b"]⟩, ⟨"OTE", ["IF ("]⟩]]]).text
          "  \t" =
        conditionText [[.test (.bits ["a"] true), .misplaced]] ++
          (rungCode [[[⟨"XIO", ["b"]⟩, ⟨"OTE", ["IF ("]⟩]]]).text "  \t\t" ++ "END_IF;\n" ∧
      textControls ((rungCode [[[⟨"XIC", ["a"]⟩, ⟨"OTE", ["x"]⟩]],
          [[⟨"XIO", ["b"]⟩, ⟨"OTE", ["IF ("]⟩]]]).text "  \t").toList =
        [.opens, .opens, .divides, .closes, .closes] ∧
      Balanced [.opens, .opens, .divides, .closes, .closes] := by
  have htab : IsTabbed "  \t" := ⟨2, 1, rfl⟩
  obtain ⟨-, hheader, hlines⟩ := text_rungCode_nested "  \t" htab
  obtain ⟨-, hbalanced, hread⟩ := hlines
    [[[⟨"XIC", ["a"]⟩, ⟨"OTE", ["x"]⟩]], [[⟨"XIO", ["b"]⟩, ⟨"OTE", ["IF ("]⟩]]]
  exact ⟨htab, hheader [[⟨"XIC", ["a"]⟩, ⟨"OTE", ["x"]⟩]] _, hread (by decide), hbalanced⟩

end ControlLogic.Ladder
