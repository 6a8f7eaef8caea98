import ControlLogic.Analysis.ControlFlow
import ControlLogic.Proofs.Text.Chars

/-!
# Which branch an assignment is listed under

The flow of control of a text is found in one pass over its lines: a branch line opens an entry, and
an assignment goes to the entry opened last.  A line that ends a condition opens and closes nothing.

* `Body` is a text as conditions are nested in it, and `Body.branches` are its branches with the
  assignments that stand directly under them.
* `flowCut` cuts the lines before every branch line, and `structuredFlow_eq` says that the pass finds
  these pieces.
* `Body.lead` and `Body.listed` are the pieces by the nesting: what follows a body goes to its last
  branch.
* `listed_eq_branches_iff` is the induction over the nesting: the pieces are the branches if no
  assignment stands behind a condition, and only then.

`branches_of_structuredFlow_iff` is the result.
-/

namespace ControlLogic.Analysis

/-! ## Lines of conditions -/

/-- What a line is to a condition. -/
inductive ConditionMark where
  | opening
  | alternative
  | otherwise
  | closing
  deriving DecidableEq

/-- What a line is to a condition, if it is anything to it. -/
def conditionMark? (line : String) : Option ConditionMark :=
  if opensWith "IF" line then some .opening
  else if opensWith "ELSIF" line then some .alternative
  else if Text.upper line = "ELSE" then some .otherwise
  else if ["END_IF", "END_IF;"].contains (Text.upper line) then some .closing
  else none

/-- The condition that a branch line is listed with. -/
def branchCondition (line : String) : String :=
  match conditionMark? line with
  | some .opening => conditionFrom 3 line
  | some .alternative => conditionFrom 6 line
  | _ => "else"

/-- Changing the case keeps assignment signs. -/
theorem infix_upper {line : String} (h : assigns line = true) :
    ":=".toList <:+: (Text.upper line).toList := by
  obtain ⟨a, b, hline⟩ := Text.Chars.contains_iff_infix.1 h
  have hupper : (Text.upper line).toList =
      a.flatMap Text.upperChar ++ ":=".toList ++ b.flatMap Text.upperChar := by
    rw [Text.upper, ← hline, String.toList_ofList, List.flatMap_append, List.flatMap_append]
    rfl
  rw [hupper]
  exact List.infix_append _ _ _

/-- Without a colon in upper case there is none. -/
theorem contains_colon_eq_false {line : String} (h : ':' ∉ (Text.upper line).toList) :
    Text.contains ":" line = false := by
  rw [Bool.eq_false_iff]
  intro hcontains
  obtain ⟨a, b, hline⟩ := Text.Chars.contains_iff_infix.1 hcontains
  apply h
  rw [Text.upper, String.toList_ofList, List.mem_flatMap]
  exact ⟨':', by simp [← hline], by decide⟩

/-- A line that is nothing to a condition acts if it has a sign of an action. -/
def acts (line : String) : Bool :=
  !endLines.contains (Text.upper line) &&
    (Text.contains ":" line && actionSigns.any (Text.contains · (Text.upper line)))

theorem acts_of_assigns {line : String} (h : assigns line = true) : acts line = true := by
  have hsign := infix_upper h
  have hcolon : ':' ∈ (Text.upper line).toList := hsign.subset (by decide)
  have hend : endLines.contains (Text.upper line) = false := by
    rw [Bool.eq_false_iff]
    intro hmem
    have hnone : ∀ e ∈ endLines, ':' ∉ e.toList := by decide
    exact hnone _ (List.contains_iff_mem.1 hmem) hcolon
  have hline : Text.contains ":" line = true := by
    have hcontained : ":".toList <:+: ":=".toList := ⟨[], ['='], rfl⟩
    exact Text.Chars.contains_iff_infix.2
      (hcontained.trans (Text.Chars.contains_iff_infix.1 h))
  have hany : actionSigns.any (Text.contains · (Text.upper line)) = true := by
    rw [List.any_eq_true]
    exact ⟨":=", by decide, Text.Chars.contains_iff_infix.2 hsign⟩
  rw [acts, hend, hline, hany]
  rfl

/-- What a line means to the flow of control, by what it is to a condition. -/
theorem classify_eq (line : String) : classify line =
    match conditionMark? line with
    | some .closing => .other
    | some _ => .branch (branchCondition line)
    | none => if acts line then .action else .other := by
  unfold classify branchCondition conditionMark? acts
  by_cases hif : opensWith "IF" line = true
  · simp [hif]
  by_cases helsif : opensWith "ELSIF" line = true
  · simp [hif, helsif]
  by_cases helse : Text.upper line = "ELSE"
  · simp [hif, helsif, helse]
  by_cases hend : ["END_IF", "END_IF;"].contains (Text.upper line) = true
  · have hcolon : Text.contains ":" line = false := by
      apply contains_colon_eq_false
      have hnone : ∀ e ∈ ["END_IF", "END_IF;"], ':' ∉ e.toList := by decide
      exact hnone _ (List.contains_iff_mem.1 hend)
    rw [if_neg hif, if_neg helsif, if_neg helse, if_neg hif, if_neg helsif, if_neg helse,
      if_pos hend, hcolon]
    simp
  · rw [if_neg hif, if_neg helsif, if_neg helse, if_neg hif, if_neg helsif, if_neg helse,
      if_neg hend]
    cases endLines.contains (Text.upper line) <;> simp

/-! ## The pass over the lines -/

/-- The actions before the first branch line, and the entries of the branch lines with the actions
up to the next one. -/
def flowCut : List String → List String × List Entry
  | [] => ([], [])
  | line :: rest =>
    match classify line with
    | .branch condition => ([], ⟨some condition, (flowCut rest).1⟩ :: (flowCut rest).2)
    | .action => (line :: (flowCut rest).1, (flowCut rest).2)
    | .other => flowCut rest

/-- The entry of actions under no condition, if there are any. -/
def unconditional (actions : List String) : List Entry :=
  if actions.isEmpty then [] else [⟨none, actions⟩]

theorem addAction_append_singleton (line : String) (pre : List Entry) (e : Entry) :
    addAction line (pre ++ [e]) = pre ++ [{ e with actions := e.actions ++ [line] }] := by
  induction pre with
  | nil => rfl
  | cons d pre ih =>
    cases pre with
    | nil => rfl
    | cons d' pre => exact congrArg (d :: ·) ih

/-- The pass from an entry on: it takes the actions up to the next branch line. -/
theorem foldl_flowStep (lines : List String) (pre : List Entry) (e : Entry) :
    lines.foldl flowStep (pre ++ [e]) =
      pre ++ { e with actions := e.actions ++ (flowCut lines).1 } :: (flowCut lines).2 := by
  induction lines generalizing pre e with
  | nil => simp [flowCut]
  | cons line lines ih =>
    rw [List.foldl_cons, flowStep, flowCut]
    cases classify line with
    | branch condition => simpa using ih (pre ++ [e]) ⟨some condition, []⟩
    | action => simp [addAction_append_singleton, ih]
    | other => simp [ih]

/-- The pass finds the pieces between branch lines. -/
theorem structuredFlow_eq (content : String) : structuredFlow content =
    unconditional (flowCut (liveLines content)).1 ++ (flowCut (liveLines content)).2 := by
  have hpass : ∀ lines : List String, lines.foldl flowStep [] =
      unconditional (flowCut lines).1 ++ (flowCut lines).2 := by
    intro lines
    induction lines with
    | nil => rfl
    | cons line lines ih =>
      rw [List.foldl_cons, flowStep, flowCut]
      cases classify line with
      | branch condition => simpa [unconditional] using foldl_flowStep lines [] ⟨condition, []⟩
      | action => simpa [unconditional, addAction] using foldl_flowStep lines [] ⟨none, [line]⟩
      | other => exact ih
  exact hpass _

theorem condition_of_mem_flowCut {lines : List String} {e : Entry} (h : e ∈ (flowCut lines).2) :
    e.condition.isSome = true := by
  induction lines with
  | nil => cases h
  | cons line lines ih =>
    rw [flowCut] at h
    cases hline : classify line with
    | branch condition =>
      simp only [hline] at h
      rcases List.mem_cons.1 h with rfl | h
      · rfl
      · exact ih h
    | action =>
      simp only [hline] at h
      exact ih h
    | other =>
      simp only [hline] at h
      exact ih h

/-- The entries with a condition are those of the branch lines. -/
theorem filter_structuredFlow (content : String) :
    (structuredFlow content).filter (·.condition.isSome) = (flowCut (liveLines content)).2 := by
  have hnone : (unconditional (flowCut (liveLines content)).1).filter (·.condition.isSome) = [] := by
    rw [unconditional]
    split <;> rfl
  rw [structuredFlow_eq, List.filter_append, hnone, List.nil_append, List.filter_eq_self]
  exact fun e he => condition_of_mem_flowCut he

/-! ## Assignments -/

/-- The assignments among the actions of an entry. -/
def Entry.assigned (e : Entry) : Entry := { e with actions := e.actions.filter assigns }

/-- The pieces between branch lines, with the assignments only. -/
def assignedCut (lines : List String) : List String × List Entry :=
  ((flowCut lines).1.filter assigns, (flowCut lines).2.map Entry.assigned)

theorem assignedCut_branch {line : String} {mark : ConditionMark}
    (h : conditionMark? line = some mark) (hmark : mark ≠ .closing) (rest : List String) :
    assignedCut (line :: rest) =
      ([], ⟨some (branchCondition line), (assignedCut rest).1⟩ :: (assignedCut rest).2) := by
  have hline : classify line = .branch (branchCondition line) := by
    rw [classify_eq, h]
    cases mark with
    | closing => exact absurd rfl hmark
    | _ => rfl
  rw [assignedCut, flowCut, hline]
  rfl

theorem assignedCut_closing {line : String} (h : conditionMark? line = some .closing)
    (rest : List String) : assignedCut (line :: rest) = assignedCut rest := by
  have hline : classify line = .other := by rw [classify_eq, h]
  rw [assignedCut, flowCut, hline]
  rfl

theorem assignedCut_line {line : String} (h : conditionMark? line = none) (rest : List String) :
    assignedCut (line :: rest) =
      ((if assigns line then [line] else []) ++ (assignedCut rest).1, (assignedCut rest).2) := by
  have hline : classify line = if acts line then .action else .other := by rw [classify_eq, h]
  rw [assignedCut, flowCut, hline]
  cases hassigns : assigns line with
  | true =>
    rw [acts_of_assigns hassigns]
    simp [assignedCut, hassigns]
  | false => cases acts line <;> simp [assignedCut, hassigns]

/-! ## Nesting -/

mutual

/-- Lines and conditions in a row. -/
inductive Body where
  | done
  | line (text : String) (rest : Body)
  /-- A condition from its first line to its last, and what follows. -/
  | condition (opening : String) (body : Body) (others : Alternatives) (closing : String)
      (rest : Body)

/-- The alternatives to a condition. -/
inductive Alternatives where
  | none
  | next (opening : String) (body : Body) (more : Alternatives)

end

mutual

/-- The lines of a body. -/
def Body.lines : Body → List String
  | .done => []
  | .line text rest => text :: rest.lines
  | .condition opening body others closing rest =>
    opening :: (body.lines ++ (others.lines ++ closing :: rest.lines))

/-- The lines of alternatives. -/
def Alternatives.lines : Alternatives → List String
  | .none => []
  | .next opening body more => opening :: (body.lines ++ more.lines)

end

mutual

/-- Every line is what it stands for. -/
def Body.Nested : Body → Prop
  | .done => True
  | .line text rest => conditionMark? text = none ∧ rest.Nested
  | .condition opening body others closing rest =>
    conditionMark? opening = some .opening ∧ body.Nested ∧ others.Nested ∧
      conditionMark? closing = some .closing ∧ rest.Nested

/-- Every line is what it stands for, and the alternative without a condition is the last. -/
def Alternatives.Nested : Alternatives → Prop
  | .none => True
  | .next opening body more =>
    (conditionMark? opening = some .alternative ∨
      conditionMark? opening = some .otherwise ∧ more = .none) ∧ body.Nested ∧ more.Nested

end

/-- The assignments directly in a body, under none of its conditions. -/
def Body.direct : Body → List String
  | .done => []
  | .line text rest => (if assigns text then [text] else []) ++ rest.direct
  | .condition _ _ _ _ rest => rest.direct

mutual

/-- The branches of a body, each with the assignments directly under it. -/
def Body.branches : Body → List Entry
  | .done => []
  | .line _ rest => rest.branches
  | .condition opening body others _ rest =>
    ⟨some (branchCondition opening), body.direct⟩ ::
      (body.branches ++ (others.branches ++ rest.branches))

/-- The branches of alternatives, each with the assignments directly under it. -/
def Alternatives.branches : Alternatives → List Entry
  | .none => []
  | .next opening body more =>
    ⟨some (branchCondition opening), body.direct⟩ :: (body.branches ++ more.branches)

end

mutual

/-- No assignment stands behind a condition, unless a later condition holds it. -/
def Body.Settled : Body → Prop
  | .done => True
  | .line _ rest => rest.Settled
  | .condition _ body others _ rest =>
    rest.direct = [] ∧ body.Settled ∧ others.Settled ∧ rest.Settled

/-- No assignment stands behind a condition in one of the alternatives. -/
def Alternatives.Settled : Alternatives → Prop
  | .none => True
  | .next _ body more => body.Settled ∧ more.Settled

end

/-! ## The pass by the nesting -/

/-- The assignments of a body before its first condition, and those behind the body if it has
none. -/
def Body.lead (after : List String) : Body → List String
  | .done => after
  | .line text rest => (if assigns text then [text] else []) ++ rest.lead after
  | .condition .. => []

/-- The assignments behind alternatives if there are none. -/
def Alternatives.lead (after : List String) : Alternatives → List String
  | .none => after
  | .next .. => []

mutual

/-- What is listed under the branches of a body with assignments behind it. -/
def Body.listed (after : List String) : Body → List Entry
  | .done => []
  | .line _ rest => rest.listed after
  | .condition opening body others _ rest =>
    ⟨some (branchCondition opening), body.lead (others.lead (rest.lead after))⟩ ::
      (body.listed (others.lead (rest.lead after)) ++
        (others.listed (rest.lead after) ++ rest.listed after))

/-- What is listed under alternatives with assignments behind them. -/
def Alternatives.listed (after : List String) : Alternatives → List Entry
  | .none => []
  | .next opening body more =>
    ⟨some (branchCondition opening), body.lead (more.lead after)⟩ ::
      (body.listed (more.lead after) ++ more.listed after)

end

mutual

/-- The pass over a body and what follows it. -/
theorem assignedCut_body : ∀ (b : Body) (_ : b.Nested) (after : List String),
    assignedCut (b.lines ++ after) =
      (b.lead (assignedCut after).1, b.listed (assignedCut after).1 ++ (assignedCut after).2)
  | .done, _, after => rfl
  | .line text rest, h, after => by
    rw [Body.lines, List.cons_append, assignedCut_line h.1, assignedCut_body rest h.2,
      Body.lead, Body.listed]
  | .condition opening body others closing rest, h, after => by
    obtain ⟨hopening, hbody, hothers, hclosing, hrest⟩ := h
    rw [Body.lines, List.cons_append, List.append_assoc, List.append_assoc, List.cons_append,
      assignedCut_branch hopening (by decide), assignedCut_body body hbody,
      assignedCut_alternatives others hothers, assignedCut_closing hclosing,
      assignedCut_body rest hrest, Body.lead, Body.listed]
    simp

/-- The pass over alternatives and what follows them. -/
theorem assignedCut_alternatives : ∀ (a : Alternatives) (_ : a.Nested) (after : List String),
    assignedCut (a.lines ++ after) =
      (a.lead (assignedCut after).1, a.listed (assignedCut after).1 ++ (assignedCut after).2)
  | .none, _, after => rfl
  | .next opening body more, h, after => by
    obtain ⟨hopening, hbody, hmore⟩ := h
    have hbranch : ∃ mark, conditionMark? opening = some mark ∧ mark ≠ .closing := by
      rcases hopening with h | h
      · exact ⟨_, h, by decide⟩
      · exact ⟨_, h.1, by decide⟩
    obtain ⟨mark, hmark, hne⟩ := hbranch
    rw [Alternatives.lines, List.cons_append, List.append_assoc,
      assignedCut_branch hmark hne, assignedCut_body body hbody,
      assignedCut_alternatives more hmore, Alternatives.lead, Alternatives.listed]
    simp

end

mutual

/-- Every branch of a body has its entry, in order. -/
theorem condition_listed_body : ∀ (b : Body) (after : List String),
    (b.listed after).map (·.condition) = b.branches.map (·.condition)
  | .done, _ => rfl
  | .line _ rest, after => condition_listed_body rest after
  | .condition opening body others closing rest, after => by
    rw [Body.listed, Body.branches, List.map_cons, List.map_append, List.map_append, List.map_cons,
      List.map_append, List.map_append, condition_listed_body body,
      condition_listed_alternatives others, condition_listed_body rest]

/-- Every alternative has its entry, in order. -/
theorem condition_listed_alternatives : ∀ (a : Alternatives) (after : List String),
    (a.listed after).map (·.condition) = a.branches.map (·.condition)
  | .none, _ => rfl
  | .next opening body more, after => by
    rw [Alternatives.listed, Alternatives.branches, List.map_cons, List.map_append, List.map_cons,
      List.map_append, condition_listed_body body, condition_listed_alternatives more]

end

theorem length_listed_body (b : Body) (after : List String) :
    (b.listed after).length = b.branches.length := by
  simpa using congrArg List.length (condition_listed_body b after)

theorem length_listed_alternatives (a : Alternatives) (after : List String) :
    (a.listed after).length = a.branches.length := by
  simpa using congrArg List.length (condition_listed_alternatives a after)

theorem Body.lead_nil_of_settled : ∀ {b : Body} (_ : b.Settled), b.lead [] = b.direct
  | .done, _ => rfl
  | .line _ rest, h => by
    rw [Body.lead, Body.direct, lead_nil_of_settled (b := rest) h]
  | .condition _ _ _ _ _, h => h.1.symm

theorem Alternatives.lead_nil (a : Alternatives) : a.lead [] = [] := by
  cases a <;> rfl

mutual

/-- The entries of a body are its branches exactly if it is settled and nothing of what follows it
goes to one of them. -/
theorem listed_eq_branches_iff : ∀ (b : Body) (after : List String),
    b.listed after = b.branches ↔ b.Settled ∧ b.lead after = b.direct ++ after
  | .done, after => by simp [Body.listed, Body.branches, Body.Settled, Body.lead, Body.direct]
  | .line text rest, after => by
    rw [Body.listed, Body.branches, Body.Settled, Body.lead, Body.direct, List.append_assoc,
      List.append_cancel_left_eq]
    exact listed_eq_branches_iff rest after
  | .condition opening body others closing rest, after => by
    rw [Body.listed, Body.branches, Body.Settled, Body.lead, Body.direct]
    constructor
    · intro h
      obtain ⟨hhead, htail⟩ := List.cons.inj h
      obtain ⟨heqBody, htail⟩ := List.append_inj htail (length_listed_body body _)
      obtain ⟨heqOthers, heqRest⟩ := List.append_inj htail (length_listed_alternatives others _)
      have hlead := (Entry.mk.inj hhead).2
      obtain ⟨hbody, hbodyLead⟩ := (listed_eq_branches_iff body _).1 heqBody
      obtain ⟨hothers, hothersLead⟩ := (listed_alternatives_eq_branches_iff others _).1 heqOthers
      obtain ⟨hrest, hrestLead⟩ := (listed_eq_branches_iff rest _).1 heqRest
      -- what follows the body, the alternatives and the condition is nothing
      rw [hlead, hothersLead, hrestLead, List.self_eq_append_right, List.append_eq_nil_iff]
        at hbodyLead
      obtain ⟨hdirect, rfl⟩ := hbodyLead
      exact ⟨⟨hdirect, hbody, hothers, hrest⟩, by rw [hdirect]; rfl⟩
    · rintro ⟨⟨hdirect, hbody, hothers, hrest⟩, hafter⟩
      rw [hdirect, List.nil_append] at hafter
      subst hafter
      have hrestLead : rest.lead [] = [] := (Body.lead_nil_of_settled hrest).trans hdirect
      have hbodyLead : body.lead [] = body.direct := Body.lead_nil_of_settled hbody
      rw [hrestLead, others.lead_nil, hbodyLead,
        (listed_eq_branches_iff body []).2 ⟨hbody, by rw [hbodyLead, List.append_nil]⟩,
        (listed_alternatives_eq_branches_iff others []).2 ⟨hothers, others.lead_nil⟩,
        (listed_eq_branches_iff rest []).2 ⟨hrest, by rw [hrestLead, hdirect]; rfl⟩]

/-- The entries of alternatives are their branches exactly if they are settled and nothing of what
follows them goes to one of them. -/
theorem listed_alternatives_eq_branches_iff : ∀ (a : Alternatives) (after : List String),
    a.listed after = a.branches ↔ a.Settled ∧ a.lead after = after
  | .none, after => by
    simp [Alternatives.listed, Alternatives.branches, Alternatives.Settled, Alternatives.lead]
  | .next opening body more, after => by
    rw [Alternatives.listed, Alternatives.branches, Alternatives.Settled, Alternatives.lead]
    constructor
    · intro h
      obtain ⟨hhead, htail⟩ := List.cons.inj h
      obtain ⟨heqBody, heqMore⟩ := List.append_inj htail (length_listed_body body _)
      have hlead := (Entry.mk.inj hhead).2
      obtain ⟨hbody, hbodyLead⟩ := (listed_eq_branches_iff body _).1 heqBody
      obtain ⟨hmore, hmoreLead⟩ := (listed_alternatives_eq_branches_iff more _).1 heqMore
      rw [hlead, hmoreLead, List.self_eq_append_right] at hbodyLead
      exact ⟨⟨hbody, hmore⟩, hbodyLead.symm⟩
    · rintro ⟨⟨hbody, hmore⟩, hafter⟩
      subst hafter
      have hbodyLead : body.lead [] = body.direct := Body.lead_nil_of_settled hbody
      rw [more.lead_nil, hbodyLead,
        (listed_eq_branches_iff body []).2 ⟨hbody, by rw [hbodyLead, List.append_nil]⟩,
        (listed_alternatives_eq_branches_iff more []).2 ⟨hmore, more.lead_nil⟩]

end

/-! ## The flow of control of a text -/

/-- Whether a line has an assignment and is nothing to a condition. -/
def isAssignment (line : String) : Bool := (conditionMark? line).isNone && assigns line

/-- The pieces between branch lines hold all assignments, in order. -/
theorem assignments_assignedCut (lines : List String) :
    (assignedCut lines).1 ++ (assignedCut lines).2.flatMap (·.actions) =
      lines.filter isAssignment := by
  induction lines with
  | nil => rfl
  | cons line lines ih =>
    cases hline : conditionMark? line with
    | none =>
      rw [assignedCut_line hline]
      cases hassigns : assigns line <;> simp [isAssignment, hline, hassigns, ih]
    | some mark =>
      have hnot : isAssignment line = false := by simp [isAssignment, hline]
      rw [List.filter_cons_of_neg (by simp [hnot]), ← ih]
      by_cases hmark : mark = .closing
      · rw [assignedCut_closing (hmark ▸ hline)]
      · rw [assignedCut_branch hline hmark]
        rfl

/-- The flow of control of a text in which conditions are nested.  Every assignment is listed, once
and in order, and every branch has its entry, in order.  The branches are listed with the
assignments directly under them, and with no others, exactly if no assignment stands behind a
condition without a later condition that holds it. -/
theorem branches_of_structuredFlow_iff (content : String) (b : Body)
    (hlines : liveLines content = b.lines) (hnested : b.Nested) :
    ((structuredFlow content).flatMap (·.actions)).filter assigns = b.lines.filter isAssignment ∧
    ((structuredFlow content).filter (·.condition.isSome)).map (·.condition) =
      b.branches.map (·.condition) ∧
    (((structuredFlow content).filter (·.condition.isSome)).map Entry.assigned = b.branches ↔
      b.Settled) := by
  have hcut : assignedCut b.lines = (b.lead [], b.listed []) := by
    simpa [assignedCut, flowCut] using assignedCut_body b hnested []
  have hbranches : ((structuredFlow content).filter (·.condition.isSome)).map Entry.assigned =
      b.listed [] := by
    rw [filter_structuredFlow, hlines]
    exact congrArg Prod.snd hcut
  refine ⟨?_, ?_, ?_⟩
  · have hactions : (unconditional (flowCut b.lines).1).flatMap (·.actions) =
        (flowCut b.lines).1 := by
      rw [unconditional]
      cases (flowCut b.lines).1 <;> simp
    rw [← assignments_assignedCut, structuredFlow_eq, hlines, List.flatMap_append, hactions,
      List.filter_append, assignedCut, List.filter_flatMap, List.flatMap_map]
    rfl
  · have hassigned := congrArg (List.map (·.condition)) hbranches
    rw [List.map_map, condition_listed_body] at hassigned
    exact hassigned
  · rw [hbranches, listed_eq_branches_iff, List.append_nil]
    exact and_iff_left_of_imp Body.lead_nil_of_settled

/-- A level is watched, and no assignment stands behind the condition. -/
def watch : Body :=
  .condition "IF LIT101 > 800 THEN" (.line "P101 := ON;" .done)
    (.next "ELSIF LIT101 > 600 THEN" (.line "P101 := OFF;" .done)
      (.next "ELSE" (.line "P101 := P101;" .done) .none))
    "END_IF;" .done

/-- A pump is started unless it has a fault, and a lamp is lit in any case. -/
def alarm : Body :=
  .condition "IF TANK.FULL THEN"
    (.condition "IF PUMP.FAULT THEN" (.line "HORN.ON := 1;" .done) .none "END_IF"
      (.line "PUMP.RUN := 1;" .done))
    .none "END_IF" (.line "LAMP.ON := 1;" .done)

theorem nested_watch : watch.Nested := by
  refine ⟨?_, ⟨?_, trivial⟩, ⟨.inl ?_, ⟨?_, trivial⟩, .inr ⟨?_, rfl⟩, ⟨?_, trivial⟩, trivial⟩, ?_,
    trivial⟩ <;> decide

theorem nested_alarm : alarm.Nested := by
  refine ⟨?_, ⟨?_, ⟨?_, trivial⟩, trivial, ?_, ?_, trivial⟩, trivial, ?_, ?_, trivial⟩ <;>
    decide

/-- The text of `watch`. -/
def watchText : String :=
  "IF LIT101 > 800 THEN\nP101 := ON;\nELSIF LIT101 > 600 THEN\nP101 := OFF;\nELSE\n" ++
    "P101 := P101;\nEND_IF;"

/-- The text of `alarm`. -/
def alarmText : String :=
  "IF TANK.FULL THEN\nIF PUMP.FAULT THEN\nHORN.ON := 1;\nEND_IF\nPUMP.RUN := 1;\nEND_IF\n" ++
    "LAMP.ON := 1;"

theorem branches_of_structuredFlow_iff_watch :
    liveLines watchText = watch.lines ∧ watch.Nested ∧ watch.Settled ∧
    ((structuredFlow watchText).filter (·.condition.isSome)).map Entry.assigned =
      [⟨"LIT101 > 800", ["P101 := ON;"]⟩, ⟨"LIT101 > 600", ["P101 := OFF;"]⟩,
        ⟨"else", ["P101 := P101;"]⟩] := by
  have hlines : liveLines watchText = watch.lines := by decide
  have hsettled : watch.Settled := ⟨rfl, trivial, ⟨trivial, trivial, trivial⟩, trivial⟩
  have hbranches : watch.branches = [⟨"LIT101 > 800", ["P101 := ON;"]⟩,
      ⟨"LIT101 > 600", ["P101 := OFF;"]⟩, ⟨"else", ["P101 := P101;"]⟩] := by decide
  obtain ⟨-, -, hiff⟩ := branches_of_structuredFlow_iff watchText watch hlines nested_watch
  exact ⟨hlines, nested_watch, hsettled, hbranches ▸ hiff.2 hsettled⟩

/-- Two assignments behind the inner condition are listed under it, also the one that stands under
no condition at all. -/
theorem lamp_listed_under_fault :
    liveLines alarmText = alarm.lines ∧ alarm.Nested ∧
    alarm.branches = [⟨"TANK.FULL", ["PUMP.RUN := 1;"]⟩, ⟨"PUMP.FAULT", ["HORN.ON := 1;"]⟩] ∧
    alarm.direct = ["LAMP.ON := 1;"] ∧
    structuredFlow alarmText = [⟨"TANK.FULL", []⟩,
      ⟨"PUMP.FAULT", ["HORN.ON := 1;", "PUMP.RUN := 1;", "LAMP.ON := 1;"]⟩] := by
  refine ⟨?_, nested_alarm, ?_, ?_, ?_⟩ <;> decide

end ControlLogic.Analysis
