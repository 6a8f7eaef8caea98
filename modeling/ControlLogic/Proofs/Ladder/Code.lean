import ControlLogic.Ladder.Code
import ControlLogic.Proofs.Ladder.Power
import ControlLogic.Proofs.StructuredText.Spelling
import ControlLogic.Proofs.Text.Chars

/-!
# The code of bit instructions

What the code of a rung of bit instructions does when it is executed.  The steps of the code
are its coils, each guarded by the contacts that stand between it and the coil before it; this
is `guardedCoils`.  The proofs go in two halves.

* The text.  `lexes_steps` and `lexes_condition` cut the written code into tokens, whatever the
  indentation, and `exists_spellsProgram` reads those tokens as a program.
* The meaning.  `runGuarded` is what that program does.  `runGuarded_guardedCoils` says that it
  is a scan of the branch with the power restored behind each coil.

`execute_stage` and `execute_stages` put the halves together, for a rung of one stage and for a
rung whose first stage holds contacts.
-/

namespace ControlLogic.Ladder

open StructuredText

/-! ## Coils with the contacts that guard them -/

/-- A coil with the contacts that guard it. -/
structure Guarded where
  guards : List Contact
  coil : Coil

/-- The coils of a branch, each with the contacts since the coil before it; the first argument
holds the contacts met so far. -/
def guardedCoils : List Contact → List Element → List Guarded
  | _, [] => []
  | pending, .contact c :: rest => guardedCoils (pending ++ [c]) rest
  | pending, .coil k :: rest => ⟨pending, k⟩ :: guardedCoils [] rest

/-- The coils of a stage with their guards. -/
def stageCoils (stage : List (List Element)) : List Guarded :=
  stage.flatMap (guardedCoils [])

/-- The test that a contact turns into. -/
def Contact.test (c : Contact) : Test := .bits [c.operand] c.on

/-- The step that a guarded coil turns into. -/
def Guarded.step (g : Guarded) : Step := g.coil.call.step (g.guards.map Contact.test)

@[simp] theorem contactTest?_contact (c : Contact) :
    contactTest? c.call.name c.call.operands = some c.test := by
  obtain ⟨x, on⟩ := c
  cases on <;> rfl

@[simp] theorem contactTest?_coil (k : Coil) :
    contactTest? k.call.name k.call.operands = none := by
  obtain ⟨kind, x⟩ := k
  cases kind <;> rfl

/-- The steps of a branch of bit instructions are its guarded coils. -/
theorem branchSteps_elements (pending : List Contact) (es : List Element) :
    branchSteps (pending.map Contact.test) (es.map Element.call) =
      (guardedCoils pending es).map Guarded.step := by
  induction es generalizing pending with
  | nil => rfl
  | cons e es ih =>
    cases e with
    | contact c =>
      have hpending : pending.map Contact.test ++ [c.test] = (pending ++ [c]).map Contact.test := by
        simp
      rw [List.map_cons, branchSteps, guardedCoils, ← ih, ← hpending]
      simp [Element.call]
    | coil k =>
      rw [List.map_cons, branchSteps, guardedCoils, List.map_cons, ← ih]
      simp [Element.call, Guarded.step]

theorem stageSteps_elements (stage : List (List Element)) :
    stageSteps (stage.map (·.map Element.call)) = (stageCoils stage).map Guarded.step := by
  rw [stageSteps, stageCoils, List.map_flatMap, List.flatMap_map]
  congr 1
  funext b
  exact branchSteps_elements [] b

/-! ## Tokens -/

/-- The tokens of a contact. -/
def Contact.tokens (c : Contact) : List Token :=
  [.opening, .opening, .name c.operand, .equals, .bit c.on, .closing, .closing]

/-- The tokens of contacts in series. -/
def seriesTokens (cs : List Contact) : List Token := [.and].intercalate (cs.map Contact.tokens)

/-- The tokens of parallel branches of contacts. -/
def parallelTokens (branches : List (List Contact)) : List Token :=
  [.or].intercalate (branches.map seriesTokens)

/-- The tokens of an assignment. -/
def assignTokens (x : String) (on : Bool) : List Token := [.name x, .becomes, .bit on, .stop]

/-- The tokens of a guarded coil. -/
def Guarded.tokens (g : Guarded) : List Token :=
  if g.guards = [] then assignTokens g.coil.operand g.coil.kind.on
  else
    .ifBegins :: (.opening :: seriesTokens g.guards ++ [.closing]) ++ .thenBegins ::
      assignTokens g.coil.operand g.coil.kind.on ++
      (if g.coil.kind = .energize then .elseBegins :: assignTokens g.coil.operand false else []) ++
      [.ifEnds, .stop]

/-- Every contact and the coil act on a name. -/
def Guarded.Named (g : Guarded) : Prop :=
  (∀ c ∈ g.guards, IsName c.operand) ∧ IsName g.coil.operand

theorem named_of_mem_guardedCoils {pending : List Contact} {es : List Element}
    (hpending : ∀ c ∈ pending, IsName c.operand) (hes : ∀ e ∈ es, IsName e.operand) :
    ∀ g ∈ guardedCoils pending es, g.Named := by
  induction es generalizing pending with
  | nil => simp [guardedCoils]
  | cons e es ih =>
    have he := hes e List.mem_cons_self
    have hrest : ∀ f ∈ es, IsName f.operand := fun f hf => hes f (List.mem_cons_of_mem _ hf)
    cases e with
    | contact c =>
      rw [guardedCoils]
      refine ih (fun d hd => ?_) hrest
      rcases List.mem_append.1 hd with hd | hd
      · exact hpending d hd
      · rw [List.mem_singleton.1 hd]; exact he
    | coil k =>
      rw [guardedCoils]
      intro g hg
      rcases List.mem_cons.1 hg with rfl | hg
      · exact ⟨hpending, he⟩
      · exact ih (by simp) hrest g hg

theorem named_of_mem_stageCoils {stage : List (List Element)}
    (h : ∀ b ∈ stage, ∀ e ∈ b, IsName e.operand) : ∀ g ∈ stageCoils stage, g.Named := by
  intro g hg
  obtain ⟨b, hb, hg⟩ := List.mem_flatMap.1 hg
  exact named_of_mem_guardedCoils (by simp) (h b hb) g hg

/-! ## From text to tokens -/

/-- An indentation: blanks only. -/
def IsIndent (tab : String) : Prop := tab.toList.all Text.isBlank = true

instance (tab : String) : Decidable (IsIndent tab) :=
  inferInstanceAs (Decidable (_ = true))

theorem IsIndent.lexes {tab : String} (h : IsIndent tab) : Lexes tab.toList [] :=
  .blanks (List.all_eq_true.1 h)

theorem IsIndent.deeper {tab : String} (h : IsIndent tab) : IsIndent (tab ++ "\t") := by
  have htab : "\t".toList.all Text.isBlank = true := by decide
  rw [IsIndent, String.toList_append, List.all_append, h, htab, Bool.and_self]

theorem IsIndent.outdent {tab : String} (h : IsIndent tab) : IsIndent (outdent tab) := by
  rw [IsIndent, List.all_eq_true] at h ⊢
  intro c hc
  rw [Ladder.outdent, Text.replaceFirst, String.toList_ofList] at hc
  exact h c (Text.Chars.mem_of_mem_replaceFirst_nil hc)

theorem lexes_ifOpening : Lexes "IF (".toList [.ifBegins, .opening] := fun _ => rfl

theorem lexes_thenLine : Lexes ") THEN\n".toList [.closing, .thenBegins] := fun _ => rfl

theorem lexes_elseLine : Lexes "ELSE\n".toList [.elseBegins] := fun _ => rfl

theorem lexes_endLine : Lexes "END_IF;\n".toList [.ifEnds, .stop] := fun _ => rfl

theorem lexes_lineEnd : Lexes "\n".toList [] := fun _ => rfl

theorem lexes_test {c : Contact} (h : IsName c.operand) :
    Lexes c.test.text.toList c.tokens := by
  have htail : Lexes (if c.on then "= 1))".toList else "= 0))".toList)
      [.equals, .bit c.on, .closing, .closing] := by
    cases c.on
    · exact fun _ => rfl
    · exact fun _ => rfl
  have hhead : Lexes "((".toList [.opening, .opening] := fun _ => rfl
  have htext : c.test.text.toList = "((".toList ++ (c.operand.toList ++ [' ']) ++
      (if c.on then "= 1))".toList else "= 0))".toList) := by
    cases hon : c.on <;> simp [Contact.test, Test.text, hon]
  rw [htext]
  exact (hhead.append (.name h)).append htail

theorem lexes_series {cs : List Contact} (h : ∀ c ∈ cs, IsName c.operand) :
    Lexes (" AND ".toList.intercalate (cs.map fun c => c.test.text.toList)) (seriesTokens cs) :=
  Lexes.intercalate (fun _ => rfl) fun c hc => lexes_test (h c hc)

/-- A coil assigns a digit to its bit.  Only an output coil looks at the sense. -/
theorem body_coil (k : Coil) (sense : Bool) :
    k.call.body sense = [.assign k.operand
      (if (if k.kind = .energize then sense else k.kind.on) then "1" else "0")] := by
  obtain ⟨kind, x⟩ := k
  cases kind <;> cases sense <;> rfl

theorem lexes_body {k : Coil} (h : IsName k.operand) (sense : Bool) :
    Lexes (textOf (k.call.body sense)).toList
      (assignTokens k.operand (if k.kind = .energize then sense else k.kind.on)) := by
  rw [body_coil]
  generalize (if k.kind = .energize then sense else k.kind.on) = on
  have hvalue : Lexes (if on then ":= 1;".toList else ":= 0;".toList)
      [.becomes, .bit on, .stop] := by
    cases on
    · exact fun _ => rfl
    · exact fun _ => rfl
  have htext : (textOf [.assign k.operand (if on then "1" else "0")]).toList =
      (k.operand.toList ++ [' ']) ++ (if on then ":= 1;".toList else ":= 0;".toList) := by
    cases on <;> simp [textOf, Statement.text]
  rw [htext]
  exact (Lexes.name h).append hvalue

/-- The lines that switch an output coil off; other coils have none. -/
def Coil.alternative (after inner : String) (k : Coil) : String :=
  if k.kind = .energize then after ++ "ELSE\n" ++ inner ++ textOf (k.call.body false) ++ "\n" else ""

theorem lexes_alternative {k : Coil} (h : IsName k.operand) {after inner : String}
    (hafter : IsIndent after) (hinner : IsIndent inner) :
    Lexes (k.alternative after inner).toList
      (if k.kind = .energize then .elseBegins :: assignTokens k.operand false else []) := by
  rw [Coil.alternative]
  split
  · rename_i hkind
    have hoff := lexes_body h false
    rw [if_pos hkind] at hoff
    have hlines := (hafter.lexes.append lexes_elseLine).append hinner.lexes
    simp only [String.toList_append]
    simpa using (hlines.append hoff).append lexes_lineEnd
  · exact .nil

/-- The text of a guarded coil. -/
theorem text_step_of_guards {g : Guarded} (h : g.guards ≠ []) (tab : String) :
    g.step.text tab =
      (tab ++ "IF (" ++ Text.join " AND " (g.guards.map fun c => c.test.text) ++ ") THEN\n" ++
        (tab ++ "\t") ++ textOf (g.coil.call.body true) ++ "\n" ++
        g.coil.alternative (outdent (tab ++ "\t")) (tab ++ "\t") ++ outdent (tab ++ "\t") ++
        "END_IF;\n", outdent (tab ++ "\t")) := by
  have hname : (g.coil.call.name = "OTE") ↔ g.coil.kind = .energize := by
    cases hk : g.coil.kind <;> simp [Coil.call, CoilKind.name, hk]
  by_cases hkind : g.coil.kind = .energize
  · simp [Step.text, Guarded.step, Call.step, h, hname, hkind, Coil.alternative,
      Function.comp_def]
  · simp [Step.text, Guarded.step, Call.step, h, hname, hkind, Coil.alternative,
      Function.comp_def]

/-- A step is cut into the tokens of its guarded coil, and leaves an indentation. -/
theorem lexes_step {g : Guarded} (h : g.Named) {tab : String} (htab : IsIndent tab) :
    Lexes (g.step.text tab).1.toList g.tokens ∧ IsIndent (g.step.text tab).2 := by
  have hon : Lexes (textOf (g.coil.call.body true)).toList
      (assignTokens g.coil.operand g.coil.kind.on) := by
    have hvalue : (if g.coil.kind = .energize then true else g.coil.kind.on) =
        g.coil.kind.on := by
      cases g.coil.kind <;> rfl
    rw [← hvalue]
    exact lexes_body h.2 true
  by_cases hguards : g.guards = []
  · have htext : g.step.text tab = (tab ++ textOf (g.coil.call.body true) ++ "\n", tab) := by
      simp [Step.text, Guarded.step, Call.step, hguards]
    rw [htext, Guarded.tokens, if_pos hguards]
    refine ⟨?_, htab⟩
    simp only [String.toList_append]
    simpa using (htab.lexes.append hon).append lexes_lineEnd
  · have hinner := htab.deeper
    have hafter := hinner.outdent
    rw [text_step_of_guards hguards, Guarded.tokens, if_neg hguards]
    refine ⟨?_, hafter⟩
    have htests : Lexes (Text.join " AND " (g.guards.map fun c => c.test.text)).toList
        (seriesTokens g.guards) := by
      simpa [Function.comp_def] using lexes_series h.1
    have hhead := ((htab.lexes.append lexes_ifOpening).append htests).append lexes_thenLine
    have hbody := ((hhead.append hinner.lexes).append hon).append lexes_lineEnd
    have hall := ((hbody.append (lexes_alternative h.2 hafter hinner)).append
      hafter.lexes).append lexes_endLine
    simp only [String.toList_append] at hall ⊢
    simpa using hall

/-- Steps are cut into the tokens of their guarded coils, whatever the indentation. -/
theorem lexes_steps {gs : List Guarded} (h : ∀ g ∈ gs, g.Named) {tab : String}
    (htab : IsIndent tab) :
    Lexes (stepsText tab (gs.map Guarded.step)).toList (gs.flatMap Guarded.tokens) := by
  induction gs generalizing tab with
  | nil => exact .nil
  | cons g gs ih =>
    obtain ⟨hstep, hnext⟩ := lexes_step (h g List.mem_cons_self) htab
    rw [List.map_cons, stepsText, String.toList_append, List.flatMap_cons]
    exact hstep.append (ih (fun f hf => h f (List.mem_cons_of_mem _ hf)) hnext)

/-- The parts of a branch of contacts are its tests with `AND` between them. -/
theorem partsText_contacts (cs : List Contact) :
    (partsText (cs.length - 1) (cs.map fun c => .test c.test)).toList =
      " AND ".toList.intercalate (cs.map fun c => c.test.text.toList) := by
  induction cs with
  | nil => rw [List.map_nil, partsText_nil]; rfl
  | cons c cs ih =>
    rw [List.map_cons, partsText_test]
    cases cs with
    | nil => simp [partsText_nil]
    | cons d cs =>
      have hlength : (c :: d :: cs).length - 1 - 1 = (d :: cs).length - 1 := by simp
      have hleft : 0 < (c :: d :: cs).length - 1 := by simp
      rw [hlength, if_pos hleft, String.toList_append, String.toList_append, ih]
      simp only [List.map_cons, List.intercalate_cons_cons]

/-- The opening line of the outer condition. -/
theorem lexes_condition {branches : List (List Contact)}
    (h : ∀ b ∈ branches, ∀ c ∈ b, IsName c.operand) :
    Lexes (conditionText (branches.map (·.map fun c => .test c.test))).toList
      (.ifBegins :: .opening :: parallelTokens branches ++ [.closing, .thenBegins]) := by
  have hbranches : Lexes (" OR ".toList.intercalate (branches.map fun b =>
      " AND ".toList.intercalate (b.map fun c => c.test.text.toList)))
      (parallelTokens branches) :=
    Lexes.intercalate (fun _ => rfl) fun b hb => lexes_series (h b hb)
  have htext : (conditionText (branches.map (·.map fun c => .test c.test))).toList =
      "IF (".toList ++ " OR ".toList.intercalate (branches.map fun b =>
        " AND ".toList.intercalate (b.map fun c => c.test.text.toList)) ++
      ") THEN\n".toList := by
    simp [conditionText, Function.comp_def, partsText_contacts]
  rw [htext]
  exact (lexes_ifOpening.append hbranches).append lexes_thenLine

/-! ## From tokens to conditions and programs -/

theorem spellsPart_contact (c : Contact) : SpellsPart c.tokens (.bit c.operand c.on) :=
  (SpellsPart.bit c.operand c.on).all.any.group.all.any.group

/-- Contacts in series are read as a condition that holds when all of them pass. -/
theorem exists_spellsAll {cs : List Contact} (hne : cs ≠ []) :
    ∃ c, SpellsAll (seriesTokens cs) c ∧ ∀ v, c.holds v = cs.all (Contact.passes v) := by
  induction cs with
  | nil => exact absurd rfl hne
  | cons c cs ih =>
    cases cs with
    | nil =>
      refine ⟨.bit c.operand c.on, by simpa [seriesTokens] using (spellsPart_contact c).all, ?_⟩
      intro v
      simp [Condition.holds, Contact.passes]
    | cons d cs =>
      obtain ⟨r, hr, hholds⟩ := ih (by simp)
      have htokens : seriesTokens (c :: d :: cs) = c.tokens ++ .and :: seriesTokens (d :: cs) := by
        simp [seriesTokens, List.intercalate_cons_cons]
      refine ⟨.and (.bit c.operand c.on) r, ?_, fun v => ?_⟩
      · rw [htokens]
        exact .cons (spellsPart_contact c) hr
      · rw [Condition.holds, hholds, List.all_cons]; rfl

/-- Parallel branches of contacts are read as a condition that holds when all contacts of some
branch pass. -/
theorem exists_spellsAny {branches : List (List Contact)} (hne : branches ≠ [])
    (hbranch : ∀ b ∈ branches, b ≠ []) :
    ∃ c, SpellsAny (parallelTokens branches) c ∧
      ∀ v, c.holds v = stagePower branches v := by
  induction branches with
  | nil => exact absurd rfl hne
  | cons b branches ih =>
    obtain ⟨l, hl, hleft⟩ := exists_spellsAll (hbranch b List.mem_cons_self)
    cases branches with
    | nil =>
      refine ⟨l, by simpa [parallelTokens] using hl.any, fun v => ?_⟩
      rw [hleft, stagePower, List.any_cons, List.any_nil, Bool.or_false]
    | cons d branches =>
      obtain ⟨r, hr, hright⟩ :=
        ih (by simp) fun e he => hbranch e (List.mem_cons_of_mem _ he)
      have htokens : parallelTokens (b :: d :: branches) =
          seriesTokens b ++ .or :: parallelTokens (d :: branches) := by
        simp [parallelTokens, List.intercalate_cons_cons]
      refine ⟨.or l r, ?_, fun v => ?_⟩
      · rw [htokens]
        exact .cons hl hr
      · rw [Condition.holds, hleft, hright]; rfl

/-- What guarded coils do, one after the other: each is driven by whether its guards pass. -/
def runGuarded : List Guarded → Valuation → Valuation
  | [], v => v
  | g :: rest, v => runGuarded rest (g.coil.drive (g.guards.all (Contact.passes v)) v)

/-- The tokens of guarded coils are read as a program that does what they do. -/
theorem exists_spellsProgram (gs : List Guarded) :
    ∃ p, SpellsProgram (gs.flatMap Guarded.tokens) p ∧ ∀ v, p.run v = runGuarded gs v := by
  induction gs with
  | nil => exact ⟨.done, .done, fun _ => rfl⟩
  | cons g gs ih =>
    obtain ⟨next, hnext, hrun⟩ := ih
    have hyes : SpellsProgram (assignTokens g.coil.operand g.coil.kind.on)
        (.assign g.coil.operand g.coil.kind.on .done) := SpellsProgram.done.assign _ _
    by_cases hguards : g.guards = []
    · refine ⟨.assign g.coil.operand g.coil.kind.on next, ?_, fun v => ?_⟩
      · rw [List.flatMap_cons, Guarded.tokens, if_pos hguards]
        exact hnext.assign _ _
      · rw [Program.run, hrun, runGuarded, hguards, List.all_nil, Coil.drive_true]
    · obtain ⟨c, hc, hholds⟩ := exists_spellsAll hguards
      have hcondition := hc.any.group.all.any
      rw [List.flatMap_cons, Guarded.tokens, if_neg hguards]
      by_cases hkind : g.coil.kind = .energize
      · refine ⟨.branch c (.assign g.coil.operand g.coil.kind.on .done)
          (.assign g.coil.operand false .done) next, ?_, fun v => ?_⟩
        · have hno : SpellsProgram (assignTokens g.coil.operand false)
              (.assign g.coil.operand false .done) := SpellsProgram.done.assign _ _
          rw [if_pos hkind]
          simpa using SpellsProgram.branchElse hcondition hyes hno hnext
        · rw [Program.run, hrun, runGuarded, hholds]
          cases g.guards.all (Contact.passes v)
          · rw [Coil.drive_false, if_pos hkind]; rfl
          · rw [Coil.drive_true]; rfl
      · refine ⟨.branch c (.assign g.coil.operand g.coil.kind.on .done) .done next, ?_,
          fun v => ?_⟩
        · rw [if_neg hkind]
          simpa using SpellsProgram.branch hcondition hyes hnext
        · rw [Program.run, hrun, runGuarded, hholds]
          cases g.guards.all (Contact.passes v)
          · rw [Coil.drive_false, if_neg hkind]; rfl
          · rw [Coil.drive_true]; rfl

/-! ## What the code does -/

/-- The guarded coils of a branch scan it with the power restored behind each coil.  The power
at the current place is whether the contacts met so far pass. -/
theorem runGuarded_guardedCoils (pending : List Contact) (es : List Element) (v : Valuation) :
    runGuarded (guardedCoils pending es) v =
      (scanBranch restored es ⟨pending.all (Contact.passes v), v⟩).bits := by
  induction es generalizing pending v with
  | nil => rfl
  | cons e es ih =>
    cases e with
    | contact c =>
      rw [guardedCoils, ih, scanBranch]
      simp [Element.scan]
    | coil k =>
      rw [guardedCoils, runGuarded, ih, scanBranch]
      rfl

/-- Coils without contacts among them are driven by full power. -/
theorem runGuarded_coils (branches : List (List Coil)) (v : Valuation) :
    runGuarded (stageCoils (branches.map (·.map .coil))) v =
      driveAll true branches.flatten v := by
  have hbranch : ∀ ks : List Coil, guardedCoils [] (ks.map .coil) = ks.map (⟨[], ·⟩) := by
    intro ks
    induction ks with
    | nil => rfl
    | cons k ks ih => rw [List.map_cons, guardedCoils, ih, List.map_cons]
  have hstage : stageCoils (branches.map (·.map .coil)) = branches.flatten.map (⟨[], ·⟩) := by
    rw [stageCoils, List.flatMap_map, List.map_flatten, List.flatMap_def]
    simp only [hbranch]
  rw [hstage]
  induction branches.flatten generalizing v with
  | nil => rfl
  | cons k ks ih => exact ih (k.drive true v)

/-- The code of a rung of one stage does what its guarded coils do. -/
theorem execute_stage {stage : List (List Element)}
    (h : ∀ b ∈ stage, ∀ e ∈ b, IsName e.operand) {tab : String} (htab : IsIndent tab)
    (v : Valuation) :
    execute ((rungCode [stage.map (·.map Element.call)]).text tab) v =
      some (runGuarded (stageCoils stage) v) := by
  obtain ⟨p, hp, hrun⟩ := exists_spellsProgram (stageCoils stage)
  rw [rungCode, RungCode.text, stageSteps_elements]
  rw [execute_eq (lexes_steps (named_of_mem_stageCoils h) htab) hp, hrun]

/-- The code of a rung whose first stage holds contacts does what the guarded coils of the
second stage do, under the condition of the first.  Later stages have no part in it. -/
theorem execute_stages {first : List (List Contact)} {second : List (List Element)}
    (hne : first ≠ []) (hbranch : ∀ b ∈ first, b ≠ [])
    (hfirst : ∀ b ∈ first, ∀ c ∈ b, IsName c.operand)
    (hsecond : ∀ b ∈ second, ∀ e ∈ b, IsName e.operand) (later : List Stage)
    {tab : String} (htab : IsIndent tab) (v : Valuation) :
    execute ((rungCode (first.map (·.map Contact.call) ::
      second.map (·.map Element.call) :: later)).text tab) v =
      some (if stagePower first v then runGuarded (stageCoils second) v else v) := by
  obtain ⟨c, hc, hholds⟩ := exists_spellsAny hne hbranch
  obtain ⟨p, hp, hrun⟩ := exists_spellsProgram (stageCoils second)
  have hparts : (first.map (·.map Contact.call)).map (·.map Call.part) =
      first.map (·.map fun c => .test c.test) := by
    simp [Function.comp_def, Call.part]
  have hlex : Lexes (conditionText (first.map (·.map fun c => .test c.test)) ++
      stepsText (tab ++ "\t") ((stageCoils second).map Guarded.step) ++ "END_IF;\n").toList
      (.ifBegins :: (.opening :: parallelTokens first ++ [.closing]) ++ .thenBegins ::
        (stageCoils second).flatMap Guarded.tokens ++ .ifEnds :: .stop :: []) := by
    have h := ((lexes_condition hfirst).append
      (lexes_steps (named_of_mem_stageCoils hsecond) htab.deeper)).append lexes_endLine
    simpa [List.append_assoc] using h
  have hprogram := SpellsProgram.branch hc.group.all.any hp .done
  rw [rungCode, RungCode.text, stageSteps_elements, hparts]
  rw [execute_eq hlex hprogram, Program.run, hholds, hrun]
  rfl

end ControlLogic.Ladder
