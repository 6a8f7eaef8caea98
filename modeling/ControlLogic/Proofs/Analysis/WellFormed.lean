import ControlLogic.Proofs.Analysis.Passages
import ControlLogic.Proofs.Text.Chars
import Mathlib.Data.List.Basic
import Mathlib.Data.List.Nodup

/-!
# When a flow graph is well formed

A flow graph is well formed if its blocks have names of their own, if all blocks that it names are
there, the entry included, and if it holds each instruction of the text once.

What can go wrong shows in the outline of the text.  A block that collects instructions is listed
twice unless the next mark closes a structure; the entry is listed only if it has instructions and
the first mark opens a structure; the numbers of opening and of closing marks are counted apart; and
the blocks that a condition goes on with are named before they are there.  `Orderly` excludes all
that, and `wellFormed_flowGraph_iff` says that nothing else goes wrong.
-/

namespace ControlLogic.Analysis

/-! ## Well-formed graphs -/

/-- The blocks that a role names. -/
def Role.targets : Role → List String
  | .plain => []
  | .branch _ ifTrue ifFalse => [ifTrue, ifFalse]
  | .control _ => []

/-- The blocks that a block names. -/
def Block.targets (b : Block) : List String := b.successors ++ b.role.targets

/-- A graph for a list of instructions. -/
structure FlowGraph.WellFormed (g : FlowGraph) (instructions : List String) : Prop where
  distinct : g.ids.Nodup
  closed : ∀ b ∈ g.blocks, ∀ id ∈ b.targets, id ∈ g.ids
  entered : ∀ id ∈ g.entry?, id ∈ g.ids
  /-- Every instruction, as often as it is there, stands in one block. -/
  complete : (g.blocks.flatMap (·.instructions)).Perm instructions

/-- Where the successors are right, the rest can be seen without them. -/
theorem wellFormed_bare_iff {g : FlowGraph} {instructions : List String}
    (h : ∀ b ∈ g.blocks, ∀ s ∈ b.successors, s ∈ g.ids) :
    FlowGraph.WellFormed ⟨g.blocks.map Block.bare⟩ instructions ↔ g.WellFormed instructions := by
  have hids : FlowGraph.ids ⟨g.blocks.map Block.bare⟩ = g.ids := by
    rw [FlowGraph.ids, List.map_map]
    rfl
  have hentry : FlowGraph.entry? ⟨g.blocks.map Block.bare⟩ = g.entry? := by
    unfold FlowGraph.entry?
    rw [List.isEmpty_map]
  have hlines : (g.blocks.map Block.bare).flatMap (·.instructions) =
      g.blocks.flatMap (·.instructions) := List.flatMap_map ..
  constructor
  · intro hbare
    refine ⟨hids ▸ hbare.distinct, ?_, ?_, hlines ▸ hbare.complete⟩
    · intro b hb id hid
      rcases List.mem_append.1 hid with hs | hr
      · exact h b hb id hs
      · rw [← hids]
        exact hbare.closed b.bare (List.mem_map_of_mem hb) id hr
    · rw [← hids, ← hentry]
      exact hbare.entered
  · intro hg
    refine ⟨hids ▸ hg.distinct, ?_, ?_, hlines ▸ hg.complete⟩
    · intro c hc id hid
      obtain ⟨b, hb, rfl⟩ := List.mem_map.1 hc
      rw [hids]
      exact hg.closed b hb id (List.mem_append_right _ hid)
    · rw [hids, hentry]
      exact hg.entered

/-! ## Names -/

theorem blockId_injective : Function.Injective blockId := by
  intro m n h
  have hlist := congrArg String.toList h
  rw [blockId, blockId, String.toList_append, String.toList_append] at hlist
  exact Text.toString_inj (List.append_cancel_left hlist)

theorem blockId_ne_entry (n : Nat) : blockId n ≠ "entry" := by
  intro h
  have hlist := congrArg String.toList h
  rw [blockId, String.toList_append] at hlist
  exact absurd (List.cons.inj hlist).1 (by decide)

theorem targets_controlBlock (n : Nat) (line : String) (lines : List String) :
    ({ controlBlock n line with instructions := lines } : Block).targets =
      if (ifCondition? line).isSome then [blockId (n + 1), blockId (n + 2)] else [] := by
  rw [Block.targets, controlBlock]
  cases ifCondition? line with
  | none => rfl
  | some condition => rfl

/-! ## Orderly outlines -/

/-- Every passage with instructions is followed by a closing mark. -/
def Settled : List Passage → Prop
  | [] => True
  | q :: rest => (q.lines = [] ∨ rest.head?.map (·.mark) = some .closing) ∧ Settled rest

/-- The numbers of the blocks of passages: opening marks go on from `counter`, and closing marks
take the place in the list, which is `next` for the first block. -/
def numbers (counter next : Nat) : List Passage → List Nat
  | [] => []
  | ⟨.opening _, _⟩ :: rest => (counter + 1) :: numbers (counter + 1) (next + 1) rest
  | ⟨.closing, _⟩ :: rest => next :: numbers counter (next + 1) rest

/-- The numbers of the blocks with a condition. -/
def branches (counter : Nat) : List Passage → List Nat
  | [] => []
  | ⟨.opening line, _⟩ :: rest =>
    if (ifCondition? line).isSome then (counter + 1) :: branches (counter + 1) rest
    else branches (counter + 1) rest
  | ⟨.closing, _⟩ :: rest => branches counter rest

/-- An outline that is drafted without a slip. -/
structure Orderly (counter : Nat) (o : Outline) : Prop where
  lead_ne_nil : o.lead ≠ []
  head_opens : o.passages.head?.map (·.mark) ≠ some .closing
  settled : Settled o.passages
  distinct : (numbers counter 2 o.passages).Nodup
  /-- A condition goes on with the two numbers after its own. -/
  followed : ∀ n ∈ branches counter o.passages,
    n + 1 ∈ numbers counter 2 o.passages ∧ n + 2 ∈ numbers counter 2 o.passages

-- A condition is in order if two more structures open under it before the first instruction.
example : Orderly 0 ⟨["LAMP.ON := 0;"],
    [⟨.opening "IF TANK.FULL THEN", []⟩, ⟨.opening "WHILE PUMP.RUN DO", []⟩,
      ⟨.opening "FOR N := 1 TO 9 DO", ["LAMP.ON := N;"]⟩,
      ⟨.closing, []⟩, ⟨.closing, []⟩, ⟨.closing, []⟩]⟩ where
  lead_ne_nil := by decide
  head_opens := by decide
  settled := ⟨Or.inl rfl, Or.inl rfl, Or.inr rfl, Or.inl rfl, Or.inl rfl, Or.inl rfl, trivial⟩
  distinct := by decide
  followed := by decide

/-! ## Blocks that are listed once -/

/-- The blocks of passages, each listed once. -/
def drawn (counter next : Nat) : List Passage → List Block
  | [] => []
  | ⟨.opening line, lines⟩ :: rest =>
    { controlBlock (counter + 1) line with instructions := lines } ::
      drawn (counter + 1) (next + 1) rest
  | ⟨.closing, lines⟩ :: rest =>
    { id := blockId next, instructions := lines } :: drawn counter (next + 1) rest

theorem ids_drawn (counter next : Nat) (passages : List Passage) :
    (drawn counter next passages).map (·.id) = (numbers counter next passages).map blockId := by
  fun_induction numbers counter next passages with
  | case1 => rfl
  | case2 counter next line lines rest ih => exact congrArg (blockId (counter + 1) :: ·) ih
  | case3 counter next lines rest ih => exact congrArg (blockId next :: ·) ih

theorem instructions_drawn (counter next : Nat) (passages : List Passage) :
    (drawn counter next passages).flatMap (·.instructions) = passages.flatMap (·.lines) := by
  fun_induction drawn counter next passages with
  | case1 => rfl
  | case2 counter next line lines rest ih => exact congrArg (lines ++ ·) ih
  | case3 counter next lines rest ih => exact congrArg (lines ++ ·) ih

theorem targets_drawn (counter next : Nat) (passages : List Passage) :
    (drawn counter next passages).flatMap (·.targets) =
      (branches counter passages).flatMap fun n => [blockId (n + 1), blockId (n + 2)] := by
  fun_induction drawn counter next passages with
  | case1 => rfl
  | case2 counter next line lines rest ih =>
    rw [List.flatMap_cons, ih, targets_controlBlock, branches]
    split
    · rw [List.flatMap_cons]
    · rw [List.nil_append]
  | case3 counter next lines rest ih => exact ih

/-- The graph that lists the entry and every other block once. -/
def drawnGraph (counter : Nat) (o : Outline) : FlowGraph :=
  ⟨entryBlock o.lead :: drawn counter 2 o.passages⟩

section

variable (counter : Nat) (o : Outline)

theorem ids_drawnGraph :
    (drawnGraph counter o).ids = "entry" :: (numbers counter 2 o.passages).map blockId :=
  congrArg ("entry" :: ·) (ids_drawn counter 2 o.passages)

theorem nodup_ids_drawnGraph :
    (drawnGraph counter o).ids.Nodup ↔ (numbers counter 2 o.passages).Nodup := by
  rw [ids_drawnGraph, List.nodup_cons, List.nodup_map_iff blockId_injective]
  refine and_iff_right ?_
  intro h
  obtain ⟨n, -, hn⟩ := List.mem_map.1 h
  exact blockId_ne_entry n hn

theorem blockId_mem_ids_drawnGraph (n : Nat) :
    blockId n ∈ (drawnGraph counter o).ids ↔ n ∈ numbers counter 2 o.passages := by
  rw [ids_drawnGraph, List.mem_cons, List.mem_map_of_injective blockId_injective]
  exact or_iff_right (blockId_ne_entry n)

/-- The blocks that the graph names are those that its conditions go on with. -/
theorem closed_drawnGraph_iff :
    (∀ b ∈ (drawnGraph counter o).blocks, ∀ id ∈ b.targets, id ∈ (drawnGraph counter o).ids) ↔
      ∀ n ∈ branches counter o.passages,
        n + 1 ∈ numbers counter 2 o.passages ∧ n + 2 ∈ numbers counter 2 o.passages := by
  have hnamed : (drawnGraph counter o).blocks.flatMap (·.targets) =
      (branches counter o.passages).flatMap fun n => [blockId (n + 1), blockId (n + 2)] :=
    targets_drawn counter 2 o.passages
  have hclosed : (∀ b ∈ (drawnGraph counter o).blocks, ∀ id ∈ b.targets,
      id ∈ (drawnGraph counter o).ids) ↔
        ∀ id ∈ (drawnGraph counter o).blocks.flatMap (·.targets),
          id ∈ (drawnGraph counter o).ids := by
    simp only [List.mem_flatMap]
    exact ⟨fun h id ⟨b, hb, hid⟩ => h b hb id hid, fun h b hb id hid => h id ⟨b, hb, hid⟩⟩
  rw [hclosed, hnamed]
  simp only [List.mem_flatMap, ← blockId_mem_ids_drawnGraph]
  constructor
  · intro h n hn
    exact ⟨h _ ⟨n, hn, List.mem_cons_self⟩, h _ ⟨n, hn, List.mem_cons_of_mem _ List.mem_cons_self⟩⟩
  · rintro h id ⟨n, hn, hid⟩
    rcases List.mem_pair.1 hid with rfl | rfl
    · exact (h n hn).1
    · exact (h n hn).2

/-- Where every block is listed once, the numbers decide. -/
theorem wellFormed_drawnGraph_iff :
    (drawnGraph counter o).WellFormed (o.lead ++ o.passages.flatMap (·.lines)) ↔
      (numbers counter 2 o.passages).Nodup ∧ ∀ n ∈ branches counter o.passages,
        n + 1 ∈ numbers counter 2 o.passages ∧ n + 2 ∈ numbers counter 2 o.passages := by
  rw [← nodup_ids_drawnGraph, ← closed_drawnGraph_iff]
  constructor
  · intro h
    exact ⟨h.distinct, h.closed⟩
  · rintro ⟨hdistinct, hclosed⟩
    refine ⟨hdistinct, hclosed, ?_, ?_⟩
    · intro id hid
      cases hid
      exact List.mem_cons_self
    · show (o.lead ++ (drawn counter 2 o.passages).flatMap (·.instructions)).Perm _
      rw [instructions_drawn]

end

/-! ## From the sketch -/

theorem again_of_eq_nil {b : Block} (h : b.instructions = []) : b.again = [] := by
  rw [Block.again, h]
  rfl

theorem again_of_ne_nil {b : Block} (h : b.instructions ≠ []) : b.again = [b] := by
  rw [Block.again, if_neg]
  simpa using h

/-- A sketch of settled passages lists every block once. -/
theorem sketch_eq_drawn {counter listed : Nat} {current : Block} {passages : List Passage}
    (hcurrent : current.instructions = [] ∨ passages.head?.map (·.mark) = some .closing)
    (h : Settled passages) :
    sketch counter listed current passages = drawn counter (listed + 1) passages := by
  fun_induction sketch counter listed current passages with
  | case1 counter listed current =>
    rcases hcurrent with hnil | hclosing
    · exact again_of_eq_nil hnil
    · cases hclosing
  | case2 counter listed current line lines rest b ih =>
    rcases hcurrent with hnil | hclosing
    · rw [again_of_eq_nil hnil] at ih ⊢
      rw [ih h.1 h.2]
      rfl
    · cases hclosing
  | case3 counter listed current lines rest b ih =>
    rw [ih h.1 h.2]
    rfl

/-- A block with instructions is listed again, unless the next mark closes a structure. -/
theorem current_mem_sketch {counter listed : Nat} {current : Block} {passages : List Passage}
    (hlines : current.instructions ≠ [])
    (hmark : passages.head?.map (·.mark) ≠ some .closing) :
    current ∈ sketch counter listed current passages := by
  fun_cases sketch counter listed current passages with
  | case1 =>
    rw [again_of_ne_nil hlines]
    exact List.mem_singleton.2 rfl
  | case2 line lines rest b =>
    rw [again_of_ne_nil hlines]
    exact List.mem_cons_self
  | case3 lines rest b => exact absurd rfl hmark

/-- If no name is listed twice, the passages are settled. -/
theorem settled_of_nodup {counter listed : Nat} {current : Block} {passages : List Passage}
    (h : ((sketch counter listed current passages).map (·.id)).Nodup) : Settled passages := by
  have hsettled : ∀ {counter listed : Nat} {b : Block} {rest : List Passage},
      ((b :: sketch counter listed b rest).map (·.id)).Nodup →
        b.instructions = [] ∨ rest.head?.map (·.mark) = some .closing := by
    intro counter listed b rest hnodup
    by_contra hnot
    rw [not_or] at hnot
    have hmem : b ∈ sketch counter listed b rest := current_mem_sketch hnot.1 hnot.2
    exact (List.nodup_cons.1 hnodup).1 (List.mem_map_of_mem hmem)
  fun_induction sketch counter listed current passages with
  | case1 => trivial
  | case2 counter listed current line lines rest b ih =>
    rw [List.map_append] at h
    have hrest := (List.nodup_append.1 h).2.1
    exact ⟨hsettled hrest, ih (List.nodup_cons.1 hrest).2⟩
  | case3 counter listed current lines rest b ih =>
    exact ⟨hsettled h, ih (List.nodup_cons.1 h).2⟩

/-- Only the entry has its name. -/
theorem ne_entry_of_mem_sketch {counter listed : Nat} {current b : Block}
    {passages : List Passage} (hcurrent : current.id ≠ "entry")
    (h : b ∈ sketch counter listed current passages) : b.id ≠ "entry" := by
  have hagain : ∀ {c : Block}, c.id ≠ "entry" → b ∈ c.again → b.id ≠ "entry" := by
    intro c hc hb
    rw [Block.again] at hb
    split at hb
    · cases hb
    · rwa [List.mem_singleton.1 hb]
  fun_induction sketch counter listed current passages with
  | case1 counter listed current => exact hagain hcurrent h
  | case2 counter listed current line lines rest c ih =>
    rcases List.mem_append.1 h with hold | hnew
    · exact hagain hcurrent hold
    · rcases List.mem_cons.1 hnew with rfl | hrest
      · exact blockId_ne_entry _
      · exact ih (blockId_ne_entry _) hrest
  | case3 counter listed current lines rest c ih =>
    rcases List.mem_cons.1 h with rfl | hrest
    · exact blockId_ne_entry _
    · exact ih (blockId_ne_entry _) hrest

/-- The instructions of every passage stand together in a block. -/
theorem exists_mem_sketch {counter listed : Nat} {current : Block} {passages : List Passage}
    {q : Passage} (hq : q ∈ passages) :
    ∃ b ∈ sketch counter listed current passages, b.instructions = q.lines := by
  fun_induction sketch counter listed current passages with
  | case1 => cases hq
  | case2 counter listed current line lines rest b ih =>
    rcases List.mem_cons.1 hq with rfl | hrest
    · exact ⟨b, List.mem_append_right _ List.mem_cons_self, rfl⟩
    · obtain ⟨c, hc, hlines⟩ := ih hrest
      exact ⟨c, List.mem_append_right _ (List.mem_cons_of_mem _ hc), hlines⟩
  | case3 counter listed current lines rest b ih =>
    rcases List.mem_cons.1 hq with rfl | hrest
    · exact ⟨b, List.mem_cons_self, rfl⟩
    · obtain ⟨c, hc, hlines⟩ := ih hrest
      exact ⟨c, List.mem_cons_of_mem _ hc, hlines⟩

/-- Where there are passages, the entry is listed if it has instructions and the first mark opens a
structure. -/
theorem entry_mem_sketch_iff (counter : Nat) (lead : List String) (q : Passage)
    (rest : List Passage) :
    "entry" ∈ (sketch counter 0 (entryBlock lead) (q :: rest)).map (·.id) ↔
      lead ≠ [] ∧ q.mark ≠ .closing := by
  obtain ⟨mark, lines⟩ := q
  constructor
  · intro h
    obtain ⟨b, hb, hid⟩ := List.mem_map.1 h
    cases mark with
    | opening line =>
      refine ⟨?_, fun hclosing => by cases hclosing⟩
      intro hlead
      rw [sketch, again_of_eq_nil hlead] at hb
      rcases List.mem_cons.1 hb with rfl | hrest
      · exact blockId_ne_entry _ hid
      · exact ne_entry_of_mem_sketch (blockId_ne_entry _) hrest hid
    | closing =>
      rw [sketch] at hb
      rcases List.mem_cons.1 hb with rfl | hrest
      · exact absurd hid (blockId_ne_entry _)
      · exact absurd hid (ne_entry_of_mem_sketch (blockId_ne_entry _) hrest)
  · rintro ⟨hlead, hmark⟩
    have hmem : entryBlock lead ∈ sketch counter 0 (entryBlock lead) (⟨mark, lines⟩ :: rest) :=
      current_mem_sketch hlead fun h => hmark (Option.some.inj h)
    exact List.mem_map_of_mem hmem

/-- The sketch of an outline whose entry is listed and whose passages are settled. -/
theorem sketch_eq_drawnGraph {counter : Nat} {o : Outline} (hne : o.passages ≠ [])
    (hlead : o.lead ≠ []) (hmark : o.passages.head?.map (·.mark) ≠ some .closing)
    (hsettled : Settled o.passages) :
    sketch counter 0 (entryBlock o.lead) o.passages = (drawnGraph counter o).blocks := by
  obtain ⟨lead, passages⟩ := o
  fun_cases sketch counter 0 (entryBlock lead) passages with
  | case1 => exact absurd rfl hne
  | case2 line lines rest b =>
    rw [again_of_ne_nil hlead, sketch_eq_drawn hsettled.1 hsettled.2]
    rfl
  | case3 lines rest b => exact absurd rfl hmark

theorem wellFormed_again_entry (lead : List String) :
    FlowGraph.WellFormed ⟨(entryBlock lead).again⟩ lead := by
  by_cases hlead : lead = []
  · rw [again_of_eq_nil hlead, hlead]
    refine ⟨List.nodup_nil, ?_, ?_, List.Perm.nil⟩
    · intro b hb
      cases hb
    · intro id hid
      cases hid
  · rw [again_of_ne_nil hlead]
    refine ⟨List.nodup_singleton _, ?_, ?_, ?_⟩
    · intro b hb id hid
      rw [List.mem_singleton.1 hb] at hid
      cases hid
    · intro id hid
      cases hid
      exact List.mem_cons_self
    · show (lead ++ []).Perm lead
      rw [List.append_nil]

/-- A graph with blocks is entered by the entry. -/
theorem entry_mem_ids {g : FlowGraph} {instructions : List String} {b : Block}
    (h : g.WellFormed instructions) (hb : b ∈ g.blocks) : "entry" ∈ g.ids := by
  apply h.entered
  have hne : g.blocks.isEmpty = false := by
    rw [List.isEmpty_eq_false_iff]
    exact List.ne_nil_of_mem hb
  unfold FlowGraph.entry?
  rw [hne]
  rfl

theorem wellFormed_sketch_iff (counter : Nat) (o : Outline) :
    FlowGraph.WellFormed ⟨sketch counter 0 (entryBlock o.lead) o.passages⟩
        (o.lead ++ o.passages.flatMap (·.lines)) ↔ o.passages = [] ∨ Orderly counter o := by
  obtain ⟨lead, passages⟩ := o
  cases passages with
  | nil =>
    refine ⟨fun _ => Or.inl rfl, fun _ => ?_⟩
    show FlowGraph.WellFormed ⟨(entryBlock lead).again⟩ (lead ++ [])
    rw [List.append_nil]
    exact wellFormed_again_entry lead
  | cons q rest =>
    constructor
    · intro h
      obtain ⟨b, hb, -⟩ := exists_mem_sketch (q := q) List.mem_cons_self
      have hentry := (entry_mem_sketch_iff counter lead q rest).1 (entry_mem_ids h hb)
      have hmark : (q :: rest).head?.map (·.mark) ≠ some .closing :=
        fun hclosing => hentry.2 (Option.some.inj hclosing)
      have hsettled : Settled (q :: rest) := settled_of_nodup h.distinct
      rw [sketch_eq_drawnGraph (List.cons_ne_nil q rest) hentry.1 hmark hsettled] at h
      obtain ⟨hdistinct, hfollowed⟩ := (wellFormed_drawnGraph_iff counter ⟨lead, q :: rest⟩).1 h
      exact Or.inr ⟨hentry.1, hmark, hsettled, hdistinct, hfollowed⟩
    · rintro (hnil | h)
      · cases hnil
      · rw [sketch_eq_drawnGraph (List.cons_ne_nil q rest) h.lead_ne_nil h.head_opens h.settled]
        exact (wellFormed_drawnGraph_iff counter _).2 ⟨h.distinct, h.followed⟩

/-- The graph of a text, whatever number it starts from.  Its successors are blocks of it, and
the instructions of every passage are there; it is well formed if the text has no control structure
or is orderly, and only then. -/
theorem wellFormed_flowGraph_iff (counter : Nat) (content : String) :
    (∀ b ∈ (flowGraph counter content).1.blocks, ∀ s ∈ b.successors,
      s ∈ (flowGraph counter content).1.ids) ∧
    (∀ q ∈ (outline (liveLines content)).passages,
      ∃ b ∈ (flowGraph counter content).1.blocks, b.instructions = q.lines) ∧
    ((flowGraph counter content).1.WellFormed ((liveLines content).filter isInstruction) ↔
      (outline (liveLines content)).passages = [] ∨
        Orderly counter (outline (liveLines content))) := by
  have hsuccessors := successor_mem_flowGraph counter content
  have hbare := bare_flowGraph counter content
  refine ⟨hsuccessors, ?_, ?_⟩
  · intro q hq
    obtain ⟨c, hc, hlines⟩ := exists_mem_sketch hq
    rw [← hbare] at hc
    obtain ⟨b, hb, rfl⟩ := List.mem_map.1 hc
    exact ⟨b, hb, hlines⟩
  · rw [← wellFormed_bare_iff hsuccessors, hbare, filter_isInstruction]
    exact wellFormed_sketch_iff counter (outline (liveLines content))

/-- A condition, one instruction under it and one after it. -/
def lamp : String := "IF TANK.FULL THEN\nPUMP.RUN := 1;\nEND_IF\nLAMP.ON := 1;"

theorem branch_not_wellFormed :
    (flowGraph 0 lamp).1.ids = ["b1", "b2", "b2"] ∧
    FlowGraph.entry? (flowGraph 0 lamp).1 = some "entry" ∧
    (flowGraph 0 lamp).1.blocks.map (·.targets) = [["b2", "b2", "b3"], [], []] ∧
    (flowGraph 0 lamp).1.blocks.map (·.instructions) =
      [["PUMP.RUN := 1;"], ["LAMP.ON := 1;"], ["LAMP.ON := 1;"]] ∧
    ¬ (flowGraph 0 lamp).1.WellFormed ((liveLines lamp).filter isInstruction) := by
  have hids : (flowGraph 0 lamp).1.ids = ["b1", "b2", "b2"] := by decide
  refine ⟨hids, by decide, by decide, by decide, ?_⟩
  intro h
  have hdistinct := h.distinct
  rw [hids] at hdistinct
  exact absurd hdistinct (by decide)

end ControlLogic.Analysis
