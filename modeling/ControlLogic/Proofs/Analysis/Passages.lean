import ControlLogic.Analysis.FlowGraph
import Mathlib.Data.List.Basic

/-!
# The blocks of a flow graph, read off the text

A flow graph is drafted line by line.  Here it is read off the text as a whole.

* `outline` cuts the lines of a text into the lines before the first mark and the passages: each a
  line that opens or closes a control structure, with the instructions up to the next one.
  `foldl_step` says that drafting line by line is drafting passage by passage.
* `sketch` is the list of blocks that belongs to an outline, the successors aside.  A block is
  listed when it is started; it is listed again, if it has instructions, when the next mark opens a
  structure or the text ends.  `bare_flowGraph` says that the graph has just these blocks.
* `Linked` says that every successor is a listed block.  It is kept by every line, and so holds of
  every graph (`successor_mem_flowGraph`).
-/

namespace ControlLogic.Analysis

/-! ## Passages -/

/-- What a line does that is no instruction. -/
inductive Mark where
  | opening (line : String)
  | closing
  deriving DecidableEq

/-- The mark that a line is, if it is no instruction. -/
def mark? (line : String) : Option Mark :=
  if opensStructure line then some (.opening line)
  else if closesStructure line then some .closing
  else none

/-- A mark with the instructions that follow it. -/
structure Passage where
  mark : Mark
  lines : List String
  deriving DecidableEq

/-- The instructions before the first mark, and the passages. -/
structure Outline where
  lead : List String
  passages : List Passage

/-- The outline of lines. -/
def outline : List String → Outline
  | [] => ⟨[], []⟩
  | line :: rest =>
    match mark? line with
    | none => ⟨line :: (outline rest).lead, (outline rest).passages⟩
    | some mark => ⟨[], ⟨mark, (outline rest).lead⟩ :: (outline rest).passages⟩

/-- Whether a line is an instruction. -/
def isInstruction (line : String) : Bool := !opensStructure line && !closesStructure line

theorem mark?_eq_none_iff {line : String} : mark? line = none ↔ isInstruction line = true := by
  rw [mark?, isInstruction]
  cases opensStructure line <;> cases closesStructure line <;> simp

/-- The outline holds the instructions in order. -/
theorem filter_isInstruction (lines : List String) : lines.filter isInstruction =
    (outline lines).lead ++ (outline lines).passages.flatMap (·.lines) := by
  induction lines with
  | nil => rfl
  | cons line rest ih =>
    rw [outline]
    cases hmark : mark? line with
    | none => rw [List.filter_cons_of_pos (mark?_eq_none_iff.1 hmark), ih, List.cons_append]
    | some mark =>
      have hno : ¬ isInstruction line = true := by
        rw [← mark?_eq_none_iff, hmark]
        exact Option.some_ne_none mark
      rw [List.filter_cons_of_neg hno, ih, List.nil_append, List.flatMap_cons]

namespace Draft

/-- The draft with more instructions in the current block. -/
def note (d : Draft) (lines : List String) : Draft :=
  d.change d.current fun b => { b with instructions := b.instructions ++ lines }

/-- The draft after a mark. -/
def pass (d : Draft) : Mark → Draft
  | .opening line => d.openStructure line
  | .closing => d.closeStructure

/-- The draft after a passage. -/
def passage (d : Draft) (q : Passage) : Draft := (d.pass q.mark).note q.lines

theorem step_of_none {line : String} (h : mark? line = none) (d : Draft) :
    d.step line = d.note [line] := by
  obtain ⟨hopens, hcloses⟩ : opensStructure line = false ∧ closesStructure line = false := by
    simpa [isInstruction] using mark?_eq_none_iff.1 h
  rw [step, hopens, hcloses]
  rfl

theorem step_of_some {line : String} {mark : Mark} (h : mark? line = some mark) (d : Draft) :
    d.step line = d.pass mark := by
  rw [mark?] at h
  rw [step]
  split at h
  · rename_i hopens
    cases h
    rw [if_pos hopens]
    rfl
  · rename_i hopens
    split at h
    · rename_i hcloses
      cases h
      rw [if_neg hopens, if_pos hcloses]
      rfl
    · cases h

theorem note_nil (d : Draft) : d.note [] = d := by
  have hid : (fun b : Block => { b with instructions := b.instructions ++ [] }) = id := by
    funext b
    rw [List.append_nil]
    rfl
  rw [note, change, hid, List.modify_id]

theorem note_note (d : Draft) (l m : List String) : (d.note l).note m = d.note (l ++ m) := by
  rw [note, note, note, change, change, change, List.modify_modify_eq]
  simp only [Function.comp_def, List.append_assoc]

/-- Drafting line by line is drafting passage by passage. -/
theorem foldl_step (lines : List String) (d : Draft) : lines.foldl step d =
    (outline lines).passages.foldl passage (d.note (outline lines).lead) := by
  induction lines generalizing d with
  | nil => exact (note_nil d).symm
  | cons line rest ih =>
    rw [List.foldl_cons, ih, outline]
    cases hmark : mark? line with
    | none => rw [step_of_none hmark, note_note, List.singleton_append]
    | some mark => rw [step_of_some hmark, note_nil, List.foldl_cons, passage]

end Draft

/-! ## Blocks without their successors -/

/-- The block without its successors. -/
def Block.bare (b : Block) : Block := { b with successors := [] }

/-- The block with one more successor. -/
def Block.link (b : Block) (id : String) : Block := { b with successors := b.successors ++ [id] }

/-- The block, if it has instructions. -/
def Block.again (b : Block) : List Block := if b.instructions.isEmpty then [] else [b]

/-- The entry with its instructions. -/
def entryBlock (lead : List String) : Block := { id := "entry", instructions := lead }

/-- The blocks that are listed from a current block on, for the passages that follow it; `counter`
structures were met and `listed` blocks listed before. -/
def sketch (counter listed : Nat) (current : Block) : List Passage → List Block
  | [] => current.again
  | ⟨.opening line, lines⟩ :: rest =>
    let b := { controlBlock (counter + 1) line with instructions := lines }
    current.again ++ b :: sketch (counter + 1) (listed + current.again.length + 1) b rest
  | ⟨.closing, lines⟩ :: rest =>
    let b : Block := { id := blockId (listed + 1), instructions := lines }
    b :: sketch counter (listed + 1) b rest

namespace Draft

/-- The blocks of a draft without their successors. -/
def plan (d : Draft) : List Block := d.blocks.map Block.bare

/-- The current block of a draft is the last one, and all listed blocks are there. -/
structure Stands (d : Draft) (before : List Block) (current : Block) : Prop where
  plan_eq : d.plan = before ++ [current]
  current_eq : d.current = before.length
  listed_lt : ∀ i ∈ d.listed, i < d.plan.length

theorem bare_result (d : Draft) : d.result.map Block.bare = d.listed.filterMap (d.plan[·]?) := by
  rw [result, List.map_filterMap]
  simp only [plan, List.getElem?_map]

/-- A change of successors is not seen. -/
theorem plan_change {f : Block → Block} (hf : ∀ b, (f b).bare = b.bare) (d : Draft) (i : Nat) :
    (d.change i f).plan = d.plan := by
  apply List.ext_getElem?
  intro j
  rw [plan, plan, change, List.getElem?_map, List.getElem?_map, List.getElem?_modify]
  cases d.blocks[j]? with
  | none => rfl
  | some b =>
    by_cases hij : i = j
    · simp [hij, hf]
    · simp [hij]

theorem plan_enter (d : Draft) (b : Block) : (d.enter b).plan = d.plan ++ [b.bare] := by
  rw [plan, enter, List.map_append]
  rfl

variable {d : Draft} {before : List Block} {current : Block}

/-- Instructions go to the last block. -/
theorem plan_note (h : d.Stands before current) (lines : List String) : (d.note lines).plan =
    before ++ [{ current with instructions := current.instructions ++ lines }] := by
  apply List.ext_getElem?
  intro j
  have hplan : d.blocks[j]?.map Block.bare = (before ++ [current])[j]? := by
    rw [← h.plan_eq, plan, List.getElem?_map]
  rw [plan, note, change, List.getElem?_map, List.getElem?_modify, h.current_eq]
  by_cases hj : before.length = j
  · subst hj
    rw [List.getElem?_append_right (Nat.le_refl _), Nat.sub_self] at hplan ⊢
    obtain ⟨b, hb, hbare⟩ := Option.map_eq_some_iff.1 hplan
    rw [hb, ← hbare]
    simp [Block.bare]
  · have hsame : ∀ c : Block, (before ++ [c])[j]? = (before ++ [current])[j]? := by
      intro c
      rcases Nat.lt_or_ge j before.length with hlt | hge
      · rw [List.getElem?_append_left hlt, List.getElem?_append_left hlt]
      · have hsub : j - before.length ≠ 0 := by omega
        rw [List.getElem?_append_right hge, List.getElem?_append_right hge]
        simp [hsub]
    rw [hsame, ← hplan]
    simp [hj]

theorem listed_leave (h : d.Stands before current) : d.leave.listed =
    d.listed ++ if current.instructions.isEmpty then [] else [before.length] := by
  have hcurrent : d.blocks[d.current]?.map Block.bare = some current := by
    rw [← List.getElem?_map, ← plan, h.plan_eq, h.current_eq]
    simp
  obtain ⟨b, hb, hbare⟩ := Option.map_eq_some_iff.1 hcurrent
  have hlines : b.instructions = current.instructions := by rw [← hbare, Block.bare]
  rw [leave, hb]
  simp only [hlines]
  split
  · simp
  · simp [h.current_eq]

/-- A block that is started is the current one; what was there stays. -/
theorem stands_enter (h : ∀ i ∈ d.listed, i < d.plan.length) (b : Block) :
    (d.enter b).Stands d.plan b.bare := by
  have hlength : d.plan.length = d.blocks.length := by rw [plan, List.length_map]
  refine ⟨plan_enter d b, hlength.symm, ?_⟩
  intro i hi
  rw [plan_enter, List.length_append, List.length_singleton]
  rcases List.mem_append.1 hi with hold | hnew
  · exact Nat.lt_succ_of_lt (h i hold)
  · rw [List.mem_singleton.1 hnew, hlength]
    exact Nat.lt_succ_self _

theorem Stands.note (h : d.Stands before current) (lines : List String) : (d.note lines).Stands
    before { current with instructions := current.instructions ++ lines } := by
  refine ⟨plan_note h lines, h.current_eq, ?_⟩
  intro i hi
  have hlt := h.listed_lt i hi
  rw [h.plan_eq, List.length_append] at hlt
  rwa [plan_note h, List.length_append]

/-! ## What a passage lists -/

theorem plan_leave (d : Draft) : d.leave.plan = d.plan := by
  rw [leave]
  split
  · split <;> rfl
  · rfl

theorem counter_leave (d : Draft) : d.leave.counter = d.counter := by
  rw [leave]
  split
  · split <;> rfl
  · rfl

theorem listed_lt_leave (h : d.Stands before current) :
    ∀ i ∈ d.leave.listed, i < d.plan.length := by
  intro i hi
  rw [listed_leave h] at hi
  rcases List.mem_append.1 hi with hold | hnew
  · exact h.listed_lt i hold
  · have hi : i = before.length := by
      split at hnew
      · cases hnew
      · exact List.mem_singleton.1 hnew
    rw [hi, h.plan_eq, List.length_append]
    exact Nat.lt_succ_self _

theorem length_listed_leave (h : d.Stands before current) :
    d.leave.listed.length = d.listed.length + current.again.length := by
  rw [listed_leave h, List.length_append, Block.again]
  split <;> rfl

theorem bare_result_leave (h : d.Stands before current) :
    d.leave.result.map Block.bare = d.result.map Block.bare ++ current.again := by
  rw [bare_result, bare_result, plan_leave, listed_leave h, List.filterMap_append, h.plan_eq,
    Block.again]
  split <;> simp

/-- A block that is started is listed, with the instructions that follow. -/
theorem bare_result_enter_note (h : ∀ i ∈ d.listed, i < d.plan.length) (b : Block)
    (lines : List String) : ((d.enter b).note lines).result.map Block.bare =
      d.result.map Block.bare ++ [{ b.bare with instructions := b.instructions ++ lines }] := by
  have hlisted : ((d.enter b).note lines).listed = d.listed ++ [d.plan.length] := by
    rw [plan, List.length_map]
    rfl
  have hold : ∀ c : Block,
      d.listed.filterMap ((d.plan ++ [c])[·]?) = d.listed.filterMap (d.plan[·]?) := by
    intro c
    apply List.filterMap_congr
    intro i hi
    exact List.getElem?_append_left (h i hi)
  rw [bare_result, bare_result, plan_note (stands_enter h b), hlisted, List.filterMap_append, hold]
  simp [Block.bare]

/-- A draft whose blocks are those of another, some with a link to a block of that name. -/
structure LinksTo (d' d : Draft) (id : String) : Prop where
  plan_eq : d'.plan = d.plan
  of_mem : ∀ p ∈ d'.blocks, ∃ b ∈ d.blocks, p = b ∨ p = b.link id

theorem linksTo_change (d : Draft) (i : Nat) (id : String) :
    (d.change i (·.link id)).LinksTo d id := by
  refine ⟨plan_change (f := (·.link id)) (fun b => rfl) d i, ?_⟩
  intro p hp
  obtain ⟨j, hj⟩ := List.mem_iff_getElem?.1 hp
  rw [change, List.getElem?_modify] at hj
  obtain ⟨b, hb, hpb⟩ := Option.map_eq_some_iff.1 hj
  refine ⟨b, List.mem_of_getElem? hb, ?_⟩
  split at hpb
  · exact Or.inr hpb.symm
  · exact Or.inl hpb.symm

/-- A line that opens a structure leaves the current block and starts one. -/
theorem openStructure_eq (d : Draft) (line : String) : ∃ d' : Draft,
    d.openStructure line = d'.enter (controlBlock (d.counter + 1) line) ∧
      d'.LinksTo d.leave (blockId (d.counter + 1)) ∧ d'.listed = d.leave.listed ∧
        d'.counter = d.counter + 1 := by
  rw [← counter_leave d]
  let d' := d.leave.change (d.leave.listed.getLast?.getD 0) (·.link (blockId (d.leave.counter + 1)))
  have hlinks : d'.LinksTo d.leave (blockId (d.leave.counter + 1)) := linksTo_change d.leave _ _
  exact ⟨{ d' with opened := d'.blocks.length :: d'.opened, counter := d'.counter + 1 }, rfl,
    ⟨hlinks.plan_eq, hlinks.of_mem⟩, rfl, rfl⟩

/-- A line that closes a structure starts a block. -/
theorem closeStructure_eq (d : Draft) : ∃ d' : Draft,
    d.closeStructure = d'.enter { id := blockId (d.listed.length + 1) } ∧
      d'.LinksTo d (blockId (d.listed.length + 1)) ∧ d'.listed = d.listed ∧
        d'.counter = d.counter := by
  cases hopened : d.opened with
  | nil =>
    exact ⟨d, by rw [closeStructure, hopened], ⟨rfl, fun p hp => ⟨p, hp, Or.inl rfl⟩⟩, rfl, rfl⟩
  | cons i rest =>
    have hlinks := linksTo_change d i (blockId (d.listed.length + 1))
    refine ⟨{ d.change i (·.link (blockId (d.listed.length + 1))) with opened := rest }, ?_,
      ⟨hlinks.plan_eq, hlinks.of_mem⟩, rfl, rfl⟩
    rw [closeStructure, hopened]
    rfl

/-- From a draft on, the passages list the blocks of their sketch. -/
theorem bare_result_foldl (passages : List Passage) (h : d.Stands before current) :
    (passages.foldl passage d).leave.result.map Block.bare =
      d.result.map Block.bare ++ sketch d.counter d.listed.length current passages := by
  induction passages generalizing d before current with
  | nil => exact bare_result_leave h
  | cons q rest ih =>
    obtain ⟨mark, lines⟩ := q
    -- Both marks start a block; they differ in what is listed before it.
    have hnext : ∀ (d' : Draft) (b : Block), (∀ i ∈ d'.listed, i < d'.plan.length) →
        (rest.foldl passage ((d'.enter b).note lines)).leave.result.map Block.bare =
          d'.result.map Block.bare ++ { b.bare with instructions := b.instructions ++ lines } ::
            sketch d'.counter (d'.listed.length + 1)
              { b.bare with instructions := b.instructions ++ lines } rest := by
      intro d' b hlt
      have hlength : ((d'.enter b).note lines).listed.length = d'.listed.length + 1 :=
        List.length_append
      rw [ih ((stands_enter hlt b).note lines), bare_result_enter_note hlt, hlength,
        List.append_assoc]
      rfl
    cases mark with
    | opening line =>
      obtain ⟨d', hopen, hlinks, hlisted, hcounter⟩ := d.openStructure_eq line
      have hplan : d'.plan = d.plan := hlinks.plan_eq.trans (plan_leave d)
      have hresult : d'.result.map Block.bare = d.result.map Block.bare ++ current.again := by
        rw [← bare_result_leave h, bare_result, bare_result, hplan, hlisted, plan_leave]
      show (rest.foldl passage ((d.openStructure line).note lines)).leave.result.map Block.bare = _
      rw [hopen, hnext, hresult, hcounter, hlisted, length_listed_leave h, List.append_assoc]
      · rfl
      · rw [hlisted, hplan]
        exact listed_lt_leave h
    | closing =>
      obtain ⟨d', hclose, hlinks, hlisted, hcounter⟩ := d.closeStructure_eq
      have hplan := hlinks.plan_eq
      have hresult : d'.result.map Block.bare = d.result.map Block.bare := by
        rw [bare_result, bare_result, hplan, hlisted]
      show (rest.foldl passage (d.closeStructure.note lines)).leave.result.map Block.bare = _
      rw [hclose, hnext, hresult, hcounter, hlisted]
      · rfl
      · rw [hlisted, hplan]
        exact h.listed_lt

end Draft

/-- The blocks of a flow graph are those of the sketch of its outline. -/
theorem bare_flowGraph (counter : Nat) (content : String) :
    (flowGraph counter content).1.blocks.map Block.bare =
      sketch counter 0 (entryBlock (outline (liveLines content)).lead)
        (outline (liveLines content)).passages := by
  have hstart : (Draft.start counter).Stands [] (entryBlock []) := by
    refine ⟨rfl, rfl, ?_⟩
    intro i hi
    cases hi
  have hlead := hstart.note (outline (liveLines content)).lead
  show (((liveLines content).foldl Draft.step (Draft.start counter)).leave).result.map
    Block.bare = _
  rw [Draft.foldl_step, Draft.bare_result_foldl _ hlead]
  rfl

/-! ## Successors -/

/-- The names of the blocks of a graph. -/
def FlowGraph.ids (g : FlowGraph) : List String := g.blocks.map (·.id)

namespace Draft

/-- The names of the listed blocks. -/
def ids (d : Draft) : List String := FlowGraph.ids ⟨d.result⟩

/-- Every successor of a block is the name of a listed one. -/
def Linked (d : Draft) : Prop := ∀ b ∈ d.blocks, ∀ s ∈ b.successors, s ∈ d.ids

theorem mem_ids {d : Draft} {id : String} :
    id ∈ d.ids ↔ ∃ i ∈ d.listed, ∃ b, d.blocks[i]? = some b ∧ b.id = id := by
  rw [ids, FlowGraph.ids, result]
  constructor
  · intro h
    obtain ⟨b, hb, hid⟩ := List.mem_map.1 h
    obtain ⟨i, hi, hbi⟩ := List.mem_filterMap.1 hb
    exact ⟨i, hi, b, hbi, hid⟩
  · rintro ⟨i, hi, b, hbi, hid⟩
    exact List.mem_map.2 ⟨b, List.mem_filterMap.2 ⟨i, hi, hbi⟩, hid⟩

theorem ids_eq (d : Draft) : d.ids = (d.listed.filterMap (d.plan[·]?)).map (·.id) := by
  rw [← bare_result, List.map_map]
  rfl

theorem ids_note (d : Draft) (lines : List String) : (d.note lines).ids = d.ids := by
  rw [ids, ids, FlowGraph.ids, FlowGraph.ids, result, result, List.map_filterMap,
    List.map_filterMap]
  apply List.filterMap_congr
  intro i _
  rw [note, change, List.getElem?_modify]
  cases d.blocks[i]? with
  | none => rfl
  | some b =>
    by_cases hi : d.current = i
    · simp [hi]
    · simp [hi]

theorem ids_subset_enter (d : Draft) (b : Block) : d.ids ⊆ (d.enter b).ids := by
  intro id h
  obtain ⟨i, hi, c, hc, hid⟩ := mem_ids.1 h
  refine mem_ids.2 ⟨i, List.mem_append_left _ hi, c, ?_, hid⟩
  obtain ⟨hlt, -⟩ := List.getElem?_eq_some_iff.1 hc
  show (d.blocks ++ [b])[i]? = some c
  rwa [List.getElem?_append_left hlt]

theorem mem_ids_enter (d : Draft) (b : Block) : b.id ∈ (d.enter b).ids := by
  refine mem_ids.2 ⟨d.blocks.length, List.mem_append_right _ (List.mem_singleton.2 rfl), b, ?_, rfl⟩
  exact List.getElem?_concat_length

variable {d d' : Draft}

/-- A link to the block that is started next is kept. -/
theorem Linked.enter {b : Block} (h : d.Linked) (hlinks : d'.LinksTo d b.id)
    (hlisted : d'.listed = d.listed) (hb : b.successors = []) : (d'.enter b).Linked := by
  have hids : d.ids ⊆ (d'.enter b).ids := by
    rw [ids_eq d, ← hlinks.plan_eq, ← hlisted, ← ids_eq]
    exact ids_subset_enter d' b
  intro p hp s hs
  rcases List.mem_append.1 hp with hold | hnew
  · obtain ⟨c, hc, rfl | rfl⟩ := hlinks.of_mem p hold
    · exact hids (h p hc s hs)
    · rcases List.mem_append.1 hs with hsc | hsb
      · exact hids (h c hc s hsc)
      · rw [List.mem_singleton.1 hsb]
        exact mem_ids_enter d' b
  · rw [List.mem_singleton.1 hnew, hb] at hs
    cases hs

theorem Linked.leave (h : d.Linked) : d.leave.Linked := by
  rw [Draft.leave]
  split
  · split
    · exact h
    · intro p hp s hs
      obtain ⟨i, hi, c, hc⟩ := mem_ids.1 (h p hp s hs)
      exact mem_ids.2 ⟨i, List.mem_append_left _ hi, c, hc⟩
  · exact h

theorem Linked.note (h : d.Linked) (lines : List String) : (d.note lines).Linked := by
  intro p hp s hs
  rw [ids_note]
  obtain ⟨i, hi⟩ := List.mem_iff_getElem?.1 hp
  rw [Draft.note, change, List.getElem?_modify] at hi
  obtain ⟨c, hc, rfl⟩ := Option.map_eq_some_iff.1 hi
  refine h c (List.mem_of_getElem? hc) s ?_
  split at hs
  · exact hs
  · exact hs

/-- One passage keeps a draft linked. -/
theorem Linked.passage (h : d.Linked) (q : Passage) : (d.passage q).Linked := by
  obtain ⟨mark, lines⟩ := q
  cases mark with
  | opening line =>
    obtain ⟨d', hopen, hlinks, hlisted, -⟩ := d.openStructure_eq line
    show ((d.openStructure line).note lines).Linked
    rw [hopen]
    exact (h.leave.enter hlinks hlisted rfl).note lines
  | closing =>
    obtain ⟨d', hclose, hlinks, hlisted, -⟩ := d.closeStructure_eq
    show (d.closeStructure.note lines).Linked
    rw [hclose]
    exact (h.enter hlinks hlisted rfl).note lines

/-- All passages keep a draft linked. -/
theorem Linked.foldl_passage (h : d.Linked) (passages : List Passage) :
    (passages.foldl Draft.passage d).Linked := by
  induction passages generalizing d with
  | nil => exact h
  | cons q rest ih => exact ih (h.passage q)

end Draft

/-- The successors of the blocks of a flow graph are blocks of it. -/
theorem successor_mem_flowGraph (counter : Nat) (content : String) :
    ∀ b ∈ (flowGraph counter content).1.blocks, ∀ s ∈ b.successors,
      s ∈ (flowGraph counter content).1.ids := by
  have hstart : (Draft.start counter).Linked := by
    intro b hb s hs
    rw [List.mem_singleton.1 hb] at hs
    cases hs
  have hrun : (((liveLines content).foldl Draft.step (Draft.start counter)).leave).Linked := by
    rw [Draft.foldl_step]
    exact ((hstart.note _).foldl_passage _).leave
  intro b hb s hs
  obtain ⟨i, -, hi⟩ := List.mem_filterMap.1 hb
  exact hrun b (List.mem_of_getElem? hi) s hs

end ControlLogic.Analysis
