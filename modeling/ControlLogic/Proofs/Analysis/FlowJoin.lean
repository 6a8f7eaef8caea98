import ControlLogic.Proofs.Analysis.DataFlow

/-!
# The data flow between routines is a join

What goes from one routine to another through a tag is found pair by pair: each routine is compared
with those behind it, in both directions.  This file proves that every ordered pair of different
routines is met exactly once in this way.

* `HasSides` says what it is for a line to have one assignment sign, and `splitOn_eq_pair_iff` that
  cutting at the sign finds the two sides.
* `Defines` and `Uses` say what a routine writes and reads, by its lines.
* `nodup_flowsAmong` is the induction over the pairs: what is found for the first routine has that
  routine at one end, and what is found among the others does not.

`dataFlows_exact_join` is the result.
-/

namespace ControlLogic

namespace Analysis

/-! ## What a routine writes and reads -/

/-- The line has one assignment sign, and the two sides around it. -/
def HasSides (line left right : String) : Prop :=
  line = left ++ ":=" ++ right ∧
    ¬ ":=".toList <:+: left.toList ∧ ¬ ":=".toList <:+: right.toList

instance (line left right : String) : Decidable (HasSides line left right) :=
  inferInstanceAs (Decidable (_ ∧ _))

/-- Cutting a line at assignment signs gives two pieces exactly if these are its sides. -/
theorem splitOn_eq_pair_iff {line left right : String} :
    Text.splitOn ":=" line = [left, right] ↔ HasSides line left right := by
  have hchars : Text.splitOn ":=" line = [left, right] ↔
      Text.Chars.splitOn ":=".toList line.toList = [left.toList, right.toList] := by
    constructor
    · intro h
      simpa [Text.splitOn, Function.comp_def] using congrArg (List.map String.toList) h
    · intro h
      rw [Text.splitOn, h]
      simp
  have hsign : ∀ s : String, Text.Chars.contains [':', '='] s.toList = false ↔
      ¬ ":=".toList <:+: s.toList := by
    intro s
    rw [← Text.Chars.contains_iff_infix, Bool.not_eq_true]
    rfl
  rw [hchars, HasSides, ← hsign, ← hsign, ← String.toList_inj]
  simpa using Text.Chars.splitOn_eq_pair_iff (x := ':') (u := ['=']) (by decide)

/-- A line of the routine has one assignment sign, and the tag is the first that its left side
refers to. -/
def Defines (r : Project.Routine) (tag : String) : Prop :=
  ∃ line ∈ liveLines r.text, ∃ left right, HasSides line left right ∧
    firstReference? (Text.strip left) = some tag ∧ tag ≠ ""

/-- A line of the routine has one assignment sign, and its right side, up to the semicolon, refers
to the tag. -/
def Uses (r : Project.Routine) (tag : String) : Prop :=
  ∃ line ∈ liveLines r.text, ∃ left right, HasSides line left right ∧
    tag ∈ references (Text.trimRight (· == ';') (Text.strip right))

theorem defines_iff {r : Project.Routine} {tag : String} :
    Defines r tag ↔ ∃ line ∈ liveLines r.text, tag ∈ written line := by
  simp only [Defines, mem_written, WritesTag, splitOn_eq_pair_iff]

theorem uses_iff {r : Project.Routine} {tag : String} :
    Uses r tag ↔ ∃ line ∈ liveLines r.text, tag ∈ readByAssignment line := by
  simp only [Uses, mem_readByAssignment, splitOn_eq_pair_iff]

/-! ## Every pair once -/

theorem nodup_flowsBetween {a b : String × List String × List String} (ha : a.2.1.Nodup) :
    (flowsBetween a b).Nodup := by
  refine (ha.filter _).map fun tag tag' h => ?_
  exact congrArg DataFlow.tag h

/-- What is found for two routines has them at its ends. -/
theorem ends_of_mem {a b : String × List String × List String} {f : DataFlow}
    (h : f ∈ flowsBetween a b ++ flowsBetween b a) :
    f.source = a.1 ∧ f.target = b.1 ∨ f.source = b.1 ∧ f.target = a.1 := by
  rcases List.mem_append.1 h with h | h
  · obtain ⟨hsource, htarget, -⟩ := mem_flowsBetween.1 h
    exact .inl ⟨hsource.symm, htarget.symm⟩
  · obtain ⟨hsource, htarget, -⟩ := mem_flowsBetween.1 h
    exact .inr ⟨hsource.symm, htarget.symm⟩

/-- Nothing is found twice.  What is found for the first routine has it at one end, with another
routine at the other end for each pair; what is found among the rest does not have it. -/
theorem nodup_flowsAmong {l : List (String × List String × List String)}
    (hl : (l.map (·.1)).Nodup) (hdefs : ∀ e ∈ l, e.2.1.Nodup) : (flowsAmong l).Nodup := by
  induction l with
  | nil => exact List.nodup_nil
  | cons c rest ih =>
    rw [List.map_cons, List.nodup_cons] at hl
    rw [List.forall_mem_cons] at hdefs
    have hne : ∀ b ∈ rest, c.1 ≠ b.1 := fun b hb heq => hl.1 (heq ▸ List.mem_map_of_mem hb)
    have hpair : ∀ b ∈ rest, (flowsBetween c b ++ flowsBetween b c).Nodup := by
      intro b hb
      refine (nodup_flowsBetween hdefs.1).append (nodup_flowsBetween (hdefs.2 b hb)) ?_
      intro f hf hf'
      exact hne b hb ((mem_flowsBetween.1 hf).1.trans (mem_flowsBetween.1 hf').1.symm)
    have hapart : rest.Pairwise fun b b' => List.Disjoint (flowsBetween c b ++ flowsBetween b c)
        (flowsBetween c b' ++ flowsBetween b' c) := by
      refine (List.pairwise_map.1 hl.2).imp_of_mem fun {b b'} hb hb' hbb' f hf hf' => ?_
      rcases ends_of_mem hf with ⟨hs, ht⟩ | ⟨hs, ht⟩
      · rcases ends_of_mem hf' with ⟨-, ht'⟩ | ⟨hs', -⟩
        · exact hbb' (ht.symm.trans ht')
        · exact hne b' hb' (hs.symm.trans hs')
      · rcases ends_of_mem hf' with ⟨hs', -⟩ | ⟨hs', -⟩
        · exact hne b hb (hs'.symm.trans hs)
        · exact hbb' (hs.symm.trans hs')
    rw [flowsAmong]
    refine (List.nodup_flatMap.2 ⟨hpair, hapart⟩).append (ih hl.2 hdefs.2) fun f hf hf' => ?_
    obtain ⟨b, hb, hf⟩ := List.mem_flatMap.1 hf
    obtain ⟨-, a, ha, a', ha', hf'⟩ := (mem_flowsAmong hl.2).1 hf'
    obtain ⟨hsource, htarget, -⟩ := mem_flowsBetween.1 hf'
    rcases ends_of_mem hf with ⟨h, -⟩ | ⟨-, h⟩
    · exact hne a ha (h.symm.trans hsource.symm)
    · exact hne a' ha' (h.symm.trans htarget.symm)

/-- The data flow between routines with distinct names is an exact join.  There is one record for
each ordered pair of different routines and each tag that the one defines and the other uses, and
there is no other record. -/
theorem dataFlows_exact_join (p : Project) (hnames : (p.routines.map (·.name)).Nodup) :
    (dataFlows p).Nodup ∧
    ∀ f, f ∈ dataFlows p ↔ ∃ s ∈ p.routines, ∃ t ∈ p.routines, s.name ≠ t.name ∧
      f.source = s.name ∧ f.target = t.name ∧ Defines s f.tag ∧ Uses t f.tag := by
  refine ⟨?_, fun f => ?_⟩
  · rw [dataFlows, entries_flowTable hnames]
    refine nodup_flowsAmong (by rwa [List.map_map]) fun e he => ?_
    obtain ⟨r, -, rfl⟩ := List.mem_map.1 he
    exact Text.nodup_ascending _
  · rw [mem_dataFlows hnames]
    simp only [HasLine, ← defines_iff, ← uses_iff]
    constructor
    · rintro ⟨hne, ⟨s, hs, hsource, hdefines⟩, t, ht, htarget, huses⟩
      rw [← hsource, ← htarget] at hne
      exact ⟨s, hs, t, ht, hne, hsource.symm, htarget.symm, hdefines, huses⟩
    · rintro ⟨s, hs, t, ht, hne, hsource, htarget, hdefines, huses⟩
      rw [hsource, htarget]
      exact ⟨hne, ⟨s, hs, rfl, hdefines⟩, t, ht, rfl, huses⟩

/-- A routine with a text of one line. -/
def oneLiner (name line : String) : Project.Routine where
  name := name
  language := .st
  content := some line

/-- Two routines that each write what the other reads, and a third that looks on. -/
def circulation : Project where
  controller := { name := "Station" }
  programs := [
    { name := "Main", routines := [oneLiner "Fill" "TANK.LEVEL := PUMP.FLOW;",
        oneLiner "Draw" "PUMP.FLOW := TANK.LEVEL;"] },
    { name := "Panel", routines := [oneLiner "Show" "LAMP.ON := TANK.LEVEL;"] }]

theorem uses_circulation : Uses (oneLiner "Fill" "TANK.LEVEL := PUMP.FLOW;") ".FLOW" ∧
    Uses (oneLiner "Draw" "PUMP.FLOW := TANK.LEVEL;") ".LEVEL" ∧
    Uses (oneLiner "Show" "LAMP.ON := TANK.LEVEL;") ".LEVEL" := by
  refine ⟨⟨"TANK.LEVEL := PUMP.FLOW;", by decide +kernel, "TANK.LEVEL ", " PUMP.FLOW;",
      by decide +kernel, Text.mem_ascending.2 (by decide +kernel)⟩,
    ⟨"PUMP.FLOW := TANK.LEVEL;", by decide +kernel, "PUMP.FLOW ", " TANK.LEVEL;",
      by decide +kernel, Text.mem_ascending.2 (by decide +kernel)⟩,
    ⟨"LAMP.ON := TANK.LEVEL;", by decide +kernel, "LAMP.ON ", " TANK.LEVEL;",
      by decide +kernel, Text.mem_ascending.2 (by decide +kernel)⟩⟩

theorem dataFlows_exact_join_circulation :
    (circulation.routines.map (·.name)).Nodup ∧
    (dataFlows circulation).count ⟨"Fill", "Draw", ".LEVEL"⟩ = 1 ∧
    (dataFlows circulation).count ⟨"Draw", "Fill", ".FLOW"⟩ = 1 ∧
    (dataFlows circulation).count ⟨"Fill", "Show", ".LEVEL"⟩ = 1 := by
  have hnames : (circulation.routines.map (·.name)).Nodup := by decide
  obtain ⟨hnodup, hmem⟩ := dataFlows_exact_join circulation hnames
  have hfill : Defines (oneLiner "Fill" "TANK.LEVEL := PUMP.FLOW;") ".LEVEL" :=
    defines_iff.2 (by decide +kernel)
  have hdraw : Defines (oneLiner "Draw" "PUMP.FLOW := TANK.LEVEL;") ".FLOW" :=
    defines_iff.2 (by decide +kernel)
  obtain ⟨hfilled, hdrawn, hshown⟩ := uses_circulation
  refine ⟨hnames, ?_, ?_, ?_⟩
  · refine List.count_eq_one_of_mem hnodup ((hmem _).2 ?_)
    exact ⟨_, .head _, _, .tail _ (.head _), by decide, rfl, rfl, hfill, hdrawn⟩
  · refine List.count_eq_one_of_mem hnodup ((hmem _).2 ?_)
    exact ⟨_, .tail _ (.head _), _, .head _, by decide, rfl, rfl, hdraw, hfilled⟩
  · refine List.count_eq_one_of_mem hnodup ((hmem _).2 ?_)
    exact ⟨_, .head _, _, .tail _ (.tail _ (.head _)), by decide, rfl, rfl, hfill, hshown⟩

end Analysis

end ControlLogic
