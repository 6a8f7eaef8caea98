import ControlLogic.Analysis.Drawing
import ControlLogic.Proofs.Text.Chars
import Mathlib.Data.List.Basic
import Mathlib.Data.List.Nodup
import Mathlib.Data.List.ReduceOption

/-!
# The edges of a drawing

The blocks of all routines are the nodes of the markup drawing, numbered on in one pass.  Its edges
are numbered in a second pass and run from the node of their own number to the next.

* `withEdges` is the drawing with other edges, and `withEdges_injective` says that the edges can be
  read from it.
* `links` are the nodes that each block leads to, and `edges` the edges that they call for.
* `consecutive_eq_edgesFrom_iff` is the induction over the nodes: the edges from each node to the
  next are these edges only for a single chain that begins with the first node.
* `arrowEdges` are the edges by the arrows of the other drawing, which go by the names of blocks.

`flowMarkup_edges_iff` is the result.
-/

namespace ControlLogic.Analysis.Drawing

/-! ## Reading the edges -/

/-- The lines of edges, numbered from `n` on. -/
def edgeLines (n : Nat) : List (Nat × Nat) → List String
  | [] => []
  | e :: rest => markupEdge n e.1 e.2 "control_flow" "successor" ++ edgeLines (n + 1) rest

/-- The lines of the nodes. -/
def nodeLines (d : Drawing) : List String :=
  (d.routines.flatMap fun r => r.2.map (r.1, ·)).zipIdx.flatMap fun s =>
    markupNode s.2 [("label", markupLabel s.1.2), ("type", s.1.2.kind), ("routine", s.1.1),
      ("defs", Text.join "," s.1.2.defs), ("uses", Text.join "," s.1.2.uses)]

/-- The blocks as nodes, with edges between them. -/
def withEdges (d : Drawing) (edges : List (Nat × Nat)) : String :=
  markup "cfg" ["label", "type", "routine", "defs", "uses"] d.nodeLines (edgeLines 0 edges)

theorem markupEdge_inj {n s t s' t' : Nat} {tag kind : String}
    (h : markupEdge n s t tag kind = markupEdge n s' t' tag kind) : s = s' ∧ t = t' := by
  have hline := congrArg String.toList (List.cons.inj h).1
  simp only [String.toList_append, List.append_assoc] at hline
  have hrest := List.append_cancel_left (List.append_cancel_left (List.append_cancel_left hline))
  have hquote : ∀ k : Nat, '"' ∉ (toString k).toList := Text.not_mem_toString (by decide)
  obtain ⟨hs, hrest⟩ := Text.Chars.append_cons_inj (hquote s) (hquote s') hrest
  have hrest : " target=\"n".toList ++ _ = " target=\"n".toList ++ _ := hrest
  obtain ⟨ht, -⟩ := Text.Chars.append_cons_inj (hquote t) (hquote t')
    (List.append_cancel_left hrest)
  exact ⟨Text.toString_inj hs, Text.toString_inj ht⟩

theorem edgeLines_inj {n : Nat} {es es' : List (Nat × Nat)}
    (h : edgeLines n es = edgeLines n es') : es = es' := by
  induction es generalizing n es' with
  | nil =>
    cases es' with
    | nil => rfl
    | cons e es' => cases h
  | cons e es ih =>
    cases es' with
    | nil => cases h
    | cons e' es' =>
      obtain ⟨hedge, hrest⟩ := List.append_inj h rfl
      obtain ⟨hs, ht⟩ := markupEdge_inj hedge
      rw [Prod.ext hs ht, ih hrest]

theorem newline_not_mem_edgeLines {n : Nat} {es : List (Nat × Nat)} {line : String}
    (h : line ∈ edgeLines n es) : '\n' ∉ line.toList := by
  have hnumber : ∀ k : Nat, '\n' ∉ (toString k).toList := Text.not_mem_toString (by decide)
  induction es generalizing n with
  | nil => cases h
  | cons e es ih =>
    rcases List.mem_append.1 h with h | h
    · simp only [markupEdge, List.mem_cons, List.not_mem_nil, or_false] at h
      rcases h with rfl | rfl | rfl | rfl
      · simp only [String.toList_append, List.mem_append, not_or]
        exact ⟨⟨⟨⟨⟨⟨by decide, hnumber n⟩, by decide⟩, hnumber e.1⟩, by decide⟩, hnumber e.2⟩,
          by decide⟩
      · decide
      · decide
      · decide
    · exact ih h

/-- The edges can be read from a drawing. -/
theorem withEdges_injective (d : Drawing) : Function.Injective d.withEdges := by
  intro es es' h
  obtain ⟨front, hfront, hjoin⟩ : ∃ front : List String, front ≠ [] ∧ ∀ es, d.withEdges es =
      Text.join "\n" (front ++ (edgeLines 0 es ++ ["  </graph>", "</graphml>"])) := by
    refine ⟨_, ?_, fun es => congrArg (Text.join "\n") (List.append_assoc _ _ _)⟩
    simp
  have hne : ∀ es : List (Nat × Nat), edgeLines 0 es ++ ["  </graph>", "</graphml>"] ≠ [] := by
    simp
  have hsplit : ∀ es : List (Nat × Nat),
      Text.split '\n' (Text.join "\n" (edgeLines 0 es ++ ["  </graph>", "</graphml>"])) =
        edgeLines 0 es ++ ["  </graph>", "</graphml>"] := by
    intro es
    refine Text.split_join (hne es) fun line hline => ?_
    rcases List.mem_append.1 hline with hedge | hend
    · exact newline_not_mem_edgeLines hedge
    · rcases List.mem_pair.1 hend with rfl | rfl <;> decide
  have hlist := congrArg String.toList h
  rw [hjoin, hjoin, Text.toList_join_append hfront (hne es),
    Text.toList_join_append hfront (hne es')] at hlist
  have hrest := String.toList_inj.1 (List.cons.inj (List.append_cancel_left hlist)).2
  have hlines := congrArg (Text.split '\n') hrest
  rw [hsplit, hsplit] at hlines
  exact edgeLines_inj (List.append_cancel_right hlines)

/-! ## Links and edges -/

/-- The place of the block with an id. -/
def place? (shapes : List Shape) (id : String) : Option Nat := shapes.findIdx? (·.id == id)

/-- The nodes that each block of the routines leads to, numbered from `n` on; an id of no block of
the routine leads nowhere. -/
def linksFrom (n : Nat) : List (String × List Shape) → List (List (Option Nat))
  | [] => []
  | r :: rest =>
    r.2.map (fun s => s.successors.map fun id => (place? r.2 id).map (n + ·)) ++
      linksFrom (n + r.2.length) rest

/-- The nodes that each node leads to. -/
def links (d : Drawing) : List (List (Option Nat)) := linksFrom 0 d.routines

/-- The edges of links, the first links being those of the node `n`. -/
def edgesFrom (n : Nat) : List (List (Option Nat)) → List (Nat × Nat)
  | [] => []
  | targets :: rest => targets.reduceOption.map (n, ·) ++ edgesFrom (n + 1) rest

/-- The edges of a drawing: one for each id among the successors of a block that is the id of a
block of its routine, from the node of the one to the node of the other. -/
def edges (d : Drawing) : List (Nat × Nat) := edgesFrom 0 d.links

/-- The edges from each of `m` nodes to the next. -/
def consecutive (n m : Nat) : List (Nat × Nat) := (List.range' n m).map fun k => (k, k + 1)

theorem length_linksFrom (n : Nat) (routines : List (String × List Shape)) :
    (linksFrom n routines).flatten.length =
      ((routines.flatMap fun r => r.2.map (r.1, ·)).flatMap (·.2.successors)).length := by
  induction routines generalizing n with
  | nil => rfl
  | cons r routines ih =>
    rw [linksFrom, List.flatten_append, List.length_append, ih, List.flatMap_cons,
      List.flatMap_append, List.length_append, List.flatMap_map]
    simp [List.length_flatten, List.length_flatMap, Function.comp_def]

theorem edgeLines_consecutive (n m : Nat) : edgeLines n (consecutive n m) =
    (List.range' n m).flatMap fun k => markupEdge k k (k + 1) "control_flow" "successor" := by
  induction m generalizing n with
  | zero => rfl
  | succ m ih =>
    rw [consecutive, List.range'_succ, List.map_cons, edgeLines, List.flatMap_cons]
    exact congrArg (_ ++ ·) (ih (n + 1))

/-- The edges of the markup run from each node to the next. -/
theorem flowMarkup_eq (d : Drawing) :
    d.flowMarkup = d.withEdges (consecutive 0 d.links.flatten.length) := by
  rw [withEdges, edgeLines_consecutive, ← List.range_eq_range', links, length_linksFrom]
  rfl

/-! ## Chains -/

theorem length_edgesFrom_le (n : Nat) (l : List (List (Option Nat))) :
    (edgesFrom n l).length ≤ l.flatten.length := by
  induction l generalizing n with
  | nil => exact Nat.le_refl _
  | cons targets l ih =>
    rw [edgesFrom, List.length_append, List.length_map, List.flatten_cons, List.length_append]
    exact Nat.add_le_add (List.reduceOption_length_le targets) (ih (n + 1))

theorem le_of_mem_edgesFrom {n : Nat} {l : List (List (Option Nat))} {e : Nat × Nat}
    (h : e ∈ edgesFrom n l) : n ≤ e.1 := by
  induction l generalizing n with
  | nil => cases h
  | cons targets l ih =>
    rcases List.mem_append.1 h with h | h
    · obtain ⟨t, -, rfl⟩ := List.mem_map.1 h
      exact Nat.le_refl n
    · have := ih h
      omega

/-- Edges come in the order of the nodes that they leave. -/
theorem pairwise_edgesFrom (n : Nat) (l : List (List (Option Nat))) :
    (edgesFrom n l).Pairwise (·.1 ≤ ·.1) := by
  induction l generalizing n with
  | nil => exact List.Pairwise.nil
  | cons targets l ih =>
    rw [edgesFrom, List.pairwise_append]
    refine ⟨?_, ih (n + 1), ?_⟩
    · rw [List.pairwise_map]
      exact List.pairwise_of_forall fun _ _ => Nat.le_refl n
    · intro e he e' he'
      obtain ⟨t, -, rfl⟩ := List.mem_map.1 he
      have := le_of_mem_edgesFrom he'
      exact Nat.le_of_lt this

/-- The links of nodes of which the first `m` lead to the next one only and the others nowhere. -/
def IsChainFrom (n : Nat) (l : List (List (Option Nat))) : Prop :=
  ∃ m rest, l = (List.range' n m).map (fun k => [some (k + 1)]) ++ List.replicate rest []

theorem edgesFrom_replicate (n rest : Nat) : edgesFrom n (List.replicate rest []) = [] := by
  induction rest generalizing n with
  | zero => rfl
  | succ rest ih => exact ih (n + 1)

theorem edgesFrom_of_isChainFrom {n : Nat} {l : List (List (Option Nat))}
    (h : IsChainFrom n l) : consecutive n l.flatten.length = edgesFrom n l := by
  obtain ⟨m, rest, rfl⟩ := h
  induction m generalizing n with
  | zero =>
    rw [List.range'_zero, List.map_nil, List.nil_append, edgesFrom_replicate]
    simp [consecutive]
  | succ m ih =>
    rw [List.range'_succ, List.map_cons, List.cons_append, List.flatten_cons, List.length_append,
      List.length_singleton, Nat.add_comm, consecutive, List.range'_succ, List.map_cons, edgesFrom]
    exact congrArg ((n, n + 1) :: ·) ih

/-- A node with successors, where every successor has an edge and the edges run from each node to
the next, leads to the next node only. -/
theorem eq_singleton_of_consecutive_eq {n : Nat} {targets : List (Option Nat)}
    {l : List (List (Option Nat))} (hne : targets ≠ [])
    (h : consecutive n (targets :: l).flatten.length = edgesFrom n (targets :: l)) :
    targets = [some (n + 1)] := by
  rw [List.flatten_cons, List.length_append, edgesFrom] at h
  have hlength := congrArg List.length h
  rw [consecutive, List.length_map, List.length_range', List.length_append, List.length_map]
    at hlength
  have htargets := List.reduceOption_length_le targets
  have hrest := length_edgesFrom_le (n + 1) l
  -- as many edges as successors, so none leads nowhere
  have hsome := List.reduceOption_length_eq_iff.1 (by omega : _ = targets.length)
  rcases targets with _ | ⟨x, _ | ⟨y, targets⟩⟩
  · exact absurd rfl hne
  · obtain ⟨t, rfl⟩ := Option.isSome_iff_exists.1 (hsome x List.mem_cons_self)
    rw [List.length_singleton, Nat.add_comm, consecutive, List.range'_succ, List.map_cons,
      List.reduceOption_singleton] at h
    have hhead := (List.cons.inj h).1
    rw [(Prod.mk.inj hhead).2]
  · obtain ⟨t, rfl⟩ := Option.isSome_iff_exists.1 (hsome x List.mem_cons_self)
    obtain ⟨u, rfl⟩ := Option.isSome_iff_exists.1 (hsome y (.tail _ List.mem_cons_self))
    rw [List.length_cons, List.length_cons, Nat.add_right_comm, Nat.add_right_comm _ 1,
      consecutive, List.range'_succ, List.range'_succ, List.map_cons, List.map_cons,
      List.reduceOption_cons_of_some, List.reduceOption_cons_of_some] at h
    have hsecond := (List.cons.inj (List.cons.inj h).2).1
    have := (Prod.mk.inj hsecond).1
    omega

/-- The edges from each node to the next, as many as there are successors, are the edges of the
links exactly if these make up one chain from the first node on. -/
theorem consecutive_eq_edgesFrom_iff (n : Nat) (l : List (List (Option Nat))) :
    consecutive n l.flatten.length = edgesFrom n l ↔ IsChainFrom n l := by
  refine ⟨fun h => ?_, edgesFrom_of_isChainFrom⟩
  induction l generalizing n with
  | nil => exact ⟨0, 0, rfl⟩
  | cons targets l ih =>
    by_cases hne : targets = []
    · subst hne
      -- the first edge would leave the node `n`, but later nodes have later edges only
      cases hlength : l.flatten.length with
      | zero =>
        have hempty : ∀ targets ∈ l, targets = [] := by
          simpa using List.eq_nil_of_length_eq_zero hlength
        refine ⟨0, l.length + 1, ?_⟩
        rw [List.replicate_succ, ← List.eq_replicate_iff.2 ⟨rfl, hempty⟩]
        rfl
      | succ m =>
        have hmem : (n, n + 1) ∈ edgesFrom (n + 1) l := by
          have hedges : consecutive n l.flatten.length = edgesFrom (n + 1) l := h
          rw [← hedges, hlength, consecutive, List.range'_succ]
          exact List.mem_cons_self
        have := le_of_mem_edgesFrom hmem
        omega
    · obtain rfl := eq_singleton_of_consecutive_eq hne h
      rw [List.flatten_cons, List.length_append, List.length_singleton, Nat.add_comm, consecutive,
        List.range'_succ, List.map_cons, edgesFrom] at h
      obtain ⟨m, rest, rfl⟩ := ih (n + 1) (List.cons.inj h).2
      exact ⟨m + 1, rest, rfl⟩

/-- The order of the edges makes no difference. -/
theorem consecutive_perm_edgesFrom_iff (n m : Nat) (l : List (List (Option Nat))) :
    (consecutive n m).Perm (edgesFrom n l) ↔ consecutive n m = edgesFrom n l := by
  refine ⟨fun hperm => ?_, fun h => h ▸ List.Perm.refl _⟩
  have hsources : (consecutive n m).map (·.1) = List.range' n m := by
    simp [consecutive, Function.comp_def]
  have hconsecutive : (consecutive n m).Pairwise (·.1 < ·.1) := by
    rw [← List.pairwise_map, hsources]
    exact List.pairwise_lt_range'
  have hnodup : ((edgesFrom n l).map (·.1)).Nodup := by
    rw [← (hperm.map _).nodup_iff, hsources]
    exact List.nodup_range'
  have hedges : (edgesFrom n l).Pairwise (·.1 < ·.1) :=
    (pairwise_edgesFrom n l).imp₂ (fun _ _ hle hne => Nat.lt_of_le_of_ne hle hne)
      (List.pairwise_map.1 hnodup)
  refine List.Perm.eq_of_pairwise (fun e e' _ _ hlt hgt => ?_) hconsecutive hedges hperm
  omega

/-! ## Arrows -/

/-- The arrows of the successors, by the ids of the blocks. -/
def namedArrows (shapes : List Shape) : List (String × String) :=
  shapes.flatMap fun s => s.successors.map (s.id, ·)

/-- The line of an arrow without a label. -/
def arrowLine (routine : String) (a : String × String) : String :=
  "    " ++ node routine a.1 ++ " -> " ++ node routine a.2 ++ ";"

/-- The edges by the arrows of the routines, their blocks being numbered from `n` on. -/
def arrowEdgesFrom (n : Nat) : List (String × List Shape) → List (Nat × Nat)
  | [] => []
  | r :: rest =>
    (namedArrows r.2).filterMap (fun a =>
        (place? r.2 a.1).bind fun i => (place? r.2 a.2).map fun j => (n + i, n + j)) ++
      arrowEdgesFrom (n + r.2.length) rest

/-- The edges by the arrows between blocks. -/
def arrowEdges (d : Drawing) : List (Nat × Nat) := arrowEdgesFrom 0 d.routines

theorem namedArrows_cons (s : Shape) (shapes : List Shape) :
    namedArrows (s :: shapes) = s.successors.map (s.id, ·) ++ namedArrows shapes := rfl

theorem endsWith_arrowLine (routine : String) (a : String × String) :
    Text.endsWith "\";" (arrowLine routine a) = true := by
  rw [Text.endsWith, List.isSuffixOf_iff_suffix]
  refine ⟨("    " ++ node routine a.1 ++ " -> " ++ ("\"" ++ routine ++ "_" ++ a.2)).toList, ?_⟩
  simp [arrowLine, node]

theorem endsWith_labelled (line word : String) :
    Text.endsWith "\";" (line ++ (" [label=\"" ++ word ++ "\"]") ++ ";") = false := by
  rw [Text.endsWith, List.isSuffixOf]
  simp [List.isPrefixOf]

/-- The arrows without a label are those of the successors. -/
theorem filter_blockArrows (routine : String) (shapes : List Shape) :
    (shapes.flatMap (blockArrows routine)).filter (Text.endsWith "\";") =
      (namedArrows shapes).map (arrowLine routine) := by
  rw [List.filter_flatMap, namedArrows, List.map_flatMap]
  refine congrArg (shapes.flatMap ·) (funext fun s => ?_)
  rw [blockArrows, List.filter_append, List.filter_eq_self.2, List.filter_eq_nil_iff.2,
    List.append_nil, List.map_map]
  · simp [arrowLine, Function.comp_def]
  · intro line hline
    split at hline
    · rcases List.mem_append.1 hline with h | h <;>
      · obtain ⟨t, -, rfl⟩ := Option.map_eq_some_iff.1 (Option.mem_toList.1 h)
        rw [endsWith_labelled]
        exact Bool.false_ne_true
    · cases hline
  · intro line hline
    obtain ⟨t, -, rfl⟩ := List.mem_map.1 hline
    simpa [arrowLine] using endsWith_arrowLine routine (s.id, t)

theorem edgesFrom_append (n : Nat) (l l' : List (List (Option Nat))) :
    edgesFrom n (l ++ l') = edgesFrom n l ++ edgesFrom (n + l.length) l' := by
  induction l generalizing n with
  | nil => rfl
  | cons targets l ih =>
    rw [List.cons_append, edgesFrom, edgesFrom, ih, List.append_assoc, List.length_cons,
      Nat.add_right_comm, Nat.add_assoc]

/-- A block is found at its place. -/
theorem place?_append_cons {pre suf : List Shape} {s : Shape}
    (h : ((pre ++ s :: suf).map (·.id)).Nodup) :
    place? (pre ++ s :: suf) s.id = some pre.length := by
  have hpre : pre.findIdx? (·.id == s.id) = none := by
    rw [List.findIdx?_eq_none_iff]
    intro t ht
    rw [List.map_append, List.nodup_append] at h
    have := h.2.2 t.id (List.mem_map_of_mem ht) s.id List.mem_cons_self
    simpa using this
  rw [place?, List.findIdx?_append, hpre, List.findIdx?_cons]
  simp

theorem edgesFrom_eq_filterMap (n : Nat) {shapes : List Shape} (pre suf : List Shape)
    (hnodup : (shapes.map (·.id)).Nodup) (hshapes : shapes = pre ++ suf) :
    edgesFrom (n + pre.length)
        (suf.map fun s => s.successors.map fun id => (place? shapes id).map (n + ·)) =
      (namedArrows suf).filterMap fun a =>
        (place? shapes a.1).bind fun i => (place? shapes a.2).map fun j => (n + i, n + j) := by
  induction suf generalizing pre with
  | nil => rfl
  | cons s suf ih =>
    have hplace : place? shapes s.id = some pre.length := by
      rw [hshapes]
      exact place?_append_cons (hshapes ▸ hnodup)
    have hrest := ih (pre ++ [s]) (by rw [hshapes]; simp)
    rw [List.length_append, List.length_singleton, ← Nat.add_assoc] at hrest
    rw [List.map_cons, edgesFrom, hrest, namedArrows_cons, List.filterMap_append]
    congr 1
    rw [List.reduceOption, List.filterMap_map, List.map_filterMap, List.filterMap_map]
    refine List.filterMap_congr fun id _ => ?_
    simp [hplace, Function.comp_def]

/-- The arrows and the edges agree. -/
theorem arrowEdges_eq {d : Drawing} (h : ∀ r ∈ d.routines, (r.2.map (·.id)).Nodup) :
    d.arrowEdges = d.edges := by
  rw [arrowEdges, edges, links]
  generalize d.routines = routines at h
  generalize 0 = n
  induction routines generalizing n with
  | nil => rfl
  | cons r routines ih =>
    have hedges := edgesFrom_eq_filterMap n [] r.2 (h r List.mem_cons_self) rfl
    rw [arrowEdgesFrom, linksFrom, edgesFrom_append, List.length_map,
      ih (fun r' hr' => h r' (.tail _ hr'))]
    exact congrArg (· ++ _) hedges.symm

/-! ## The result -/

/-- The arrows without a label are those of the successors, and for blocks with distinct ids they
agree with the edges that the successors call for.  The markup has these edges, in any order,
exactly if all links together make up one chain from the first node on: its edges always run from
each node to the next, as many as there are successors. -/
theorem flowMarkup_edges_iff (d : Drawing) (h : ∀ r ∈ d.routines, (r.2.map (·.id)).Nodup) :
    (∀ r ∈ d.routines, (r.2.flatMap (blockArrows r.1)).filter (Text.endsWith "\";") =
      (namedArrows r.2).map (arrowLine r.1)) ∧
    d.arrowEdges = d.edges ∧
    (∀ edges, d.flowMarkup = d.withEdges edges ↔
      edges = consecutive 0 d.links.flatten.length) ∧
    ((∃ edges, edges.Perm d.edges ∧ d.flowMarkup = d.withEdges edges) ↔
      IsChainFrom 0 d.links) := by
  have hmarkup : ∀ edges, d.flowMarkup = d.withEdges edges ↔
      edges = consecutive 0 d.links.flatten.length := by
    intro edges
    rw [flowMarkup_eq, d.withEdges_injective.eq_iff, eq_comm]
  refine ⟨fun r _ => filter_blockArrows r.1 r.2, arrowEdges_eq h, hmarkup, ?_⟩
  rw [← consecutive_eq_edgesFrom_iff, ← consecutive_perm_edgesFrom_iff]
  constructor
  · rintro ⟨edges, hperm, hedges⟩
    exact (hmarkup edges).1 hedges ▸ hperm
  · intro hperm
    exact ⟨_, hperm, flowMarkup_eq d⟩

/-- A routine that fills a tank. -/
def fill : Project.Routine where
  name := "Fill"
  language := .st
  content := some "LAMP.ON := 0;\nIF TANK.FULL THEN\nPUMP.RUN := 1;\nEND_IF"

/-- A routine that empties it. -/
def empty : Project.Routine where
  name := "Empty"
  language := .st
  content := some "LAMP.ON := 1;\nIF TANK.LOW THEN\nPUMP.RUN := 0;\nEND_IF"

/-- The drawing of routines of one program. -/
def drawingOf (routines : List Project.Routine) : Drawing :=
  drawing { controller := { name := "Station" }, programs := [{ name := "Main", routines }] }

theorem drawingOf_fill : (∀ r ∈ (drawingOf [fill]).routines, (r.2.map (·.id)).Nodup) ∧
    (drawingOf [fill]).links = [[some 1], [some 2], []] := by
  decide +kernel

theorem drawingOf_fill_empty :
    (∀ r ∈ (drawingOf [fill, empty]).routines, (r.2.map (·.id)).Nodup) ∧
    (drawingOf [fill, empty]).links = [[some 1], [some 2], [], [some 4], [some 5], []] := by
  decide +kernel

theorem flowMarkup_edges_iff_fill :
    (∀ r ∈ (drawingOf [fill]).routines, (r.2.map (·.id)).Nodup) ∧
    ∃ edges, edges.Perm (drawingOf [fill]).edges ∧
      (drawingOf [fill]).flowMarkup = (drawingOf [fill]).withEdges edges := by
  obtain ⟨hnodup, hlinks⟩ := drawingOf_fill
  refine ⟨hnodup, (flowMarkup_edges_iff _ hnodup).2.2.2.2 ?_⟩
  rw [hlinks]
  exact ⟨2, 1, rfl⟩

/-- The last block of one routine leads nowhere and has an edge to the first block of the next, and
the edge into the last block of all is missing. -/
theorem edge_between_routines :
    (∀ r ∈ (drawingOf [fill, empty]).routines, (r.2.map (·.id)).Nodup) ∧
    (drawingOf [fill, empty]).edges = [(0, 1), (1, 2), (3, 4), (4, 5)] ∧
    (drawingOf [fill, empty]).flowMarkup =
      (drawingOf [fill, empty]).withEdges [(0, 1), (1, 2), (2, 3), (3, 4)] ∧
    ∀ edges, edges.Perm (drawingOf [fill, empty]).edges →
      (drawingOf [fill, empty]).flowMarkup ≠ (drawingOf [fill, empty]).withEdges edges := by
  obtain ⟨hnodup, hlinks⟩ := drawingOf_fill_empty
  have hedges : (drawingOf [fill, empty]).edges = [(0, 1), (1, 2), (3, 4), (4, 5)] := by
    rw [edges, hlinks]
    rfl
  have hmarkup : (drawingOf [fill, empty]).flowMarkup =
      (drawingOf [fill, empty]).withEdges [(0, 1), (1, 2), (2, 3), (3, 4)] := by
    rw [flowMarkup_eq, hlinks]
    rfl
  refine ⟨hnodup, hedges, hmarkup, fun edges hperm heq => ?_⟩
  rw [hmarkup] at heq
  rw [hedges, ← withEdges_injective _ heq] at hperm
  exact absurd (hperm.mem_iff.1 (.tail _ (.tail _ List.mem_cons_self))) (by decide)

end ControlLogic.Analysis.Drawing
