import ControlLogic.Diagram.Code
import Mathlib.Data.List.Nodup
import Mathlib.Data.List.Perm.Subperm
import Mathlib.Logic.Relation

/-!
# The order of execution

The blocks of a diagram are visited depth first, each after its suppliers, and a block whose
visit has begun is passed over.  This file proves that the visits end on every diagram, that
every block is listed exactly once, and that a supplier comes first unless it sits on a cycle
with the block that it supplies.

* `Visits` is a run of visits as a relation.  It has no bound on the depth, so that a
  derivation is a run that ends.  All that follows is by induction on such runs.
* `visits_foldl` says that the bound in `visit` is never met.  A path holds no block twice, so
  it is no longer than the list of blocks.
* `Visits.suppliersFirst` is the law of the order.  A block is passed over in the middle of its
  visit only if it takes from the block that asks for it, directly or through others.

The suppliers of a block are a set, and nothing here depends on the order in which they are
listed: the results are about `Network.orderBy` with any listing.  `Network.executionOrder`
lists them in ascending order.
-/

namespace ControlLogic.Diagram

open StructuredText Relation

/-! ## Runs of visits -/

/-- The run that visits `ids` one after the other.  The visits of the blocks of `path` have
begun, those of `done` have ended in this order before the run, and those of `order` after
it. -/
inductive Visits (suppliers : String → List String) :
    (path done ids order : List String) → Prop
  | nil {path done : List String} : Visits suppliers path done [] done
  | skip {path done ids order : List String} {id : String} (hid : id ∈ path ∨ id ∈ done)
      (next : Visits suppliers path done ids order) :
      Visits suppliers path done (id :: ids) order
  | enter {path done ended ids order : List String} {id : String} (hpath : id ∉ path)
      (hdone : id ∉ done) (inner : Visits suppliers (id :: path) done (suppliers id) ended)
      (next : Visits suppliers path (ended ++ [id]) ids order) :
      Visits suppliers path done (id :: ids) order

section Runs

variable {suppliers : String → List String} {path done ids order : List String}

/-- A run ends in one way only. -/
theorem Visits.unique (h : Visits suppliers path done ids order) {order' : List String}
    (h' : Visits suppliers path done ids order') : order = order' := by
  induction h generalizing order' with
  | nil => cases h'; rfl
  | skip hid _ ih =>
    cases h' with
    | skip _ next => exact ih next
    | enter hpath hdone => exact absurd hid (by simp [hpath, hdone])
  | enter hpath hdone _ _ ihinner ihnext =>
    cases h' with
    | skip hid => exact absurd hid (by simp [hpath, hdone])
    | enter _ _ inner next =>
      obtain rfl := ihinner inner
      exact ihnext next

/-- A bound that is above the number of blocks off the path is never met: the bounded visits
are a run. -/
theorem visits_foldl (blocks : List String)
    (hclosed : ∀ id ∈ blocks, ∀ x ∈ suppliers id, x ∈ blocks) (fuel : Nat)
    (hpath : path.Nodup) (hsub : path ⊆ blocks) (hids : ids ⊆ blocks)
    (hfuel : blocks.length < fuel + path.length) :
    Visits suppliers path done ids (ids.foldl (visit suppliers fuel path) done) := by
  induction fuel generalizing path done ids with
  | zero =>
    have hlen : path.length ≤ blocks.length := (hpath.subperm hsub).length_le
    omega
  | succ fuel ih =>
    induction ids generalizing done with
    | nil => exact .nil
    | cons id ids ihids =>
      have hid : id ∈ blocks := hids List.mem_cons_self
      have hrest : ids ⊆ blocks := fun x hx => hids (List.mem_cons_of_mem _ hx)
      rw [List.foldl_cons, visit]
      split
      · rename_i hseen
        exact .skip (by simpa using hseen) (ihids hrest)
      · rename_i hnew
        have hnew : id ∉ path ∧ id ∉ done := by simpa using hnew
        refine .enter hnew.1 hnew.2 (ih ?_ ?_ (hclosed id hid) ?_) (ihids hrest)
        · exact List.nodup_cons.2 ⟨hnew.1, hpath⟩
        · exact List.cons_subset.2 ⟨hid, hsub⟩
        · rw [List.length_cons]; omega

/-- A run keeps what has ended, and adds to it at the end. -/
theorem Visits.done_prefix_order (h : Visits suppliers path done ids order) : done <+: order := by
  induction h with
  | nil => exact List.prefix_rfl
  | skip _ _ ih => exact ih
  | enter _ _ _ _ ihinner ihnext =>
    exact (ihinner.trans (List.prefix_append _ _)).trans ihnext

/-- Every block that is asked for has its visit ended, unless it is on the path. -/
theorem Visits.mem_order (h : Visits suppliers path done ids order) {id : String}
    (hid : id ∈ ids) : id ∈ path ∨ id ∈ order := by
  induction h with
  | nil => simp at hid
  | skip hseen next ih =>
    rcases List.mem_cons.1 hid with rfl | hid
    · exact hseen.imp_right fun hmem => next.done_prefix_order.subset hmem
    · exact ih hid
  | enter _ _ _ next _ ih =>
    rcases List.mem_cons.1 hid with rfl | hid
    · exact .inr (next.done_prefix_order.subset (by simp))
    · exact ih hid

/-- The visit of a block on the path does not end during the run. -/
theorem Visits.not_mem_order (h : Visits suppliers path done ids order) {x : String}
    (hpath : x ∈ path) (hdone : x ∉ done) : x ∉ order := by
  induction h with
  | nil => exact hdone
  | skip _ _ ih => exact ih hpath hdone
  | @enter path done ended ids order id hid _ _ _ ihinner ihnext =>
    have hended : x ∉ ended := ihinner (List.mem_cons_of_mem _ hpath) hdone
    have hne : x ≠ id := by rintro rfl; exact hid hpath
    exact ihnext hpath (by simp [hended, hne])

/-- No visit ends twice. -/
theorem Visits.nodup (h : Visits suppliers path done ids order) (hdone : done.Nodup) :
    order.Nodup := by
  induction h with
  | nil => exact hdone
  | skip _ _ ih => exact ih hdone
  | enter _ hnew inner _ ihinner ihnext =>
    have hid := inner.not_mem_order List.mem_cons_self hnew
    apply ihnext
    rw [List.nodup_append]
    refine ⟨ihinner hdone, List.nodup_singleton _, ?_⟩
    rintro x hx y hy rfl
    rw [List.mem_singleton.1 hy] at hx
    exact hid hx

/-- Only blocks are visited. -/
theorem Visits.order_subset (h : Visits suppliers path done ids order) {blocks : List String}
    (hclosed : ∀ id ∈ blocks, ∀ x ∈ suppliers id, x ∈ blocks) (hdone : done ⊆ blocks)
    (hids : ids ⊆ blocks) : order ⊆ blocks := by
  induction h with
  | nil => exact hdone
  | skip _ _ ih => exact ih hdone fun x hx => hids (List.mem_cons_of_mem _ hx)
  | @enter path done ended ids order id _ _ _ _ ihinner ihnext =>
    have hid : id ∈ blocks := hids List.mem_cons_self
    have hended : ended ⊆ blocks := ihinner hdone (hclosed id hid)
    refine ihnext ?_ fun x hx => hids (List.mem_cons_of_mem _ hx)
    exact List.append_subset.2 ⟨hended, by simpa using hid⟩

/-! ## Suppliers come first -/

/-- Every supplier of a listed block is listed before it, or takes from it directly or through
others. -/
def SuppliersFirst (suppliers : String → List String) (order : List String) : Prop :=
  ∀ v ∈ order, ∀ u ∈ suppliers v,
    [u, v].Sublist order ∨ TransGen (fun a b => a ∈ suppliers b) v u

/-- A block may be listed next once each of its suppliers is listed or takes from it. -/
theorem SuppliersFirst.append_singleton (h : SuppliersFirst suppliers order) {id : String}
    (hid : ∀ u ∈ suppliers id, u ∈ order ∨ TransGen (fun a b => a ∈ suppliers b) id u) :
    SuppliersFirst suppliers (order ++ [id]) := by
  intro v hv u hu
  rcases List.mem_append.1 hv with hv | hv
  · exact (h v hv u hu).imp_left fun hbefore => hbefore.trans (List.sublist_append_left _ _)
  · rw [List.mem_singleton.1 hv] at hu ⊢
    refine (hid u hu).imp_left fun hmem => ?_
    exact (List.singleton_sublist.2 hmem).append (List.Sublist.refl [id])

/-- A run puts suppliers first.  What a run asks for feeds every block on its path: that is
where the blocks on the path are needed, and why one of them may be passed over. -/
theorem Visits.suppliersFirst (h : Visits suppliers path done ids order)
    (hfeeds : ∀ x ∈ ids, ∀ p ∈ path, TransGen (fun a b => a ∈ suppliers b) x p)
    (hdone : SuppliersFirst suppliers done) : SuppliersFirst suppliers order := by
  induction h with
  | nil => exact hdone
  | skip _ _ ih => exact ih (fun x hx => hfeeds x (List.mem_cons_of_mem _ hx)) hdone
  | @enter path done ended ids order id _ _ inner _ ihinner ihnext =>
    have hid : ∀ p ∈ path, TransGen (fun a b => a ∈ suppliers b) id p :=
      hfeeds id List.mem_cons_self
    have hpath : ∀ x ∈ suppliers id, ∀ p ∈ id :: path,
        TransGen (fun a b => a ∈ suppliers b) x p := by
      intro x hx p hp
      rcases List.mem_cons.1 hp with rfl | hp
      · exact .single hx
      · exact .head hx (hid p hp)
    refine ihnext (fun x hx => hfeeds x (List.mem_cons_of_mem _ hx)) ?_
    refine (ihinner hpath hdone).append_singleton fun u hu => ?_
    rcases inner.mem_order hu with hu' | hu'
    · -- The supplier is still being visited, so `id` is needed for it.
      rcases List.mem_cons.1 hu' with rfl | hu'
      · exact .inr (.single hu)
      · exact .inr (hid u hu')
    · exact .inl hu'

end Runs

/-! ## The order of a diagram -/

namespace Network

/-- A wire leads from the block `u` to the block `v`. -/
def Feeds (n : Network) (u v : String) : Prop :=
  n.blocks.contains u = true ∧ n.blocks.contains v = true ∧
    ∃ w ∈ n.wires, w.source = u ∧ w.target = v

instance (n : Network) (u v : String) : Decidable (n.Feeds u v) :=
  inferInstanceAs (Decidable (_ ∧ _ ∧ _))

/-- The suppliers of a block are the blocks with a wire to it. -/
theorem mem_suppliers (n : Network) (u v : String) : u ∈ n.suppliers v ↔ n.Feeds u v := by
  simp only [suppliers, sortedDistinct, Feeds, List.mem_mergeSort, List.mem_eraseDups,
    List.mem_map, List.mem_filter, Bool.and_eq_true, decide_eq_true_eq]
  constructor
  · rintro ⟨w, ⟨hw, ⟨htarget, hsource⟩, hv⟩, rfl⟩
    exact ⟨hsource, hv, w, hw, rfl, htarget⟩
  · rintro ⟨hu, hv, w, hw, rfl, htarget⟩
    exact ⟨w, ⟨hw, ⟨htarget, hu⟩, hv⟩, rfl⟩

/-- The order of execution if the suppliers of a block are taken as `listing` gives them. -/
def orderBy (n : Network) (listing : String → List String) : List String :=
  n.blocks.keys.foldl (visit listing (n.blocks.size + 1) []) []

theorem executionOrder_eq_orderBy (n : Network) : n.executionOrder = n.orderBy n.suppliers := rfl

section Listing

variable (n : Network) {listing : String → List String}
  (hlisting : ∀ u v, u ∈ listing v ↔ n.Feeds u v)
include hlisting

/-- The visits of all blocks end, with the order of execution. -/
theorem visits_orderBy : Visits listing [] [] n.blocks.keys (n.orderBy listing) := by
  refine visits_foldl n.blocks.keys ?_ _ List.nodup_nil (List.nil_subset _)
    (List.Subset.refl _) ?_
  · intro id _ x hx
    exact (n.blocks.contains_iff_mem_keys x).1 ((hlisting x id).1 hx).1
  · simp [Table.keys, Table.size]

/-- The order of execution lists exactly the blocks. -/
theorem mem_orderBy (id : String) : id ∈ n.orderBy listing ↔ n.blocks.contains id = true := by
  rw [n.blocks.contains_iff_mem_keys]
  have hrun := n.visits_orderBy hlisting
  constructor
  · refine fun hid => hrun.order_subset ?_ (List.nil_subset _) (List.Subset.refl _) hid
    intro v _ u hu
    exact (n.blocks.contains_iff_mem_keys u).1 ((hlisting u v).1 hu).1
  · exact fun hid => (hrun.mem_order hid).resolve_left (List.not_mem_nil)

theorem nodup_orderBy : (n.orderBy listing).Nodup :=
  (n.visits_orderBy hlisting).nodup List.nodup_nil

/-- The order of execution lists every block once and nothing else. -/
theorem count_orderBy (id : String) :
    (n.orderBy listing).count id = if n.blocks.contains id = true then 1 else 0 := by
  rw [(n.nodup_orderBy hlisting).count]
  simp only [n.mem_orderBy hlisting]

/-- A block that feeds another, and takes nothing from it, is listed first. -/
theorem sublist_orderBy {u v : String} (huv : n.Feeds u v) (hback : ¬ TransGen n.Feeds v u) :
    [u, v].Sublist (n.orderBy listing) := by
  have hrel : (fun a b => a ∈ listing b) = n.Feeds := by
    funext a b
    exact propext (hlisting a b)
  have hfirst : SuppliersFirst listing (n.orderBy listing) :=
    (n.visits_orderBy hlisting).suppliersFirst (by simp) (by simp [SuppliersFirst])
  have hv : v ∈ n.orderBy listing := (n.mem_orderBy hlisting v).2 huv.2.1
  have hu := hfirst v hv u ((hlisting u v).2 huv)
  rw [hrel] at hu
  exact hu.resolve_right hback

end Listing

/-! ## The code of a diagram -/

/-- The lines of the calls of some blocks. -/
def callLines (n : Network) (ids : List String) : List String := ids.map fun id => (n.call id).text

/-- The lines of the assignments of the outputs. -/
def assignmentLines (n : Network) : List String :=
  (n.wires.filterMap n.outputAssignment?).map Statement.text

/-- The code of a diagram is the calls in order, and then the assignments. -/
theorem textOf_statements (n : Network) (order : List String) :
    textOf (n.statements order) = Text.join "\n" (n.callLines order ++ n.assignmentLines) := by
  rw [textOf, statements, callLines, assignmentLines, List.map_append, List.map_map]
  rfl

/-- The order of execution, whatever order the suppliers of a block are listed in.  The visits
end in one way, every block is listed exactly once, and where a wire leads from `u` to `v` and
no chain of wires leads back, the call of `u` is written before the call of `v`.  All
assignments of outputs are written after all calls. -/
theorem executionOrder_suppliers_first (n : Network) :
    (n.executionOrder = n.orderBy n.suppliers ∧ ∀ u v, u ∈ n.suppliers v ↔ n.Feeds u v) ∧
    ∀ listing : String → List String, (∀ u v, u ∈ listing v ↔ n.Feeds u v) →
      (∀ order, Visits listing [] [] n.blocks.keys order ↔ order = n.orderBy listing) ∧
      (∀ id, (n.orderBy listing).count id = if n.blocks.contains id = true then 1 else 0) ∧
      ∀ u v, n.Feeds u v → ¬ TransGen n.Feeds v u → ∃ before between after,
        n.orderBy listing = before ++ u :: (between ++ v :: after) ∧
        textOf (n.statements (n.orderBy listing)) =
          Text.join "\n" (n.callLines before ++ (n.call u).text ::
            (n.callLines between ++ (n.call v).text ::
              (n.callLines after ++ n.assignmentLines))) := by
  refine ⟨⟨n.executionOrder_eq_orderBy, n.mem_suppliers⟩, fun listing hlisting => ?_⟩
  have hrun := n.visits_orderBy hlisting
  refine ⟨fun order => ⟨fun h => h.unique hrun, fun h => h ▸ hrun⟩, n.count_orderBy hlisting,
    fun u v huv hback => ?_⟩
  obtain ⟨first, rest, horder, hu, hv⟩ :=
    List.cons_sublist_iff.1 (n.sublist_orderBy hlisting huv hback)
  obtain ⟨before, between₁, rfl⟩ := List.append_of_mem hu
  obtain ⟨between₂, after, rfl⟩ := List.append_of_mem (List.singleton_sublist.1 hv)
  have hsplit : n.orderBy listing = before ++ u :: ((between₁ ++ between₂) ++ v :: after) := by
    rw [horder]; simp
  refine ⟨before, between₁ ++ between₂, after, hsplit, ?_⟩
  rw [n.textOf_statements, hsplit]
  simp [callLines]

/-- Blocks with a cycle, a wire from a block to itself, a wire drawn twice and wires to and
from identifiers that are no blocks. -/
def tangled : Network where
  blocks := .ofList [("2", ⟨"ADD", "Sum", .empty, []⟩), ("9", ⟨"MUL", "Gain", .empty, []⟩),
    ("10", ⟨"SCL", "Scale", .empty, []⟩), ("5", ⟨"CTU", "Count", .empty, []⟩)]
  wires := [⟨"10", "2", some "Out", some "In1"⟩, ⟨"2", "9", some "Out", some "In"⟩,
    ⟨"9", "2", some "Out", some "In2"⟩, ⟨"10", "2", some "Out", some "In1"⟩,
    ⟨"5", "5", some "Acc", some "Preset"⟩, ⟨"77", "10", none, some "In"⟩,
    ⟨"2", "88", some "Out", none⟩]

theorem executionOrder_suppliers_first_tangled :
    ∃ before between after,
      tangled.executionOrder = before ++ "10" :: (between ++ "2" :: after) ∧
      textOf (tangled.statements tangled.executionOrder) =
        Text.join "\n" (tangled.callLines before ++ (tangled.call "10").text ::
          (tangled.callLines between ++ (tangled.call "2").text ::
            (tangled.callLines after ++ tangled.assignmentLines))) := by
  obtain ⟨⟨-, hsuppliers⟩, hlaw⟩ := tangled.executionOrder_suppliers_first
  have hback : ¬ TransGen tangled.Feeds "2" "10" := by
    intro h
    -- The only wire to this block comes from no block.
    have hlast : ∀ w ∈ tangled.wires, w.target = "10" →
        tangled.blocks.contains w.source = false := by decide
    obtain ⟨x, -, hx, -, w, hw, rfl, htarget⟩ := TransGen.tail'_iff.1 h
    rw [hlast w hw htarget] at hx
    exact absurd hx (by decide)
  exact (hlaw _ hsuppliers).2.2 "10" "2" (by decide) hback

end Network

end ControlLogic.Diagram
