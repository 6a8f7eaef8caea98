import ControlLogic.Proofs.Overlay.Additions
import ControlLogic.Text.Sorted
import Mathlib.Data.List.Count
import Mathlib.Data.List.Nodup

/-!
# The scope of tags in an overlay

Blocks of tags stand at the top level of an overlay or within its programs, but each kind of block
is searched for in the whole text, and where a block of tags stands is not looked at.

* `localTags` are the tags of the blocks within a program, and `globalTags` the others.
  `mem_readTags` says that the reader takes both together.
* `scope_of_mem_readTags`: every tag that is read has the scope of the controller.
* `countP_added`: a name that the project does not know gets one tag of the controller.
-/

namespace ControlLogic.Overlay

open Text Pattern

/-! ## Where a block stands -/

/-- The tags of one block. -/
def blockTags (m : Match) : List Tag :=
  (((split '\n' (strip (m.group 1))).map strip).filter fun l =>
    l ≠ "" && !startsWith "--" l).filterMap readTagLine?

/-- Whether what `m` covers is a part of what `b` covers. -/
def standsWithin (m b : Match) : Bool :=
  b.start ≤ m.start && m.start + m.text.length ≤ b.start + b.text.length

/-- Whether a block stands within a program. -/
def inProgram (source : String) (m : Match) : Bool :=
  ((namedBlock "PROGRAM").findAll source).any (standsWithin m)

/-- The tags that are declared within programs. -/
def localTags (source : String) : List Tag :=
  ((tagBlock.findAll source).filter (inProgram source)).flatMap blockTags

/-- The tags that are declared outside programs. -/
def globalTags (source : String) : List Tag :=
  ((tagBlock.findAll source).filter fun m => !inProgram source m).flatMap blockTags

theorem readTags_eq_flatMap (source : String) :
    readTags source = (tagBlock.findAll source).flatMap blockTags := rfl

theorem mem_readTags {source : String} {t : Tag} :
    t ∈ readTags source ↔ t ∈ localTags source ∨ t ∈ globalTags source := by
  simp only [readTags_eq_flatMap, localTags, globalTags, List.mem_flatMap, List.mem_filter,
    Bool.not_eq_true']
  constructor
  · rintro ⟨m, hm, ht⟩
    cases hin : inProgram source m with
    | true => exact .inl ⟨m, ⟨hm, hin⟩, ht⟩
    | false => exact .inr ⟨m, ⟨hm, hin⟩, ht⟩
  · rintro (⟨m, ⟨hm, -⟩, ht⟩ | ⟨m, ⟨hm, -⟩, ht⟩)
    · exact ⟨m, hm, ht⟩
    · exact ⟨m, hm, ht⟩

/-! ## The scope that is read -/

theorem scope_of_readTagLine? {line : String} {t : Tag} (h : readTagLine? line = some t) :
    t.scope = "Controller" := by
  obtain ⟨m, -, h⟩ := Option.bind_eq_some_iff.1 h
  obtain ⟨type, -, h⟩ := Option.bind_eq_some_iff.1 h
  cases h
  rfl

/-- Every tag that is read has the scope of the controller. -/
theorem scope_of_mem_readTags {source : String} {t : Tag} (h : t ∈ readTags source) :
    t.scope = "Controller" := by
  rw [readTags_eq_flatMap] at h
  obtain ⟨m, -, ht⟩ := List.mem_flatMap.1 h
  obtain ⟨line, -, hline⟩ := List.mem_filterMap.1 ht
  exact scope_of_readTagLine? hline

/-! ## The tags that are added -/

/-- The tags of the controller that an overlay puts behind those of the project. -/
def addedTags (o : Overlay) (p : Project) : List Project.Tag :=
  (o.apply p).controller.tags.drop p.controller.tags.length

theorem nodup_newNames (known names : List String) : (newNames known names).Nodup :=
  nodup_eraseDups _

theorem added_addedTags (o : Overlay) (p : Project) :
    ∃ kept, tagAdder.Added o.tags p.controller.tags kept (addedTags o p) := by
  obtain ⟨kept, added, htags, hadded⟩ := tags_apply o p
  have hdrop : addedTags o p = added := by
    rw [addedTags, htags, hadded.kept.length_eq, List.drop_left]
  exact ⟨kept, hdrop ▸ hadded⟩

/-- What an added tag is: a tag of the overlay with a scope of its own. -/
theorem exists_of_mem_addedTags {o : Overlay} {p : Project} {t : Project.Tag}
    (ht : t ∈ addedTags o p) : tagName? t = some t.name ∧ ∃ u ∈ o.tags, TagKept (newTag u) t := by
  obtain ⟨kept, hadded⟩ := added_addedTags o p
  obtain ⟨u, hu, hgrows⟩ := hadded.first t ht
  have hkept := TagKept.of_grows hgrows
  exact ⟨if_pos hkept.named, u, List.mem_of_find?_eq_some hu, hkept⟩

/-- Where all tags of an overlay have the scope of the controller, each name that the project does
not know gets one such tag. -/
theorem countP_added {o : Overlay} (hscope : ∀ t ∈ o.tags, t.scope = "Controller") (p : Project)
    {n : String} (hn : n ∈ o.tags.map (·.name)) :
    ((addedTags o p).countP fun t => t.name = n ∧ t.scope = .controller) =
      if n ∈ p.controller.tags.filterMap tagName? then 0 else 1 := by
  obtain ⟨kept, hadded⟩ := added_addedTags o p
  have htag : ∀ t ∈ addedTags o p,
      decide (t.name = n ∧ t.scope = .controller) = true ↔ (tagName? t == some n) = true := by
    intro t ht
    obtain ⟨hname, u, hu, hkept⟩ := exists_of_mem_addedTags ht
    have hcontroller : t.scope = .controller := by
      rw [hkept.scope]
      exact if_pos (hscope u hu)
    simp [hname, hcontroller]
  have hnames : (addedTags o p).map tagName? =
      (newNames (p.controller.tags.filterMap tagName?) (o.tags.map (·.name))).map some :=
    hadded.names
  calc (addedTags o p).countP (fun t => t.name = n ∧ t.scope = .controller)
      = (addedTags o p).countP (fun t => tagName? t == some n) := List.countP_congr htag
    _ = ((addedTags o p).map tagName?).count (some n) := by
        rw [List.count, List.countP_map]
        rfl
    _ = (newNames (p.controller.tags.filterMap tagName?) (o.tags.map (·.name))).count n := by
        rw [hnames]
        exact List.count_map_of_injective _ _ (fun _ _ => Option.some.inj) n
    _ = if n ∈ p.controller.tags.filterMap tagName? then 0 else 1 := by
        rw [(nodup_newNames _ _).count]
        by_cases hknown : n ∈ p.controller.tags.filterMap tagName?
        · rw [if_pos hknown, if_neg fun h => (mem_newNames.1 h).2 hknown]
        · rw [if_neg hknown, if_pos (mem_newNames.2 ⟨hn, hknown⟩)]

/-- The scope of tags is lost.  Every tag of an overlay is recorded with the scope of the
controller, those within programs among them, so that the scope of a program is kept exactly if
nothing is declared in one.  A name that is declared within programs, even if nowhere else, gets one
tag of the controller unless the project knows the name. -/
theorem program_scope_lost (path source : String) (p : Project) :
    (∀ t ∈ (ofText path source).tags, t.scope = "Controller") ∧
    (∀ t, t ∈ (ofText path source).tags ↔ t ∈ localTags source ∨ t ∈ globalTags source) ∧
    ((∀ t ∈ localTags source,
      ∃ u ∈ (ofText path source).tags, u.name = t.name ∧ u.scope = "Program") ↔
      localTags source = []) ∧
    ∀ n ∈ (localTags source).map (·.name),
      ((addedTags (ofText path source) p).countP fun t => t.name = n ∧ t.scope = .controller) =
        if n ∈ p.controller.tags.filterMap tagName? then 0 else 1 := by
  have htags : (ofText path source).tags = readTags source := rfl
  have hscope : ∀ t ∈ (ofText path source).tags, t.scope = "Controller" :=
    fun t ht => scope_of_mem_readTags ht
  refine ⟨hscope, fun t => mem_readTags, ⟨fun hkept => ?_, fun hnone => ?_⟩, fun n hn => ?_⟩
  · refine List.eq_nil_iff_forall_not_mem.2 fun t ht => ?_
    obtain ⟨u, hu, -, hprogram⟩ := hkept t ht
    exact absurd ((hscope u hu).symm.trans hprogram) (by decide)
  · rw [hnone]
    exact List.forall_mem_nil _
  · refine countP_added hscope p ?_
    obtain ⟨t, ht, rfl⟩ := List.mem_map.1 hn
    exact List.mem_map_of_mem (htags ▸ mem_readTags.2 (.inl ht))

/-- An overlay with one tag outside and one within a program. -/
def twoScopes : String :=
  join "\n" ["TAG", "Speed : REAL := 1.5;", "END_TAG", "PROGRAM Main (MAIN := \"Run\")", "TAG",
    "Count : DINT := 0;", "END_TAG", "END_PROGRAM"]

/-- A project without tags. -/
def bareStation : Project := { controller := { name := "Station" } }

theorem program_scope_lost_twoScopes :
    "Count" ∈ (localTags twoScopes).map (·.name) ∧
      ((addedTags (ofText "overlay.L5K" twoScopes) bareStation).countP fun t =>
        t.name = "Count" ∧ t.scope = .controller) = 1 := by
  have hlocal : "Count" ∈ (localTags twoScopes).map (·.name) := by decide +kernel
  obtain ⟨-, -, -, hadded⟩ := program_scope_lost "overlay.L5K" twoScopes bareStation
  exact ⟨hlocal, hadded "Count" hlocal⟩

/-- The tag of the program is recorded, and added, as one of the controller. -/
theorem program_tag_made_global :
    (localTags twoScopes).map (·.name) = ["Count"] ∧
      (globalTags twoScopes).map (·.name) = ["Speed"] ∧
      (ofText "overlay.L5K" twoScopes).tags.map (fun t => (t.name, t.scope)) =
        [("Speed", "Controller"), ("Count", "Controller")] ∧
      (addedTags (ofText "overlay.L5K" twoScopes) bareStation).map (fun t => (t.name, t.scope)) =
        [("Speed", .controller), ("Count", .controller)] := by
  decide +kernel

end ControlLogic.Overlay
