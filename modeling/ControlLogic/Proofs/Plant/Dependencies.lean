import ControlLogic.Proofs.Analysis.Lines
import ControlLogic.Proofs.Plant.Uses
import Mathlib.Data.List.Forall2

/-!
# The dependencies of a plant

The dependencies are the join of two relations: a controller writes a tag, and another one reads
it.

* `Plant.Writes` and `Plant.Reads` say what a controller does, by what one of its lines does.
* `mem_dependencies`: there is a dependency for each tag that one controller writes and another
  reads, with what the writer says of the tag.
* `nodup_dependencies`: there is one for each such tag and pair.
* `Rearranged` holds of lists that differ in the order of their elements and in these elements
  themselves.  A plant that is `Reordered` has the same dependencies, since nothing in the two
  relations speaks of order.
-/

namespace ControlLogic

namespace Plant

open Analysis (liveLines WritesTag ReadsTag)

/-- A line of the controller writes the tag. -/
def Writes (p : Plant) (controller tag : String) : Prop := p.HasLine controller (WritesTag · tag)

/-- A line of the controller reads the tag. -/
def Reads (p : Plant) (controller tag : String) : Prop := p.HasLine controller (ReadsTag · tag)

theorem mem_keys_writers {p : Plant} {tag controller : String} :
    controller ∈ (p.writers.getD tag Table.empty).keys ↔ p.Writes controller tag := by
  simp only [writers, mem_keys_uses, Analysis.mem_written, Writes]

theorem mem_keys_readers {p : Plant} {tag controller : String} :
    controller ∈ (p.readers.getD tag Table.empty).keys ↔ p.Reads controller tag := by
  simp only [readers, mem_keys_uses, Analysis.mem_read, Reads]

/-! ## Membership -/

/-- There is a dependency where one controller writes what another reads, with what the writer
says of the tag. -/
theorem mem_dependencies {p : Plant} (hp : p.controllers.keys.Nodup) {d : Dependency} :
    d ∈ p.dependencies ↔ d.writer ≠ d.reader ∧ p.Writes d.writer d.tag ∧ p.Reads d.reader d.tag ∧
      d.dataType = (p.definition? d.writer d.tag).map (·.dataType) ∧
      d.description = (p.definition? d.writer d.tag).bind (·.description) := by
  have hdefinition : ∀ tag writer, ((p.definitions.get? tag).bind (·.get? writer)) =
      p.definition? writer tag := cell_definitions hp
  simp only [dependencies, List.mem_flatMap, List.mem_map, List.mem_filter, Text.mem_ascending,
    Text.mem_meet, bne_iff_ne, mem_keys_writers, mem_keys_readers, hdefinition]
  constructor
  · rintro ⟨tag, -, writer, hwrites, reader, ⟨hreads, hne⟩, rfl⟩
    exact ⟨hne, hwrites, hreads, rfl, rfl⟩
  · rintro ⟨hne, hwrites, hreads, htype, hdescription⟩
    refine ⟨d.tag, ⟨?_, ?_⟩, d.writer, hwrites, d.reader, ⟨hreads, hne⟩, ?_⟩
    · exact Table.mem_keys_of_mem_keys_getD (mem_keys_writers.2 hwrites)
    · exact Table.mem_keys_of_mem_keys_getD (mem_keys_readers.2 hreads)
    · rw [← htype, ← hdescription]

/-- Parts that can be told apart by what they come from have no element in common. -/
theorem nodup_flatMap_of_key {α β : Type} {l : List α} {f : α → List β} {k : β → α}
    (hl : l.Nodup) (hf : ∀ a ∈ l, (f a).Nodup) (hk : ∀ a, ∀ b ∈ f a, k b = a) :
    (l.flatMap f).Nodup := by
  refine List.nodup_flatMap.2 ⟨hf, hl.imp fun {a a'} hne => ?_⟩
  intro b hb hb'
  exact hne ((hk a b hb).symm.trans (hk a' b hb'))

/-- There is one dependency for each tag and pair of controllers. -/
theorem nodup_dependencies (p : Plant) :
    (p.dependencies.map fun d => (d.tag, d.writer, d.reader)).Nodup := by
  have hwriters := (wellKeyed_uses Analysis.written p).2
  have hreaders := (wellKeyed_uses Analysis.read p).2
  simp only [dependencies, List.map_flatMap, List.map_map, Function.comp_def]
  refine nodup_flatMap_of_key (k := (·.1)) (Text.nodup_ascending _) (fun tag _ => ?_) ?_
  · refine nodup_flatMap_of_key (k := (·.2.1)) (hwriters tag) (fun writer _ => ?_) ?_
    · refine List.Nodup.map (fun r r' h => ?_) ((hreaders tag).filter _)
      exact congrArg (·.2.2) h
    · intro writer e he
      obtain ⟨reader, -, rfl⟩ := List.mem_map.1 he
      rfl
  · intro tag e he
    obtain ⟨writer, -, he⟩ := List.mem_flatMap.1 he
    obtain ⟨reader, -, rfl⟩ := List.mem_map.1 he
    rfl

/-! ## Order -/

/-- The one list becomes the other by reordering it and then changing its elements within a
relation. -/
def Rearranged {α : Type} (R : α → α → Prop) (l m : List α) : Prop :=
  ∃ k, l.Perm k ∧ List.Forall₂ R k m

theorem Rearranged.exists_mem_iff {α : Type} {R : α → α → Prop} {l m : List α}
    (h : Rearranged R l m) {P : α → Prop} (hP : ∀ a b, R a b → (P a ↔ P b)) :
    (∃ a ∈ l, P a) ↔ ∃ b ∈ m, P b := by
  obtain ⟨k, hperm, hall⟩ := h
  simp only [hperm.mem_iff]
  clear hperm
  induction hall with
  | nil => simp
  | cons hab _ ih => simp only [List.exists_mem_cons_iff, hP _ _ hab, ih]

/-- The routines have the same lines in any order. -/
def SameLines (r s : Project.Routine) : Prop :=
  (Text.split '\n' r.text).Perm (Text.split '\n' s.text)

/-- The programs have the same routines in any order, up to the order of lines. -/
def SameRoutines (a b : Project.Program) : Prop := Rearranged SameLines a.routines b.routines

/-- The projects have the same tags of the controller, and the same programs in any order, up to
the order of routines and lines. -/
def SamePrograms (a b : Project) : Prop :=
  a.controller.tags = b.controller.tags ∧ Rearranged SameRoutines a.programs b.programs

/-- The plants have the same controllers in any order, up to the order of programs, routines and
lines. -/
def Reordered (p q : Plant) : Prop :=
  Rearranged (fun a b => a.1 = b.1 ∧ SamePrograms a.2 b.2) p.controllers.entries
    q.controllers.entries

theorem SameLines.liveLines_perm {r s : Project.Routine} (h : SameLines r s) :
    (liveLines r.text).Perm (liveLines s.text) :=
  (h.map Text.strip).filter _

theorem Reordered.hasLine_iff {p q : Plant} (h : p.Reordered q) (controller : String)
    (P : String → Prop) : p.HasLine controller P ↔ q.HasLine controller P := by
  refine h.exists_mem_iff fun a b hab => ?_
  rw [hab.1]
  refine and_congr_right fun _ => hab.2.2.exists_mem_iff fun q q' hq => ?_
  refine Rearranged.exists_mem_iff hq fun r s hr => ?_
  simp only [hr.liveLines_perm.mem_iff]

theorem Reordered.keys_perm {p q : Plant} (h : p.Reordered q) :
    p.controllers.keys.Perm q.controllers.keys := by
  obtain ⟨k, hperm, hall⟩ := h
  have hkeys : k.map (·.1) = q.controllers.keys := by
    refine List.forall₂_eq_eq_eq ▸ ?_
    rw [Table.keys, List.forall₂_map_left_iff, List.forall₂_map_right_iff]
    exact hall.imp fun _ _ hab => hab.1
  exact hkeys ▸ hperm.map Prod.fst

/-- A controller has the same tags in a reordered plant. -/
theorem Reordered.definition?_eq {p q : Plant} (h : p.Reordered q)
    (hp : p.controllers.keys.Nodup) (controller tag : String) :
    p.definition? controller tag = q.definition? controller tag := by
  have hq : q.controllers.keys.Nodup := h.keys_perm.nodup_iff.1 hp
  have htags : (p.controllers.get? controller).map (·.controller.tags) =
      (q.controllers.get? controller).map (·.controller.tags) := by
    apply Option.ext
    intro tags
    have hlookup : ∀ {t : Table String Project}, t.keys.Nodup →
        ((t.get? controller).map (·.controller.tags) = some tags ↔
          ∃ e ∈ t.entries, e.1 = controller ∧ e.2.controller.tags = tags) := by
      intro t ht
      rw [Option.map_eq_some_iff]
      constructor
      · rintro ⟨a, ha, htags⟩
        exact ⟨(controller, a), Table.mem_entries_of_get? ha, rfl, htags⟩
      · rintro ⟨e, he, rfl, htags⟩
        exact ⟨e.2, Table.lookup_of_mem ht he, htags⟩
    rw [hlookup hp, hlookup hq]
    exact h.exists_mem_iff fun a b hab => by rw [hab.1, hab.2.1]
  have hdefinition : ∀ p : Plant, p.definition? controller tag =
      ((p.controllers.get? controller).map (·.controller.tags)).bind fun tags =>
        (tags.filter (·.name = tag)).getLast?.map .ofTag := by
    intro p
    rw [definition?]
    cases p.controllers.get? controller <;> rfl
  rw [hdefinition, hdefinition, htags]

/-- The dependencies are an exact join.  There is one record for each tag and each pair of
different controllers of which the one writes and the other reads the tag, with what the writer says
of the tag, and there is no other record; the order of controllers, programs, routines and lines
does not matter. -/
theorem dependencies_exact_join (p : Plant) (hp : p.controllers.keys.Nodup) :
    (p.dependencies.map fun d => (d.tag, d.writer, d.reader)).Nodup ∧
    (∀ d, d ∈ p.dependencies ↔
      d.writer ≠ d.reader ∧ p.Writes d.writer d.tag ∧ p.Reads d.reader d.tag ∧
        d.dataType = (p.definition? d.writer d.tag).map (·.dataType) ∧
        d.description = (p.definition? d.writer d.tag).bind (·.description)) ∧
    ∀ q, p.Reordered q → p.dependencies.Perm q.dependencies := by
  refine ⟨p.nodup_dependencies, fun d => mem_dependencies hp, fun q hq => ?_⟩
  have hqkeys : q.controllers.keys.Nodup := hq.keys_perm.nodup_iff.1 hp
  refine (List.perm_ext_iff_of_nodup p.nodup_dependencies.of_map q.nodup_dependencies.of_map).2 ?_
  intro d
  rw [mem_dependencies hp, mem_dependencies hqkeys, Writes, Writes, Reads, Reads, hq.hasLine_iff,
    hq.hasLine_iff, hq.definition?_eq hp]

/-- A project whose program has one routine. -/
def oneRoutine (tags : List Project.Tag) (lines : List String) : Project where
  controller := { name := "Station", tags }
  programs := [{
    name := "Main"
    routines := [{ name := "Run", language := .st, content := some (Text.join "\n" lines) }] }]

theorem hasLine_oneRoutine {p : Plant} {controller : String} {tags : List Project.Tag}
    {lines : List String} {P : String → Prop} (line : String)
    (h : (controller, oneRoutine tags lines) ∈ p.controllers.entries)
    (hline : line ∈ liveLines (Text.join "\n" lines)) (hP : P line) : p.HasLine controller P :=
  ⟨_, h, rfl, _, List.mem_cons_self, _, List.mem_cons_self, line, hline, hP⟩

/-- A tank and a pump that looks at it. -/
def tankAndPump : Plant where
  controllers := ⟨[
    ("Tank", oneRoutine [{ name := ".RUN", dataType := "BOOL", scope := .controller }]
      ["TANK.RUN := 1;", "LEVEL.MAX := SENSOR.TOP;"]),
    ("Pump", oneRoutine [] ["IF TANK.RUN THEN", "PUMP.ON := LEVEL.MAX;"])]⟩

/-- The same with the controllers and their lines the other way round. -/
def pumpAndTank : Plant where
  controllers := ⟨[
    ("Pump", oneRoutine [] ["PUMP.ON := LEVEL.MAX;", "IF TANK.RUN THEN"]),
    ("Tank", oneRoutine [{ name := ".RUN", dataType := "BOOL", scope := .controller }]
      ["LEVEL.MAX := SENSOR.TOP;", "TANK.RUN := 1;"])]⟩

theorem reordered_tankAndPump : tankAndPump.Reordered pumpAndTank := by
  refine ⟨_, List.Perm.swap _ _ [], .cons ⟨rfl, rfl, ?_⟩ (.cons ⟨rfl, rfl, ?_⟩ .nil)⟩
  all_goals
    refine ⟨_, .refl _, .cons ⟨_, .refl _, .cons ?_ .nil⟩ .nil⟩
    rw [SameLines]
    decide +kernel

theorem dependencies_exact_join_tankAndPump :
    tankAndPump.controllers.keys.Nodup ∧ tankAndPump.Reordered pumpAndTank ∧
      ⟨".RUN", "Tank", "Pump", some "BOOL", none⟩ ∈ tankAndPump.dependencies ∧
      tankAndPump.dependencies.Perm pumpAndTank.dependencies := by
  have hkeys : tankAndPump.controllers.keys.Nodup := by decide
  have hwrites : tankAndPump.Writes "Tank" ".RUN" := by
    refine hasLine_oneRoutine "TANK.RUN := 1;" List.mem_cons_self (by decide) ?_
    exact Analysis.mem_written.1 (by decide)
  have hreads : tankAndPump.Reads "Pump" ".RUN" := by
    refine hasLine_oneRoutine "IF TANK.RUN THEN"
      (List.mem_cons_of_mem _ List.mem_cons_self) (by decide) (.inr ⟨by decide, ?_⟩)
    exact ⟨"TANK.RUN", by decide, Text.mem_ascending.2 (by decide)⟩
  obtain ⟨-, hmem, horder⟩ := dependencies_exact_join tankAndPump hkeys
  exact ⟨hkeys, reordered_tankAndPump,
    (hmem _).2 ⟨by decide, hwrites, hreads, by decide, by decide⟩,
    horder pumpAndTank reordered_tankAndPump⟩

end Plant

end ControlLogic
