import ControlLogic.Overlay.Apply
import Mathlib.Data.List.Forall2
import Mathlib.Logic.Relation

/-!
# What an overlay adds

An overlay is put over a project thing by thing.  A thing goes into the first thing of the same
name, and the list that is searched grows on the way, so that a repeated name goes into what was
added a moment before.

* `Adder` holds what tags and programs have in common: how a thing is merged into another of its
  name, and what it becomes alone.
* `Adder.foldl_add` is the run: the old things stay in their places and only grow by merging, and
  behind them stands one new thing for each new name, grown from the first thing with the name.
* `TagKept` and `ProgramKept` say what growing leaves alone.
-/

namespace ControlLogic.Overlay

/-! ## Changing the first thing with a property -/

section

variable {α : Type} {p : α → Bool} {f : α → α} {new : α}

theorem alterFirst_of_any_eq_false {l : List α} (h : l.any p = false) :
    alterFirst p f new l = l ++ [new] := by
  induction l with
  | nil => rfl
  | cons a l ih =>
    rw [List.any_cons, Bool.or_eq_false_iff] at h
    rw [alterFirst, if_neg (by simp [h.1]), ih h.2, List.cons_append]

/-- Each thing stays or is changed. -/
theorem forall₂_alterFirst {R : α → α → Prop} (hrefl : ∀ a, R a a) (hf : ∀ a, R a (f a))
    {l : List α} (h : l.any p = true) : List.Forall₂ R l (alterFirst p f new l) := by
  induction l with
  | nil => cases h
  | cons a l ih =>
    rw [alterFirst]
    split
    · exact .cons (hf a) (List.forall₂_same.2 fun b _ => hrefl b)
    · rename_i ha
      rw [List.any_cons, Bool.or_eq_true, or_iff_right ha] at h
      exact .cons (hrefl a) (ih h)

end

/-! ## Adding by name -/

/-- How things of one kind are added by name: into a thing that is there, or as a new one. -/
structure Adder (α β : Type) where
  /-- The name of a thing that is there. -/
  name? : α → Option String
  /-- The name of a thing to be added. -/
  name : β → String
  merge : β → α → α
  new : β → α
  name?_merge : ∀ o a, name? (merge o a) = name? a
  name?_new : ∀ o, name? (new o) = some (name o)

/-- The names of a list that are not known, each once, in order of first occurrence. -/
def newNames (known names : List String) : List String :=
  (names.filter fun n => !known.contains n).eraseDups

theorem newNames_cons_of_mem {known : List String} {n : String} (h : n ∈ known)
    (names : List String) : newNames known (n :: names) = newNames known names := by
  rw [newNames, List.filter_cons_of_neg (by simpa using h), newNames]

theorem newNames_cons_of_not_mem {known : List String} {n : String} (h : n ∉ known)
    (names : List String) :
    newNames known (n :: names) = n :: newNames (known ++ [n]) names := by
  rw [newNames, List.filter_cons_of_pos (by simpa using h), List.eraseDups_cons, newNames,
    List.filter_filter]
  refine congrArg (n :: List.eraseDups ·) (List.filter_congr fun m _ => ?_)
  rw [Bool.eq_iff_iff]
  simp [and_comm]

theorem mem_newNames {known names : List String} {n : String} :
    n ∈ newNames known names ↔ n ∈ names ∧ n ∉ known := by
  simp [newNames]

namespace Adder

variable {α β : Type} (A : Adder α β)

/-- Adds one thing. -/
def add (l : List α) (o : β) : List α :=
  alterFirst (fun a => A.name? a = some (A.name o)) (A.merge o) (A.new o) l

/-- The names of the things that are there. -/
def names (l : List α) : List String := l.filterMap A.name?

/-- A thing comes from another by merging. -/
def Grows : α → α → Prop := Relation.ReflTransGen fun a b => ∃ o, b = A.merge o a

theorem Grows.name?_eq {A : Adder α β} {a b : α} (h : A.Grows a b) : A.name? b = A.name? a := by
  induction h with
  | refl => rfl
  | tail _ hstep ih =>
    obtain ⟨o, rfl⟩ := hstep
    rw [A.name?_merge, ih]

theorem names_eq_of_forall₂ {l m : List α} (h : List.Forall₂ A.Grows l m) :
    A.names m = A.names l := by
  induction h with
  | nil => rfl
  | cons hab _ ih => rw [names, names, List.filterMap_cons, List.filterMap_cons, hab.name?_eq,
      ← names, ih, ← names]

theorem any_name_eq (l : List α) (n : String) :
    (l.any fun a => A.name? a = some n) = decide (n ∈ A.names l) := by
  rw [Bool.eq_iff_iff]
  simp [names]

/-- Under a known name the things grow in their places. -/
theorem forall₂_add {l : List α} {o : β} (h : A.name o ∈ A.names l) :
    List.Forall₂ A.Grows l (A.add l o) := by
  refine forall₂_alterFirst (fun _ => .refl) (fun a => .single ⟨o, rfl⟩) ?_
  rw [any_name_eq, decide_eq_true h]

/-- Under a new name a thing comes last. -/
theorem add_of_not_mem {l : List α} {o : β} (h : A.name o ∉ A.names l) :
    A.add l o = l ++ [A.new o] := by
  refine alterFirst_of_any_eq_false ?_
  rw [any_name_eq, decide_eq_false h]

/-- What a run has made of the things that were there, and what it has put behind them. -/
structure Added (os : List β) (l kept added : List α) : Prop where
  kept : List.Forall₂ A.Grows l kept
  names : added.map A.name? = (newNames (A.names l) (os.map A.name)).map some
  first : ∀ b ∈ added, ∃ o, os.find? (fun o => A.name? b = some (A.name o)) = some o ∧
    A.Grows (A.new o) b

variable {A}

/-- A new thing has a new name. -/
theorem Added.exists_name {os : List β} {l kept added : List α} (h : A.Added os l kept added)
    {b : α} (hb : b ∈ added) : ∃ n, A.name? b = some n ∧ n ∉ A.names l := by
  have hmem : A.name? b ∈ added.map A.name? := List.mem_map_of_mem hb
  rw [h.names] at hmem
  obtain ⟨n, hn, hname⟩ := List.mem_map.1 hmem
  exact ⟨n, hname.symm, (mem_newNames.1 hn).2⟩

/-- What was there is kept. -/
theorem Added.exists_kept {os : List β} {l kept added : List α} (h : A.Added os l kept added)
    {a : α} (ha : a ∈ l) : ∃ b ∈ kept, A.Grows a b := by
  obtain ⟨i, hi, rfl⟩ := List.getElem_of_mem ha
  have hk : i < kept.length := h.kept.length_eq ▸ hi
  exact ⟨kept[i], List.getElem_mem hk, h.kept.get hi hk⟩

/-- What is kept was there. -/
theorem Added.exists_old {os : List β} {l kept added : List α} (h : A.Added os l kept added)
    {b : α} (hb : b ∈ kept) : ∃ a ∈ l, A.Grows a b := by
  obtain ⟨i, hk, rfl⟩ := List.getElem_of_mem hb
  have hi : i < l.length := h.kept.length_eq ▸ hk
  exact ⟨l[i], List.getElem_mem hi, h.kept.get hi hk⟩

/-- A thing under a known name is not the first of any new thing. -/
theorem Added.first_cons {os : List β} {l kept added : List α} (h : A.Added os l kept added)
    {o : β} (ho : A.name o ∈ A.names l) : ∀ b ∈ added, ∃ u,
      (o :: os).find? (fun o => A.name? b = some (A.name o)) = some u ∧ A.Grows (A.new u) b := by
  intro b hb
  obtain ⟨n, hname, hn⟩ := h.exists_name hb
  have hne : n ≠ A.name o := fun heq => hn (heq ▸ ho)
  obtain ⟨u, hu, hgrows⟩ := h.first b hb
  refine ⟨u, ?_, hgrows⟩
  rw [List.find?_cons_of_neg (by simpa [hname] using hne), hu]

theorem Grows.forall₂_trans {l m k : List α} (h : List.Forall₂ A.Grows l m)
    (h' : List.Forall₂ A.Grows m k) : List.Forall₂ A.Grows l k := by
  refine List.forall₂_iff_get.2 ⟨h.length_eq.trans h'.length_eq, fun i hi hk => ?_⟩
  have hm : i < m.length := h.length_eq ▸ hi
  exact (h.get hi hm).trans (h'.get hm hk)

/-- A run keeps what was there in its place and adds one thing for each new name. -/
theorem foldl_add (A : Adder α β) (os : List β) (l : List α) :
    ∃ kept added, os.foldl A.add l = kept ++ added ∧ A.Added os l kept added := by
  induction os generalizing l with
  | nil =>
    refine ⟨l, [], (List.append_nil l).symm, List.forall₂_same.2 fun _ _ => .refl, rfl, ?_⟩
    exact List.forall_mem_nil _
  | cons o os ih =>
    by_cases ho : A.name o ∈ A.names l
    · have hgrown := A.forall₂_add ho
      have hnames := A.names_eq_of_forall₂ hgrown
      obtain ⟨kept, added, hrun, hadded⟩ := ih (A.add l o)
      refine ⟨kept, added, hrun, Grows.forall₂_trans hgrown hadded.kept, ?_, ?_⟩
      · rw [hadded.names, hnames, List.map_cons, newNames_cons_of_mem ho]
      · exact hadded.first_cons (hnames ▸ ho)
    · have hnames : A.names (l ++ [A.new o]) = A.names l ++ [A.name o] := by
        simp [names, A.name?_new]
      obtain ⟨kept, added, hrun, hadded⟩ := ih (l ++ [A.new o])
      -- the last of the things that the rest keeps is the one just added
      have hfront : List.Forall₂ A.Grows l (kept.take l.length) := by
        simpa using List.forall₂_take l.length hadded.kept
      have hlast : List.Forall₂ A.Grows [A.new o] (kept.drop l.length) := by
        simpa using List.forall₂_drop l.length hadded.kept
      obtain ⟨b, rest, hgrows, hnil, hdrop⟩ := List.forall₂_cons_left_iff.1 hlast
      obtain rfl := List.forall₂_nil_left_iff.1 hnil
      have hname : A.name? b = some (A.name o) := hgrows.name?_eq.trans (A.name?_new o)
      refine ⟨kept.take l.length, b :: added, ?_, hfront, ?_, List.forall_mem_cons.2 ⟨?_, ?_⟩⟩
      · rw [List.foldl_cons, A.add_of_not_mem ho, hrun, ← List.singleton_append, ← hdrop,
          ← List.append_assoc, List.take_append_drop]
      · rw [List.map_cons, hadded.names, hname, hnames, List.map_cons,
          newNames_cons_of_not_mem ho, List.map_cons]
      · exact ⟨o, List.find?_cons_of_pos (by simp [hname]), hgrows⟩
      · exact hadded.first_cons (by simp [hnames])

end Adder

/-! ## Tags and programs -/

/-- What was there and not empty is still there. -/
def Retained {α : Type} (empty : α) (old new : Option α) : Prop :=
  ∀ v, old = some v → v ≠ empty → new = some v

theorem Retained.fillText {old mid : Option String} (h : Retained "" old mid)
    (new : Option String) : Retained "" old (fillText mid new) := by
  intro s hs hne
  rw [h s hs hne, Overlay.fillText, if_pos hne]

theorem Retained.fillDimensions {old mid : Option (List Int)} (h : Retained [] old mid)
    (new : Option (List Int)) : Retained [] old (fillDimensions mid new) := by
  intro ds hds hne
  obtain ⟨d, ds, rfl⟩ := List.exists_cons_of_ne_nil hne
  rw [h _ hds hne, Overlay.fillDimensions]

/-- A tag after another that may have got facts where it had none. -/
structure TagKept (old new : Project.Tag) : Prop where
  name : new.name = old.name
  named : new.named = old.named
  dataType : new.dataType = old.dataType
  scope : new.scope = old.scope
  value : new.value = old.value
  constant : new.constant = old.constant
  aliasFor : new.aliasFor = old.aliasFor
  userDefinedType : new.userDefinedType = old.userDefinedType
  description : Retained "" old.description new.description
  externalAccess : Retained "" old.externalAccess new.externalAccess
  radix : Retained "" old.radix new.radix
  initialValue : Retained "" old.initialValue new.initialValue
  arrayDimensions : Retained [] old.arrayDimensions new.arrayDimensions

theorem TagKept.refl (t : Project.Tag) : TagKept t t :=
  ⟨rfl, rfl, rfl, rfl, rfl, rfl, rfl, rfl, fun _ h _ => h, fun _ h _ => h, fun _ h _ => h,
    fun _ h _ => h, fun _ h _ => h⟩

theorem TagKept.mergeTag {old mid : Project.Tag} (h : TagKept old mid) (o : Tag) :
    TagKept old (mergeTag mid o) where
  __ := h
  description := h.description.fillText _
  externalAccess := h.externalAccess.fillText _
  radix := h.radix.fillText _
  initialValue := h.initialValue.fillText _
  arrayDimensions := h.arrayDimensions.fillDimensions _

/-- The name of a tag, if the source gives it one. -/
def tagName? (t : Project.Tag) : Option String := if t.named then some t.name else none

/-- How the tags of an overlay are added. -/
def tagAdder : Adder Project.Tag Tag where
  name? := tagName?
  name o := o.name
  merge o t := mergeTag t o
  new := newTag
  name?_merge _ _ := rfl
  name?_new _ := rfl

theorem applyTag_eq_add : applyTag = tagAdder.add := by
  funext l o
  refine congrArg (alterFirst · (mergeTag · o) (newTag o) l) (funext fun t => ?_)
  cases hnamed : t.named <;> simp [tagAdder, tagName?, hnamed]

theorem TagKept.of_grows {old new : Project.Tag} (h : tagAdder.Grows old new) :
    TagKept old new := by
  induction h with
  | refl => exact .refl old
  | tail _ hstep ih =>
    obtain ⟨o, rfl⟩ := hstep
    exact ih.mergeTag o

/-- A program after another that may have got a main routine where it had none. -/
structure ProgramKept (old new : Project.Program) : Prop where
  name : new.name = old.name
  description : new.description = old.description
  routines : new.routines = old.routines
  tags : new.tags = old.tags
  localVariables : new.localVariables = old.localVariables
  sourceType : new.sourceType = old.sourceType
  taskName : new.taskName = old.taskName
  mainRoutine : Retained "" old.mainRoutine new.mainRoutine

/-- The program that a new program of the overlay becomes. -/
def newProgram (o : Program) : Project.Program := { name := o.name, mainRoutine := o.mainRoutine }

/-- How the programs of an overlay are added. -/
def programAdder : Adder Project.Program Program where
  name? p := some p.name
  name o := o.name
  merge o p := { p with mainRoutine := fillText p.mainRoutine o.mainRoutine }
  new := newProgram
  name?_merge _ _ := rfl
  name?_new _ := rfl

theorem applyProgram_eq_add : applyProgram = programAdder.add := by
  funext l o
  refine congrArg (alterFirst · _ _ l) (funext fun p => ?_)
  simp [programAdder]

theorem ProgramKept.of_grows {old new : Project.Program} (h : programAdder.Grows old new) :
    ProgramKept old new := by
  induction h with
  | refl => exact ⟨rfl, rfl, rfl, rfl, rfl, rfl, rfl, fun _ h _ => h⟩
  | tail _ hstep ih =>
    obtain ⟨o, rfl⟩ := hstep
    exact { ih with mainRoutine := ih.mainRoutine.fillText _ }

/-! ## The whole overlay -/

theorem tags_apply (o : Overlay) (p : Project) : ∃ kept added,
    (o.apply p).controller.tags = kept ++ added ∧
      tagAdder.Added o.tags p.controller.tags kept added := by
  have hrun := tagAdder.foldl_add o.tags p.controller.tags
  rwa [← applyTag_eq_add] at hrun

theorem programs_apply (o : Overlay) (p : Project) : ∃ kept added,
    (o.apply p).programs = kept ++ added ∧ programAdder.Added o.programs p.programs kept added := by
  have hrun := programAdder.foldl_add o.programs p.programs
  rwa [← applyProgram_eq_add] at hrun

/-- An overlay only adds.  The tags of the controller stay in their places with what they had,
and behind them stands one new tag for each new name, in order of first occurrence and with what
the first tag of the name says.  The programs likewise. -/
theorem apply_only_adds (o : Overlay) (p : Project) :
    (∃ kept added, (o.apply p).controller.tags = kept ++ added ∧
      List.Forall₂ TagKept p.controller.tags kept ∧
      added.map tagName? = (newNames (p.controller.tags.filterMap tagName?)
        (o.tags.map (·.name))).map some ∧
      ∀ t ∈ added, ∃ u, o.tags.find? (·.name = t.name) = some u ∧ TagKept (newTag u) t) ∧
    ∃ kept added, (o.apply p).programs = kept ++ added ∧
      List.Forall₂ ProgramKept p.programs kept ∧
      added.map (·.name) = newNames (p.programs.map (·.name)) (o.programs.map (·.name)) ∧
      ∀ q ∈ added, ∃ u, o.programs.find? (·.name = q.name) = some u ∧
        ProgramKept (newProgram u) q := by
  constructor
  · obtain ⟨kept, added, hrun, hadded⟩ := tags_apply o p
    refine ⟨kept, added, hrun, hadded.kept.imp fun _ _ => TagKept.of_grows, hadded.names, ?_⟩
    intro t ht
    obtain ⟨u, hu, hgrows⟩ := hadded.first t ht
    have hkept := TagKept.of_grows hgrows
    have hname : tagName? t = some t.name := if_pos hkept.named
    refine ⟨u, ?_, hkept⟩
    simpa [tagAdder, hname, eq_comm] using hu
  · obtain ⟨kept, added, hrun, hadded⟩ := programs_apply o p
    refine ⟨kept, added, hrun, hadded.kept.imp fun _ _ => ProgramKept.of_grows, ?_, ?_⟩
    · have hknown : programAdder.names p.programs = p.programs.map (·.name) :=
        congrFun List.filterMap_eq_map p.programs
      apply List.map_injective_iff.2 fun _ _ => Option.some.inj
      rw [List.map_map, ← hknown]
      exact hadded.names
    · intro q hq
      obtain ⟨u, hu, hgrows⟩ := hadded.first q hq
      refine ⟨u, ?_, ProgramKept.of_grows hgrows⟩
      simpa [programAdder, eq_comm] using hu

end ControlLogic.Overlay
