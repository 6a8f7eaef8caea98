import ControlLogic.Proofs.Overlay.Additions
import Mathlib.Data.List.Induction

/-!
# An overlay applied twice

A second application of an overlay changes nothing.  There are two reasons, one for each way of
merging.

* Tags and programs keep what they have.  Such an adder is `Absorbing`: a thing that has taken
  something in does not change when it meets it again, whatever was merged in between.
  `Absorbing.foldl_add_twice` shows that after a run every thing of the overlay is absorbed.
* Tasks and modules are overwritten, and so are the fields of a record.  Such an adder is
  `Overwriting`: what comes last under a name is all that is left of it.
  `Overwriting.foldl_add_foldl_add` shows that a run leaves no trace of a run before it under the
  same names.

Both rest on two laws of `alterFirst`: changes under one name are composed, and changes under
different names can be exchanged if one of the names is there.
-/

namespace ControlLogic.Overlay

/-! ## Two changes -/

section

variable {α : Type} {p q : α → Bool} {f g : α → α} {a b : α} {l : List α}

/-- Where a thing has the property, the first one is changed. -/
theorem exists_alterFirst_eq (h : l.any p = true) : ∃ front x back,
    l = front ++ x :: back ∧ p x = true ∧
      ∀ f a, alterFirst p f a l = front ++ f x :: back := by
  induction l with
  | nil => cases h
  | cons y l ih =>
    by_cases hy : p y = true
    · exact ⟨[], y, l, rfl, hy, fun f a => by rw [alterFirst, if_pos hy, List.nil_append]⟩
    · rw [List.any_cons, Bool.or_eq_true, or_iff_right hy] at h
      obtain ⟨front, x, back, rfl, hx, halter⟩ := ih h
      refine ⟨y :: front, x, back, rfl, hx, fun f a => ?_⟩
      rw [alterFirst, if_neg hy, halter, List.cons_append]

theorem alterFirst_congr (hf : ∀ x, p x = true → f x = g x) :
    alterFirst p f a l = alterFirst p g a l := by
  induction l with
  | nil => rfl
  | cons x l ih =>
    rw [alterFirst, alterFirst, ih]
    split
    · rename_i hx
      rw [hf x hx]
    · rfl

/-- Two changes of the same thing are one. -/
theorem alterFirst_alterFirst (ha : p a = true) (hf : ∀ x, p x = true → p (f x) = true) :
    alterFirst p g b (alterFirst p f a l) = alterFirst p (g ∘ f) (g a) l := by
  induction l with
  | nil => rw [alterFirst, alterFirst, alterFirst, if_pos ha]
  | cons x l ih =>
    rw [alterFirst, alterFirst]
    split
    · rename_i hx
      rw [alterFirst, if_pos (hf x hx), Function.comp_apply]
    · rename_i hx
      rw [alterFirst, if_neg hx, ih]

/-- Changes of different things can be exchanged if the one is there, so that both orders put
what is new in the same place. -/
theorem alterFirst_comm (hpq : ∀ x, p x = true → q x = false)
    (hf : ∀ x, p x = true → p (f x) = true) (hg : ∀ x, q x = true → q (g x) = true)
    (h : l.any p = true) :
    alterFirst q g b (alterFirst p f a l) = alterFirst p f a (alterFirst q g b l) := by
  have hqp : ∀ x, q x = true → ¬ p x = true := by
    intro x hq hp
    rw [hpq x hp] at hq
    cases hq
  induction l with
  | nil => cases h
  | cons x l ih =>
    by_cases hp : p x = true
    · have hq : ¬ q x = true := fun hq => hqp x hq hp
      have hfx : ¬ q (f x) = true := fun hq => hqp (f x) hq (hf x hp)
      rw [alterFirst, if_pos hp, alterFirst, if_neg hfx, alterFirst, if_neg hq, alterFirst,
        if_pos hp]
    · by_cases hq : q x = true
      · have hgx : ¬ p (g x) = true := hqp (g x) (hg x hq)
        rw [alterFirst, if_neg hp, alterFirst, if_pos hq, alterFirst, if_pos hq, alterFirst,
          if_neg hgx]
      · rw [List.any_cons, Bool.or_eq_true, or_iff_right hp] at h
        rw [alterFirst, if_neg hp, alterFirst, if_neg hq, alterFirst, if_neg hq, alterFirst,
          if_neg hp, ih h]

end

namespace Adder

variable {α β : Type} {A : Adder α β}

theorem name?_merge_eq {o u : β} {a : α}
    (h : (decide (A.name? a = some (A.name o)) : Bool) = true) :
    (decide (A.name? (A.merge u a) = some (A.name o)) : Bool) = true := by
  rwa [A.name?_merge]

/-- Things of one name are added by one change. -/
theorem add_add_of_name_eq {o u : β} (h : A.name u = A.name o) (l : List α) :
    A.add (A.add l u) o = alterFirst (fun a => A.name? a = some (A.name o))
      (A.merge o ∘ A.merge u) (A.merge o (A.new u)) l := by
  rw [add, add, h]
  exact alterFirst_alterFirst (by simp [A.name?_new, h]) fun _ => name?_merge_eq

/-- Things of different names are added in any order if the one name is known. -/
theorem add_add_comm {o u : β} (h : A.name u ≠ A.name o) {l : List α}
    (ho : A.name o ∈ A.names l) : A.add (A.add l u) o = A.add (A.add l o) u := by
  refine (alterFirst_comm ?_ (fun _ => name?_merge_eq) (fun _ => name?_merge_eq) ?_).symm
  · intro a ha
    have ha : A.name? a = some (A.name o) := by simpa using ha
    simpa [ha] using Ne.symm h
  · rw [any_name_eq, decide_eq_true ho]

/-- A known name stays known, and the name of what is added is known. -/
theorem mem_names_add {l : List α} {o : β} {n : String} :
    n ∈ A.names (A.add l o) ↔ n ∈ A.names l ∨ n = A.name o := by
  by_cases ho : A.name o ∈ A.names l
  · rw [A.names_eq_of_forall₂ (A.forall₂_add ho)]
    exact ⟨.inl, fun h => h.elim id fun hn => hn ▸ ho⟩
  · rw [A.add_of_not_mem ho]
    simp [names, A.name?_new, eq_comm]

theorem mem_names_foldl_add {os : List β} {l : List α} {n : String} :
    n ∈ A.names (os.foldl A.add l) ↔ n ∈ A.names l ∨ n ∈ os.map A.name := by
  induction os generalizing l with
  | nil => simp
  | cons o os ih => rw [List.foldl_cons, ih, mem_names_add, List.map_cons, List.mem_cons, or_assoc]

/-! ## Keeping what is there -/

/-- What has been taken in changes nothing when it comes again. -/
structure Absorbing (A : Adder α β) : Prop where
  merge_merge : ∀ o a, A.merge o (A.merge o a) = A.merge o a
  merge_of_eq : ∀ o u a, A.merge o a = a → A.merge o (A.merge u a) = A.merge u a
  merge_new : ∀ o, A.merge o (A.new o) = A.new o

theorem Absorbing.add_add_self (hA : A.Absorbing) (l : List α) (o : β) :
    A.add (A.add l o) o = A.add l o := by
  rw [add_add_of_name_eq rfl, hA.merge_new]
  exact alterFirst_congr fun a _ => hA.merge_merge o a

/-- What is absorbed stays absorbed. -/
theorem Absorbing.add_add_of_eq (hA : A.Absorbing) {l : List α} {o : β} (h : A.add l o = l)
    (u : β) : A.add (A.add l u) o = A.add l u := by
  have ho : A.name o ∈ A.names l := by
    rw [← h, mem_names_add]
    exact .inr rfl
  by_cases hname : A.name u = A.name o
  · have hany : (l.any fun a => A.name? a = some (A.name o)) = true := by
      rw [any_name_eq, decide_eq_true ho]
    obtain ⟨front, x, back, rfl, -, halter⟩ := exists_alterFirst_eq hany
    -- the first thing of the name has absorbed `o` already
    rw [add, halter, List.append_cancel_left_eq, List.cons.injEq] at h
    rw [add_add_of_name_eq hname, halter, Function.comp_apply, hA.merge_of_eq o u x h.1, add, hname,
      halter]
  · rw [add_add_comm hname ho, h]

/-- A run absorbs all it has added. -/
theorem Absorbing.add_foldl_of_mem (hA : A.Absorbing) {os : List β} {o : β} (ho : o ∈ os)
    (l : List α) : A.add (os.foldl A.add l) o = os.foldl A.add l := by
  have hstays : ∀ (us : List β) {l : List α}, A.add l o = l →
      A.add (us.foldl A.add l) o = us.foldl A.add l := by
    intro us
    induction us with
    | nil => exact id
    | cons u us ih => exact fun h => ih (hA.add_add_of_eq h u)
  obtain ⟨before, after, rfl⟩ := List.append_of_mem ho
  rw [List.foldl_append, List.foldl_cons]
  exact hstays after (hA.add_add_self _ o)

/-- A second run changes nothing. -/
theorem Absorbing.foldl_add_twice (hA : A.Absorbing) (os : List β) (l : List α) :
    os.foldl A.add (os.foldl A.add l) = os.foldl A.add l := by
  have hfixed : ∀ us ⊆ os, us.foldl A.add (os.foldl A.add l) = os.foldl A.add l := by
    intro us hus
    induction us with
    | nil => rfl
    | cons u us ih =>
      obtain ⟨hu, hus⟩ := List.cons_subset.1 hus
      rw [List.foldl_cons, hA.add_foldl_of_mem hu, ih hus]
  exact hfixed os (List.Subset.refl os)

/-! ## Overwriting what is there -/

/-- What comes last under a name is all that is left. -/
structure Overwriting (A : Adder α β) : Prop where
  merge_merge : ∀ o u a, A.name u = A.name o → A.name? a = some (A.name o) →
    A.merge o (A.merge u a) = A.merge o a
  merge_new : ∀ o u, A.name u = A.name o → A.merge o (A.new u) = A.new o

theorem Overwriting.add_add_of_name_eq (hA : A.Overwriting) {o u : β} (h : A.name u = A.name o)
    (l : List α) : A.add (A.add l u) o = A.add l o := by
  rw [Adder.add_add_of_name_eq h, hA.merge_new o u h]
  refine alterFirst_congr fun a ha => hA.merge_merge o u a h ?_
  simpa using ha

/-- What comes before a run under known names is overwritten by what comes behind it. -/
theorem Overwriting.add_foldl_add (hA : A.Overwriting) {o u : β} (h : A.name u = A.name o)
    {os : List β} {l : List α} (hos : ∀ w ∈ os, A.name w ∈ A.names l) :
    A.add (os.foldl A.add (A.add l u)) o = A.add (os.foldl A.add l) o := by
  induction os generalizing l with
  | nil => exact hA.add_add_of_name_eq h l
  | cons w os ih =>
    rw [List.foldl_cons, List.foldl_cons]
    by_cases hw : A.name u = A.name w
    · rw [hA.add_add_of_name_eq hw]
    · rw [add_add_comm hw (hos w List.mem_cons_self)]
      exact ih fun v hv => mem_names_add.2 (.inl (hos v (List.mem_cons_of_mem _ hv)))

/-- A run leaves nothing of a run before it under the same names. -/
theorem Overwriting.foldl_add_foldl_add (hA : A.Overwriting) {us os : List β}
    (h : us.map A.name = os.map A.name) (l : List α) :
    os.foldl A.add (us.foldl A.add l) = os.foldl A.add l := by
  -- by induction on the ends of both runs, where the last of the first run is overwritten
  induction us using List.reverseRecOn generalizing os with
  | nil => rw [List.map_eq_nil_iff.1 h.symm, List.foldl_nil]
  | append_singleton us u ih =>
    rw [List.map_append, List.map_singleton] at h
    obtain ⟨os, last, rfl, hos, hlast⟩ := List.map_eq_append_iff.1 h.symm
    obtain ⟨o, rfl, ho⟩ := List.map_eq_singleton_iff.1 hlast
    have hknown : ∀ w ∈ os, A.name w ∈ A.names (us.foldl A.add l) := by
      intro w hw
      rw [mem_names_foldl_add, ← hos]
      exact .inr (List.mem_map_of_mem hw)
    simp only [List.foldl_append, List.foldl_cons, List.foldl_nil]
    rw [hA.add_foldl_add ho.symm hknown, ih hos.symm]

end Adder

/-! ## Tags and programs -/

/-- A value unless it does not count, else another if that counts. -/
def fill {α : Type} (counts : α → Bool) (old new : Option α) : Option α :=
  if old.any counts then old else if new.any counts then new else old

theorem fillText_eq_fill (old new : Option String) :
    fillText old new = fill (fun s => decide (s ≠ "")) old new := by
  cases old <;> simp [fillText, fill]

theorem fillDimensions_eq_fill (old new : Option (List Int)) :
    fillDimensions old new = fill (fun ds => decide (ds ≠ [])) old new := by
  rcases old with _ | _ | ⟨d, ds⟩ <;> simp [fillDimensions, fill]

section

variable {α : Type} {counts : α → Bool} {old new other : Option α}

theorem fill_fill : fill counts (fill counts old new) new = fill counts old new := by
  unfold fill
  split_ifs <;> rfl

theorem fill_self : fill counts new new = new := by
  unfold fill
  split_ifs <;> rfl

/-- A value that is not replaced is not replaced later. -/
theorem fill_fill_of_eq (h : fill counts old new = old) :
    fill counts (fill counts old other) new = fill counts old other := by
  unfold fill at *
  split_ifs at * with hold hother hnew <;> simp_all

end

theorem absorbing_tagAdder : tagAdder.Absorbing where
  merge_merge o t := by
    simp only [tagAdder, mergeTag, fillText_eq_fill, fillDimensions_eq_fill, fill_fill]
  merge_of_eq o u t h := by
    simp only [tagAdder, mergeTag, fillText_eq_fill, fillDimensions_eq_fill] at h ⊢
    have hdescription := congrArg Project.Tag.description h
    have haccess := congrArg Project.Tag.externalAccess h
    have hradix := congrArg Project.Tag.radix h
    have hinitial := congrArg Project.Tag.initialValue h
    have hdimensions := congrArg Project.Tag.arrayDimensions h
    rw [fill_fill_of_eq hdescription, fill_fill_of_eq haccess, fill_fill_of_eq hradix,
      fill_fill_of_eq hinitial, fill_fill_of_eq hdimensions]
  merge_new o := by
    simp only [tagAdder, mergeTag, newTag, fillText_eq_fill, fillDimensions_eq_fill, fill_self]

theorem absorbing_programAdder : programAdder.Absorbing where
  merge_merge o q := by
    simp only [programAdder, fillText_eq_fill, fill_fill]
  merge_of_eq o u q h := by
    simp only [programAdder, fillText_eq_fill] at h ⊢
    rw [fill_fill_of_eq (congrArg Project.Program.mainRoutine h)]
  merge_new o := by
    simp only [programAdder, newProgram, fillText_eq_fill, fill_self]

/-! ## Records -/

/-- How the fields of a record are written. -/
def fieldAdder : Adder (String × Json) (String × Json) where
  name? e := some e.1
  name e := e.1
  merge new e := (e.1, new.2)
  new := id
  name?_merge _ _ := rfl
  name?_new _ := rfl

theorem overwriting_fieldAdder : fieldAdder.Overwriting where
  merge_merge _ _ _ _ _ := rfl
  merge_new _ _ h := Prod.ext h rfl

theorem insertEntry_eq_add (l : List (String × Json)) (e : String × Json) :
    Table.insertEntry e.1 e.2 l = fieldAdder.add l e := by
  induction l with
  | nil => rfl
  | cons d l ih =>
    rw [Adder.add, alterFirst, Table.insertEntry, ih]
    by_cases hd : d.1 = e.1
    · simp [fieldAdder, hd]
    · simp [fieldAdder, hd, Adder.add]

/-- Fields are written as into a table. -/
theorem foldl_add_eq_entries (new fields : List (String × Json)) :
    new.foldl fieldAdder.add fields =
      (new.foldl (fun t e => t.insert e.1 e.2) (⟨fields⟩ : Table String Json)).entries := by
  induction new generalizing fields with
  | nil => rfl
  | cons e new ih =>
    rw [List.foldl_cons, List.foldl_cons, ih, ← insertEntry_eq_add]
    rfl

theorem overwrite_eq_foldl_add (fields new : List (String × Json)) :
    overwrite fields new = .record (new.foldl fieldAdder.add fields) := by
  rw [← funext₂ insertEntry_eq_add]
  rfl

theorem metadata_apply (o : Overlay) (p : Project) :
    (o.apply p).metadata = o.note.foldl fieldAdder.add p.metadata := by
  rw [← funext₂ insertEntry_eq_add]
  rfl

/-- How things are written as records: always with the same fields, and among them the name. -/
structure Form (β : Type) where
  name : β → String
  fields : β → List (String × Json)
  keys : List String
  nodup : keys.Nodup
  map_fst_fields : ∀ o, (fields o).map (·.1) = keys
  name_mem : ∀ o, ("name", .text (name o)) ∈ fields o

/-- The name of a record. -/
def recordName? (j : Json) : Option String := (j.field? "name").bind Json.text?

theorem hasName_eq (n : String) (j : Json) : hasName n j = decide (recordName? j = some n) := by
  rw [hasName, recordName?]
  rcases j.field? "name" with _ | j
  · rfl
  · cases j <;> simp [Json.isText, Json.text?, Bool.beq_eq_decide_eq]

namespace Form

variable {β : Type} (F : Form β)

theorem nodup_fields (o : β) : ((F.fields o).map (·.1)).Nodup := F.map_fst_fields o ▸ F.nodup

/-- Written into nothing, the fields are what they are. -/
theorem foldl_fields_nil (o : β) : (F.fields o).foldl fieldAdder.add [] = F.fields o :=
  (foldl_add_eq_entries _ []).trans (Table.entries_ofList (F.nodup_fields o))

/-- Fields that are written over others leave nothing of them. -/
theorem foldl_fields_foldl_fields (o u : β) (fields : List (String × Json)) :
    (F.fields o).foldl fieldAdder.add ((F.fields u).foldl fieldAdder.add fields) =
      (F.fields o).foldl fieldAdder.add fields :=
  overwriting_fieldAdder.foldl_add_foldl_add
    ((F.map_fst_fields u).trans (F.map_fst_fields o).symm) fields

/-- A record that is written over has the name of what is written. -/
theorem recordName?_overwrite (o : β) (fields : List (String × Json)) :
    recordName? (overwrite fields (F.fields o)) = some (F.name o) := by
  have hget : Table.lookup "name" ((F.fields o).foldl fieldAdder.add fields) =
      some (.text (F.name o)) := by
    rw [foldl_add_eq_entries]
    refine (Table.get?_foldl_insert (F.fields o) ⟨fields⟩ "name").trans ?_
    rw [Table.get?_ofList_of_mem (F.nodup_fields o) (F.name_mem o), Option.some_or]
  rw [recordName?, overwrite_eq_foldl_add, Json.field?, hget]
  rfl

/-- How records are added. -/
def adder : Adder Json β where
  name? := recordName?
  name := F.name
  merge o j := if recordName? j = some (F.name o) then overwrite j.fields (F.fields o) else j
  new o := .record (F.fields o)
  name?_merge o j := by
    split
    · rename_i hname
      rw [F.recordName?_overwrite, hname]
    · rfl
  name?_new o := by
    have hnew := F.recordName?_overwrite o []
    rwa [overwrite_eq_foldl_add, foldl_fields_nil] at hnew

theorem applyRecord_eq_add (records : List Json) (o : β) :
    applyRecord (F.name o) (F.fields o) records = F.adder.add records o := by
  have hname : hasName (F.name o) = fun j => decide (recordName? j = some (F.name o)) :=
    funext (hasName_eq (F.name o))
  rw [applyRecord, hname]
  refine alterFirst_congr fun j hj => ?_
  exact (if_pos (by simpa using hj)).symm

theorem overwriting_adder : F.adder.Overwriting where
  merge_merge o u j h hj := by
    have hname : some (F.name u) = some (F.name o) := congrArg some h
    have hj : recordName? j = some (F.name o) := hj
    simp only [adder]
    rw [if_pos (hj.trans hname.symm), F.recordName?_overwrite, if_pos hname, if_pos hj]
    simp only [overwrite_eq_foldl_add, Json.fields, foldl_fields_foldl_fields]
  merge_new o u h := by
    have hu : recordName? (.record (F.fields u)) = some (F.name o) :=
      (F.adder.name?_new u).trans (congrArg some h)
    simp only [adder]
    rw [if_pos hu, overwrite_eq_foldl_add, Json.fields, ← F.foldl_fields_nil u,
      foldl_fields_foldl_fields, foldl_fields_nil]

/-- Records that are written twice are written once. -/
theorem foldl_applyRecord_twice (os : List β) (records : List Json) :
    os.foldl (fun l o => applyRecord (F.name o) (F.fields o) l)
        (os.foldl (fun l o => applyRecord (F.name o) (F.fields o) l) records) =
      os.foldl (fun l o => applyRecord (F.name o) (F.fields o) l) records := by
  simp only [applyRecord_eq_add]
  exact F.overwriting_adder.foldl_add_foldl_add rfl records

end Form

/-- The records of tasks. -/
def taskForm : Form Task where
  name := Task.name
  fields := Task.fields
  keys := ["name", "type", "priority", "watchdog", "interval", "description"]
  nodup := by decide
  map_fst_fields _ := rfl
  name_mem _ := List.mem_cons_self

/-- The records of modules. -/
def moduleForm : Form Module where
  name := Module.name
  fields := Module.fields
  keys := ["name", "type", "slot", "description", "configuration"]
  nodup := by decide
  map_fst_fields _ := rfl
  name_mem _ := List.mem_cons_self

/-! ## The whole overlay -/

theorem project_ext {p q : Project} (hcontroller : p.controller = q.controller)
    (hprograms : p.programs = q.programs) (hmodules : p.modules = q.modules)
    (htasks : p.tasks = q.tasks) (hmetadata : p.metadata = q.metadata)
    (hsource : p.sourceType = q.sourceType) : p = q := by
  obtain ⟨⟩ := p
  obtain ⟨⟩ := q
  cases hcontroller
  cases hprograms
  cases hmodules
  cases htasks
  cases hmetadata
  cases hsource
  rfl

/-- Applying an overlay a second time changes nothing. -/
theorem apply_apply (o : Overlay) (p : Project) : o.apply (o.apply p) = o.apply p := by
  have htags : (o.apply (o.apply p)).controller.tags = (o.apply p).controller.tags := by
    have hrun := absorbing_tagAdder.foldl_add_twice o.tags p.controller.tags
    rwa [← applyTag_eq_add] at hrun
  have hprograms : (o.apply (o.apply p)).programs = (o.apply p).programs := by
    have hrun := absorbing_programAdder.foldl_add_twice o.programs p.programs
    rwa [← applyProgram_eq_add] at hrun
  have hmodules : (o.apply (o.apply p)).modules = (o.apply p).modules :=
    moduleForm.foldl_applyRecord_twice o.modules p.modules
  have htasks : (o.apply (o.apply p)).tasks = (o.apply p).tasks :=
    taskForm.foldl_applyRecord_twice o.tasks p.tasks
  have hmetadata : (o.apply (o.apply p)).metadata = (o.apply p).metadata := by
    rw [metadata_apply, metadata_apply]
    exact overwriting_fieldAdder.foldl_add_foldl_add rfl p.metadata
  refine project_ext ?_ hprograms hmodules htasks hmetadata rfl
  exact congrArg (fun tags => { p.controller with tags }) htags

end ControlLogic.Overlay
