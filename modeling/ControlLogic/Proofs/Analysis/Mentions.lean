import ControlLogic.Analysis.Query
import ControlLogic.Proofs.Text.Chars
import Mathlib.Data.List.Basic
import Mathlib.Data.List.Nodup

/-!
# Who mentions a tag

The programs are taken one after the other.  Each declares its tags, which empties their entries,
and then its texts are searched for the tags that are known by then.  So what an entry holds in the
end is what was found since the tag was declared last.

* `Declares` and `MentionsTag` say what a program does to a tag.
* `mem_note`, `mem_program` and `mem_foldl_program` say what an entry holds after one text, after
  one program and after all of them.
* `Heard` is what is left: a program mentions the tag, and none behind it declares the tag.
* `AllHeard` says that nothing is missing.  `forall_heard_iff_pairwise`: this depends on the order
  of the programs.
-/

namespace ControlLogic

namespace Analysis

/-! ## What a program does to a tag -/

/-- The program declares a tag of the name. -/
def Declares (q : Project.Program) (tag : String) : Prop := ∃ t ∈ declared q, t.name = tag

/-- A text holds the name of a tag, case aside. -/
def InText (tag content : String) : Prop :=
  (Text.lower tag).toList <:+: (Text.lower content).toList

/-- A text of the program holds the name of the tag, case aside. -/
def MentionsTag (q : Project.Program) (tag : String) : Prop := ∃ r ∈ q.routines, InText tag r.text

instance (q : Project.Program) (tag : String) : Decidable (Declares q tag) :=
  List.decidableBEx (fun t : Project.Tag => t.name = tag) (declared q)

instance (tag content : String) : Decidable (InText tag content) :=
  inferInstanceAs (Decidable (_ <:+: _))

instance (q : Project.Program) (tag : String) : Decidable (MentionsTag q tag) :=
  List.decidableBEx (fun r : Project.Routine => InText tag r.text) q.routines

namespace Mentions

variable (m : Mentions) (tag : String)

/-! ## One text -/

theorem get?_note (program content : String) : (m.note program content).get? tag =
    (m.get? tag).map fun programs =>
      if Text.contains (Text.lower tag) (Text.lower content) then Text.union programs [program]
      else programs :=
  Table.get?_map_entries (fun tag programs =>
    if Text.contains (Text.lower tag) (Text.lower content) then Text.union programs [program]
    else programs) m tag

@[simp] theorem contains_note (program content : String) :
    (m.note program content).contains tag = m.contains tag := by
  rw [Table.contains, get?_note, Option.isSome_map, Table.contains]

/-- A text adds its program to the tags that are known and that it holds. -/
theorem mem_note {program content name : String} :
    name ∈ (m.note program content).getD tag [] ↔ name ∈ m.getD tag [] ∨
      m.contains tag = true ∧ name = program ∧ InText tag content := by
  have hcontains : Text.contains (Text.lower tag) (Text.lower content) = true ↔
      InText tag content := Text.Chars.contains_iff_infix
  rw [Table.getD, Table.getD, get?_note, Table.contains]
  cases m.get? tag with
  | none => simp
  | some programs =>
    by_cases h : InText tag content
    · simp [hcontains.2 h, h]
    · simp [mt hcontains.1 h, h]

/-! ## One program -/

theorem get?_declare (tags : List Project.Tag) : (m.declare tags).get? tag =
    if ∃ t ∈ tags, t.name = tag then some [] else m.get? tag := by
  rw [declare]
  induction tags generalizing m with
  | nil => simp
  | cons t tags ih =>
    rw [List.foldl_cons, ih, Table.get?_insert]
    by_cases htags : ∃ t ∈ tags, t.name = tag
    · simp [htags]
    · simp [htags]

theorem mem_foldl_note (routines : List Project.Routine) {program name : String} :
    name ∈ (routines.foldl (fun m r => m.note program r.text) m).getD tag [] ↔
      name ∈ m.getD tag [] ∨
        m.contains tag = true ∧ name = program ∧ ∃ r ∈ routines, InText tag r.text := by
  induction routines generalizing m with
  | nil => simp
  | cons r routines ih =>
    rw [List.foldl_cons, ih, mem_note, contains_note, List.exists_mem_cons_iff, or_assoc,
      ← and_or_left, ← and_or_left]

theorem contains_foldl_note (routines : List Project.Routine) (program : String) :
    (routines.foldl (fun m r => m.note program r.text) m).contains tag = m.contains tag := by
  induction routines generalizing m with
  | nil => rfl
  | cons r routines ih => rw [List.foldl_cons, ih, contains_note]

theorem contains_program (q : Project.Program) :
    (m.program q).contains tag = true ↔ Declares q tag ∨ m.contains tag = true := by
  rw [program, contains_foldl_note, Table.contains, get?_declare]
  by_cases h : ∃ t ∈ declared q, t.name = tag
  · simp [Declares, h]
  · simp [Declares, h, Table.contains]

/-- A program forgets what was found of the tags that it declares, and adds itself to the tags that
it mentions. -/
theorem mem_program {q : Project.Program} {name : String} :
    name ∈ (m.program q).getD tag [] ↔ (name ∈ m.getD tag [] ∧ ¬ Declares q tag) ∨
      ((Declares q tag ∨ m.contains tag = true) ∧ name = q.name ∧ MentionsTag q tag) := by
  rw [program, mem_foldl_note, Table.contains, Table.getD, get?_declare]
  by_cases h : ∃ t ∈ declared q, t.name = tag
  · simp [Declares, MentionsTag, h]
  · simp [Declares, MentionsTag, h, Table.contains, Table.getD]

/-! ## All programs -/

theorem contains_foldl_program (programs : List Project.Program) :
    (programs.foldl program m).contains tag = true ↔
      m.contains tag = true ∨ ∃ q ∈ programs, Declares q tag := by
  induction programs generalizing m with
  | nil => simp
  | cons q programs ih =>
    rw [List.foldl_cons, ih, contains_program, List.exists_mem_cons_iff, or_assoc,
      or_left_comm]

end Mentions

/-- A program of the name mentions the tag, and no program behind it declares the tag. -/
def Heard (programs : List Project.Program) (tag name : String) : Prop :=
  ∃ before q after, programs = before ++ q :: after ∧ q.name = name ∧ MentionsTag q tag ∧
    ∀ a ∈ after, ¬ Declares a tag

theorem Heard.exists_mem {programs : List Project.Program} {tag name : String}
    (h : Heard programs tag name) : ∃ q ∈ programs, q.name = name ∧ MentionsTag q tag := by
  obtain ⟨before, q, after, rfl, hname, hmentions, -⟩ := h
  exact ⟨q, List.mem_append_right _ List.mem_cons_self, hname, hmentions⟩

theorem heard_cons {q : Project.Program} {programs : List Project.Program} {tag name : String} :
    Heard (q :: programs) tag name ↔ Heard programs tag name ∨
      (q.name = name ∧ MentionsTag q tag ∧ ∀ a ∈ programs, ¬ Declares a tag) := by
  constructor
  · rintro ⟨before, x, after, hsplit, hx⟩
    cases before with
    | nil =>
      cases hsplit
      exact .inr hx
    | cons b before =>
      cases hsplit
      exact .inl ⟨before, x, after, rfl, hx⟩
  · rintro (⟨before, x, after, rfl, hx⟩ | hq)
    · exact ⟨q :: before, x, after, rfl, hx⟩
    · exact ⟨[], q, programs, rfl, hq⟩

/-- What an entry holds after some programs: what it held before, if none of them declares the tag,
and what is heard of the tag, if it is known at all. -/
theorem Mentions.mem_foldl_program (m : Mentions) (programs : List Project.Program)
    {tag name : String} : name ∈ (programs.foldl Mentions.program m).getD tag [] ↔
      (name ∈ m.getD tag [] ∧ ∀ q ∈ programs, ¬ Declares q tag) ∨
      ((m.contains tag = true ∨ ∃ q ∈ programs, Declares q tag) ∧ Heard programs tag name) := by
  induction programs generalizing m with
  | nil =>
    have hnone : ¬ Heard [] tag name := fun h => by simpa using h.exists_mem
    simp [hnone]
  | cons q programs ih =>
    rw [List.foldl_cons, ih, mem_program, contains_program, heard_cons, List.forall_mem_cons,
      List.exists_mem_cons_iff, eq_comm (a := q.name)]
    by_cases hlater : ∃ a ∈ programs, Declares a tag
    · -- a later declaration forgets what is found in this program
      have hsome : ¬ ∀ a ∈ programs, ¬ Declares a tag := by simpa using hlater
      simp [hlater, hsome]
    · have hnone : ∀ a ∈ programs, ¬ Declares a tag := by simpa using hlater
      simp only [iff_true_intro hnone, hlater, and_true, or_false]
      rw [or_assoc, ← and_or_left, or_comm (a := Declares q tag),
        or_comm (a := Heard programs tag name)]

theorem Mentions.nodup_note {m : Mentions} (h : ∀ tag, (m.getD tag []).Nodup)
    (program content : String) (tag : String) :
    ((m.note program content).getD tag []).Nodup := by
  have htag := h tag
  rw [Table.getD] at htag
  rw [Table.getD, get?_note]
  cases hget : m.get? tag with
  | none => exact List.nodup_nil
  | some programs =>
    rw [hget] at htag
    rw [Option.map_some, Option.getD_some]
    split
    · exact Text.nodup_ascending _
    · exact htag

/-- An entry holds a program once. -/
theorem Mentions.nodup_program {m : Mentions} (h : ∀ tag, (m.getD tag []).Nodup)
    (q : Project.Program) : ∀ tag, ((m.program q).getD tag []).Nodup := by
  have hdeclare : ∀ tag, ((m.declare (declared q)).getD tag []).Nodup := by
    intro tag
    rw [Table.getD, get?_declare]
    split
    · exact List.nodup_nil
    · exact h tag
  exact List.foldlRecOn (motive := fun m : Mentions => ∀ tag, (m.getD tag []).Nodup) _ _ hdeclare
    fun m hm r _ => nodup_note hm q.name r.text

/-! ## The tags of a project -/

/-- The tags that the controller and the programs of a project declare. -/
def declaredTags (p : Project) : List Project.Tag :=
  p.controller.tags ++ p.programs.flatMap declared

/-- Every routine has a text, and every tag that is declared a name. -/
def Filled (p : Project) : Prop :=
  (∀ r ∈ p.routines, r.content.isSome = true) ∧ ∀ t ∈ declaredTags p, t.named = true

instance (p : Project) : Decidable (Filled p) := inferInstanceAs (Decidable (_ ∧ _))

/-- The entries after the controller and all programs. -/
def allMentions (p : Project) : Mentions :=
  p.programs.foldl Mentions.program (Mentions.declare Table.empty p.controller.tags)

theorem searchable_of_filled {p : Project} (hp : Filled p) : searchable p = true := by
  have htags : ∀ t ∈ p.controller.tags, t.named = true :=
    fun t ht => hp.2 t (List.mem_append_left _ ht)
  refine (List.foldlRecOn (motive := fun s : List Project.Tag × Bool =>
    (∀ t ∈ s.1, t.named = true) ∧ s.2 = true) _ _ ⟨htags, rfl⟩ fun s hs q hq => ?_).2
  obtain ⟨known, ok⟩ := s
  obtain ⟨hknown, hok⟩ := hs
  have hdeclared : ∀ t ∈ known ++ declared q, t.named = true := by
    intro t ht
    rcases List.mem_append.1 ht with ht | ht
    · exact hknown t ht
    · exact hp.2 t (List.mem_append_right _ (List.mem_flatMap.2 ⟨q, hq, ht⟩))
  have htexts : ∀ r ∈ q.routines, r.content.isSome = true :=
    fun r hr => hp.1 r (List.mem_flatMap.2 ⟨q, hq, hr⟩)
  have hok : ok = true := hok
  refine ⟨hdeclared, ?_⟩
  simp only [hok, List.all_eq_true.2 hdeclared, List.all_eq_true.2 htexts, Bool.or_true,
    Bool.and_true]

theorem mentions_eq_ok {p : Project} (hp : Filled p) : mentions p = .ok (allMentions p) := by
  rw [mentions, if_pos (searchable_of_filled hp), allMentions]

theorem mem_declaredTags {p : Project} {tag : String} :
    tag ∈ (declaredTags p).map (·.name) ↔
      (∃ t ∈ p.controller.tags, t.name = tag) ∨ ∃ q ∈ p.programs, Declares q tag := by
  simp only [declaredTags, List.map_append, List.mem_append, List.mem_map, List.map_flatMap,
    List.mem_flatMap, Declares]

/-- The controller makes an entry for each of its tags, with nothing in it. -/
theorem get?_declare_empty (tags : List Project.Tag) (tag : String) :
    (Mentions.declare Table.empty tags).get? tag =
      if ∃ t ∈ tags, t.name = tag then some [] else none :=
  Mentions.get?_declare Table.empty tag tags

theorem getD_declare_empty (tags : List Project.Tag) (tag : String) :
    (Mentions.declare Table.empty tags).getD tag [] = [] := by
  rw [Table.getD, get?_declare_empty]
  split <;> rfl

theorem contains_allMentions {p : Project} {tag : String} :
    (allMentions p).contains tag = true ↔ tag ∈ (declaredTags p).map (·.name) := by
  rw [allMentions, Mentions.contains_foldl_program, mem_declaredTags, Table.contains,
    get?_declare_empty]
  split <;> simp [*]

/-- The entry of a declared tag holds what is heard of it. -/
theorem mem_allMentions {p : Project} {tag name : String}
    (htag : tag ∈ (declaredTags p).map (·.name)) :
    name ∈ (allMentions p).getD tag [] ↔ Heard p.programs tag name := by
  rw [← contains_allMentions, allMentions, Mentions.contains_foldl_program] at htag
  rw [allMentions, Mentions.mem_foldl_program, getD_declare_empty]
  simp [htag]

theorem nodup_allMentions (p : Project) (tag : String) :
    ((allMentions p).getD tag []).Nodup := by
  have hempty : ∀ tag, ((Mentions.declare Table.empty p.controller.tags).getD tag []).Nodup := by
    intro tag
    rw [getD_declare_empty]
    exact List.nodup_nil
  exact List.foldlRecOn (motive := fun m : Mentions => ∀ tag, (m.getD tag []).Nodup) _ _ hempty
    (fun m hm q _ => Mentions.nodup_program hm q) tag

/-! ## What is missing -/

/-- Just the programs that mention the tag are found. -/
def AllHeard (p : Project) (tag : String) (found : List String) : Prop :=
  ∀ name, name ∈ found ↔ ∃ q ∈ p.programs, q.name = name ∧ MentionsTag q tag

theorem allHeard_iff {p : Project} {tag : String} {found : List String}
    (hfound : ∀ name, name ∈ found ↔ Heard p.programs tag name) :
    AllHeard p tag found ↔ ∀ q ∈ p.programs, MentionsTag q tag → Heard p.programs tag q.name := by
  constructor
  · intro hall q hq hmentions
    exact (hfound q.name).1 ((hall q.name).2 ⟨q, hq, rfl, hmentions⟩)
  · intro hheard name
    rw [hfound]
    refine ⟨Heard.exists_mem, ?_⟩
    rintro ⟨q, hq, rfl, hmentions⟩
    exact hheard q hq hmentions

/-- Where programs have distinct names, all of them are heard exactly if none that mentions the tag
stands before one that declares it. -/
theorem forall_heard_iff_pairwise {programs : List Project.Program} {tag : String}
    (hnames : (programs.map (·.name)).Nodup) :
    (∀ q ∈ programs, MentionsTag q tag → Heard programs tag q.name) ↔
      programs.Pairwise fun q a => MentionsTag q tag → ¬ Declares a tag := by
  induction programs with
  | nil => simp
  | cons q programs ih =>
    rw [List.map_cons, List.nodup_cons] at hnames
    have hfirst : ¬ Heard programs tag q.name := fun h => by
      obtain ⟨a, ha, hname, -⟩ := h.exists_mem
      exact hnames.1 (hname ▸ List.mem_map_of_mem ha)
    have hlater : ∀ a ∈ programs, q.name ≠ a.name :=
      fun a ha heq => hnames.1 (heq ▸ List.mem_map_of_mem ha)
    rw [List.forall_mem_cons, List.pairwise_cons, ← ih hnames.2]
    simp only [heard_cons, hfirst, true_and, false_or]
    refine and_congr ⟨fun h a ha hq => (h hq).2 a ha, fun h hq => ⟨hq, fun a ha => h a ha hq⟩⟩ ?_
    refine forall₂_congr fun a ha => ?_
    simp [hlater a ha]

/-- The answer to who mentions a declared tag.  The answer lists the programs that mention the tag
and have no declaration of it behind them.  So it lists all that mention it exactly if each of them
has one of its name that is heard; and with distinct names, exactly if no program that mentions the
tag stands before one that declares it. -/
theorem mentionedBy_since_declared (p : Project) (hp : Filled p) :
    ∃ m x, mentions p = .ok m ∧ Index.ofProject p = .ok x ∧
      ∀ tag ∈ (declaredTags p).map (·.name), ∃ found,
        m.get? tag = some found ∧ x.mentionedBy tag = .ok found ∧ found.Nodup ∧
        (∀ name, name ∈ found ↔ Heard p.programs tag name) ∧
        (AllHeard p tag found ↔
          ∀ q ∈ p.programs, MentionsTag q tag → Heard p.programs tag q.name) ∧
        ((p.programs.map (·.name)).Nodup → (AllHeard p tag found ↔
          p.programs.Pairwise fun q a => MentionsTag q tag → ¬ Declares a tag)) := by
  have hnamed : (allTags p).all (·.named) = true := by
    refine List.all_eq_true.2 fun t ht => hp.2 t ?_
    rw [allTags, List.mem_append, List.mem_flatMap] at ht
    rcases ht with ht | ⟨q, hq, ht⟩
    · exact List.mem_append_left _ ht
    · exact List.mem_append_right _ (List.mem_flatMap.2 ⟨q, hq, List.mem_append_left _ ht⟩)
  refine ⟨allMentions p, _, mentions_eq_ok hp, if_pos hnamed, fun tag htag => ?_⟩
  obtain ⟨found, hget⟩ := Option.isSome_iff_exists.1 (contains_allMentions.2 htag)
  have hgetD : (allMentions p).getD tag [] = found := by rw [Table.getD, hget]; rfl
  have hheard : ∀ name, name ∈ found ↔ Heard p.programs tag name :=
    fun name => hgetD ▸ mem_allMentions htag
  refine ⟨found, hget, ?_, hgetD ▸ nodup_allMentions p tag, hheard, allHeard_iff hheard, ?_⟩
  · simp only [Index.mentionedBy, mentions_eq_ok hp, ← hgetD]
    rfl
  · intro hnames
    rw [allHeard_iff hheard, forall_heard_iff_pairwise hnames]

/-- A program that opens a valve by the level, which is a tag of the controller. -/
def feed : Project.Program where
  name := "Feed"
  routines := [{ name := "Fill", language := .st, content := some "Valve := Level < 5;" }]

/-- A program with a valve and a level of its own. -/
def drain : Project.Program where
  name := "Drain"
  routines := [{ name := "Empty", language := .st, content := some "Pump := LEVEL > 9;" }]
  tags := [{ name := "Valve", dataType := "BOOL", scope := .program }]
  localVariables := [{ name := "Level", dataType := "INT", scope := .program }]

/-- A project with the two programs in some order. -/
def station (programs : List Project.Program) : Project where
  controller := { name := "Station", tags := [
    { name := "Level", dataType := "REAL", scope := .controller }] }
  programs := programs

theorem feed_mentions {tag : String} (htag : tag ∈ ["Level", "Valve"]) : MentionsTag feed tag := by
  have hboth : MentionsTag feed "Level" ∧ MentionsTag feed "Valve" := by decide +kernel
  rcases List.mem_pair.1 htag with rfl | rfl
  · exact hboth.1
  · exact hboth.2

/-- The program that declares the two tags stands behind the one that mentions them. -/
theorem not_heard_feed {tag : String} (htag : tag ∈ ["Level", "Valve"]) :
    ¬ Heard (station [feed, drain]).programs tag "Feed" := by
  have hdeclares : Declares drain tag := by rcases List.mem_pair.1 htag with rfl | rfl <;> decide
  intro h
  rcases heard_cons.1 h with h | ⟨-, -, hlater⟩
  · obtain ⟨q, hq, hname, -⟩ := h.exists_mem
    rw [List.mem_singleton.1 hq] at hname
    exact absurd hname (by decide)
  · exact hlater drain List.mem_cons_self hdeclares

theorem mentionedBy_since_declared_station :
    Filled (station [feed, drain]) ∧
    ∃ x found, Index.ofProject (station [feed, drain]) = .ok x ∧
      x.mentionedBy "Level" = .ok found ∧ "Drain" ∈ found ∧ "Feed" ∉ found := by
  have hfilled : Filled (station [feed, drain]) := by decide
  obtain ⟨m, x, -, hx, hall⟩ := mentionedBy_since_declared (station [feed, drain]) hfilled
  obtain ⟨found, -, hfound, -, hheard, -⟩ := hall "Level" (by decide)
  refine ⟨hfilled, x, found, hx, hfound, (hheard "Drain").2 ?_, fun h => ?_⟩
  · exact ⟨[feed], drain, [], rfl, rfl, by decide +kernel, by simp⟩
  · exact not_heard_feed List.mem_cons_self ((hheard "Feed").1 h)

/-- The first program mentions two tags of which the one is declared again later, and the other only
then, so for neither the program is found.  With the programs the other way round it is found for
both. -/
theorem feed_forgotten :
    Filled (station [feed, drain]) ∧ Filled (station [drain, feed]) ∧
    ∀ tag ∈ ["Level", "Valve"], tag ∈ (declaredTags (station [feed, drain])).map (·.name) ∧
      (∃ m, mentions (station [feed, drain]) = .ok m ∧
        ¬ AllHeard (station [feed, drain]) tag (m.getD tag [])) ∧
      ∃ m, mentions (station [drain, feed]) = .ok m ∧
        AllHeard (station [drain, feed]) tag (m.getD tag []) := by
  refine ⟨by decide, by decide, fun tag htag => ?_⟩
  have hdeclared : tag ∈ (declaredTags (station [feed, drain])).map (·.name) := by
    rcases List.mem_pair.1 htag with rfl | rfl <;> decide
  have hturned : tag ∈ (declaredTags (station [drain, feed])).map (·.name) := by
    rcases List.mem_pair.1 htag with rfl | rfl <;> decide
  refine ⟨hdeclared, ⟨_, mentions_eq_ok (by decide), fun hall => ?_⟩,
    _, mentions_eq_ok (by decide), ?_⟩
  · refine not_heard_feed htag ((mem_allMentions hdeclared).1 ((hall "Feed").2 ?_))
    exact ⟨feed, List.mem_cons_self, rfl, feed_mentions htag⟩
  · rw [allHeard_iff fun name => mem_allMentions hturned, forall_heard_iff_pairwise (by decide)]
    -- nothing is declared behind the first program
    refine List.pairwise_pair.2 fun _ => ?_
    rintro ⟨t, ht, -⟩
    exact absurd ht List.not_mem_nil

end Analysis

end ControlLogic
