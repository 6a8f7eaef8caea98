import ControlLogic.Proofs.Source.BlockSearch
import Mathlib.Data.List.Nodup
import Mathlib.Data.List.Perm.Basic

/-!
# The tags of declared variables

A file of variable blocks should give one tag for each entry.  It does in two cases only: if the
patterns of the kinds find every entry once (`FoundByKinds`), and if they find nothing and what
looks like a block is read instead (`FoundLoosely`).

* `readVariables_text`: what is read from a file of blocks.
* `perm_readByKinds`: what the patterns find, block by block.
* `perm_of_foundByKinds` and `readBlocks_of_foundLoosely`: in both cases every entry is read once.
* `found_of_perm`: with distinct names in no other.
-/

namespace ControlLogic.Source.OpenPlc

open Text Text.Pattern Project

/-! ## Files of blocks -/

/-- A file of variable blocks, with blanks before them. -/
structure SourceText where
  lead : String := ""
  blocks : List Block
  allBlank_lead : AllBlank lead.toList := by decide

/-- The tag that an entry declares in a block of a kind. -/
def Entry.tag (e : Entry) (kind : String) : Tag where
  name := e.name
  dataType := tagType e.type
  scope := if kind = "VAR_GLOBAL" then .controller else .program
  description := some ("OpenPLC variable: " ++ e.name)

namespace SourceText

variable (f : SourceText)

def text : String := String.ofList (f.lead.toList ++ f.blocks.flatMap Block.chars)

/-- The entries of all blocks. -/
def entries : List Entry := f.blocks.flatMap Block.entries

/-- The tags that the entries declare. -/
def tags : List Tag := f.blocks.flatMap fun b => b.entries.map (·.tag b.kind)

end SourceText

/-! ## What is read from a file -/

/-- What the patterns of all kinds find. -/
def readByKinds (bs : List Block) : List Variable :=
  readPlain false bs ++ blockKinds.tail.flatMap fun kind => bs.flatMap (·.foundAs kind)

/-- What is read: what the patterns find, or else what stands in each block. -/
def readBlocks (bs : List Block) : List Variable :=
  if (readByKinds bs).isEmpty then bs.flatMap Block.plain else readByKinds bs

theorem readVariables_text (f : SourceText) : readVariables f.text = readBlocks f.blocks := by
  have hyields : ∀ {p : Pattern} {g : Match → List Variable} {vs : List Variable},
      BeginsWithVar p → Yields p g (f.blocks.flatMap Block.chars) vs →
        (p.findAll f.text).flatMap g = vs := by
    intro p g vs hp h
    refine Yields.flatMap_findAll ?_
    rw [SourceText.text, String.toList_ofList]
    exact h.skip_blanks hp f.allBlank_lead
  have hfound : (blockKinds.flatMap fun kind =>
      ((block kind).findAll f.text).flatMap (readGroup kind)) = readByKinds f.blocks := by
    have hkinds : blockKinds = "VAR" :: blockKinds.tail := rfl
    rw [hkinds, List.flatMap_cons, readByKinds,
      hyields (beginsWithVar_block (by decide)) (yields_plain f.blocks).1]
    refine congrArg (readPlain false f.blocks ++ ·) (List.flatMap_congr fun kind hkind => ?_)
    exact hyields (beginsWithVar_block (List.mem_of_mem_tail hkind)) (yields_kind hkind f.blocks)
  have hloose : (looseBlock.findAll f.text).flatMap readLoose = f.blocks.flatMap Block.plain :=
    hyields beginsWithVar_looseBlock (yields_loose f.blocks)
  rw [readBlocks, ← hfound, ← hloose]
  rfl

/-! ## Block by block -/

/-- What the kinds with words of their own find in the block. -/
def Block.special (b : Block) : List Variable :=
  if b.kind = "VAR" ∨ b.hasLetter = true then [] else b.declared

theorem Block.flatMap_foundAs (b : Block) : blockKinds.tail.flatMap b.foundAs = b.special := by
  have hmem := b.kind_mem
  rw [Block.special]
  simp only [blockKinds, List.mem_cons, List.not_mem_nil, or_false] at hmem
  cases hletter : b.hasLetter <;> rcases hmem with hkind | hkind | hkind | hkind | hkind <;>
    simp [blockKinds, Block.foundAs, hkind, hletter]

theorem perm_readByKinds (bs : List Block) :
    (readByKinds bs).Perm (readPlain false bs ++ bs.flatMap Block.special) := by
  refine List.Perm.append_left _ ?_
  induction bs with
  | nil => simp
  | cons b bs ih =>
    simp only [List.flatMap_cons]
    refine (List.flatMap_append_perm blockKinds.tail b.foundAs _).symm.trans ?_
    rw [b.flatMap_foundAs]
    exact ih.append_left _

/-- Without the letter that ends begin with, each block is read from its beginning. -/
theorem readPlain_of_forall {bs : List Block} (h : ∀ b ∈ bs, b.hasLetter = false) :
    readPlain false bs = bs.flatMap Block.plain := by
  induction bs with
  | nil => rfl
  | cons b bs ih =>
    obtain ⟨hb, hbs⟩ := List.forall_mem_cons.1 h
    rw [readPlain, hb, ih hbs, List.flatMap_cons]
    rfl

theorem Block.drop_variablesAs_eq_nil_iff (b : Block) :
    (b.variablesAs "VAR").drop 1 = [] ↔ b.entries.length ≤ 1 := by
  rw [List.drop_eq_nil_iff, Block.variablesAs, List.length_map]

/-- Whether nothing is read depends on each block and the one before it. -/
theorem readPlain_eq_nil_iff (fromEnd : Bool) (bs : List Block) :
    readPlain fromEnd bs = [] ↔ ∀ front b back, bs = front ++ b :: back → b.hasLetter = false →
      b.plainFrom ((front.getLast?.map Block.hasLetter).getD fromEnd) = [] := by
  induction bs generalizing fromEnd with
  | nil =>
    refine iff_of_true rfl fun front b back hsplit => ?_
    simp at hsplit
  | cons b bs ih =>
    have hlast : ∀ front : List Block, ((b :: front).getLast?.map Block.hasLetter).getD fromEnd =
        (front.getLast?.map Block.hasLetter).getD b.hasLetter := by
      intro front
      rw [List.getLast?_cons]
      cases front.getLast? <;> rfl
    rw [readPlain, List.append_eq_nil_iff, ih]
    constructor
    · rintro ⟨hfirst, hothers⟩ front b' back hsplit hletter
      cases front with
      | nil =>
        cases hsplit
        simpa [hletter] using hfirst
      | cons x front =>
        obtain ⟨rfl, htail⟩ := List.cons.inj hsplit
        rw [hlast]
        exact hothers front b' back htail hletter
    · intro h
      refine ⟨?_, fun front b' back hsplit hletter => ?_⟩
      · split
        · rfl
        · rename_i hletter
          exact h [] b bs rfl (by simpa using hletter)
      · rw [← hlast]
        exact h (b :: front) b' back (congrArg (b :: ·) hsplit) hletter

/-! ## Where every entry is read once -/

/-- No entry has the letter that ends begin with, and only blocks of the kind `VAR` have more than
one entry. -/
def FoundByKinds (bs : List Block) : Prop :=
  ∀ b ∈ bs, b.hasLetter = false ∧ (b.kind = "VAR" ∨ b.entries.length ≤ 1)

instance (bs : List Block) : Decidable (FoundByKinds bs) :=
  List.decidableBAll
    (fun b : Block => b.hasLetter = false ∧ (b.kind = "VAR" ∨ b.entries.length ≤ 1)) bs

/-- Only blocks of the kind `VAR` have entries, and a block without the letter that ends begin with
has none, or one if a block with the letter stands before it. -/
def FoundLoosely (bs : List Block) : Prop :=
  (∀ b ∈ bs, b.kind ≠ "VAR" → b.entries = []) ∧
    ∀ front b back, bs = front ++ b :: back → b.hasLetter = false →
      b.entries = [] ∨ b.entries.length = 1 ∧ front.getLast?.any Block.hasLetter = true

theorem perm_of_foundByKinds {bs : List Block} (h : FoundByKinds bs) :
    (readBlocks bs).Perm (bs.flatMap Block.declared) := by
  have hplain := readPlain_of_forall fun b hb => (h b hb).1
  have hblocks : readBlocks bs = readByKinds bs := by
    rw [readBlocks]
    split
    · -- if the patterns find nothing, nothing stands in the blocks either
      rename_i hempty
      have hnil := List.isEmpty_iff.1 hempty
      rw [hnil]
      rw [readByKinds, hplain] at hnil
      exact (List.append_eq_nil_iff.1 hnil).1
    · rfl
  have hdeclared : bs.flatMap (fun b => b.plain ++ b.special) = bs.flatMap Block.declared := by
    refine List.flatMap_congr fun b hb => ?_
    obtain ⟨hletter, hkind⟩ := h b hb
    by_cases hvar : b.kind = "VAR"
    · simp [Block.plain, Block.special, Block.declared, hvar]
    · have hshort := b.drop_variablesAs_eq_nil_iff.2 (hkind.resolve_left hvar)
      rw [Block.plain, if_neg hvar, hshort, Block.special, if_neg (by simp [hvar, hletter]),
        List.nil_append]
  rw [hblocks, ← hdeclared]
  refine (perm_readByKinds bs).trans ?_
  rw [hplain]
  exact List.flatMap_append_perm bs Block.plain Block.special

theorem Block.plainFrom_eq_nil_iff {b : Block} (h : b.kind ≠ "VAR" → b.entries = [])
    (fromEnd : Bool) : b.plainFrom fromEnd = [] ↔
      b.entries = [] ∨ b.entries.length = 1 ∧ fromEnd = true := by
  cases fromEnd with
  | true =>
    have hshort : b.entries.length ≤ 1 ↔ b.entries = [] ∨ b.entries.length = 1 := by
      rw [← List.length_eq_zero_iff]
      omega
    rw [Block.plainFrom, if_pos rfl, b.drop_variablesAs_eq_nil_iff, hshort, and_iff_left rfl]
  | false =>
    have hplain : b.plain = [] ↔ b.entries = [] := by
      rw [Block.plain]
      split
      · rw [Block.variablesAs, List.map_eq_nil_iff]
      · rename_i hkind
        rw [b.drop_variablesAs_eq_nil_iff, h hkind]
        simp
    rw [Block.plainFrom, if_neg Bool.false_ne_true, hplain]
    simp

theorem foundLoosely_iff (bs : List Block) : FoundLoosely bs ↔
    (∀ b ∈ bs, b.kind ≠ "VAR" → b.entries = []) ∧ readPlain false bs = [] := by
  refine and_congr_right fun hentries => ?_
  rw [readPlain_eq_nil_iff]
  refine forall_congr' fun front => forall_congr' fun b => forall_congr' fun back =>
    forall_congr' fun hsplit => forall_congr' fun _ => ?_
  have hany : front.getLast?.any Block.hasLetter =
      (front.getLast?.map Block.hasLetter).getD false := by
    cases front.getLast? <;> rfl
  rw [Block.plainFrom_eq_nil_iff (hentries b (by simp [hsplit])), hany]

theorem readBlocks_of_foundLoosely {bs : List Block} (h : FoundLoosely bs) :
    readBlocks bs = bs.flatMap Block.declared := by
  obtain ⟨hentries, hplain⟩ := (foundLoosely_iff bs).1 h
  have hnone : ∀ {b : Block} {kind : String}, b.entries = [] → b.variablesAs kind = [] := by
    intro b kind hb
    rw [Block.variablesAs, hb, List.map_nil]
  have hspecial : bs.flatMap Block.special = [] := by
    refine List.flatMap_eq_nil_iff.2 fun b hb => ?_
    rw [Block.special]
    split
    · rfl
    · rename_i hkind
      exact hnone (hentries b hb fun hvar => hkind (.inl hvar))
  have hfound : readByKinds bs = [] := by
    have hperm := perm_readByKinds bs
    rw [hplain, hspecial] at hperm
    exact hperm.eq_nil
  rw [readBlocks, if_pos (List.isEmpty_iff.2 hfound)]
  refine List.flatMap_congr fun b hb => ?_
  rw [Block.plain, Block.declared]
  split
  · rename_i hkind
    rw [hkind]
  · rename_i hkind
    rw [hnone (hentries b hb hkind), hnone (hentries b hb hkind), List.drop_nil]

/-! ## Where it is not -/

section Lengths

variable {α β γ : Type} {f : α → List β} {g : α → List γ} {l : List α}

theorem length_flatMap_le (hle : ∀ a ∈ l, (f a).length ≤ (g a).length) :
    (l.flatMap f).length ≤ (l.flatMap g).length := by
  induction l with
  | nil => exact Nat.le_refl 0
  | cons a l ih =>
    obtain ⟨ha, hl⟩ := List.forall_mem_cons.1 hle
    simp only [List.flatMap_cons, List.length_append]
    exact Nat.add_le_add ha (ih hl)

/-- Lists of the same length in all are of the same length one by one if none of the first is longer
than its counterpart. -/
theorem length_eq_of_length_flatMap_eq (hle : ∀ a ∈ l, (f a).length ≤ (g a).length)
    (h : (l.flatMap f).length = (l.flatMap g).length) : ∀ a ∈ l, (f a).length = (g a).length := by
  induction l with
  | nil => exact List.forall_mem_nil _
  | cons a l ih =>
    obtain ⟨ha, hl⟩ := List.forall_mem_cons.1 hle
    have hrest := length_flatMap_le hl
    simp only [List.flatMap_cons, List.length_append] at h
    exact List.forall_mem_cons.2 ⟨by omega, ih hl (by omega)⟩

end Lengths

theorem length_plain_le (b : Block) : b.plain.length ≤ b.declared.length := by
  rw [Block.plain, Block.declared, Block.variablesAs, Block.variablesAs]
  split <;> simp

theorem Block.plainFrom_subset (b : Block) (fromEnd : Bool) :
    b.plainFrom fromEnd ⊆ b.variablesAs "VAR" := by
  rw [Block.plainFrom, Block.plain]
  split
  · exact List.drop_subset 1 _
  · split
    · exact List.Subset.refl _
    · exact List.drop_subset 1 _

theorem exists_of_mem_readPlain {bs : List Block} {fromEnd : Bool} {v : Variable}
    (h : v ∈ readPlain fromEnd bs) :
    ∃ b ∈ bs, b.hasLetter = false ∧ v ∈ b.variablesAs "VAR" := by
  induction bs generalizing fromEnd with
  | nil => cases h
  | cons b bs ih =>
    rw [readPlain, List.mem_append] at h
    rcases h with hv | hv
    · split at hv
      · cases hv
      · rename_i hletter
        exact ⟨b, List.mem_cons_self, by simpa using hletter, b.plainFrom_subset fromEnd hv⟩
    · obtain ⟨b', hb', hfound⟩ := ih hv
      exact ⟨b', List.mem_cons_of_mem b hb', hfound⟩

/-- What the patterns find comes from entries of blocks without the letter that ends begin with. -/
theorem exists_of_mem_readByKinds {bs : List Block} {v : Variable} (h : v ∈ readByKinds bs) :
    ∃ b ∈ bs, b.hasLetter = false ∧ ∃ e ∈ b.entries, e.name = v.name := by
  obtain ⟨b, hb, hletter, kind, hv⟩ : ∃ b ∈ bs, b.hasLetter = false ∧
      ∃ kind, v ∈ b.variablesAs kind := by
    rcases List.mem_append.1 ((perm_readByKinds bs).mem_iff.1 h) with hv | hv
    · obtain ⟨b, hb, hletter, hv⟩ := exists_of_mem_readPlain hv
      exact ⟨b, hb, hletter, "VAR", hv⟩
    · obtain ⟨b, hb, hv⟩ := List.mem_flatMap.1 hv
      rw [Block.special] at hv
      split at hv
      · cases hv
      · rename_i hletter
        exact ⟨b, hb, by simpa using fun h => hletter (.inr h), b.kind, hv⟩
  obtain ⟨e, he, rfl⟩ := List.mem_map.1 hv
  exact ⟨b, hb, hletter, e, he, rfl⟩

theorem map_name_declared (bs : List Block) :
    (bs.flatMap Block.declared).map Variable.name = (bs.flatMap Block.entries).map Entry.name := by
  rw [List.map_flatMap, List.map_flatMap]
  refine List.flatMap_congr fun b _ => ?_
  rw [Block.declared, Block.variablesAs, List.map_map]
  rfl

/-- An entry with the letter that ends begin with is not found, so that with distinct names there is
none. -/
theorem hasLetter_eq_false_of_perm {bs : List Block}
    (hnodup : ((bs.flatMap Block.entries).map Entry.name).Nodup)
    (h : ((readByKinds bs).map Variable.name).Perm ((bs.flatMap Block.entries).map Entry.name)) :
    ∀ b ∈ bs, b.hasLetter = false := by
  intro b hb
  rw [Bool.eq_false_iff]
  intro hletter
  obtain ⟨e, he, hletter⟩ := List.any_eq_true.1 hletter
  have hmem : e ∈ bs.flatMap Block.entries := List.mem_flatMap.2 ⟨b, hb, he⟩
  obtain ⟨v, hv, hname⟩ := List.mem_map.1 (h.mem_iff.2 (List.mem_map_of_mem hmem))
  obtain ⟨b', hb', hclear, e', he', hname'⟩ := exists_of_mem_readByKinds hv
  have heq : e' = e := List.inj_on_of_nodup_map hnodup (List.mem_flatMap.2 ⟨b', hb', he'⟩) hmem
    (hname'.trans hname)
  rw [heq] at he'
  rw [Block.hasLetter, List.any_eq_false] at hclear
  exact hclear e he' hletter

/-- With distinct names, every entry is read once in these two cases only. -/
theorem found_of_perm {bs : List Block}
    (hnodup : ((bs.flatMap Block.entries).map Entry.name).Nodup)
    (h : ((readBlocks bs).map Variable.name).Perm ((bs.flatMap Block.entries).map Entry.name)) :
    FoundByKinds bs ∨ FoundLoosely bs := by
  have hlength := h.length_eq
  rw [← map_name_declared, List.length_map, List.length_map] at hlength
  rw [readBlocks] at h hlength
  split at h
  · rename_i hempty
    rw [if_pos hempty] at hlength
    refine .inr ((foundLoosely_iff bs).2 ⟨fun b hb hkind => ?_, ?_⟩)
    · have hplain := length_eq_of_length_flatMap_eq (fun b _ => length_plain_le b) hlength b hb
      rw [Block.plain, if_neg hkind, Block.declared, Block.variablesAs, Block.variablesAs,
        List.length_drop, List.length_map, List.length_map] at hplain
      exact List.length_eq_zero_iff.1 (by omega)
    · have hnil := List.isEmpty_iff.1 hempty
      exact (List.append_eq_nil_iff.1 hnil).1
  · rename_i hempty
    rw [if_neg hempty] at hlength
    have hletter := hasLetter_eq_false_of_perm hnodup h
    have hcount : (bs.flatMap Block.declared).length =
        (bs.flatMap fun b => b.plain ++ b.special).length := by
      have hperm := perm_readByKinds bs
      rw [readPlain_of_forall hletter] at hperm
      rw [← hlength, hperm.length_eq,
        (List.flatMap_append_perm bs Block.plain Block.special).length_eq]
    have hle : ∀ b ∈ bs, b.declared.length ≤ (b.plain ++ b.special).length := by
      intro b hb
      rw [List.length_append]
      by_cases hvar : b.kind = "VAR"
      · rw [Block.plain, if_pos hvar, Block.declared, hvar]
        exact Nat.le_add_right _ _
      · rw [Block.special, if_neg (by simp [hvar, hletter b hb])]
        exact Nat.le_add_left _ _
    refine .inl fun b hb => ⟨hletter b hb, or_iff_not_imp_left.2 fun hvar => ?_⟩
    -- what the kind of the block finds is all, so that the kind `VAR` finds nothing
    have htwice := length_eq_of_length_flatMap_eq hle hcount b hb
    rw [List.length_append, Block.special, if_neg (by simp [hvar, hletter b hb]), Block.plain,
      if_neg hvar, Nat.right_eq_add, List.length_eq_zero_iff] at htwice
    exact b.drop_variablesAs_eq_nil_iff.1 htwice

/-! ## The tags of a file -/

theorem tags_project (name source : String) :
    (project name source).controller.tags = (readVariables source).map Variable.tag := rfl

theorem load_of_read {files : Files} {path source : String} (h : files.read path = .ok source) :
    load files path = .ok (project (Path.stem path) source) := by
  rw [load, h]
  rfl

theorem map_tag_declared (bs : List Block) : (bs.flatMap Block.declared).map Variable.tag =
    bs.flatMap fun b => b.entries.map (·.tag b.kind) := by
  rw [List.map_flatMap]
  refine List.flatMap_congr fun b _ => ?_
  rw [Block.declared, Block.variablesAs, List.map_map]
  rfl

theorem map_name_tags (f : SourceText) : f.tags.map Tag.name = f.entries.map Entry.name := by
  rw [SourceText.tags, SourceText.entries, List.map_flatMap, List.map_flatMap]
  refine List.flatMap_congr fun b _ => ?_
  rw [List.map_map]
  rfl

/-- Loading a file of blocks never fails.  In the two cases its tags are those that its entries
declare, in some order, and with distinct names in no other case. -/
theorem tags_of_load {files : Files} {path : String} (f : SourceText)
    (hread : files.read path = .ok f.text) :
    ∃ p, load files path = .ok p ∧ p.controller.tags = (readBlocks f.blocks).map Variable.tag ∧
      (FoundByKinds f.blocks ∨ FoundLoosely f.blocks → p.controller.tags.Perm f.tags) ∧
      ((f.entries.map Entry.name).Nodup → p.controller.tags.Perm f.tags →
        FoundByKinds f.blocks ∨ FoundLoosely f.blocks) := by
  have htags := tags_project (Path.stem path) f.text
  rw [readVariables_text] at htags
  refine ⟨_, load_of_read hread, htags, fun h => ?_, fun hnodup hperm => ?_⟩
  · rw [htags, SourceText.tags, ← map_tag_declared]
    rcases h with h | h
    · exact (perm_of_foundByKinds h).map Variable.tag
    · rw [readBlocks_of_foundLoosely h]
  · have hnames := hperm.map Tag.name
    rw [htags, List.map_map, map_name_tags] at hnames
    exact found_of_perm hnodup hnames

/-- A file whose entries are all found by their kinds. -/
def mixerSource : SourceText where
  blocks := [
    { kind := "VAR"
      entries := [{ name := "count", type := "INT" }, { name := "limit", type := "INT" }] },
    { kind := "VAR_INPUT", entries := [{ name := "start", type := "BOOL" }] },
    { kind := "VAR_GLOBAL", entries := [{ name := "alarm", type := "BOOL" }] }]

def mixerFiles : Files := Table.ofList [("Mixer.st", .text mixerSource.text)]

theorem tags_of_load_mixer :
    mixerFiles.read "Mixer.st" = .ok mixerSource.text ∧
      mixerSource.tags.map (fun t => (t.name, t.scope)) = [("count", .program),
        ("limit", .program), ("start", .program), ("alarm", .controller)] ∧
      ∃ p, load mixerFiles "Mixer.st" = .ok p ∧ p.controller.tags.Perm mixerSource.tags := by
  have hread : mixerFiles.read "Mixer.st" = .ok mixerSource.text := by decide +kernel
  have hfound : FoundByKinds mixerSource.blocks := by decide
  obtain ⟨p, hload, -, hperm, -⟩ := tags_of_load mixerSource hread
  exact ⟨hread, by decide, p, hload, hperm (.inl hfound)⟩

/-- A file with a letter that ends begin with in one block and two entries in the other. -/
def pumpSource : SourceText where
  blocks := [
    { kind := "VAR", entries := [{ name := "speed", type := "INT" }] },
    { kind := "VAR_INPUT"
      entries := [{ name := "start", type := "BOOL" }, { name := "stop", type := "BOOL" }] }]

def pumpFiles : Files := Table.ofList [("Pump.st", .text pumpSource.text)]

/-- The entry of the one block is lost, and the second entry of the other is read twice. -/
theorem speed_lost_and_stop_read_twice :
    ∃ p, load pumpFiles "Pump.st" = .ok p ∧
      p.controller.tags.map Tag.name = ["stop", "start", "stop"] ∧
      pumpSource.tags.map Tag.name = ["speed", "start", "stop"] ∧
      ¬ p.controller.tags.Perm pumpSource.tags := by
  have hread : pumpFiles.read "Pump.st" = .ok pumpSource.text := by decide +kernel
  have hnames : (project (Path.stem "Pump.st") pumpSource.text).controller.tags.map Tag.name =
      ["stop", "start", "stop"] := by
    rw [tags_project, readVariables_text]
    decide
  have hdeclared : pumpSource.tags.map Tag.name = ["speed", "start", "stop"] := by decide
  refine ⟨_, load_of_read hread, hnames, hdeclared, fun hperm => ?_⟩
  have hperm := hperm.map Tag.name
  rw [hnames, hdeclared] at hperm
  exact absurd hperm (by decide)

end ControlLogic.Source.OpenPlc
