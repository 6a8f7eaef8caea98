import ControlLogic.Proofs.Source.BlockText

/-!
# Searches for variable blocks

The variables of a file are looked for with one pattern for each kind of block.  Two things decide
what a pattern finds in a file of blocks.  It does not pass the letter that ends begin with, so that
it fails on the blocks with an entry that has this letter.  And the pattern of the kind `VAR` matches
wherever these three letters stand: at the word of any kind, and within the word that ends a block.

* `Yields` says what is read from a text wherever the search stands before it.  `Yields.hit_block`,
  `Yields.pass_block` and `Yields.pass_end` are the steps of a search.
* `yields_kind`: a kind with a word of its own gives the variables of its blocks without the letter.
* `yields_plain`: `readPlain` is what the kind `VAR` gives.  `yields_plain_pass` and
  `yields_plain_hit` are its steps.
* `yields_loose`: any stretch from a beginning to an end gives what stands in one block.
-/

namespace ControlLogic.Source.OpenPlc

open Text Text.Pattern

/-! ## Readings of a text -/

/-- Wherever a search stands before the text, the matches from there on are read as these
variables. -/
def Yields (p : Pattern) (f : Match → List Variable) (t : List Char) (vs : List Variable) : Prop :=
  ∀ pos before, ((p.scanFrom 0 pos before t).filterMap Piece.hit?).flatMap f = vs

/-- Every match begins with the keyword of variables. -/
def BeginsWithVar (p : Pattern) : Prop :=
  ∀ ⦃c d⦄, Matches p c d → (afterKeyword? varWord c.rest).isSome

theorem BeginsWithVar.begins {p : Pattern} (hp : BeginsWithVar p) : Begins (sameLetter 'V') p := by
  intro c d hd
  obtain ⟨r, hr⟩ := Option.isSome_iff_exists.1 (hp hd)
  obtain ⟨x, t, hrest, hx⟩ := exists_cons_of_afterKeyword? (x := 'V') (k := "AR".toList) hr
  simpa [hrest] using hx

namespace Yields

variable {p : Pattern} {f : Match → List Variable} {s t g : List Char} {us vs : List Variable}

theorem flatMap_findAll {text : String} (h : Yields p f text.toList vs) :
    (p.findAll text).flatMap f = vs := by
  rw [findAll_eq]
  exact h 0 none

theorem nil (hp : BeginsWithVar p) : Yields p f [] [] := by
  intro pos before
  rw [scanFrom_nil (fails_of_not_matches fun d hd => by cases hp hd)]
  rfl

/-- A stretch in which no match begins adds nothing. -/
theorem skip (hs : ∀ before, p.NoneWithin before s t) (ht : Yields p f t vs) :
    Yields p f (s ++ t) vs := by
  intro pos before
  rw [scanFrom_append (hs before), List.filterMap_append, filterMap_hit?_plain, List.nil_append]
  exact ht _ _

/-- A match adds what is read from it. -/
theorem hit (hs : s ≠ []) (h : ∀ c : Cursor, c.rest = s ++ t → c.marks = [] →
      ∃ d, Prefers p c d ∧ d.pos = c.pos + s.length ∧ f ⟨c.pos, s, d.marks⟩ = us)
    (ht : Yields p f t vs) : Yields p f (s ++ t) (us ++ vs) := by
  intro pos before
  obtain ⟨d, hd, hpos, hf⟩ := h ⟨pos, before, s ++ t, []⟩ rfl rfl
  have hhit : Piece.hit? (.hit ⟨pos, s, d.marks⟩) = some ⟨pos, s, d.marks⟩ := rfl
  rw [scanFrom_of_prefers hd hpos hs, List.filterMap_cons_some hhit, List.flatMap_cons, hf, ht]

theorem skip_blanks (hp : BeginsWithVar p) (hg : AllBlank g) (ht : Yields p f t vs) :
    Yields p f (g ++ t) vs :=
  ht.skip fun before => noneWithin_of_begins hp.begins
    (fun x hx => separates_varWord_of_isBlank (hg x hx) 'V' List.mem_cons_self) before t

/-- The keyword in the end of a block is passed if no match begins with it. -/
theorem pass_end (hp : BeginsWithVar p) (hg : AllBlank g)
    (hfails : ∀ c : Cursor, c.rest = varWord ++ (g ++ t) → p.Fails c) (ht : Yields p f t vs) :
    Yields p f (varWord ++ (g ++ t)) vs := by
  have htext : varWord ++ (g ++ t) = 'V' :: ("AR".toList ++ g) ++ t := by simp [varWord]
  rw [htext]
  refine ht.skip fun before => .cons (fun c hc => hfails c ?_)
    (noneWithin_of_begins hp.begins ?_ _ t)
  · rw [hc, htext, List.cons_append]
  · have hletters : ∀ x ∈ "AR".toList, sameLetter 'V' x = false :=
      List.forall_mem_cons.2 ⟨rfl, List.forall_mem_singleton.2 rfl⟩
    intro x hx
    rcases List.mem_append.1 hx with hx | hx
    · exact hletters x hx
    · exact separates_varWord_of_isBlank (hg x hx) 'V' List.mem_cons_self

end Yields

/-! ## Blocks of one kind -/

/-- The class of the characters that a block passes before its end. -/
def isOther (x : Char) : Bool := !"E".toList.any fun y => sameLetter y x

theorem isOther_eq (x : Char) : isOther x = !sameLetter 'E' x := by
  simp [isOther]

theorem forall_isOther_iff {s : List Char} :
    (∀ x ∈ s, isOther x = true) ↔ s.any (sameLetter 'E') = false := by
  simp [isOther_eq]

theorem exists_of_matches_block {kind : String} {c d : Cursor} (h : Matches (block kind) c d) :
    ∃ r, afterKeyword? kind.toList c.rest = some r ∧
      afterKeyword? endWord (r.dropWhile isOther) = some d.rest := by
  cases h with | seq hkind h =>
  cases h with | seq hblanks h =>
  cases h with | group h =>
  cases h with | seq hlazy hend =>
  obtain ⟨g, hg, -, hblank⟩ := hblanks.exists_passed (P := (isBlank · = true)) fun _ h => h
  obtain ⟨s, hs, -, hother⟩ := hlazy.exists_passed (P := (isOther · = true)) fun _ h => h
  have hend := hend.rest_keyword
  obtain ⟨x, t, hx, hletter⟩ := exists_cons_of_afterKeyword? (x := 'E') (k := "ND_VAR".toList) hend
  have hpassed : ∀ y ∈ g ++ s, isOther y = true :=
    List.forall_mem_append.2 ⟨forall_isOther_iff.2 (AllBlank.any_eq_false hblank), hother⟩
  refine ⟨_, hkind.rest_keyword, ?_⟩
  rw [hg, hs, ← List.append_assoc,
    dropWhile_append_of_head? hpassed (by simp [hx, isOther_eq, hletter])]
  exact hend

/-- A pattern fails where the word of its kind is missing, or an end behind it. -/
theorem fails_block {kind : String} {c : Cursor}
    (h : ∀ r, afterKeyword? kind.toList c.rest = some r →
      afterKeyword? endWord (r.dropWhile isOther) = none) : (block kind).Fails c := by
  refine fails_of_not_matches fun d hd => ?_
  obtain ⟨r, hkind, hend⟩ := exists_of_matches_block hd
  rw [h r hkind] at hend
  cases hend

theorem prefers_block {kind : String} {c : Cursor} {s t : List Char}
    (hrest : c.rest = kind.toList ++ (s ++ (endWord ++ t))) (hs : ∀ x ∈ s, isOther x = true) :
    ∃ d, Prefers (block kind) c d ∧ d.pos = c.pos + (kind.toList ++ (s ++ endWord)).length ∧
      d.marks = (1, (s ++ endWord).dropWhile isBlank) :: c.marks := by
  obtain ⟨g, u, rfl, hg, hu⟩ : ∃ g u, s = g ++ u ∧ AllBlank g ∧ u.head?.any isBlank = false := by
    refine ⟨_, _, List.takeWhile_append_dropWhile.symm,
      fun x hx => List.all_eq_true.1 List.all_takeWhile x hx, ?_⟩
    have hhead := List.head?_dropWhile_not isBlank s
    cases hdrop : (s.dropWhile isBlank).head? with
    | none => rfl
    | some x => simpa [hdrop] using hhead
  have hstop : ∀ t, (u ++ (endWord ++ t)).head?.any isBlank = false := by
    intro t
    cases u with
    | nil => rfl
    | cons x u => simpa using hu
  have hdrop : (g ++ u ++ endWord).dropWhile isBlank = u ++ endWord := by
    rw [List.append_assoc]
    exact dropWhile_append_of_head? hg (by simpa using hstop [])
  rw [List.append_assoc] at hrest
  let named := c.past kind.toList (g ++ (u ++ (endWord ++ t)))
  let led := named.past g (u ++ (endWord ++ t))
  have h₁ : Prefers (.keyword kind) c named :=
    prefers_keyword hrest (by simpa using afterKeyword?_self kind.toList [])
  have h₂ : Prefers .blanks named led := prefers_star rfl hg (hstop t)
  have h₃ : Prefers (.seq (.lazy (.exceptLetters "E")) (.keyword "END_VAR")) led
      (led.past (u ++ endWord) t) := by
    refine prefers_lazy_seq (s := u) (t := endWord ++ t) rfl
      (fun x hx => hs x (List.mem_append_right g hx)) (fun c' v w huv hw hc' => ?_) ?_
    · -- an end begins with the letter that is not passed
      refine fails_of_not_matches fun d hd => ?_
      obtain ⟨x, w, rfl⟩ := List.exists_cons_of_ne_nil hw
      have hx := hs x (by simp [huv])
      rw [isOther_eq, Bool.not_eq_true'] at hx
      have hnone := afterKeyword?_eq_none hx "ND_VAR".toList (w ++ (endWord ++ t))
      have hend := hd.rest_keyword
      rw [hc'] at hend
      cases hnone.symm.trans hend
    · rw [← Cursor.past_past led u endWord (endWord ++ t) t]
      exact prefers_keyword rfl (by decide)
  refine ⟨_, h₁.seq (h₂.seq (Prefers.group ?_ h₃)), ?_, ?_⟩
  · rw [List.append_assoc]
    rfl
  · simp only [named, led, Cursor.past, Cursor.mark, List.length_append]
    omega
  · rw [hdrop]
    rfl

/-- What is read from a match. -/
def readGroup (kind : String) (m : Match) : List Variable :=
  readBlock (strip (m.group 1)) kind

theorem readBlock_dropWhile (kind : String) (s : List Char) :
    readBlock (String.ofList (s.dropWhile isBlank)) kind = readBlock (String.ofList s) kind := by
  have hblanks := readBlock_blanks kind (a := s.takeWhile isBlank) (b := [])
    (fun x hx => List.all_eq_true.1 List.all_takeWhile x hx) (by decide) (s.dropWhile isBlank)
  rw [List.append_nil, List.takeWhile_append_dropWhile] at hblanks
  exact hblanks.symm

/-- A block adds what stands between the word of the kind and its end. -/
theorem Yields.hit_block {kind : String} {s t : List Char} {vs : List Variable}
    (hs : ∀ x ∈ s, isOther x = true) (ht : Yields (block kind) (readGroup kind) t vs) :
    Yields (block kind) (readGroup kind) (kind.toList ++ (s ++ (endWord ++ t)))
      (readBlock (String.ofList (s ++ endWord)) kind ++ vs) := by
  have htext : kind.toList ++ (s ++ (endWord ++ t)) = (kind.toList ++ (s ++ endWord)) ++ t := by
    simp
  have hend : endWord ≠ [] := by decide
  rw [htext]
  refine ht.hit (by simp [hend]) fun c hrest _ => ?_
  rw [← htext] at hrest
  obtain ⟨d, hd, hpos, hd'⟩ := prefers_block hrest hs
  refine ⟨d, hd, hpos, ?_⟩
  rw [readGroup, readBlock_strip, hd', ← readBlock_dropWhile kind (s ++ endWord)]
  rfl

theorem beginsWithVar_block {kind : String} (hkind : kind ∈ blockKinds) :
    BeginsWithVar (block kind) := by
  intro c d hd
  obtain ⟨r, hr, -⟩ := exists_of_matches_block hd
  rw [toList_kind hkind, afterKeyword?_append_keyword] at hr
  obtain ⟨u, hu, -⟩ := Option.bind_eq_some_iff.1 hr
  exact Option.isSome_of_eq_some hu

/-- A block is passed up to the keyword in its end if no match begins with its kind. -/
theorem Yields.pass_block {p : Pattern} {f : Match → List Variable} {t : List Char}
    {vs : List Variable} (hp : BeginsWithVar p) (b : Block)
    (hfails : ∀ c : Cursor, c.rest = b.chars ++ t → p.Fails c)
    (ht : Yields p f (varWord ++ (b.trail.toList ++ t)) vs) : Yields p f (b.chars ++ t) vs := by
  have htext : b.chars ++ t = 'V' :: ("AR".toList ++ kindTail b.kind ++
      (b.inner ++ "END".toList) ++ ['_']) ++ (varWord ++ (b.trail.toList ++ t)) := by
    have hvar : varWord = 'V' :: "AR".toList := rfl
    have hend : endWord = "END".toList ++ ('_' :: varWord) := rfl
    rw [b.chars_append, hend]
    simp only [hvar, List.cons_append, List.append_assoc, List.nil_append]
  rw [htext]
  refine ht.skip fun before => .cons (fun c hc => hfails c ?_) (noneWithin_of_lacks hp (by decide)
    (b.lacks_around (lacks_kindTail b.kind_mem) (by decide)) _ _)
  rw [hc, htext, List.cons_append]

/-- Behind a letter that ends begin with, what follows within a block is no end. -/
theorem Block.afterKeyword?_endWord {b : Block} (hb : b.hasLetter = true) {u : List Char}
    (hu : u.any (sameLetter 'E') = false) (t : List Char) :
    afterKeyword? endWord ((u ++ (b.inner ++ t)).dropWhile isOther) = none := by
  have hne : b.inner.dropWhile isOther ≠ [] := by
    intro hnil
    rw [List.dropWhile_eq_nil_iff, forall_isOther_iff, b.any_inner, hb] at hnil
    cases hnil
  rw [List.dropWhile_append_of_pos (forall_isOther_iff.2 hu), List.dropWhile_append,
    if_neg (by simpa using hne)]
  have henclosed := b.enclosed (u := []) (by decide)
  exact henclosed.afterKeyword?_endWord List.takeWhile_append_dropWhile.symm hne t

/-! ## The kinds with words of their own -/

namespace Block

variable (b : Block)

theorem readBlock_inner (last : List Char) (hlast : ';' ∉ last) (hcolon : ':' ∉ last) :
    readBlock (String.ofList (b.inner ++ last)) b.kind = b.declared := by
  rw [Block.inner, List.append_assoc,
    readBlock_entries b.kind b.entries b.allBlank_lead hlast hcolon]
  rfl

/-- What the pattern of a kind finds in the block. -/
def foundAs (kind : String) : List Variable :=
  if b.kind = kind && !b.hasLetter then b.declared else []

end Block

/-- Blanks end the word of a kind, so that no other kind begins with it. -/
theorem afterKeyword?_kind_eq_none {kind : String} (hkind : kind ∈ blockKinds.tail) (b : Block)
    (hne : b.kind ≠ kind) (t : List Char) :
    afterKeyword? kind.toList (b.kind.toList ++ (b.inner ++ t)) = none := by
  have hkinds : ∀ k ∈ blockKinds.tail, ∀ k' ∈ blockKinds, k' ≠ k →
      afterKeyword? k.toList k'.toList = none := by decide
  obtain ⟨x, s, hx, hinner⟩ := b.exists_inner_eq_cons
  have hsep := (wordlike_kind (List.mem_of_mem_tail hkind)).separates hx
  rw [hinner, List.cons_append, afterKeyword?_append_sep hsep,
    hkinds kind hkind b.kind b.kind_mem hne]
  rfl

theorem head?_chars (bs : List Block) :
    (bs.flatMap Block.chars).head?.any (sameLetter '_') = false := by
  cases bs with
  | nil => rfl
  | cons b bs =>
    rw [List.flatMap_cons, b.chars_append]
    rfl

/-- Behind the keyword in an end there is not what else the word of a kind has. -/
theorem afterKeyword?_end_eq_none {kind : String} (hkind : kind ∈ blockKinds.tail) {g t : List Char}
    (hg : AllBlank g) (ht : t.head?.any (sameLetter '_') = false) :
    afterKeyword? kind.toList (varWord ++ (g ++ t)) = none := by
  have hkinds : ∀ k ∈ blockKinds.tail, k ∈ blockKinds ∧ ∃ w, kindTail k = '_' :: w := by
    intro k hk
    refine ⟨List.mem_of_mem_tail hk, (kindTail k).tail, ?_⟩
    have hall : ∀ k ∈ blockKinds.tail, kindTail k = '_' :: (kindTail k).tail := by decide
    exact hall k hk
  obtain ⟨hmem, w, hw⟩ := hkinds kind hkind
  have hhead : (g ++ t).head?.any (sameLetter '_') = false :=
    head?_any_append (fun x hx => isBlank_of_sameLetter (by decide) hx) hg ht
  rw [toList_kind hmem, afterKeyword?_append_keyword, afterKeyword?_self, Option.bind_some, hw]
  cases hgt : g ++ t with
  | nil => rfl
  | cons x s =>
    rw [hgt] at hhead
    exact afterKeyword?_eq_none (by simpa using hhead) w s

/-- A kind with a word of its own gives the variables of its blocks without the letter that ends
begin with. -/
theorem yields_kind {kind : String} (hkind : kind ∈ blockKinds.tail) (bs : List Block) :
    Yields (block kind) (readGroup kind) (bs.flatMap Block.chars)
      (bs.flatMap (·.foundAs kind)) := by
  have hp := beginsWithVar_block (List.mem_of_mem_tail hkind)
  induction bs with
  | nil => exact .nil hp
  | cons b bs ih =>
    rw [List.flatMap_cons, List.flatMap_cons, Block.foundAs]
    split
    · rename_i hfound
      simp only [Bool.and_eq_true, decide_eq_true_eq, Bool.not_eq_true'] at hfound
      obtain ⟨rfl, hletter⟩ := hfound
      have hhit := (ih.skip_blanks hp b.allBlank_trail).hit_block (s := b.inner)
        (forall_isOther_iff.2 (b.any_inner.trans hletter))
      rw [b.readBlock_inner endWord (by decide) (by decide)] at hhit
      simpa [Block.chars] using hhit
    · rename_i hfound
      refine Yields.pass_block hp b (fun c hc => fails_block fun r hr => ?_)
        (ih.pass_end hp b.allBlank_trail fun c hc => fails_block fun r hr => ?_)
      · simp only [Block.chars, List.append_assoc] at hc
        rw [hc] at hr
        by_cases hsame : b.kind = kind
        · have hletter : b.hasLetter = true := by simpa [hsame] using hfound
          rw [hsame, afterKeyword?_self] at hr
          cases hr
          exact Block.afterKeyword?_endWord hletter (u := []) rfl _
        · rw [afterKeyword?_kind_eq_none hkind b hsame] at hr
          cases hr
      · rw [hc, afterKeyword?_end_eq_none hkind b.allBlank_trail (head?_chars bs)] at hr
        cases hr

/-! ## The kind without a word of its own -/

/-- What is read from a block behind the keyword of variables: what else the word of its kind has
spoils the first entry. -/
def Block.plain (b : Block) : List Variable :=
  if b.kind = "VAR" then b.variablesAs "VAR" else (b.variablesAs "VAR").drop 1

theorem Block.readBlock_kindTail (b : Block) (last : List Char) (hlast : ';' ∉ last)
    (hcolon : ':' ∉ last) :
    readBlock (String.ofList (kindTail b.kind ++ (b.inner ++ last))) "VAR" = b.plain := by
  rw [Block.plain, Block.inner, List.append_assoc]
  split
  · rename_i hkind
    rw [(kindTail_eq_nil_iff b.kind_mem).2 hkind, List.nil_append,
      readBlock_entries "VAR" b.entries b.allBlank_lead hlast hcolon]
    rfl
  · rename_i hkind
    rw [readBlock_word_entries "VAR" b.entries (mt (kindTail_eq_nil_iff b.kind_mem).1 hkind)
      (fun x => isWordChar_of_mem_kindTail b.kind_mem) b.allBlank_lead b.toList_lead_ne_nil hlast
      hcolon]
    rfl

/-- What is read from a block if the search stands at its beginning, or at the keyword in the end
before it. -/
def Block.plainFrom (b : Block) (fromEnd : Bool) : List Variable :=
  if fromEnd then (b.variablesAs "VAR").drop 1 else b.plain

/-- Behind the keyword in an end, the word of the kind spoils the first entry. -/
theorem Block.readBlock_kind (b : Block) {g : List Char} (hg : AllBlank g) :
    readBlock (String.ofList (g ++ b.kind.toList ++ b.inner ++ endWord)) "VAR" =
      b.plainFrom true := by
  have hword := wordlike_kind b.kind_mem
  have hblanks := readBlock_blanks "VAR" hg (b := []) (by decide)
    (b.kind.toList ++ (b.inner ++ endWord))
  rw [List.append_nil] at hblanks
  rw [List.append_assoc, List.append_assoc, hblanks, Block.inner, List.append_assoc,
    readBlock_word_entries "VAR" b.entries (fun hnil => hword.1 (String.toList_inj.1 hnil))
      (fun x hx => (hword.2 x hx).2) b.allBlank_lead b.toList_lead_ne_nil (by decide) (by decide)]
  rfl

theorem any_blanks_kind {g : List Char} (hg : AllBlank g) (b : Block) :
    (g ++ b.kind.toList).any (sameLetter 'E') = false := by
  rw [List.any_append, AllBlank.any_eq_false hg, any_kind b.kind_mem, Bool.false_or]

section Steps

variable {b : Block} {t : List Char} {vs : List Variable}

/-- A block with the letter that ends begin with is passed up to the keyword in its end. -/
theorem yields_plain_pass (hb : b.hasLetter = true)
    (ht : Yields (block "VAR") (readGroup "VAR") (varWord ++ (b.trail.toList ++ t)) vs) :
    Yields (block "VAR") (readGroup "VAR") (b.chars ++ t) vs ∧ ∀ g, AllBlank g →
      Yields (block "VAR") (readGroup "VAR") (varWord ++ (g ++ (b.chars ++ t))) vs := by
  have hp : BeginsWithVar (block "VAR") := beginsWithVar_block (by decide)
  have hpass : Yields (block "VAR") (readGroup "VAR") (b.chars ++ t) vs := by
    refine Yields.pass_block hp b (fun c hc => fails_block fun r hr => ?_) ht
    rw [hc, b.chars_append] at hr
    cases (afterKeyword?_self varWord _).symm.trans hr
    exact Block.afterKeyword?_endWord hb (any_kindTail b.kind_mem) _
  refine ⟨hpass, fun g hg => hpass.pass_end hp hg fun c hc => fails_block fun r hr => ?_⟩
  rw [hc] at hr
  cases (afterKeyword?_self varWord _).symm.trans hr
  have hend := Block.afterKeyword?_endWord hb (any_blanks_kind hg b)
    (endWord ++ (b.trail.toList ++ t))
  simpa [Block.chars] using hend

/-- A block without the letter is read, from its beginning or from the end before it. -/
theorem yields_plain_hit (hb : b.hasLetter = false)
    (ht : Yields (block "VAR") (readGroup "VAR") t vs) :
    Yields (block "VAR") (readGroup "VAR") (b.chars ++ t) (b.plainFrom false ++ vs) ∧
      ∀ g, AllBlank g → Yields (block "VAR") (readGroup "VAR") (varWord ++ (g ++ (b.chars ++ t)))
        (b.plainFrom true ++ vs) := by
  have hother : ∀ u, u.any (sameLetter 'E') = false → ∀ x ∈ u ++ b.inner, isOther x = true := by
    intro u hu
    rw [forall_isOther_iff, List.any_append, hu, b.any_inner, hb, Bool.false_or]
  have hnext := ht.skip_blanks (beginsWithVar_block (by decide)) b.allBlank_trail
  refine ⟨?_, fun g hg => ?_⟩
  · have hhit := hnext.hit_block (hother _ (any_kindTail b.kind_mem))
    have hplain := b.readBlock_kindTail endWord (by decide) (by decide)
    rw [← List.append_assoc] at hplain
    rw [hplain, List.append_assoc] at hhit
    rw [b.chars_append]
    exact hhit
  · have hhit := hnext.hit_block (hother _ (any_blanks_kind hg b))
    rw [b.readBlock_kind hg] at hhit
    simpa [varWord, Block.chars] using hhit

end Steps

/-- What the kind without a word of its own gives.  A block with the letter that ends begin with is
passed up to the keyword in its end, and the next one is read from there. -/
def readPlain (fromEnd : Bool) : List Block → List Variable
  | [] => []
  | b :: bs => (if b.hasLetter then [] else b.plainFrom fromEnd) ++ readPlain b.hasLetter bs

theorem yields_plain (bs : List Block) :
    Yields (block "VAR") (readGroup "VAR") (bs.flatMap Block.chars) (readPlain false bs) ∧
      ∀ g, AllBlank g → Yields (block "VAR") (readGroup "VAR")
        (varWord ++ (g ++ bs.flatMap Block.chars)) (readPlain true bs) := by
  induction bs with
  | nil =>
    have hp : BeginsWithVar (block "VAR") := beginsWithVar_block (by decide)
    refine ⟨.nil hp, fun g hg => Yields.pass_end hp hg (fun c hc => fails_block fun r hr => ?_)
      (.nil hp)⟩
    rw [hc, List.flatMap_nil, List.append_nil] at hr
    cases (afterKeyword?_self varWord g).symm.trans hr
    rw [List.dropWhile_eq_nil_iff.2 (forall_isOther_iff.2 (AllBlank.any_eq_false hg))]
    rfl
  | cons b bs ih =>
    obtain ⟨hstart, hend⟩ := ih
    rw [List.flatMap_cons]
    cases hletter : b.hasLetter with
    | true =>
      have hread : ∀ fromEnd, readPlain fromEnd (b :: bs) = readPlain true bs := fun _ => by
        rw [readPlain, if_pos hletter, hletter, List.nil_append]
      rw [hread, hread]
      exact yields_plain_pass hletter (hend _ b.allBlank_trail)
    | false =>
      have hread : ∀ fromEnd, readPlain fromEnd (b :: bs) =
          b.plainFrom fromEnd ++ readPlain false bs := fun _ => by
        rw [readPlain, if_neg (by simp [hletter]), hletter]
      rw [hread, hread]
      exact yields_plain_hit hletter hstart

/-! ## Any stretch that looks like a block -/

theorem beginsWithVar_looseBlock : BeginsWithVar looseBlock := by
  intro c d hd
  cases hd with | seq hvar _ =>
  exact Option.isSome_of_eq_some hvar.rest_keyword

section Loose

variable {s t : List Char} (hs : Enclosed s)

include hs

/-- The stretch ends with the first end of a block. -/
theorem prefers_looseBlock {c : Cursor} (hrest : c.rest = varWord ++ (s ++ (endWord ++ t))) :
    Prefers looseBlock c (c.past (varWord ++ (s ++ endWord)) t) := by
  have hpast : c.past (varWord ++ (s ++ endWord)) t =
      ((c.past varWord (s ++ (endWord ++ t))).past s (endWord ++ t)).past endWord t := by
    rw [Cursor.past_past, Cursor.past_past]
  have hvar : Prefers (.keyword "VAR") c (c.past varWord (s ++ (endWord ++ t))) :=
    prefers_keyword hrest (by decide)
  rw [hpast]
  refine hvar.seq (prefers_lazy_seq rfl (fun _ _ => rfl) (fun c' u v huv hv hc' => ?_)
    (prefers_keyword rfl (by decide)))
  refine fails_of_not_matches fun d hd => ?_
  have hafter := hd.rest_keyword
  rw [hc'] at hafter
  cases (hs.afterKeyword?_endWord huv hv _).symm.trans hafter

/-- No end follows, over blanks, a place within the stretch that is left without the blanks around
it. -/
theorem Enclosed.fails_blanks_end {a u v b : List Char} {c : Cursor}
    (hsplit : s = a ++ (u ++ v ++ b)) (hends : HasEnds (u ++ v)) (hv : v ≠ [])
    (hc : c.rest = v ++ (b ++ endWord)) : (Pattern.seq .blanks (.keyword "END_VAR")).Fails c := by
  refine fails_of_not_matches fun d hd => ?_
  cases hd with | seq hblanks hend =>
  obtain ⟨g, hg, -, hblank⟩ := hblanks.exists_passed (P := (isBlank · = true)) fun _ h => h
  have hend := hend.rest_keyword
  obtain ⟨w, y, rfl⟩ := (List.eq_nil_or_concat' v).resolve_left hv
  have hy : isBlank y = false := by simpa using hends.2
  rw [hc] at hg
  rcases List.append_eq_append_iff.1 hg with ⟨e, he, -⟩ | ⟨e, he, hrest⟩
  · rw [hblank y (by simp [he])] at hy
    cases hy
  · have hne : e ≠ [] := by
      rintro rfl
      rw [List.append_nil] at he
      rw [hblank y (by simp [← he])] at hy
      cases hy
    have hsuffix : s = (a ++ u ++ g) ++ (e ++ b) := by
      rw [hsplit, he]
      simp
    rw [hrest, ← List.append_assoc] at hend
    cases (hs.afterKeyword?_endWord hsuffix (by simp [hne]) endWord).symm.trans hend

theorem exists_find?_looseBody :
    ∃ m, looseBody.find? (String.ofList (varWord ++ (s ++ endWord))) = some m ∧
      m.group 1 = strip (String.ofList s) := by
  obtain ⟨a, b, ha, hb, hsplit, hnil⟩ := exists_eq_trim s
  generalize hu : Chars.trim isBlank s = u at *
  let start : Cursor := ⟨0, none, varWord ++ (a ++ (u ++ (b ++ endWord))), []⟩
  let named := start.past varWord (a ++ (u ++ (b ++ endWord)))
  let led := named.past a (u ++ (b ++ endWord))
  let body := (led.past u (b ++ endWord)).mark 1 u
  let spaced := body.past b endWord
  have hstop : (u ++ (b ++ endWord)).head?.any isBlank = false := by
    by_cases hempty : u = []
    · rw [hempty, hnil hempty]
      rfl
    · subst hu
      exact (hasEnds_trim hempty).head?_any_append _
  have h₁ : Prefers (.keyword "VAR") start named := prefers_keyword rfl (by decide)
  have h₂ : Prefers .blanks named led := prefers_star rfl ha hstop
  have h₃ : Prefers .blanks body spaced := prefers_star rfl hb rfl
  have h₄ : Prefers (.keyword "END_VAR") spaced (spaced.past endWord []) :=
    prefers_keyword (List.append_nil _).symm (by decide)
  have hmatch : Prefers looseBody start (spaced.past endWord []) := by
    refine h₁.seq (h₂.seq (prefers_group_lazy_seq rfl (fun _ _ => rfl)
      (fun c' v w hvw hw hc' => ?_) (h₃.seq h₄)))
    refine hs.fails_blanks_end (a := a) (u := v) (b := b) ?_ ?_ hw hc'
    · rw [← hvw, ← hsplit]
    · rw [← hvw, ← hu]
      refine hasEnds_trim ?_
      rw [hu, hvw]
      simp [hw]
  have htext : (String.ofList (varWord ++ (s ++ endWord))).toList =
      [] ++ (varWord ++ (a ++ (u ++ (b ++ endWord)))) := by
    rw [String.toList_ofList]
    conv_lhs => rw [hsplit]
    simp
  refine ⟨_, find?_of_prefers htext (fun _ v w hvw hw => ?_) hmatch, ?_⟩
  · cases List.append_eq_nil_iff.1 hvw.symm with | intro _ hnil => exact absurd hnil hw
  · rw [strip, String.toList_ofList, hu]
    rfl

end Loose

/-- What is read from a stretch that looks like a block. -/
def readLoose (m : Match) : List Variable :=
  match looseBody.find? (String.ofList m.text) with
  | some m => readGroup "VAR" m
  | none => []

/-- The stretches that look like blocks are the blocks. -/
theorem yields_loose (bs : List Block) :
    Yields looseBlock readLoose (bs.flatMap Block.chars) (bs.flatMap Block.plain) := by
  induction bs with
  | nil => exact .nil beginsWithVar_looseBlock
  | cons b bs ih =>
    have hlacks := Lacks.of_infix (lacks_kindTail b.kind_mem) (List.suffix_append _ _).isInfix
    have henclosed : Enclosed (kindTail b.kind ++ b.inner) := b.enclosed hlacks
    have hchars : b.chars = varWord ++ (kindTail b.kind ++ b.inner ++ endWord) ++
        b.trail.toList := by
      rw [Block.chars, toList_kind b.kind_mem]
      simp
    rw [List.flatMap_cons, List.flatMap_cons, hchars, List.append_assoc]
    refine (ih.skip_blanks beginsWithVar_looseBlock b.allBlank_trail).hit (by simp [varWord])
      fun c hrest _ => ⟨_, prefers_looseBlock henclosed
        (t := b.trail.toList ++ bs.flatMap Block.chars) (by simp [hrest]), rfl, ?_⟩
    obtain ⟨m, hm, hgroup⟩ := exists_find?_looseBody henclosed
    have hplain := b.readBlock_kindTail [] List.not_mem_nil List.not_mem_nil
    rw [List.append_nil] at hplain
    calc readLoose ⟨c.pos, varWord ++ (kindTail b.kind ++ b.inner ++ endWord), _⟩
        = readGroup "VAR" m := by rw [readLoose, hm]
      _ = b.plain := by rw [readGroup, hgroup, readBlock_strip, readBlock_strip, hplain]

end ControlLogic.Source.OpenPlc
