import ControlLogic.Proofs.Text.Keyword
import ControlLogic.Text.Blank
import ControlLogic.Text.Word

/-!
# Blanks between words

* `isBlank_of_isWordChar`: no character of a word is a blank.
* `separates_of_isBlank`: no blank is a letter of a keyword, so blanks can stand before and behind
  a keyword and keep it apart.
* `Passes`: a search for a keyword goes on behind a text.  `passes_of_lacks` says when it does:
  the text lacks the keyword, and is `Apart` from what follows.
* `startsWithWord_append`: what is apart from a text does not change the word it begins with.
* `trim_between`: the blanks around a text are dropped, and no others.
-/

namespace ControlLogic.Text

/-- Whether a text is a word of letters, digits and underscores. -/
def IsWord (s : String) : Prop :=
  s ≠ "" ∧ ∀ c ∈ s.toList, isWordChar c = true

instance (s : String) : Decidable (IsWord s) :=
  have := List.decidableBAll (fun c => isWordChar c = true) s.toList
  inferInstanceAs (Decidable (s ≠ "" ∧ ∀ c ∈ s.toList, isWordChar c = true))

theorem IsWord.toList_ne_nil {s : String} (h : IsWord s) : s.toList ≠ [] :=
  fun hnil => h.1 (String.toList_inj.1 hnil)

/-- The codes of the blanks. -/
def blankCodes : List Nat :=
  List.range' 9 5 ++ List.range' 28 5 ++ List.range' 8192 11 ++
    [133, 160, 5760, 8232, 8233, 8239, 8287, 12288]

theorem toNat_mem_blankCodes {c : Char} (h : isBlank c = true) : c.toNat ∈ blankCodes := by
  simp only [isBlank, Bool.or_eq_true, Bool.and_eq_true, decide_eq_true_eq, beq_iff_eq] at h
  simp only [blankCodes, List.mem_append, List.mem_range'_1, List.mem_cons, List.not_mem_nil,
    or_false]
  omega

/-- What holds of the character of every code holds of every blank. -/
theorem of_forall_blankCodes {P : Char → Prop} (h : ∀ n ∈ blankCodes, P (Char.ofNat n)) {c : Char}
    (hc : isBlank c = true) : P c := by
  have hcode := h _ (toNat_mem_blankCodes hc)
  rwa [Char.ofNat_toNat] at hcode

/-- A character of a word is no blank. -/
theorem isBlank_of_isWordChar {c : Char} (h : isWordChar c = true) : isBlank c = false := by
  have hcodes : ∀ n ∈ blankCodes, isWordChar (Char.ofNat n) = false := by decide +kernel
  rw [Bool.eq_false_iff]
  intro hblank
  rw [of_forall_blankCodes (P := fun c => isWordChar c = false) hcodes hblank] at h
  cases h

/-- The characters are blanks. -/
def AllBlank (s : List Char) : Prop :=
  ∀ c ∈ s, isBlank c = true

instance (s : List Char) : Decidable (AllBlank s) :=
  List.decidableBAll (fun c => isBlank c = true) s

/-- The characters of the keywords of sections and declarations. -/
def keywordLetters : List Char := "END_VARYOF".toList

/-- A blank is no letter of a keyword. -/
theorem separates_of_isBlank {c : Char} (hc : isBlank c = true) {k : List Char}
    (hk : k ⊆ keywordLetters) : Separates c k := by
  have hcodes : ∀ n ∈ blankCodes, Separates (Char.ofNat n) keywordLetters := by decide +kernel
  have hseparates := of_forall_blankCodes (P := fun c => Separates c keywordLetters) hcodes hc
  exact fun x hx => hseparates x (hk hx)

section Heads

variable {p : Char → Bool} {g t : List Char}

/-- Blanks before a text do not begin with a character of a class without blanks. -/
theorem head?_any_append (hp : ∀ c, p c = true → isBlank c = false) (hg : AllBlank g)
    (ht : t.head?.any p = false) : (g ++ t).head?.any p = false := by
  cases g with
  | nil => exact ht
  | cons c g =>
    have hblank : isBlank c = true := hg c List.mem_cons_self
    have hc : p c = false := by
      rw [Bool.eq_false_iff]
      intro h
      rw [hp c h] at hblank
      cases hblank
    simpa using hc

/-- A text of characters that are no blanks begins with none. -/
theorem head?_isBlank_eq_false {s : List Char} (hs : ∀ c ∈ s, isBlank c = false) (hne : s ≠ []) :
    (s ++ t).head?.any isBlank = false := by
  obtain ⟨c, s, rfl⟩ := List.exists_cons_of_ne_nil hne
  simpa using hs c List.mem_cons_self

theorem dropWhile_append_of_head? {s : List Char} (hs : ∀ c ∈ s, p c = true)
    (ht : t.head?.any p = false) : (s ++ t).dropWhile p = t := by
  rw [List.dropWhile_append_of_pos hs]
  cases t with
  | nil => rfl
  | cons c t => exact List.dropWhile_cons_of_neg (by simpa using ht)

theorem dropWhile_ne_append {x : Char} {u : List Char} (hu : x ∉ u) (v : List Char) :
    (u ++ x :: v).dropWhile (· ≠ x) = x :: v := by
  have hpos : ∀ y ∈ u, decide (y ≠ x) = true := fun y hy => by
    rw [decide_eq_true_eq]
    rintro rfl
    exact hu hy
  exact dropWhile_append_of_head? hpos (by simp)

theorem isBlank_of_sameLetter {x c : Char} (hx : x ∈ keywordLetters)
    (h : sameLetter x c = true) : isBlank c = false := by
  rw [Bool.eq_false_iff]
  intro hblank
  rw [separates_of_isBlank hblank (List.Subset.refl _) x hx] at h
  cases h

theorem isBlank_of_afterKeyword? {k s : List Char} (hk : k ⊆ keywordLetters)
    (h : afterKeyword? k s = some []) : ∀ c ∈ s, isBlank c = false := by
  intro c hc
  obtain ⟨x, hx, hsame⟩ := exists_sameLetter_of_afterKeyword? h c hc
  exact isBlank_of_sameLetter (hk hx) hsame

theorem head?_isBlank_of_afterKeyword? {x : Char} {k s r : List Char} (hx : x ∈ keywordLetters)
    (h : afterKeyword? (x :: k) s = some r) : s.head?.any isBlank = false := by
  obtain ⟨c, t, rfl, hsame⟩ := exists_cons_of_afterKeyword? h
  simpa using isBlank_of_sameLetter hx hsame

end Heads

/-! ## Passing by a keyword -/

/-- Whether a character stands between names: a blank or a semicolon. -/
def isSeparator (x : Char) : Bool := isBlank x || x = ';'

theorem separates_of_isSeparator {x : Char} (hx : isSeparator x = true) {k : List Char}
    (hk : k ⊆ keywordLetters) : Separates x k := by
  rw [isSeparator, Bool.or_eq_true, decide_eq_true_eq] at hx
  rcases hx with hx | rfl
  · exact separates_of_isBlank hx hk
  · have hsemicolon : Separates ';' keywordLetters := by decide
    exact fun y hy => hsemicolon y (hk hy)

theorem isWordChar_of_isSeparator {x : Char} (hx : isSeparator x = true) :
    isWordChar x = false := by
  rw [Bool.eq_false_iff]
  intro hword
  rw [isSeparator, isBlank_of_isWordChar hword, Bool.false_or, decide_eq_true_eq] at hx
  rw [hx] at hword
  exact absurd hword (by decide)

/-- Two texts are apart if a separator stands on either side of the place where they meet, or if
the second is empty. -/
def Apart (s t : List Char) : Prop :=
  (∀ x ∈ t.head?, isSeparator x = true) ∨ ∃ x ∈ s.getLast?, isSeparator x = true

section Passes

variable {k s t u : List Char}

/-- The search for a keyword passes by the text before another one. -/
def Passes (k s t : List Char) : Prop :=
  breakKeyword? k (s ++ t) = (breakKeyword? k t).map fun r => (s ++ r.1, r.2)

theorem passes_nil (k t : List Char) : Passes k [] t := by
  simp [Passes]

theorem Passes.append (hs : Passes k s (u ++ t)) (hu : Passes k u t) : Passes k (s ++ u) t := by
  rw [Passes] at hs hu ⊢
  rw [List.append_assoc, hs, hu, Option.map_map]
  simp [Function.comp_def]

/-- A character that is no letter of the keyword is passed by. -/
theorem passes_singleton {sep : Char} (hk : k ≠ []) (hsep : Separates sep k) (t : List Char) :
    Passes k [sep] t := by
  have hempty : Lacks k [] := by
    obtain ⟨x, k, rfl⟩ := List.exists_cons_of_ne_nil hk
    rfl
  exact breakKeyword?_of_lacks hk hsep hempty

theorem passes_of_allBlank (hk : k ≠ []) (hletters : k ⊆ keywordLetters) (hs : AllBlank s)
    (t : List Char) : Passes k s t := by
  induction s with
  | nil => exact passes_nil k t
  | cons x s ih =>
    obtain ⟨hx, hs⟩ := List.forall_mem_cons.1 hs
    exact (passes_singleton hk (separates_of_isBlank hx hletters) (s ++ t)).append (ih hs)

/-- A text that lacks the keyword is passed by if it is apart from the next. -/
theorem passes_of_lacks (hk : k ≠ []) (hletters : k ⊆ keywordLetters) (hs : Lacks k s)
    (h : Apart s t) : Passes k s t := by
  rcases h with ht | ⟨x, hx, hsep⟩
  · cases t with
    | nil =>
      obtain ⟨x, k, rfl⟩ := List.exists_cons_of_ne_nil hk
      rw [Passes, List.append_nil, hs]
      rfl
    | cons x t =>
      have hsep : Separates x k := separates_of_isSeparator (ht x rfl) hletters
      have hx := passes_singleton hk hsep t
      rw [Passes, List.singleton_append] at hx
      rw [Passes, breakKeyword?_of_lacks hk hsep hs, hx, Option.map_map]
      rfl
  · obtain ⟨s, rfl⟩ := List.getLast?_eq_some_iff.1 hx
    have hsep : Separates x k := separates_of_isSeparator hsep hletters
    have hs := ((lacks_append_sep hk hsep).1 hs).1
    rw [Passes, List.append_assoc, List.singleton_append, breakKeyword?_of_lacks hk hsep hs]
    simp

/-- A keyword that is spelled at the beginning is found there. -/
theorem breakKeyword?_spelled (hk : k ≠ []) (hs : afterKeyword? k s = some []) (t : List Char) :
    breakKeyword? k (s ++ t) = some ([], t) := by
  have hafter := afterKeyword?_append hs t
  rw [List.nil_append] at hafter
  cases hst : s ++ t with
  | nil =>
    obtain ⟨x, k, rfl⟩ := List.exists_cons_of_ne_nil hk
    rw [hst] at hafter
    cases hafter
  | cons c r =>
    rw [hst] at hafter
    rw [breakKeyword?, hafter]

end Passes

/-- Whether a text begins with a word is told by the text alone if the next is apart from it. -/
theorem startsWithWord_append {k s t : String} (hk : k.toList ⊆ keywordLetters)
    (h : Apart s.toList t.toList) : startsWithWord k (s ++ t) = startsWithWord k s := by
  rw [startsWithWord, startsWithWord, String.toList_append]
  rcases h with ht | ⟨x, hx, hsep⟩
  · cases ht' : t.toList with
    | nil => rw [List.append_nil]
    | cons x t =>
      rw [ht'] at ht
      have hx : isSeparator x = true := ht x rfl
      rw [afterKeyword?_append_sep (separates_of_isSeparator hx hk)]
      cases afterKeyword? k.toList s.toList with
      | none => rfl
      | some r =>
        cases r with
        | nil => simp [isWordChar_of_isSeparator hx]
        | cons y r => rfl
  · obtain ⟨s', hs'⟩ := List.getLast?_eq_some_iff.1 hx
    have hseparates := separates_of_isSeparator hsep hk
    rw [hs', List.append_assoc, List.singleton_append, afterKeyword?_append_sep hseparates,
      afterKeyword?_append_sep hseparates]
    cases afterKeyword? k.toList s' with
    | none => rfl
    | some r => cases r <;> rfl

/-- A text that neither begins nor ends with a blank. -/
def HasEnds (s : List Char) : Prop :=
  (∃ x ∈ s.head?, isBlank x = false) ∧ ∃ x ∈ s.getLast?, isBlank x = false

instance (s : List Char) : Decidable (HasEnds s) :=
  have (o : Option Char) : Decidable (∃ x ∈ o, isBlank x = false) := Option.decidableExistsMem o
  inferInstanceAs (Decidable ((∃ x ∈ s.head?, isBlank x = false) ∧ _))

theorem HasEnds.ne_nil {s : List Char} (h : HasEnds s) : s ≠ [] := by
  obtain ⟨⟨x, hx, -⟩, -⟩ := h
  rintro rfl
  cases hx

theorem HasEnds.head?_any_append {s : List Char} (h : HasEnds s) (t : List Char) :
    (s ++ t).head?.any isBlank = false := by
  obtain ⟨⟨x, hx, hxblank⟩, -⟩ := h
  rw [List.head?_append, Option.mem_def.1 hx]
  exact hxblank

/-- A text without blanks has ends. -/
theorem hasEnds_of_forall_not {s : List Char} (hne : s ≠ []) (h : ∀ c ∈ s, isBlank c = false) :
    HasEnds s :=
  ⟨⟨s.head hne, List.head?_eq_some_head hne, h _ (List.head_mem hne)⟩,
    s.getLast hne, List.getLast?_eq_some_getLast hne, h _ (List.getLast_mem hne)⟩

theorem IsWord.hasEnds {s : String} (h : IsWord s) : HasEnds s.toList :=
  hasEnds_of_forall_not h.toList_ne_nil fun c hc => isBlank_of_isWordChar (h.2 c hc)

/-- A text begins with its first part and ends with its last. -/
theorem HasEnds.append {s t : List Char} (hs : HasEnds s) (ht : HasEnds t) (g : List Char) :
    HasEnds (s ++ (g ++ t)) := by
  obtain ⟨⟨x, hx, hxblank⟩, -⟩ := hs
  obtain ⟨-, y, hy, hyblank⟩ := ht
  refine ⟨⟨x, ?_, hxblank⟩, y, ?_, hyblank⟩
  · rw [List.head?_append, Option.mem_def.1 hx]
    rfl
  · rw [List.getLast?_append, List.getLast?_append, Option.mem_def.1 hy]
    rfl

/-- Blanks around a text are dropped. -/
theorem trim_between {a s b : List Char} (ha : AllBlank a) (hs : HasEnds s) (hb : AllBlank b) :
    Chars.trim isBlank (a ++ (s ++ b)) = s := by
  have hleft := hs.head?_any_append b
  obtain ⟨-, y, hy, hyblank⟩ := hs
  have hright : s.reverse.head?.any isBlank = false := by
    rw [List.head?_reverse, Option.mem_def.1 hy]
    exact hyblank
  have hb' : AllBlank b.reverse := fun c hc => hb c (List.mem_reverse.1 hc)
  rw [Chars.trim, Chars.trimLeft, dropWhile_append_of_head? ha hleft, Chars.trimRight,
    List.reverse_append, dropWhile_append_of_head? hb' hright, List.reverse_reverse]

/-- What is left of a text without blanks around it has ends, or is nothing. -/
theorem hasEnds_trim {s : List Char} (h : Chars.trim isBlank s ≠ []) :
    HasEnds (Chars.trim isBlank s) := by
  have hdrop : ∀ l : List Char, l.dropWhile isBlank ≠ [] →
      ∃ x ∈ (l.dropWhile isBlank).head?, isBlank x = false := by
    intro l hl
    have hhead := List.head?_dropWhile_not isBlank l
    obtain ⟨x, t, hx⟩ := List.exists_cons_of_ne_nil hl
    rw [hx] at hhead
    exact ⟨x, by rw [hx]; rfl, by simpa using hhead⟩
  have hleft : Chars.trimLeft isBlank s ≠ [] := fun hnil => h (by rw [Chars.trim, hnil]; rfl)
  have hright : (Chars.trimLeft isBlank s).reverse.dropWhile isBlank ≠ [] := by
    simpa [Chars.trim, Chars.trimRight] using h
  constructor
  · obtain ⟨x, hx, hxblank⟩ := hdrop s hleft
    refine ⟨x, ?_, hxblank⟩
    obtain ⟨t, ht⟩ := Chars.trimRight_isPrefix isBlank (Chars.trimLeft isBlank s)
    obtain ⟨z, u, hz⟩ := List.exists_cons_of_ne_nil h
    rw [Chars.trim] at hz
    rw [← Chars.trimLeft, ← ht, hz] at hx
    rw [Chars.trim, hz]
    exact hx
  · obtain ⟨y, hy, hyblank⟩ := hdrop _ hright
    exact ⟨y, by rwa [Chars.trim, Chars.trimRight, List.getLast?_reverse], hyblank⟩

/-- A text is what is left without the blanks around it and these blanks.  Blanks alone all stand
before it. -/
theorem exists_eq_trim (s : List Char) : ∃ a b, AllBlank a ∧ AllBlank b ∧
    s = a ++ (Chars.trim isBlank s ++ b) ∧ (Chars.trim isBlank s = [] → b = []) := by
  have hleft : s = s.takeWhile isBlank ++ Chars.trimLeft isBlank s :=
    List.takeWhile_append_dropWhile.symm
  have hright : Chars.trimLeft isBlank s = Chars.trim isBlank s ++
      ((Chars.trimLeft isBlank s).reverse.takeWhile isBlank).reverse := by
    rw [Chars.trim, Chars.trimRight, ← List.reverse_append, List.takeWhile_append_dropWhile,
      List.reverse_reverse]
  have hblank : ∀ l : List Char, AllBlank (l.takeWhile isBlank) := fun l c hc =>
    List.all_eq_true.1 List.all_takeWhile c hc
  refine ⟨s.takeWhile isBlank, _, hblank s, fun c hc => hblank _ c (List.mem_reverse.1 hc),
    by rw [← hright]; exact hleft, fun hnil => ?_⟩
  -- what does not begin with a blank is not made of blanks
  rw [hnil, List.nil_append] at hright
  have hhead := List.head?_dropWhile_not isBlank s
  cases hdrop : Chars.trimLeft isBlank s with
  | nil => rfl
  | cons x t =>
    have hx : isBlank x = true := by
      rw [hdrop] at hright
      have hmem : x ∈ ((x :: t).reverse.takeWhile isBlank).reverse := by
        rw [← hright]
        exact List.mem_cons_self
      exact hblank _ x (List.mem_reverse.1 hmem)
    rw [Chars.trimLeft] at hdrop
    rw [hdrop] at hhead
    simp [hx] at hhead

/-- A text without blanks around it stays as it is. -/
theorem strip_of_hasEnds {s : String} (h : HasEnds s.toList) : strip s = s := by
  have htrim := trim_between (a := []) (b := []) (by decide) h (by decide)
  rw [List.nil_append, List.append_nil] at htrim
  rw [strip, htrim, String.ofList_toList]

theorem strip_strip (s : String) : strip (strip s) = strip s := by
  by_cases h : Chars.trim isBlank s.toList = []
  · rw [strip, strip, String.toList_ofList, h]
    rfl
  · refine strip_of_hasEnds ?_
    rw [strip, String.toList_ofList]
    exact hasEnds_trim h

end ControlLogic.Text
