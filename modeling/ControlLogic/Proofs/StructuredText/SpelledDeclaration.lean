import ControlLogic.Proofs.Text.Preferred
import ControlLogic.Proofs.Text.Spacing
import ControlLogic.StructuredText.Declarations

/-!
# Spelled declarations

A declaration can be written with any blanks between its parts: `Spells` says how.  Wherever it is
written so at the beginning of a line, it is read, whatever follows it on the line:
`readDeclaration?_of_spells`.

* `prefers_end`: the blanks before an initial value are passed, except for the last one of a blank
  value.
* `fails_array_of_plain`: what stands behind the colon of a plain declaration is not the beginning
  of an array.
* `prefers_plain` and `prefers_array` follow the patterns part by part.
-/

namespace ControlLogic.StructuredText

open Text Pattern

/-! ## Spellings -/

/-- A character of the type of a plain variable. -/
def isTypeChar (c : Char) : Bool := isWordChar c || c = '[' || c = ']' || c = '.'

/-- A text that can stand for the type of a plain variable. -/
structure IsTypeName (s : String) : Prop where
  ne_empty : s ≠ ""
  isTypeChar : ∀ c ∈ s.toList, isTypeChar c = true
  not_array : ∀ t, afterKeyword? "ARRAY".toList s.toList ≠ some ('[' :: t)

/-- The ends of declarations with an initial value or without one. -/
inductive SpellsEnd : Option String → List Char → Prop where
  | plain {g : List Char} (hg : AllBlank g) : SpellsEnd none (g ++ [';'])
  | value {g v : List Char} (hg : AllBlank g) (hne : v ≠ []) (hv : ';' ∉ v) :
      SpellsEnd (some (strip (String.ofList v))) (g ++ (":=".toList ++ (v ++ [';'])))

/-- The spellings of a declaration, with any blanks between its parts. -/
inductive Spells : Declaration → List Char → Prop where
  | plain {name type : String} {initial : Option String} {g₁ g₂ e : List Char}
      (hname : IsWord name) (h₁ : AllBlank g₁) (h₂ : AllBlank g₂) (htype : IsTypeName type)
      (he : SpellsEnd initial e) :
      Spells ⟨name, type, none, initial⟩
        (name.toList ++ (g₁ ++ (":".toList ++ (g₂ ++ (type.toList ++ e)))))
  | array {name type range : String} {initial : Option String}
      {array of g₁ g₂ g₃ g₄ g₅ e : List Char} (hname : IsWord name) (h₁ : AllBlank g₁)
      (h₂ : AllBlank g₂) (harray : afterKeyword? "ARRAY".toList array = some [])
      (h₃ : AllBlank g₃) (hrange : ']' ∉ range.toList ∧ '\n' ∉ range.toList) (h₄ : AllBlank g₄)
      (hof : afterKeyword? "OF".toList of = some []) (h₅ : AllBlank g₅) (hgap : g₅ ≠ [])
      (htype : IsWord type) (he : SpellsEnd initial e) :
      Spells ⟨name, type, some range, initial⟩
        (name.toList ++ (g₁ ++ (":".toList ++ (g₂ ++ (array ++ (g₃ ++ ("[".toList ++
          (range.toList ++ ("]".toList ++ (g₄ ++ (of ++ (g₅ ++ (type.toList ++ e)))))))))))))

/-! ## What the parts begin with -/

section Heads

variable {p : Char → Bool} {g t : List Char}

theorem isBlank_of_isTypeChar {c : Char} (h : isTypeChar c = true) : isBlank c = false := by
  simp only [isTypeChar, Bool.or_eq_true, decide_eq_true_eq] at h
  rcases h with ((h | rfl) | rfl) | rfl
  · exact isBlank_of_isWordChar h
  · decide
  · decide
  · decide

/-- The end of a declaration begins with a blank, a colon or a semicolon. -/
theorem SpellsEnd.eq_append {initial : Option String} {e : List Char} (h : SpellsEnd initial e) :
    ∃ g x t, e = g ++ x :: t ∧ AllBlank g ∧ (x = ':' ∨ x = ';') := by
  cases h with
  | plain hg => exact ⟨_, ';', [], rfl, hg, .inr rfl⟩
  | value hg _ _ => exact ⟨_, ':', _, rfl, hg, .inl rfl⟩

theorem SpellsEnd.head?_any {initial : Option String} {e rest : List Char}
    (h : SpellsEnd initial e) (hp : ∀ c, p c = true → isBlank c = false) (hcolon : p ':' = false)
    (hsemicolon : p ';' = false) : (e ++ rest).head?.any p = false := by
  obtain ⟨g, x, t, rfl, hg, hx⟩ := h.eq_append
  rw [List.append_assoc]
  refine head?_any_append hp hg ?_
  rcases hx with rfl | rfl
  · simpa using hcolon
  · simpa using hsemicolon

/-- The end of a declaration is separated from what stands before it, and begins with a colon or a
semicolon, blanks aside. -/
theorem SpellsEnd.exists_cons {initial : Option String} {e : List Char} (h : SpellsEnd initial e)
    (rest : List Char) :
    ∃ sep t, e ++ rest = sep :: t ∧ Separates sep keywordLetters ∧
      ((∃ u, (sep :: t).dropWhile isBlank = ':' :: u) ∨
        ∃ u, (sep :: t).dropWhile isBlank = ';' :: u) := by
  obtain ⟨g, x, t, rfl, hg, hx⟩ := h.eq_append
  have hdrop : (g ++ x :: (t ++ rest)).dropWhile isBlank = x :: (t ++ rest) :=
    dropWhile_append_of_head? hg (by rcases hx with rfl | rfl <;> simp <;> decide)
  have hends : (∃ u, (g ++ x :: (t ++ rest)).dropWhile isBlank = ':' :: u) ∨
      ∃ u, (g ++ x :: (t ++ rest)).dropWhile isBlank = ';' :: u := by
    rw [hdrop]
    rcases hx with rfl | rfl
    · exact .inl ⟨_, rfl⟩
    · exact .inr ⟨_, rfl⟩
  rw [List.append_assoc, List.cons_append]
  cases g with
  | nil =>
    refine ⟨x, _, rfl, ?_, hends⟩
    rcases hx with rfl | rfl <;> decide
  | cons y g =>
    exact ⟨y, _, rfl, separates_of_isBlank (hg y List.mem_cons_self) (List.Subset.refl _), hends⟩

end Heads

/-! ## Part by part -/

section Parts

variable {c : Cursor} {s t : List Char}

theorem exists_prefers_group {p : Char → Bool} (n : Nat) (hrest : c.rest = s ++ t) (hne : s ≠ [])
    (hs : ∀ y ∈ s, p y = true) (ht : t.head?.any p = false) :
    ∃ d, Prefers (.group n (.plus (.one p))) c d ∧ d.rest = t ∧ d.marks = (n, s) :: c.marks :=
  ⟨_, .group hrest (prefers_plus hrest hne hs ht), rfl, rfl⟩

theorem exists_prefers_word (n : Nat) {name : String} (hname : IsWord name)
    (hrest : c.rest = name.toList ++ t) (ht : t.head?.any isWordChar = false) :
    ∃ d, Prefers (.group n .word) c d ∧ d.rest = t ∧ d.marks = (n, name.toList) :: c.marks :=
  exists_prefers_group n hrest (by simpa using hname.1) hname.2 ht

theorem exists_prefers_blanks (hrest : c.rest = s ++ t) (hs : AllBlank s)
    (ht : t.head?.any isBlank = false) :
    ∃ d, Prefers .blanks c d ∧ d.rest = t ∧ d.marks = c.marks :=
  ⟨_, prefers_star hrest hs ht, rfl, rfl⟩

theorem exists_prefers_text {u : String} (hrest : c.rest = u.toList ++ t) :
    ∃ d, Prefers (.text u) c d ∧ d.rest = t ∧ d.marks = c.marks :=
  ⟨_, prefers_text hrest, rfl, rfl⟩

theorem exists_prefers_keyword {u : String} (hrest : c.rest = s ++ t)
    (hs : afterKeyword? u.toList s = some []) :
    ∃ d, Prefers (.keyword u) c d ∧ d.rest = t ∧ d.marks = c.marks :=
  ⟨_, prefers_keyword hrest hs, rfl, rfl⟩

/-- Every declaration begins with a name, a colon and blanks around it. -/
theorem exists_prefers_name {name : String} {g₁ g₂ : List Char} (hname : IsWord name)
    (h₁ : AllBlank g₁) (h₂ : AllBlank g₂) (ht : t.head?.any isBlank = false)
    (hrest : c.rest = name.toList ++ (g₁ ++ (":".toList ++ (g₂ ++ t)))) :
    ∃ d, d.rest = t ∧ d.marks = (1, name.toList) :: c.marks ∧ ∀ a e, Prefers a d e →
      Prefers (.seq (.group 1 .word) (.seq .blanks (.seq (.text ":") (.seq .blanks a)))) c e := by
  obtain ⟨c₁, hc₁, hrest₁, hmarks₁⟩ := exists_prefers_word 1 hname hrest
    (head?_any_append (fun _ => isBlank_of_isWordChar) h₁ (by simp; decide))
  obtain ⟨c₂, hc₂, hrest₂, hmarks₂⟩ := exists_prefers_blanks hrest₁ h₁ (by simp; decide)
  obtain ⟨c₃, hc₃, hrest₃, hmarks₃⟩ := exists_prefers_text hrest₂
  obtain ⟨c₄, hc₄, hrest₄, hmarks₄⟩ := exists_prefers_blanks hrest₃ h₂ ht
  refine ⟨c₄, hrest₄, ?_, fun a e ha => hc₁.seq (hc₂.seq (hc₃.seq (hc₄.seq ha)))⟩
  rw [hmarks₄, hmarks₃, hmarks₂, hmarks₁]

end Parts

theorem trim_append {p : Char → Bool} {b : List Char} (hb : ∀ x ∈ b, p x = true) (s : List Char) :
    Chars.trim p (b ++ s) = Chars.trim p s := by
  rw [Chars.trim, Chars.trimLeft, List.dropWhile_append_of_pos hb]
  rfl

/-- A character of an initial value. -/
def isValueChar (c : Char) : Bool := !";".toList.contains c

theorem isValueChar_iff {c : Char} : isValueChar c = true ↔ c ≠ ';' := by
  simp [isValueChar]

/-- The value that stands behind blanks, up to a semicolon. -/
def valuePattern (n : Nat) : Pattern := .seq .blanks (.group n (.plus (.except ";")))

theorem fails_value {c : Cursor} {n : Nat} {t : List Char} (hrest : c.rest = ';' :: t) :
    (valuePattern n).Fails c := by
  refine fails_of_not_matches fun d hd => ?_
  cases hd with | seq hgap hvalue =>
  cases hvalue with | group hvalue =>
  cases hvalue with | seq hfirst _ =>
  cases hfirst with | one hfirst hx =>
  -- The blanks are none, since a semicolon is no blank, so the value begins with it.
  obtain ⟨s, hs, -, hblank⟩ := hgap.exists_passed (P := fun x => isBlank x = true) fun _ h => h
  rw [hrest, hfirst] at hs
  cases s with
  | nil =>
    cases hs
    exact isValueChar_iff.1 hx rfl
  | cons y s =>
    cases hs
    exact absurd (hblank ';' List.mem_cons_self) (by decide)

/-- A value is found behind its blanks; a value of blanks keeps the last of them. -/
theorem prefers_value {c : Cursor} {u t : List Char} (n : Nat) (hu : u ≠ [])
    (hrest : c.rest = u ++ ';' :: t) (hvalue : ';' ∉ u) :
    ∃ b s, u = b ++ s ∧ (∀ x ∈ b, isBlank x = true) ∧
      Prefers (valuePattern n) c ((c.past u (';' :: t)).mark n s) := by
  induction u generalizing c with
  | nil => exact absurd rfl hu
  | cons x u ih =>
    have hchars : ∀ y ∈ x :: u, isValueChar y = true := fun y hy =>
      isValueChar_iff.2 fun h => hvalue (h ▸ hy)
    have hwhole : Prefers (.group n (.plus (.except ";"))) c
        ((c.past (x :: u) (';' :: t)).mark n (x :: u)) :=
      Prefers.group hrest (prefers_plus hrest hu hchars (by simp))
    cases hx : isBlank x with
    | false =>
      refine ⟨[], x :: u, rfl, List.forall_mem_nil _, ?_⟩
      exact prefers_star_seq (fun hhead => by simp [hrest, hx] at hhead) hwhole
    | true =>
      by_cases hu : u = []
      · subst hu
        refine ⟨[], [x], rfl, List.forall_mem_nil _, ?_⟩
        exact prefers_star_seq (fun _ => ⟨x, _, hrest, fails_value rfl⟩) hwhole
      · obtain ⟨b, s, hbs, hb, hprefers⟩ := ih (c := c.past [x] (u ++ ';' :: t)) hu rfl
          fun h => hvalue (List.mem_cons_of_mem _ h)
        refine ⟨x :: b, s, by rw [hbs, List.cons_append], List.forall_mem_cons.2 ⟨hx, hb⟩, ?_⟩
        rw [Cursor.past_past] at hprefers
        exact hprefers.star_seq hrest hx

/-- A text matches only where it stands. -/
theorem fails_text_seq {u : String} {a : Pattern} {c : Cursor} {x : Char}
    (hx : u.toList.head? ≠ some x) (hne : u ≠ "") (hhead : c.rest.head? = some x) :
    (Pattern.seq (.text u) a).Fails c := by
  refine fails_of_not_matches fun d hd => ?_
  cases hd with | seq htext _ =>
  rw [htext.rest_text] at hhead
  obtain ⟨y, s, hs⟩ := List.exists_cons_of_ne_nil (l := u.toList) (by simpa using hne)
  rw [hs] at hhead hx
  exact hx hhead

/-- The end of a declaration is matched, with its value remembered. -/
theorem prefers_end (n : Nat) {c : Cursor} {initial : Option String} {e rest : List Char}
    (he : SpellsEnd initial e) (hrest : c.rest = e ++ rest) :
    ∃ (d : Cursor) (value : Option (List Char)),
      Prefers (.seq .blanks (.seq (initialValue n) (.text ";"))) c d ∧
      d.marks = (value.map fun s => (n, s)).toList ++ c.marks ∧
      value.map (strip ∘ String.ofList) = initial := by
  cases he with
  | plain hg =>
    rw [List.append_assoc] at hrest
    obtain ⟨c₁, h₁, hrest₁, hmarks₁⟩ := exists_prefers_blanks hrest hg (by simp; decide)
    have hnone : (Pattern.seq (.text ":=") (valuePattern n)).Fails c₁ :=
      fails_text_seq (x := ';') (by decide) (by decide) (by rw [hrest₁]; rfl)
    have hinitial : Prefers (initialValue n) c₁ c₁ := prefers_right hnone (prefers_empty c₁)
    obtain ⟨d, hd, -, hmarks⟩ := exists_prefers_text (u := ";") hrest₁
    exact ⟨d, none, h₁.seq (hinitial.seq hd), hmarks.trans hmarks₁, rfl⟩
  | value hg hne hv =>
    rename_i g v
    rw [List.append_assoc, List.append_assoc, List.append_assoc, List.singleton_append] at hrest
    obtain ⟨c₁, h₁, hrest₁, hmarks₁⟩ := exists_prefers_blanks hrest hg (by simp; decide)
    obtain ⟨c₂, h₂, hrest₂, hmarks₂⟩ := exists_prefers_text (u := ":=") hrest₁
    obtain ⟨b, s, hbs, hb, hvalue⟩ := prefers_value n hne hrest₂ hv
    obtain ⟨d, hd, -, hmarks⟩ := exists_prefers_text (u := ";")
      (c := (c₂.past v (';' :: rest)).mark n s) rfl
    have hinitial : Prefers (initialValue n) c₁ _ := (h₂.seq hvalue).left
    refine ⟨d, some s, h₁.seq (hinitial.seq hd), ?_, ?_⟩
    · rw [hmarks, Cursor.marks_mark, Cursor.marks_past, hmarks₂, hmarks₁]
      rfl
    · simp [strip, hbs, trim_append hb]

/-! ## Plain variables -/

/-- A match of a pattern that does without a character passes a stretch without it. -/
theorem exists_passed_without {x : Char} {p : Pattern} {c d : Cursor} (h : Matches p c d)
    (hp : p.Within (· ≠ x)) : ∃ s, c.rest = s ++ d.rest ∧ x ∉ s := by
  obtain ⟨s, hs, -, hx⟩ := h.exists_passed hp
  exact ⟨s, hs, fun hmem => hx x hmem rfl⟩

theorem within_word_ne : Pattern.word.Within (· ≠ ':') := by
  have hne : ∀ c, isWordChar c = true → c ≠ ':' := by
    rintro c hc rfl
    exact absurd hc (by decide)
  exact ⟨hne, hne⟩

theorem within_blanks_ne : Pattern.blanks.Within (· ≠ ':') := by
  rintro c hc rfl
  exact absurd hc (by decide)

/-- The declaration of an array has blanks and the keyword behind its first colon, and then blanks
and a bracket. -/
theorem exists_of_matches_array {c d : Cursor} (h : Matches arrayDeclaration c d) :
    ∃ u b r, c.rest = u ++ ':' :: (b ++ r) ∧ ':' ∉ u ∧ AllBlank b ∧
      ∃ b' t, AllBlank b' ∧ afterKeyword? "ARRAY".toList r = some (b' ++ '[' :: t) := by
  cases h with | seq hname h =>
  cases h with | seq hgap h =>
  cases h with | seq hcolon h =>
  cases h with | seq hgap' h =>
  cases h with | seq harray h =>
  cases h with | seq hgap'' h =>
  cases h with | seq hbracket h =>
  obtain ⟨a₁, h₁, hne₁⟩ := exists_passed_without hname within_word_ne
  obtain ⟨a₂, h₂, hne₂⟩ := exists_passed_without hgap within_blanks_ne
  obtain ⟨a₃, h₃, -, hblank₃⟩ := hgap'.exists_passed (P := fun x => isBlank x = true) fun _ h => h
  obtain ⟨a₅, h₅, -, hblank₅⟩ := hgap''.exists_passed (P := fun x => isBlank x = true) fun _ h => h
  have hcolon : _ = ':' :: _ := hcolon.rest_text
  obtain ⟨t, ht⟩ : ∃ t, _ = '[' :: t := ⟨_, hbracket.rest_text⟩
  have hkeyword := harray.rest_keyword
  rw [h₅, ht] at hkeyword
  refine ⟨a₁ ++ a₂, a₃, _, ?_, ?_, hblank₃, a₅, t, hblank₅, hkeyword⟩
  · rw [h₁, h₂, hcolon, ← h₃, List.append_assoc]
    rfl
  · simp [hne₁, hne₂]

/-- What stands behind the first colon and the blanks there is told by the text. -/
theorem eq_of_behind_colon {u u' g g' x x' : List Char} (hu : ':' ∉ u) (hu' : ':' ∉ u')
    (hg : AllBlank g) (hg' : AllBlank g') (hx : x.head?.any isBlank = false)
    (hx' : x'.head?.any isBlank = false) (h : u ++ ':' :: (g ++ x) = u' ++ ':' :: (g' ++ x')) :
    x = x' := by
  have hsplit := congrArg (List.dropWhile (· ≠ ':')) h
  rw [dropWhile_ne_append hu, dropWhile_ne_append hu', List.cons_inj_right] at hsplit
  have hdrop := congrArg (List.dropWhile isBlank) hsplit
  rwa [dropWhile_append_of_head? hg hx, dropWhile_append_of_head? hg' hx'] at hdrop

/-- No colon stands before that of a declaration. -/
theorem colon_not_mem_name {name : String} {g : List Char} (hname : IsWord name)
    (hg : AllBlank g) : ':' ∉ name.toList ++ g := by
  intro h
  rcases List.mem_append.1 h with h | h
  · exact absurd (hname.2 _ h) (by decide)
  · exact absurd (hg _ h) (by decide)

/-- A spelled plain declaration is not the declaration of an array: what stands behind its colon
is a type that is none. -/
theorem fails_array_of_plain {c : Cursor} {name type : String} {initial : Option String}
    {g₁ g₂ e rest : List Char} (hname : IsWord name) (h₁ : AllBlank g₁) (h₂ : AllBlank g₂)
    (htype : IsTypeName type) (he : SpellsEnd initial e)
    (hrest : c.rest = name.toList ++ (g₁ ++ (":".toList ++ (g₂ ++ (type.toList ++ (e ++ rest)))))) :
    arrayDeclaration.Fails c := by
  refine fails_of_not_matches fun d hd => ?_
  obtain ⟨u, b, r, hu, hcolon, hb, b', t, hb', harray⟩ := exists_of_matches_array hd
  have hne : type.toList ≠ [] := by simpa using htype.ne_empty
  have hblank : ∀ x ∈ type.toList, isBlank x = false := fun x hx =>
    isBlank_of_isTypeChar (htype.isTypeChar x hx)
  -- Behind the colon and the blanks both texts go on in the same way.
  have hr : r = type.toList ++ (e ++ rest) := by
    refine eq_of_behind_colon hcolon (colon_not_mem_name hname h₁) hb h₂
      (head?_isBlank_of_afterKeyword? (by decide) harray) (head?_isBlank_eq_false hblank hne) ?_
    rw [← hu, hrest, List.append_assoc]
    rfl
  rw [hr] at harray
  obtain ⟨sep, q, hq, hsep, hdrop⟩ := he.exists_cons rest
  have hsep : Separates sep "ARRAY".toList := fun x hx =>
    hsep x ((by decide : "ARRAY".toList ⊆ keywordLetters) hx)
  rw [hq, afterKeyword?_append_sep hsep] at harray
  obtain ⟨r', hr', happend⟩ := Option.map_eq_some_iff.1 harray
  have hbracket := congrArg (List.dropWhile isBlank) happend
  rw [dropWhile_append_of_head? hb' (by simp; decide)] at hbracket
  cases r' with
  | nil =>
    -- The keyword is the whole type: no bracket follows it.
    rcases hdrop with ⟨q', hdrop⟩ | ⟨q', hdrop⟩
    · rw [List.nil_append, hdrop] at hbracket
      simp at hbracket
    · rw [List.nil_append, hdrop] at hbracket
      simp at hbracket
  | cons y r' =>
    have hy : isBlank y = false :=
      hblank y ((suffix_of_afterKeyword? hr').subset List.mem_cons_self)
    rw [List.cons_append, List.dropWhile_cons_of_neg (by simp [hy])] at hbracket
    cases hbracket
    exact htype.not_array r' hr'

/-- A spelled plain declaration is matched part by part. -/
theorem prefers_plain {c : Cursor} {name type : String} {initial : Option String}
    {g₁ g₂ e rest : List Char} (hname : IsWord name) (h₁ : AllBlank g₁) (h₂ : AllBlank g₂)
    (hne : type ≠ "") (htype : ∀ x ∈ type.toList, isTypeChar x = true) (he : SpellsEnd initial e)
    (hrest : c.rest = name.toList ++ (g₁ ++ (":".toList ++ (g₂ ++ (type.toList ++ (e ++ rest)))))) :
    ∃ (d : Cursor) (value : Option (List Char)), Prefers plainDeclaration c d ∧
      d.marks = (value.map fun s => (3, s)).toList ++
        (2, type.toList) :: (1, name.toList) :: c.marks ∧
      value.map (strip ∘ String.ofList) = initial := by
  have hne : type.toList ≠ [] := by simpa using hne
  obtain ⟨c₁, hrest₁, hmarks₁, hname⟩ := exists_prefers_name hname h₁ h₂
    (head?_isBlank_eq_false (fun x hx => isBlank_of_isTypeChar (htype x hx)) hne) hrest
  obtain ⟨c₂, hc₂, hrest₂, hmarks₂⟩ := exists_prefers_group 2 hrest₁ hne htype
    (he.head?_any (fun _ => isBlank_of_isTypeChar) (by decide) (by decide))
  obtain ⟨d, value, hd, hmarks, hvalue⟩ := prefers_end 3 he hrest₂
  refine ⟨d, value, hname _ _ (hc₂.seq hd), ?_, hvalue⟩
  rw [hmarks, hmarks₂, hmarks₁]

/-! ## Arrays -/

/-- The end of the declaration of an array, from the bracket behind its range. -/
def arrayEnd : Pattern :=
  .all [.text "]", .blanks, .keyword "OF", .blanks, .group 3 .word, .blanks, initialValue 4,
    .text ";"]

theorem prefers_arrayEnd {c : Cursor} {type : String} {initial : Option String}
    {of g₄ g₅ e rest : List Char} (h₄ : AllBlank g₄)
    (hof : afterKeyword? "OF".toList of = some []) (h₅ : AllBlank g₅) (htype : IsWord type)
    (he : SpellsEnd initial e)
    (hrest : c.rest = "]".toList ++ (g₄ ++ (of ++ (g₅ ++ (type.toList ++ (e ++ rest)))))) :
    ∃ (d : Cursor) (value : Option (List Char)), Prefers arrayEnd c d ∧
      d.marks = (value.map fun s => (4, s)).toList ++ (3, type.toList) :: c.marks ∧
      value.map (strip ∘ String.ofList) = initial := by
  obtain ⟨c₁, hc₁, hrest₁, hmarks₁⟩ := exists_prefers_text hrest
  obtain ⟨c₂, hc₂, hrest₂, hmarks₂⟩ := exists_prefers_blanks hrest₁ h₄
    (head?_isBlank_eq_false (isBlank_of_afterKeyword? (by decide) hof) (by rintro rfl; cases hof))
  obtain ⟨c₃, hc₃, hrest₃, hmarks₃⟩ := exists_prefers_keyword hrest₂ hof
  obtain ⟨c₄, hc₄, hrest₄, hmarks₄⟩ := exists_prefers_blanks hrest₃ h₅
    (head?_isBlank_eq_false (fun x hx => isBlank_of_isWordChar (htype.2 x hx))
      (by simpa using htype.1))
  obtain ⟨c₅, hc₅, hrest₅, hmarks₅⟩ := exists_prefers_word 3 htype hrest₄
    (he.head?_any (fun _ => isBlank_of_isWordChar) (by decide) (by decide))
  obtain ⟨d, value, hd, hmarks, hvalue⟩ := prefers_end 4 he hrest₅
  refine ⟨d, value, hc₁.seq (hc₂.seq (hc₃.seq (hc₄.seq (hc₅.seq hd)))), ?_, hvalue⟩
  rw [hmarks, hmarks₅, hmarks₄, hmarks₃, hmarks₂, hmarks₁]

/-- A spelled declaration of an array is matched part by part.  Its range ends at the first bracket
that the end of a declaration can follow. -/
theorem prefers_array {c : Cursor} {name type range : String} {initial : Option String}
    {array of g₁ g₂ g₃ g₄ g₅ e : List Char} (rest : List Char) (hname : IsWord name)
    (h₁ : AllBlank g₁) (h₂ : AllBlank g₂) (harray : afterKeyword? "ARRAY".toList array = some [])
    (h₃ : AllBlank g₃) (hrange : '\n' ∉ range.toList)
    (hfails : ∀ (c' : Cursor) (u v : List Char), range.toList = u ++ v → v ≠ [] →
      c'.rest = v ++ ("]".toList ++ (g₄ ++ (of ++ (g₅ ++ (type.toList ++ (e ++ rest)))))) →
      arrayEnd.Fails c')
    (h₄ : AllBlank g₄) (hof : afterKeyword? "OF".toList of = some []) (h₅ : AllBlank g₅)
    (htype : IsWord type) (he : SpellsEnd initial e)
    (hrest : c.rest = name.toList ++ (g₁ ++ (":".toList ++ (g₂ ++ (array ++ (g₃ ++
      ("[".toList ++ (range.toList ++ ("]".toList ++ (g₄ ++ (of ++ (g₅ ++
        (type.toList ++ (e ++ rest)))))))))))))) :
    ∃ (d : Cursor) (value : Option (List Char)), Prefers arrayDeclaration c d ∧
      d.marks = (value.map fun s => (4, s)).toList ++
        (3, type.toList) :: (2, range.toList) :: (1, name.toList) :: c.marks ∧
      value.map (strip ∘ String.ofList) = initial := by
  obtain ⟨c₁, hrest₁, hmarks₁, hname⟩ := exists_prefers_name hname h₁ h₂
    (head?_isBlank_eq_false (isBlank_of_afterKeyword? (by decide) harray)
      (by rintro rfl; cases harray)) hrest
  obtain ⟨c₂, hc₂, hrest₂, hmarks₂⟩ := exists_prefers_keyword hrest₁ harray
  obtain ⟨c₃, hc₃, hrest₃, hmarks₃⟩ := exists_prefers_blanks hrest₂ h₃ (by simp; decide)
  obtain ⟨c₄, hc₄, hrest₄, hmarks₄⟩ := exists_prefers_text hrest₃
  have hinLine : ∀ y ∈ range.toList, (y != '\n') = true := fun y hy => by
    rw [bne_iff_ne]
    rintro rfl
    exact hrange hy
  obtain ⟨d, value, hd, hmarks, hvalue⟩ := prefers_arrayEnd h₄ hof h₅ htype he
    (c := (c₄.past range.toList _).mark 2 range.toList) rfl
  have hlazy := prefers_group_lazy_seq hrest₄ hinLine hfails hd
  refine ⟨d, value, hname _ _ (hc₂.seq (hc₃.seq (hc₄.seq hlazy))), ?_, hvalue⟩
  rw [hmarks, Cursor.marks_mark, Cursor.marks_past, hmarks₄, hmarks₃, hmarks₂, hmarks₁]

/-- A spelled declaration is read, whatever follows it on its line. -/
theorem readDeclaration?_of_spells {d : Declaration} {s : List Char} (h : Spells d s)
    (rest : List Char) : readDeclaration? (String.ofList (s ++ rest)) = some d := by
  cases h with
  | plain hname h₁ h₂ htype he =>
    rename_i name type initial g₁ g₂ e
    have hrest : (name.toList ++ (g₁ ++ (":".toList ++ (g₂ ++ (type.toList ++ e))))) ++ rest =
        name.toList ++ (g₁ ++ (":".toList ++ (g₂ ++ (type.toList ++ (e ++ rest))))) := by
      simp only [List.append_assoc]
    rw [hrest]
    obtain ⟨d, value, hd, hmarks, hvalue⟩ := prefers_plain (c := ⟨0, none, _, []⟩) hname h₁ h₂
      htype.ne_empty htype.isTypeChar he rfl
    rw [readDeclaration?, matchStart?, String.toList_ofList,
      matchAt, fails_array_of_plain hname h₁ h₂ htype he rfl, matchStart?, String.toList_ofList,
      matchAt_of_prefers hd, hmarks, ← hvalue]
    cases value <;> simp [Match.group, Match.group?]
  | array hname h₁ h₂ harray h₃ hrange h₄ hof h₅ hgap htype he =>
    rename_i name type range initial array of g₁ g₂ g₃ g₄ g₅ e
    -- The range holds no bracket, so no end of a declaration begins in it.
    have hfails : ∀ (c' : Cursor) (u v : List Char), range.toList = u ++ v → v ≠ [] →
        c'.rest = v ++ ("]".toList ++ (g₄ ++ (of ++ (g₅ ++ (type.toList ++ (e ++ rest)))))) →
        arrayEnd.Fails c' := by
      intro c' u v huv hv hrest
      obtain ⟨y, v, rfl⟩ := List.exists_cons_of_ne_nil hv
      have hy : y ∈ range.toList := huv ▸ by simp
      refine fails_text_seq (x := y) ?_ (by decide) (by rw [hrest]; rfl)
      intro h
      cases h
      exact hrange.1 hy
    obtain ⟨d, value, hd, hmarks, hvalue⟩ := prefers_array (c := ⟨0, none, _, []⟩) rest
      hname h₁ h₂ harray h₃ hrange.2 hfails h₄ hof h₅ htype he rfl
    simp only [List.append_assoc]
    rw [readDeclaration?, matchStart?, String.toList_ofList, matchAt_of_prefers hd, hmarks,
      ← hvalue]
    cases value <;> simp [Match.group, Match.group?]

end ControlLogic.StructuredText
