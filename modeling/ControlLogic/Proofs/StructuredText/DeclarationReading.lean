import ControlLogic.Proofs.StructuredText.SpelledDeclaration

/-!
# What is read as a declaration

`Spells` gives spellings that are read.  This file says exactly what is read, for any line: what a
pattern matches is described by relations between texts, and what these describe is what the pattern
prefers.

* `BeginsArray` and `EndsArray` describe the declaration of an array up to its range and from its
  range on, and `IsPlain` that of a plain variable.  A range is as short as it can be: `IsRange`.
* `exists_of_readDeclaration?`: every declaration that is read comes from such a line.
* `readDeclaration?_of_array` and `readDeclaration?_of_plain`: from such a line it is read.

So a declaration can be read, written in one way and read again (`readDeclaration?_rewritten`).  The
range of an array may hold brackets and semicolons; `CanEnd.change` says that it ends where it did,
whatever is written behind it.  The type of a plain variable may look like an array; then it did so
before (`IsPlain.isArray_of_rewritten`).
-/

namespace ControlLogic.StructuredText

open Text Pattern

/-! ## Lines -/

/-- The line begins with a name and the word for an array, and `x` stands behind the bracket. -/
inductive BeginsArray : String → List Char → List Char → Prop where
  | mk {name : String} {g₁ g₂ array g₃ : List Char} (hname : IsWord name) (h₁ : AllBlank g₁)
      (h₂ : AllBlank g₂) (harray : afterKeyword? "ARRAY".toList array = some [])
      (h₃ : AllBlank g₃) (x : List Char) :
      BeginsArray name (name.toList ++ (g₁ ++ (":".toList ++ (g₂ ++ (array ++ (g₃ ++
        ("[".toList ++ x))))))) x

/-- The text begins with the bracket behind a range, the type of the elements and the end of the
declaration. -/
inductive EndsArray : String → Option String → List Char → Prop where
  | mk {type : String} {initial : Option String} {g₄ of g₅ e : List Char} (h₄ : AllBlank g₄)
      (hof : afterKeyword? "OF".toList of = some []) (h₅ : AllBlank g₅) (htype : IsWord type)
      (he : SpellsEnd initial e) (rest : List Char) :
      EndsArray type initial ("]".toList ++ (g₄ ++ (of ++ (g₅ ++ (type.toList ++ (e ++ rest))))))

theorem BeginsArray.isWord {name : String} {s x : List Char} (h : BeginsArray name s x) :
    IsWord name := by
  cases h with | mk hname => exact hname

theorem EndsArray.isWord {type : String} {initial : Option String} {s : List Char}
    (h : EndsArray type initial s) : IsWord type := by
  cases h with | mk h₄ hof h₅ htype => exact htype

/-- The declaration of an array can end here. -/
def CanEnd (s : List Char) : Prop := ∃ type initial, EndsArray type initial s

/-- The range `r` with `t` behind it: the declaration does not end before. -/
structure IsRange (r t : List Char) : Prop where
  inLine : '\n' ∉ r
  first : ∀ u v, r = u ++ v → v ≠ [] → ¬ CanEnd (v ++ t)

/-- The line begins with the declaration of an array. -/
def IsArray (s : List Char) : Prop :=
  ∃ name r t, BeginsArray name s (r ++ t) ∧ '\n' ∉ r ∧ CanEnd t

/-- The line begins with the declaration of a plain variable, if it is not that of an array. -/
inductive IsPlain : Declaration → List Char → Prop where
  | mk {name type : String} {initial : Option String} {g₁ g₂ e : List Char} (hname : IsWord name)
      (h₁ : AllBlank g₁) (h₂ : AllBlank g₂) (hne : type ≠ "")
      (htype : ∀ x ∈ type.toList, isTypeChar x = true) (he : SpellsEnd initial e)
      (rest : List Char) :
      IsPlain ⟨name, type, none, initial⟩
        (name.toList ++ (g₁ ++ (":".toList ++ (g₂ ++ (type.toList ++ (e ++ rest))))))

/-! ## What the patterns match -/

section Matched

variable {c d : Cursor}

theorem exists_blanks_of_matches (h : Matches .blanks c d) :
    ∃ g, c.rest = g ++ d.rest ∧ AllBlank g := by
  obtain ⟨g, hg, -, hblank⟩ := h.exists_passed (P := fun x => isBlank x = true) fun _ h => h
  exact ⟨g, hg, hblank⟩

theorem exists_of_matches_plus {n : Nat} {p : Char → Bool}
    (h : Matches (.group n (.plus (.one p))) c d) :
    ∃ s, c.rest = s ++ d.rest ∧ s ≠ [] ∧ ∀ x ∈ s, p x = true := by
  obtain ⟨s, hs, -, hp⟩ := h.exists_passed (P := fun x => p x = true) ⟨fun _ h => h, fun _ h => h⟩
  refine ⟨s, hs, ?_, hp⟩
  cases h with | group h =>
  cases h with | seq hfirst hothers =>
  cases hfirst with | one hrest _ =>
  obtain ⟨u, hu, -⟩ := hothers.exists_passed (within_true _)
  rintro rfl
  have hlength := congrArg List.length (hrest.symm.trans hs)
  rw [List.nil_append, List.length_cons] at hlength
  have hshorter := congrArg List.length hu
  rw [List.length_append] at hshorter
  simp only at hlength hshorter
  omega

theorem exists_word_of_matches {n : Nat} (h : Matches (.group n .word) c d) :
    ∃ name, IsWord name ∧ c.rest = name.toList ++ d.rest := by
  obtain ⟨s, hs, hne, hword⟩ := exists_of_matches_plus h
  refine ⟨String.ofList s, ⟨?_, ?_⟩, by rw [String.toList_ofList, hs]⟩
  · simpa [← String.toList_inj] using hne
  · rwa [String.toList_ofList]

/-- The letters of a keyword stand before what follows it. -/
theorem exists_append_of_afterKeyword? {k s r : List Char} (h : afterKeyword? k s = some r) :
    ∃ u, s = u ++ r ∧ afterKeyword? k u = some [] := by
  fun_induction afterKeyword? k s with
  | case1 s =>
    cases h
    exact ⟨[], rfl, rfl⟩
  | case2 => cases h
  | case3 x k y s hx ih =>
    obtain ⟨u, rfl, hu⟩ := ih h
    exact ⟨y :: u, rfl, by rw [afterKeyword?, if_pos hx, hu]⟩
  | case4 => cases h

theorem exists_keyword_of_matches {u : String} (h : Matches (.keyword u) c d) :
    ∃ s, c.rest = s ++ d.rest ∧ afterKeyword? u.toList s = some [] :=
  exists_append_of_afterKeyword? h.rest_keyword

theorem exists_spellsEnd_of_matches {n : Nat}
    (h : Matches (.seq .blanks (.seq (initialValue n) (.text ";"))) c d) :
    ∃ initial e, SpellsEnd initial e ∧ c.rest = e ++ d.rest := by
  cases h with | seq hgap h =>
  cases h with | seq hvalue hstop =>
  obtain ⟨g, hg, hblank⟩ := exists_blanks_of_matches hgap
  have hstop := hstop.rest_text
  cases hvalue with
  | left hvalue =>
    cases hvalue with | seq hsign hvalue =>
    cases hvalue with | seq hgap' hvalue =>
    obtain ⟨g', hg', hblank'⟩ := exists_blanks_of_matches hgap'
    obtain ⟨v, hv, hne, hchars⟩ := exists_of_matches_plus hvalue
    have hsemicolon : ';' ∉ g' ++ v := by
      intro hmem
      rcases List.mem_append.1 hmem with hmem | hmem
      · exact absurd (hblank' _ hmem) (by decide)
      · exact absurd (hchars _ hmem) (by decide)
    refine ⟨_, _, .value hblank (by simp [hne]) hsemicolon, ?_⟩
    rw [hg, hsign.rest_text, hg', hv, hstop]
    simp only [List.append_assoc]
    rfl
  | right hvalue =>
    cases hvalue
    exact ⟨none, _, .plain hblank, by rw [hg, hstop, List.append_assoc]; rfl⟩

theorem canEnd_of_matches (h : Matches arrayEnd c d) : CanEnd c.rest := by
  cases h with | seq hbracket h =>
  cases h with | seq hgap h =>
  cases h with | seq hof h =>
  cases h with | seq hgap' h =>
  cases h with | seq htype h =>
  obtain ⟨g₄, hg₄, h₄⟩ := exists_blanks_of_matches hgap
  obtain ⟨of, hof, hkeyword⟩ := exists_keyword_of_matches hof
  obtain ⟨g₅, hg₅, h₅⟩ := exists_blanks_of_matches hgap'
  obtain ⟨type, hword, htype⟩ := exists_word_of_matches htype
  obtain ⟨initial, e, he, hend⟩ := exists_spellsEnd_of_matches h
  refine ⟨type, initial, ?_⟩
  rw [hbracket.rest_text, hg₄, hof, hg₅, htype, hend]
  exact .mk h₄ hkeyword h₅ hword he _

theorem isArray_of_matches (h : Matches arrayDeclaration c d) : IsArray c.rest := by
  cases h with | seq hname h =>
  cases h with | seq hgap h =>
  cases h with | seq hcolon h =>
  cases h with | seq hgap' h =>
  cases h with | seq harray h =>
  cases h with | seq hgap'' h =>
  cases h with | seq hbracket h =>
  cases h with | seq hrange h =>
  obtain ⟨name, hword, hname⟩ := exists_word_of_matches hname
  obtain ⟨g₁, hg₁, h₁⟩ := exists_blanks_of_matches hgap
  obtain ⟨g₂, hg₂, h₂⟩ := exists_blanks_of_matches hgap'
  obtain ⟨array, harray, hkeyword⟩ := exists_keyword_of_matches harray
  obtain ⟨g₃, hg₃, h₃⟩ := exists_blanks_of_matches hgap''
  obtain ⟨r, hr, -, hline⟩ := hrange.exists_passed (P := fun x => (x != '\n') = true) fun _ h => h
  refine ⟨name, r, _, ?_, fun hmem => absurd (hline _ hmem) (by decide), canEnd_of_matches h⟩
  rw [hname, hg₁, hcolon.rest_text, hg₂, harray, hg₃, hbracket.rest_text, hr]
  exact .mk hword h₁ h₂ hkeyword h₃ _

theorem isPlain_of_matches (h : Matches plainDeclaration c d) :
    ∃ declaration, IsPlain declaration c.rest := by
  cases h with | seq hname h =>
  cases h with | seq hgap h =>
  cases h with | seq hcolon h =>
  cases h with | seq hgap' h =>
  cases h with | seq htype h =>
  obtain ⟨name, hword, hname⟩ := exists_word_of_matches hname
  obtain ⟨g₁, hg₁, h₁⟩ := exists_blanks_of_matches hgap
  obtain ⟨g₂, hg₂, h₂⟩ := exists_blanks_of_matches hgap'
  obtain ⟨type, htype, hne, hchars⟩ := exists_of_matches_plus htype
  obtain ⟨initial, e, he, hend⟩ := exists_spellsEnd_of_matches h
  obtain ⟨type, rfl⟩ : ∃ s : String, s.toList = type := ⟨String.ofList type, String.toList_ofList⟩
  refine ⟨⟨name, type, none, initial⟩, ?_⟩
  rw [hname, hg₁, hcolon.rest_text, hg₂, htype, hend]
  exact .mk hword h₁ h₂ (by simpa using hne) hchars he _

end Matched

/-! ## What is preferred -/

theorem fails_of_not_canEnd {c : Cursor} (h : ¬ CanEnd c.rest) : arrayEnd.Fails c :=
  fails_of_not_matches fun _ hd => h (canEnd_of_matches hd)

/-- The range of an array goes up to the first place where the declaration can end. -/
theorem exists_isRange {r t : List Char} (hline : '\n' ∉ r) (ht : CanEnd t) :
    ∃ r' t', r' ++ t' = r ++ t ∧ IsRange r' t' ∧ CanEnd t' := by
  induction hn : r.length using Nat.strongRecOn generalizing r t with
  | ind n ih =>
    by_cases hfirst : ∀ u v, r = u ++ v → v ≠ [] → ¬ CanEnd (v ++ t)
    · exact ⟨r, t, rfl, ⟨hline, hfirst⟩, ht⟩
    · simp only [not_forall, Classical.not_not] at hfirst
      obtain ⟨u, v, rfl, hv, hend⟩ := hfirst
      have hshorter : u.length < n := by
        rw [← hn, List.length_append]
        have := List.length_pos_iff.2 hv
        omega
      obtain ⟨r', t', heq, hrange, hend'⟩ :=
        ih u.length hshorter (fun hmem => hline (List.mem_append_left _ hmem)) hend rfl
      exact ⟨r', t', by rw [heq, List.append_assoc], hrange, hend'⟩

theorem readDeclaration?_of_array {name type : String} {initial : Option String}
    {s r t : List Char} (hbegin : BeginsArray name s (r ++ t)) (hrange : IsRange r t)
    (hend : EndsArray type initial t) :
    readDeclaration? (String.ofList s) = some ⟨name, type, some (String.ofList r), initial⟩ := by
  obtain ⟨r, rfl⟩ : ∃ range : String, range.toList = r := ⟨String.ofList r, String.toList_ofList⟩
  cases hbegin with | mk hname h₁ h₂ harray h₃ =>
  cases hend with | mk h₄ hof h₅ htype he rest =>
  obtain ⟨d, value, hd, hmarks, hvalue⟩ := prefers_array (c := ⟨0, none, _, []⟩) rest
    hname h₁ h₂ harray h₃ hrange.inLine
    (fun c' u v huv hv hrest => fails_of_not_canEnd (hrest ▸ hrange.first u v huv hv))
    h₄ hof h₅ htype he rfl
  rw [readDeclaration?, matchStart?, String.toList_ofList, matchAt_of_prefers hd, hmarks, ← hvalue]
  cases value <;> simp [Match.group, Match.group?]

theorem readDeclaration?_of_plain {d : Declaration} {s : List Char} (h : IsPlain d s)
    (harray : ¬ IsArray s) : readDeclaration? (String.ofList s) = some d := by
  have hfails : arrayDeclaration.Fails ⟨0, none, s, []⟩ :=
    fails_of_not_matches fun _ hd => harray (isArray_of_matches hd)
  cases h with | mk hname h₁ h₂ hne htype he rest =>
  obtain ⟨d, value, hd, hmarks, hvalue⟩ := prefers_plain (c := ⟨0, none, _, []⟩) hname h₁ h₂ hne
    htype he rfl
  rw [readDeclaration?, matchStart?, String.toList_ofList, matchAt, hfails, matchStart?,
    String.toList_ofList, matchAt_of_prefers hd, hmarks, ← hvalue]
  cases value <;> simp [Match.group, Match.group?]

/-- What is read as a declaration is the declaration of an array, with its range as short as
possible, or else that of a plain variable. -/
theorem exists_of_readDeclaration? {line : String} {d : Declaration}
    (h : readDeclaration? line = some d) :
    (∃ r t, BeginsArray d.name line.toList (r ++ t) ∧ IsRange r t ∧
      EndsArray d.type d.initial t ∧ d.range = some (String.ofList r)) ∨
    IsPlain d line.toList ∧ ¬ IsArray line.toList := by
  rw [← String.ofList_toList (s := line)] at h
  by_cases harray : IsArray line.toList
  · obtain ⟨name, r, t, hbegin, hline, hend⟩ := harray
    obtain ⟨r', t', heq, hrange, type, initial, hend⟩ := exists_isRange hline hend
    rw [← heq] at hbegin
    rw [readDeclaration?_of_array hbegin hrange hend] at h
    cases h
    exact .inl ⟨r', t', hbegin, hrange, hend, rfl⟩
  · refine .inr ⟨?_, harray⟩
    have hfails : arrayDeclaration.matchStart? (String.ofList line.toList) = none := by
      rw [matchStart?, String.toList_ofList, matchAt]
      exact fails_of_not_matches (fun _ hd => harray (isArray_of_matches hd)) _
    have hmatch := h
    rw [readDeclaration?, hfails] at hmatch
    obtain ⟨m, hm, -⟩ := Option.map_eq_some_iff.1 hmatch
    rw [matchStart?, String.toList_ofList] at hm
    obtain ⟨e, he, -⟩ := exists_matches_of_run _ _ _ _ hm
    obtain ⟨d', hd'⟩ := isPlain_of_matches he
    rw [readDeclaration?_of_plain hd' harray] at h
    cases h
    exact hd'

/-! ## Written and read again -/

/-- The declaration without its initial value. -/
def Declaration.withoutInitial (d : Declaration) : Declaration := { d with initial := none }

/-- The line that declares a variable again, without its initial value. -/
def Declaration.rewritten (d : Declaration) : String :=
  match d.range with
  | some range => d.name ++ " : ARRAY [" ++ range ++ "] OF " ++ d.type ++ ";"
  | none => d.name ++ " : " ++ d.type ++ ";"

/-- A stretch without a character stands before its occurrence. -/
theorem exists_eq_append_of_not_mem {c : Char} {m z x s : List Char} (hm : c ∉ m)
    (h : m ++ z = x ++ c :: s) : ∃ y, x = m ++ y ∧ z = y ++ c :: s := by
  rcases List.append_eq_append_iff.1 h with ⟨y, hx, hz⟩ | ⟨y, hx, hz⟩
  · exact ⟨y, hx, hz⟩
  · cases y with
    | nil => exact ⟨[], by simpa using hx.symm, hz.symm⟩
    | cons b y =>
      cases hz
      exact absurd (hx ▸ by simp) hm

/-- An end of a declaration with a bracket in it or behind it is one whatever follows the bracket,
if only a semicolon does: the bracket stands in the value or behind the semicolon. -/
theorem SpellsEnd.change {initial : Option String} {e rest x s s' : List Char}
    (he : SpellsEnd initial e) (h : e ++ rest = x ++ ']' :: s) (hs : ';' ∈ s') :
    ∃ initial' e' rest', SpellsEnd initial' e' ∧ x ++ ']' :: s' = e' ++ rest' := by
  cases he with
  | plain hg =>
    rename_i g
    rw [List.append_assoc] at h
    have hbracket : ']' ∉ g := fun hmem => absurd (hg _ hmem) (by decide)
    obtain ⟨y, rfl, hy⟩ := exists_eq_append_of_not_mem hbracket h
    cases y with
    | nil => cases hy
    | cons b y =>
      cases hy
      exact ⟨none, _, y ++ ']' :: s', .plain hg, by simp⟩
  | value hg hne hv =>
    rename_i g v
    have hbefore : ']' ∉ g ++ ":=".toList := by
      intro hmem
      rcases List.mem_append.1 hmem with hmem | hmem
      · exact absurd (hg _ hmem) (by decide)
      · exact absurd hmem (by decide)
    have hcut : (g ++ ":=".toList) ++ (v ++ ';' :: rest) = x ++ ']' :: s := by
      rw [← h]
      simp
    obtain ⟨y, rfl, hy⟩ := exists_eq_append_of_not_mem hbefore hcut
    obtain ⟨w, z, hw, hfirst⟩ := List.eq_append_cons_of_mem
      (List.mem_append_right y (List.mem_cons_of_mem ']' hs))
    have hwne : w ≠ [] := by
      rintro rfl
      obtain ⟨a, v, rfl⟩ := List.exists_cons_of_ne_nil hne
      cases y with
      | nil => cases hw
      | cons b y =>
        cases hw
        exact hv ((List.cons_eq_cons.1 hy).1 ▸ List.mem_cons_self)
    refine ⟨_, _, z, .value hg hwne hfirst, ?_⟩
    rw [List.append_assoc, hw]
    simp

/-- The end of an array's declaration that begins before a bracket does not depend on what follows
the bracket, if a semicolon does. -/
theorem CanEnd.change {v s s' : List Char} (h : CanEnd (v ++ ']' :: s)) (hv : v ≠ [])
    (hs : ';' ∈ s') : CanEnd (v ++ ']' :: s') := by
  obtain ⟨type, initial, hend⟩ := h
  generalize htext : v ++ ']' :: s = text at hend
  cases hend with | mk h₄ hof h₅ htype he rest =>
  rename_i g₄ of g₅ e
  obtain ⟨b, v, rfl⟩ := List.exists_cons_of_ne_nil hv
  obtain ⟨rfl, htail⟩ : b = ']' ∧ v ++ ']' :: s =
      g₄ ++ (of ++ (g₅ ++ (type.toList ++ (e ++ rest)))) := List.cons_eq_cons.1 htext
  have hbefore : ']' ∉ g₄ ++ (of ++ (g₅ ++ type.toList)) := by
    simp only [List.mem_append, not_or]
    refine ⟨fun hmem => absurd (h₄ _ hmem) (by decide), fun hmem => ?_,
      fun hmem => absurd (h₅ _ hmem) (by decide), fun hmem => absurd (htype.2 _ hmem) (by decide)⟩
    have hseparates : Separates ']' "OF".toList := by decide
    obtain ⟨x, hx, hsame⟩ := exists_sameLetter_of_afterKeyword? hof _ hmem
    rw [hseparates x hx] at hsame
    cases hsame
  have hcut : (g₄ ++ (of ++ (g₅ ++ type.toList))) ++ (e ++ rest) = v ++ ']' :: s := by
    rw [htail]
    simp only [List.append_assoc]
  obtain ⟨x, rfl, hx⟩ := exists_eq_append_of_not_mem hbefore hcut
  obtain ⟨initial', e', rest', he', heq⟩ := he.change hx hs
  refine ⟨type, initial', ?_⟩
  have hlist : ']' :: (g₄ ++ (of ++ (g₅ ++ type.toList)) ++ x) ++ ']' :: s' =
      "]".toList ++ (g₄ ++ (of ++ (g₅ ++ (type.toList ++ (e' ++ rest'))))) := by
    rw [← heq]
    simp
  rw [hlist]
  exact .mk h₄ hof h₅ htype he' rest'

/-- The end of a declaration is a semicolon with blanks or an assignment before it. -/
theorem SpellsEnd.exists_semicolon {initial : Option String} {e : List Char}
    (h : SpellsEnd initial e) : ∃ b, e = b ++ [';'] ∧ (AllBlank b ∨ ':' ∈ b) := by
  cases h with
  | plain hg => exact ⟨_, rfl, .inl hg⟩
  | value hg hne hv =>
    rename_i g v
    exact ⟨g ++ (":=".toList ++ v), by simp, .inr (by simp)⟩

/-- A plain declaration that is written as an array's was one before. -/
theorem IsPlain.isArray_of_rewritten {d : Declaration} {s : List Char} (h : IsPlain d s)
    (harray : IsArray d.rewritten.toList) : IsArray s := by
  cases h with | mk hname h₁ h₂ hne htype he rest =>
  rename_i name type initial g₁ g₂ e
  obtain ⟨name', r, t, hbegin, hline, type', initial', hend⟩ := harray
  have hword : type.toList ≠ [] := by simpa using hne
  generalize htext : (Declaration.rewritten ⟨name, type, none, initial⟩).toList = text at hbegin
  cases hbegin with | mk hname' h₁' h₂' harray h₃ =>
  rename_i g₁' g₂' array g₃
  -- Behind the colon the type and its semicolon are what is read as an array.
  have htype_eq : type.toList ++ [';'] = array ++ (g₃ ++ ("[".toList ++ (r ++ t))) := by
    refine eq_of_behind_colon (u := name.toList ++ [' ']) (g := [' '])
      (colon_not_mem_name hname (by decide)) (colon_not_mem_name hname' h₁') (by decide) h₂'
      ?_ ?_ ?_
    · obtain ⟨x, u, hu⟩ := List.exists_cons_of_ne_nil hword
      have hx := isBlank_of_isTypeChar (htype x (hu ▸ List.mem_cons_self))
      simp [hu, hx]
    · exact head?_isBlank_of_afterKeyword? (x := 'A') (k := "RRAY".toList) (by decide)
        (afterKeyword?_append harray _)
    · rw [List.append_assoc, List.append_assoc]
      simpa [Declaration.rewritten, Declaration.withoutInitial] using htext
  cases hend with | mk h₄ hof h₅ hword' he' rest' =>
  rename_i g₄ of g₅ e'
  obtain ⟨b, rfl, hb⟩ := he'.exists_semicolon
  have hsemicolon : ';' ∉ type.toList := fun hmem => absurd (htype _ hmem) (by decide)
  have hcut : type.toList ++ [';'] = (array ++ (g₃ ++ ("[".toList ++ (r ++ ("]".toList ++ (g₄ ++
      (of ++ (g₅ ++ (type'.toList ++ b))))))))) ++ ';' :: rest' := by
    rw [htype_eq]
    simp only [List.append_assoc]
    rfl
  obtain ⟨y, hy, hlast⟩ := exists_eq_append_of_not_mem hsemicolon hcut
  have hynil : y = [] := by
    cases y with
    | nil => rfl
    | cons z y => simp at hlast
  rw [hynil, List.append_nil] at hy
  have hbnil : b = [] := by
    rcases hb with hb | hb
    · cases b with
      | nil => rfl
      | cons z b =>
        have hz := isBlank_of_isTypeChar (htype z (hy ▸ by simp))
        rw [hb z List.mem_cons_self] at hz
        cases hz
    · exact absurd (htype ':' (hy ▸ by simp [hb])) (by decide)
  rw [hbnil, List.append_nil] at hy
  have hend : EndsArray type' initial ("]".toList ++ (g₄ ++ (of ++ (g₅ ++ (type'.toList ++
      (e ++ rest)))))) := .mk h₄ hof h₅ hword' he rest
  refine ⟨name, r, _, ?_, hline, type', initial, hend⟩
  rw [← hy]
  simp only [List.append_assoc]
  exact .mk hname h₁ h₂ harray h₃ _

theorem IsPlain.rewritten {d : Declaration} {s : List Char} (h : IsPlain d s) :
    IsPlain d.withoutInitial d.rewritten.toList := by
  cases h with | mk hname h₁ h₂ hne htype he rest =>
  have hblank : AllBlank [' '] := by decide
  have hline := IsPlain.mk hname hblank hblank hne htype (.plain (g := []) (by decide)) []
  simpa [Declaration.rewritten, Declaration.withoutInitial] using hline

theorem beginsArray_written {name : String} (hname : IsWord name) (x : List Char) :
    BeginsArray name (name.toList ++ (" : ARRAY [".toList ++ x)) x :=
  have hblank : AllBlank [' '] := by decide
  have harray : afterKeyword? "ARRAY".toList "ARRAY".toList = some [] := by decide
  .mk hname hblank hblank harray hblank x

theorem endsArray_written {type : String} (htype : IsWord type) :
    EndsArray type none ("] OF ".toList ++ (type.toList ++ [';'])) :=
  have hblank : AllBlank [' '] := by decide
  have hof : afterKeyword? "OF".toList "OF".toList = some [] := by decide
  .mk hblank hof hblank htype (.plain (g := []) (by decide)) []

/-- A range ends where it did, whatever follows its bracket, if a semicolon does. -/
theorem IsRange.change {r t t' : List Char} (h : IsRange r (']' :: t)) (ht : ';' ∈ t) :
    IsRange r (']' :: t') where
  inLine := h.inLine
  first u v huv hv hend := h.first u v huv hv (hend.change hv ht)

theorem EndsArray.exists_bracket {type : String} {initial : Option String} {s : List Char}
    (h : EndsArray type initial s) : ∃ t, s = ']' :: t ∧ ';' ∈ t := by
  cases h with | mk h₄ hof h₅ htype he rest =>
  obtain ⟨b, rfl, -⟩ := he.exists_semicolon
  exact ⟨_, rfl, by simp⟩

/-- A declaration that was read is read again from the line that is written for it. -/
theorem readDeclaration?_rewritten {line : String} {d : Declaration}
    (h : readDeclaration? line = some d) :
    readDeclaration? d.rewritten = some d.withoutInitial := by
  rw [← String.ofList_toList (s := d.rewritten)]
  rcases exists_of_readDeclaration? h with ⟨r, t, hbegin, hrange, hend, hd⟩ | ⟨hplain, harray⟩
  · obtain ⟨name, type, range, initial⟩ := d
    cases hd
    obtain ⟨t, rfl, ht⟩ := hend.exists_bracket
    have hbegin' := beginsArray_written hbegin.isWord
      (r ++ ("] OF ".toList ++ (type.toList ++ [';'])))
    have hread := readDeclaration?_of_array hbegin' (hrange.change ht)
      (endsArray_written hend.isWord)
    simpa [Declaration.rewritten, Declaration.withoutInitial] using hread
  · exact readDeclaration?_of_plain hplain.rewritten (mt hplain.isArray_of_rewritten harray)

/-! ## Where the parts of a declaration come from -/

theorem BeginsArray.infixes {name : String} {s x : List Char} (h : BeginsArray name s x) :
    name.toList <:+: s ∧ x <:+ s := by
  cases h with | mk hname h₁ h₂ harray h₃ =>
  rename_i g₁ g₂ array g₃
  exact ⟨(List.prefix_append _ _).isInfix,
    ⟨name.toList ++ (g₁ ++ (":".toList ++ (g₂ ++ (array ++ (g₃ ++ "[".toList))))), by simp⟩⟩

theorem EndsArray.infix_type {type : String} {initial : Option String} {s : List Char}
    (h : EndsArray type initial s) : type.toList <:+: s := by
  cases h with | mk h₄ hof h₅ htype he rest =>
  rename_i g₄ of g₅ e
  exact ⟨"]".toList ++ (g₄ ++ (of ++ g₅)), e ++ rest, by simp⟩

theorem IsPlain.infixes {d : Declaration} {s : List Char} (h : IsPlain d s) :
    IsWord d.name ∧ d.name.toList <:+: s ∧ d.type.toList <:+: s ∧ d.range = none := by
  cases h with | mk hname h₁ h₂ hne htype he rest =>
  rename_i name type initial g₁ g₂ e
  exact ⟨hname, (List.prefix_append _ _).isInfix,
    ⟨name.toList ++ (g₁ ++ (":".toList ++ g₂)), e ++ rest, by simp⟩, rfl⟩

/-- The name, the type and the range of a declaration stand in its line. -/
theorem infix_of_readDeclaration? {line : String} {d : Declaration}
    (h : readDeclaration? line = some d) :
    IsWord d.name ∧ d.name.toList <:+: line.toList ∧ d.type.toList <:+: line.toList ∧
      ∀ range ∈ d.range, range.toList <:+: line.toList := by
  rcases exists_of_readDeclaration? h with ⟨r, t, hbegin, -, hend, hd⟩ | ⟨hplain, -⟩
  · obtain ⟨hname, hrest⟩ := hbegin.infixes
    have htail : t <:+: line.toList := ((List.suffix_append r t).trans hrest).isInfix
    refine ⟨hbegin.isWord, hname, hend.infix_type.trans htail, ?_⟩
    rw [hd]
    rintro range ⟨⟩
    rw [String.toList_ofList]
    exact (List.prefix_append r t).isInfix.trans hrest.isInfix
  · obtain ⟨hword, hname, htype, hrange⟩ := hplain.infixes
    refine ⟨hword, hname, htype, ?_⟩
    rw [hrange]
    rintro range ⟨⟩

/-- What holds of the parts of a declaration, and across the characters between them, holds of the
line that is written for it. -/
theorem Declaration.rewritten_induction {P : List Char → Prop} {d : Declaration}
    (hsep : ∀ sep ∈ [' ', '[', ']', ';'], ∀ s t, P s → P t → P (s ++ sep :: t))
    (hfixed : ∀ s ∈ ["", ":", "ARRAY", "OF"], P s.toList) (hname : P d.name.toList)
    (htype : P d.type.toList) (hrange : ∀ range ∈ d.range, P range.toList) :
    P d.rewritten.toList := by
  have hspace := hsep ' ' (by simp)
  have hend := hsep ';' (by simp) _ _ htype (hfixed "" (by simp))
  have hcolon : ∀ t, P t → P (d.name.toList ++ ' ' :: (":".toList ++ ' ' :: t)) := fun t ht =>
    hspace _ _ hname (hspace _ _ (hfixed ":" (by simp)) ht)
  rw [Declaration.rewritten]
  cases hd : d.range with
  | none =>
    have hline := hcolon _ hend
    simpa using hline
  | some range =>
    have hof := hspace _ _ (hfixed "" (by simp)) (hspace _ _ (hfixed "OF" (by simp)) hend)
    have hbracket := hsep ']' (by simp) _ _ (hrange range hd) hof
    have hopening := hsep '[' (by simp) _ _ (hfixed "" (by simp)) hbracket
    have hline := hcolon _ (hspace _ _ (hfixed "ARRAY" (by simp)) hopening)
    simpa using hline

end ControlLogic.StructuredText
