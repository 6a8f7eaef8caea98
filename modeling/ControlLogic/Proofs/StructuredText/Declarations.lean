import ControlLogic.Proofs.Text.Chars
import ControlLogic.Proofs.Text.Pattern
import ControlLogic.StructuredText.Body
import ControlLogic.StructuredText.Declarations

/-!
# What is read from a source

The declarations and the statements of a source hold no characters but those of the source:
`mem_of_mem_declarations` and `mem_of_mem_programLines`.  The name of a declared variable is
made of word characters (`isWordChar_of_mem_declarations`), and no statement is empty
(`ne_empty_of_mem_programLines`).
-/

namespace ControlLogic.StructuredText

open Text

theorem mem_of_mem_strip {s : String} {x : Char} (h : x ∈ (strip s).toList) : x ∈ s.toList := by
  rw [strip, String.toList_ofList] at h
  exact Chars.mem_of_mem_trim h

/-! ## Declarations -/

/-- The texts of a declaration. -/
def Declaration.texts (d : Declaration) : List String :=
  [d.name, d.type] ++ d.range.toList ++ d.initial.toList

/-- The characters of a group come from the line, and lie within the classes of the groups with
its number. -/
theorem forall_mem_group_of_matchStart? {p : Pattern} {line : String} {m : Pattern.Match}
    (h : p.matchStart? line = some m) {P : Char → Prop} {n : Nat}
    (hP : ∀ g ∈ p.groups, g.1 = n → g.2.Within P) :
    ∀ x ∈ (m.group n).toList, x ∈ line.toList ∧ P x := by
  rw [Pattern.Match.group]
  cases hs : m.group? n with
  | none => exact List.forall_mem_nil _
  | some s => exact Pattern.forall_mem_group h hP hs

theorem groups_arrayDeclaration : arrayDeclaration.groups =
    [(1, .word), (2, .lazy .inLine), (3, .word), (4, .plus (.except ";"))] := rfl

theorem groups_plainDeclaration : plainDeclaration.groups =
    [(1, .word), (2, .plus (.one fun c => isWordChar c || c = '[' || c = ']' || c = '.')),
      (3, .plus (.except ";"))] := rfl

theorem within_word : Pattern.word.Within fun c => isWordChar c = true :=
  ⟨fun _ h => h, fun _ h => h⟩

/-- A name is a word. -/
theorem isWordChar_of_readDeclaration? {line : String} {d : Declaration}
    (h : readDeclaration? line = some d) : ∀ x ∈ d.name.toList, isWordChar x = true := by
  have harray : ∀ g ∈ arrayDeclaration.groups, g.1 = 1 →
      g.2.Within fun c => isWordChar c = true := by
    rw [groups_arrayDeclaration]
    simp [within_word]
  have hplain : ∀ g ∈ plainDeclaration.groups, g.1 = 1 →
      g.2.Within fun c => isWordChar c = true := by
    rw [groups_plainDeclaration]
    simp [within_word]
  rw [readDeclaration?] at h
  split at h
  · rename_i m hm
    cases h
    exact fun x hx => (forall_mem_group_of_matchStart? hm harray x hx).2
  · obtain ⟨m, hm, rfl⟩ := Option.map_eq_some_iff.1 h
    exact fun x hx => (forall_mem_group_of_matchStart? hm hplain x hx).2

/-- All characters of a declaration come from its line. -/
theorem mem_of_readDeclaration? {line : String} {d : Declaration}
    (h : readDeclaration? line = some d) : ∀ s ∈ d.texts, ∀ x ∈ s.toList, x ∈ line.toList := by
  -- a group of a match of either pattern, and the initial value, which has lost its blanks
  have hgroup : ∀ {p : Pattern} {m : Pattern.Match}, p.matchStart? line = some m → ∀ n,
      ∀ x ∈ (m.group n).toList, x ∈ line.toList := fun hm n x hx =>
    (forall_mem_group_of_matchStart? hm (fun g _ _ => g.2.within_true) x hx).1
  have hinitial : ∀ {p : Pattern} {m : Pattern.Match}, p.matchStart? line = some m → ∀ n,
      ∀ s, (m.group? n).map strip = some s → ∀ x ∈ s.toList, x ∈ line.toList := by
    intro p m hm n s hs x hx
    obtain ⟨t, ht, rfl⟩ := Option.map_eq_some_iff.1 hs
    exact (Pattern.forall_mem_group hm (fun g _ _ => g.2.within_true) ht x
      (mem_of_mem_strip hx)).1
  rw [readDeclaration?] at h
  split at h
  · rename_i m hm
    cases h
    simp only [Declaration.texts, List.forall_mem_append, List.forall_mem_cons,
      Option.mem_toList]
    exact ⟨⟨⟨hgroup hm 1, hgroup hm 3, List.forall_mem_nil _⟩,
      fun s hs => Option.some.inj hs ▸ hgroup hm 2⟩, hinitial hm 4⟩
  · obtain ⟨m, hm, rfl⟩ := Option.map_eq_some_iff.1 h
    simp only [Declaration.texts, List.forall_mem_append, List.forall_mem_cons,
      Option.mem_toList]
    exact ⟨⟨⟨hgroup hm 1, hgroup hm 2, List.forall_mem_nil _⟩,
      fun s hs => absurd hs (Option.some_ne_none s).symm⟩, hinitial hm 3⟩

theorem subset_of_variableSection? {source body : List Char}
    (h : variableSection? source = some body) : body ⊆ source := by
  simp only [variableSection?, Option.bind_eq_bind, Option.bind_eq_some_iff] at h
  obtain ⟨⟨_, after⟩, hafter, ⟨body', _⟩, hbody, heq⟩ := h
  cases heq
  have hdrop := (List.dropWhile_sublist (p := isBlank) (l := after)).subset
  have hbody := List.Subset.trans (subset_of_breakKeyword? hbody).1 hdrop
  exact List.Subset.trans hbody (subset_of_breakKeyword? hafter).2

/-- A declaration was read from a line whose characters come from the source. -/
theorem exists_line_of_mem_declarations {source : String} {d : Declaration}
    (h : d ∈ declarations source) :
    ∃ line, readDeclaration? line = some d ∧ ∀ x ∈ line.toList, x ∈ source.toList := by
  rw [declarations] at h
  split at h
  · exact absurd h List.not_mem_nil
  · rename_i body hbody
    obtain ⟨line, hline, hread⟩ := List.mem_filterMap.1 h
    obtain ⟨piece, hpiece, rfl⟩ := List.mem_map.1 (List.mem_filter.1 hline).1
    refine ⟨_, hread, fun x hx => ?_⟩
    have hx' : x ∈ piece := by
      have := mem_of_mem_strip hx
      rwa [String.toList_ofList] at this
    exact subset_of_variableSection? hbody (Chars.mem_of_mem_splitOn hpiece hx')

/-- The name of a declared variable is made of word characters. -/
theorem isWordChar_of_mem_declarations {source : String} {d : Declaration}
    (h : d ∈ declarations source) : ∀ x ∈ d.name.toList, isWordChar x = true := by
  obtain ⟨line, hread, -⟩ := exists_line_of_mem_declarations h
  exact isWordChar_of_readDeclaration? hread

/-- The texts of a declaration hold no characters but those of the source. -/
theorem mem_of_mem_declarations {source : String} {d : Declaration}
    (h : d ∈ declarations source) : ∀ s ∈ d.texts, ∀ x ∈ s.toList, x ∈ source.toList := by
  obtain ⟨line, hread, hline⟩ := exists_line_of_mem_declarations h
  exact fun s hs x hx => hline x (mem_of_readDeclaration? hread s hs x hx)

/-! ## Statements -/

theorem mem_of_mem_cutRemark {line : List Char} {x : Char} (h : x ∈ cutRemark line) :
    x ∈ line := by
  rw [cutRemark] at h
  split at h
  · rename_i hbreak
    rw [Chars.eq_of_breakOn? hbreak]
    exact List.mem_append_left _ (List.mem_append_left _ h)
  · exact h

theorem mem_of_mem_dropComments {s : List Char} {x : Char} (h : x ∈ dropComments s) : x ∈ s := by
  fun_induction dropComments s with
  | case1 => exact h
  | case2 inner _ after hbreak ih =>
    have hafter := ih h
    rw [Chars.eq_of_breakOn? hbreak]
    simp [hafter]
  | case3 inner hbreak ih =>
    exact (List.mem_cons.1 h).elim (fun hx => hx ▸ List.mem_cons_self)
      fun hx => List.mem_cons_of_mem _ (ih hx)
  | case4 c rest _ ih =>
    exact (List.mem_cons.1 h).elim (fun hx => hx ▸ List.mem_cons_self)
      fun hx => List.mem_cons_of_mem _ (ih hx)

theorem mem_of_mem_bareLine {line : List Char} {x : Char} (h : x ∈ (bareLine line).toList) :
    x ∈ line := by
  have h' := mem_of_mem_strip h
  rw [String.toList_ofList] at h'
  exact mem_of_mem_cutRemark (mem_of_mem_dropComments h')

theorem mem_of_mem_outsideSections {inside : Bool} {lines : List String} {line : String}
    (h : line ∈ outsideSections inside lines) : line ∈ lines := by
  fun_induction outsideSections inside lines with
  | case1 => exact h
  | case2 _ _ _ _ ih | case3 _ _ _ _ _ ih | case4 _ _ _ _ _ _ ih =>
    exact List.mem_cons_of_mem _ (ih h)
  | case5 inside line' rest _ _ _ ih =>
    exact (List.mem_cons.1 h).elim (fun hx => hx ▸ List.mem_cons_self)
      fun hx => List.mem_cons_of_mem _ (ih hx)

theorem mem_lines_of_mem_programLines {source line : String} (h : line ∈ programLines source) :
    line ∈ ((List.splitOn '\n' source.toList).map bareLine).filter (· ≠ "") :=
  mem_of_mem_outsideSections h

/-- No statement is empty. -/
theorem ne_empty_of_mem_programLines {source line : String} (h : line ∈ programLines source) :
    line ≠ "" := by
  simpa using (List.mem_filter.1 (mem_lines_of_mem_programLines h)).2

/-- A statement holds no characters but those of the source. -/
theorem mem_of_mem_programLines {source line : String} (h : line ∈ programLines source) :
    ∀ x ∈ line.toList, x ∈ source.toList := by
  obtain ⟨piece, hpiece, rfl⟩ :=
    List.mem_map.1 (List.mem_filter.1 (mem_lines_of_mem_programLines h)).1
  exact fun x hx => Chars.mem_of_mem_splitOn hpiece (mem_of_mem_bareLine hx)

end ControlLogic.StructuredText
