import ControlLogic.Proofs.StructuredText.DeclarationLine

/-!
# The first variable section

A reader takes what stands between the first `VAR` and the next `END_VAR` for the variable section,
wherever in a line these letters stand.

* `variableSection?_join`: the section of lines begins within the first line that holds the
  opening mark, with the text behind the mark, and ends before the first closing mark.
* `declarations_join` reads these lines.
* `declarations_eq_nil`: where no semicolon stands before the first closing mark behind an opening
  one, none stands in the section (`semicolon_not_mem_section`), and nothing is declared.
-/

namespace ControlLogic.StructuredText

open Text

/-- The mark that opens a section. -/
def openingMark : List Char := "VAR".toList

/-- The mark that closes a section. -/
def closingMark : List Char := "END_VAR".toList

theorem openingMark_ne_nil : openingMark ≠ [] := by decide

theorem closingMark_ne_nil : closingMark ≠ [] := by decide

/-- The characters that stand between names are no letters of a mark. -/
theorem separates_marks : ∀ sep ∈ [' ', '\n', ';'],
    Separates sep openingMark ∧ Separates sep closingMark := by
  simp only [List.forall_mem_cons, List.not_mem_nil, false_imp_iff, implies_true, and_true]
  decide

theorem variableSection?_eq (source : List Char) :
    variableSection? source = (breakKeyword? openingMark source).bind fun r =>
      (breakKeyword? closingMark (r.2.dropWhile isBlank)).map (·.1) := by
  simp only [variableSection?, Option.bind_eq_bind, Option.map_eq_bind]
  rfl

theorem breakKeyword?_closingMark (rest : List Char) :
    breakKeyword? closingMark (closingMark ++ '\n' :: rest) = some ([], '\n' :: rest) :=
  breakKeyword?_of_eq_some closingMark_ne_nil (separates_marks '\n' (by simp)).2 (b := [])
    (by decide) rest

section Lines

variable {before middle rest : List String} {line first : String} {a : List Char}

/-- The section of lines begins within the first line that holds the opening mark. -/
theorem variableSection?_join (hne : before ≠ [])
    (hbefore : ∀ l ∈ before, Lacks openingMark l.toList)
    (hline : breakKeyword? openingMark line.toList = some (a, first.toList))
    (hfirst : ∃ x t, first.toList = x :: t ∧ isBlank x = false)
    (hmiddle : ∀ l ∈ first :: middle, Lacks closingMark l.toList) (hrest : rest ≠ []) :
    variableSection? (join "\n" (before ++ line :: (middle ++ "END_VAR" :: rest))).toList =
      some ((join "\n" (first :: middle)).toList ++ ['\n']) := by
  have hnewline := separates_marks '\n' (by simp)
  have hend : middle ++ "END_VAR" :: rest ≠ [] := by simp
  have hopening : breakKeyword? openingMark
      (join "\n" (before ++ line :: (middle ++ "END_VAR" :: rest))).toList =
      some ((join "\n" before).toList ++ '\n' :: a,
        (join "\n" (first :: (middle ++ "END_VAR" :: rest))).toList) := by
    rw [toList_join_append hne (List.cons_ne_nil _ _),
      breakKeyword?_of_lacks openingMark_ne_nil hnewline.1
        ((lacks_join openingMark_ne_nil hnewline.1).2 hbefore), toList_join_cons line hend,
      breakKeyword?_of_eq_some openingMark_ne_nil hnewline.1 hline, toList_join_cons first hend]
    rfl
  have hblank : (join "\n" (first :: (middle ++ "END_VAR" :: rest))).toList.dropWhile isBlank =
      (join "\n" (first :: (middle ++ "END_VAR" :: rest))).toList := by
    obtain ⟨x, t, hx, hblank⟩ := hfirst
    rw [toList_join_cons first hend, hx]
    exact List.dropWhile_cons_of_neg (by simp [hblank])
  have hclosing : breakKeyword? closingMark
      (join "\n" (first :: (middle ++ "END_VAR" :: rest))).toList =
      some ((join "\n" (first :: middle)).toList ++ ['\n'], '\n' :: (join "\n" rest).toList) := by
    rw [← List.cons_append, toList_join_append (List.cons_ne_nil _ _) (List.cons_ne_nil _ _),
      breakKeyword?_of_lacks closingMark_ne_nil hnewline.2
        ((lacks_join closingMark_ne_nil hnewline.2).2 hmiddle), toList_join_cons _ hrest,
      show "END_VAR".toList = closingMark from rfl, breakKeyword?_closingMark]
    rfl
  rw [variableSection?_eq, hopening, Option.bind_some, hblank, hclosing]
  rfl

/-- Lines that are joined and closed are found again. -/
theorem split_join_newline {lines : List String} (hne : lines ≠ [])
    (h : ∀ line ∈ lines, '\n' ∉ line.toList) :
    (List.splitOn '\n' ((join "\n" lines).toList ++ ['\n'])).map String.ofList = lines ++ [""] := by
  have hlines : (List.splitOn '\n' (join "\n" lines).toList).map String.ofList = lines :=
    split_join hne h
  rw [List.splitOn_append_cons_self, List.map_append, hlines]
  rfl

/-- What is declared stands in the lines of the section. -/
theorem declarations_join (hne : before ≠ [])
    (hbefore : ∀ l ∈ before, Lacks openingMark l.toList)
    (hline : breakKeyword? openingMark line.toList = some (a, first.toList))
    (hfirst : ∃ x t, first.toList = x :: t ∧ isBlank x = false)
    (hmiddle : ∀ l ∈ first :: middle, Lacks closingMark l.toList ∧ '\n' ∉ l.toList)
    (hrest : rest ≠ []) :
    declarations (join "\n" (before ++ line :: (middle ++ "END_VAR" :: rest))) =
      lineDeclarations (first :: middle) := by
  have hsection := variableSection?_join hne hbefore hline hfirst
    (fun l hl => (hmiddle l hl).1) hrest
  have hlast : lineDeclarations [""] = [] := lineDeclarations_eq_nil (by decide)
  rw [declarations_of_section hsection,
    split_join_newline (List.cons_ne_nil _ _) fun l hl => (hmiddle l hl).2,
    lineDeclarations_append, hlast, List.append_nil]

end Lines

/-- A section that begins before a closing mark has no semicolon if there is none before the
mark. -/
theorem semicolon_not_mem_section {head opening rest body : List Char}
    (hhead : Lacks openingMark head) (hmark : ¬ Lacks openingMark opening)
    (hopening : ';' ∉ opening)
    (h : variableSection? (head ++ '\n' :: (opening ++ '\n' ::
      (closingMark ++ '\n' :: rest))) = some body) : ';' ∉ body := by
  have hnewline := separates_marks '\n' (by simp)
  obtain ⟨⟨a, b⟩, hab⟩ := Option.ne_none_iff_exists'.1 hmark
  have hb : ';' ∉ b := fun hx => hopening ((subset_of_breakKeyword? hab).2 hx)
  rw [variableSection?_eq, breakKeyword?_of_lacks openingMark_ne_nil hnewline.1 hhead,
    breakKeyword?_of_eq_some openingMark_ne_nil hnewline.1 hab, Option.map_some, Option.bind_some,
    List.dropWhile_append] at h
  split at h
  · -- Nothing but blanks stands before the closing mark.
    have hdrop : ('\n' :: (closingMark ++ '\n' :: rest)).dropWhile isBlank =
        closingMark ++ '\n' :: rest := by
      rw [List.dropWhile_cons_of_pos (by decide)]
      exact List.dropWhile_cons_of_neg (by decide)
    rw [hdrop, breakKeyword?_closingMark] at h
    cases h
    exact List.not_mem_nil
  · have hdrop : ';' ∉ b.dropWhile isBlank := fun hx =>
      hb ((List.dropWhile_sublist isBlank).subset hx)
    rw [breakKeyword?_append_sep closingMark_ne_nil hnewline.2, breakKeyword?_closingMark] at h
    cases hinner : breakKeyword? closingMark (b.dropWhile isBlank) with
    | none =>
      rw [hinner] at h
      cases h
      simpa using hdrop
    | some r =>
      rw [hinner] at h
      cases h
      exact fun hx => hdrop ((subset_of_breakKeyword? hinner).1 hx)

/-- Lines that hold an opening mark before the closing one, and no semicolon, declare nothing. -/
theorem declarations_eq_nil {before opening rest : List String} (hne : before ≠ [])
    (hbefore : ∀ l ∈ before, Lacks openingMark l.toList)
    (hmark : ∃ l ∈ opening, ¬ Lacks openingMark l.toList)
    (hopening : ∀ l ∈ opening, ';' ∉ l.toList) (hrest : rest ≠ []) :
    declarations (join "\n" (before ++ (opening ++ "END_VAR" :: rest))) = [] := by
  have hnewline := (separates_marks '\n' (by simp)).1
  have hsemicolon : ';' ∉ (join "\n" opening).toList := by
    intro hx
    rcases mem_toList_join hx with hx | ⟨line, hline, hx⟩
    · exact absurd hx (by decide)
    · exact hopening line hline hx
  have hlacks : ¬ Lacks openingMark (join "\n" opening).toList := by
    rw [lacks_join openingMark_ne_nil hnewline]
    obtain ⟨line, hline, hmark⟩ := hmark
    exact fun h => hmark (h line hline)
  have hlist : (join "\n" (before ++ (opening ++ "END_VAR" :: rest))).toList =
      (join "\n" before).toList ++ '\n' :: ((join "\n" opening).toList ++ '\n' ::
        (closingMark ++ '\n' :: (join "\n" rest).toList)) := by
    obtain ⟨line, hline, -⟩ := hmark
    rw [toList_join_append hne (by simp), toList_join_append (List.ne_nil_of_mem hline) (by simp),
      toList_join_cons _ hrest]
    rfl
  cases hsection :
      variableSection? (join "\n" (before ++ (opening ++ "END_VAR" :: rest))).toList with
  | none => rw [declarations, hsection]
  | some body =>
    rw [declarations_of_section hsection]
    refine lineDeclarations_eq_nil fun line hline hx => ?_
    obtain ⟨piece, hpiece, rfl⟩ := List.mem_map.1 hline
    rw [String.toList_ofList] at hx
    exact semicolon_not_mem_section ((lacks_join openingMark_ne_nil hnewline).2 hbefore) hlacks
      hsemicolon (hlist ▸ hsection) (Chars.mem_of_mem_splitOn hpiece hx)

end ControlLogic.StructuredText
