import ControlLogic.Proofs.StructuredText.DeclarationLine
import ControlLogic.Proofs.StructuredText.Sections

/-!
# Comments put between lines

The reader of statements drops the comments of each line by itself, and cuts the line at a remark
before it does so.  A comment that is put between two lines of a program is therefore dropped if it
stands on one line and holds no remark.  Otherwise its end is not seen from its beginning, and its
lines are read as lines of the program.

* `programLines_insertAt`: the statements of a text with another text put between its lines.
* `bare_comment_of_isInline` and `exists_bare_of_not_isInline` say what is left of a comment:
  nothing, or a bracket and what follows it on its line.
* `logic_insertAt_comment` tells for every comment and every place what becomes of the statements.
-/

namespace ControlLogic.Text.Chars

/-- What is found in a text is found before all that follows. -/
theorem breakOn?_append {t s a b : List Char} (h : breakOn? t s = some (a, b)) (u : List Char) :
    breakOn? t (s ++ u) = some (a, b ++ u) := by
  induction s generalizing a with
  | nil =>
    rw [breakOn?] at h
    split at h
    · rename_i ht
      cases h
      rw [List.isEmpty_iff.1 ht]
      cases u <;> simp [breakOn?]
    · cases h
  | cons d s ih =>
    have hlong : t.length ≤ (d :: s).length := by
      rw [eq_of_breakOn? h]
      simp only [List.length_append]
      omega
    -- The text is long enough for an occurrence at its beginning not to reach over its end.
    have hstart : t.isPrefixOf (d :: (s ++ u)) = t.isPrefixOf (d :: s) := by
      rw [Bool.eq_iff_iff, List.isPrefixOf_iff_prefix, List.isPrefixOf_iff_prefix]
      have happend : d :: s <+: d :: (s ++ u) := List.prefix_append (d :: s) u
      exact ⟨fun ht => List.prefix_of_prefix_length_le ht happend hlong,
        fun ht => ht.trans happend⟩
    rw [breakOn?] at h
    rw [List.cons_append, breakOn?, hstart]
    split at h
    · rename_i hyes
      cases h
      rw [if_pos hyes, ← List.cons_append, List.drop_append_of_le_length hlong]
    · rename_i hno
      obtain ⟨r, hrest, heq⟩ := Option.map_eq_some_iff.1 h
      cases heq
      rw [if_neg hno, ih hrest]
      rfl

/-- What does not occur in a text does not occur in its beginning. -/
theorem contains_eq_false_of_isPrefix {t s p : List Char} (h : contains t s = false)
    (hp : p <+: s) : contains t p = false := by
  rw [← Bool.not_eq_true] at h ⊢
  intro ht
  have hinfix : t <:+: p := contains_iff_infix.1 ht
  exact h <| contains_iff_infix.2 <| hinfix.trans hp.isInfix

end ControlLogic.Text.Chars

namespace ControlLogic.StructuredText

open Text

/-! ## Lines put into a text -/

/-- The text with another text behind its first `i` lines. -/
def insertAt (source : String) (i : Nat) (text : String) : String :=
  join "\n" ((split '\n' source).take i ++ text :: (split '\n' source).drop i)

/-- Joined texts have the lines of one after the other. -/
theorem split_join_flatMap {texts : List String} (hne : texts ≠ []) :
    split '\n' (join "\n" texts) = texts.flatMap (split '\n') := by
  induction texts with
  | nil => exact absurd rfl hne
  | cons text texts ih =>
    cases texts with
    | nil => simp
    | cons next texts =>
      have hjoin : join "\n" (text :: next :: texts) =
          text ++ String.ofList ['\n'] ++ join "\n" (next :: texts) := by
        rw [← String.toList_inj, toList_join_cons text (List.cons_ne_nil next texts)]
        simp
      rw [hjoin, split_append_sep, ih (List.cons_ne_nil next texts), ← List.flatMap_cons]

/-- Lines are not cut any further. -/
theorem flatMap_split_of_forall {lines : List String} (h : ∀ line ∈ lines, '\n' ∉ line.toList) :
    lines.flatMap (split '\n') = lines := by
  induction lines with
  | nil => rfl
  | cons line lines ih =>
    obtain ⟨hline, hlines⟩ := List.forall_mem_cons.1 h
    rw [List.flatMap_cons, ih hlines, split, List.splitOn_eq_singleton hline]
    simp

theorem newline_not_mem_split {source line : String} (h : line ∈ split '\n' source) :
    '\n' ∉ line.toList :=
  Chars.not_mem_of_mem_splitOn (toList_mem_split h)

theorem split_insertAt (source : String) (i : Nat) (text : String) :
    split '\n' (insertAt source i text) =
      (split '\n' source).take i ++ (split '\n' text ++ (split '\n' source).drop i) := by
  have hlines : ∀ line ∈ split '\n' source, '\n' ∉ line.toList :=
    fun line => newline_not_mem_split
  rw [insertAt, split_join_flatMap (by simp), List.flatMap_append, List.flatMap_cons,
    flatMap_split_of_forall fun line hline => hlines line (List.mem_of_mem_take hline),
    flatMap_split_of_forall fun line hline => hlines line (List.mem_of_mem_drop hline)]

section Inserted

variable (source : String) (i : Nat)

/-- Whether the first lines leave the reader inside a section. -/
def insideAt (source : String) (i : Nat) : Bool :=
  insideAfter false ((split '\n' source).take i)

/-- The text that is put between two lines is read as it would be at this place, and may change
what is read behind it only by opening or closing a section. -/
theorem programLines_insertAt (text : String) :
    programLines (insertAt source i text) =
      statements false ((split '\n' source).take i) ++
        (statements (insideAt source i) (split '\n' text) ++
          statements (insideAfter (insideAt source i) (split '\n' text))
            ((split '\n' source).drop i)) := by
  rw [programLines_eq, split_insertAt, statements_append, statements_append]
  rfl

theorem programLines_eq_take_append :
    programLines source = statements false ((split '\n' source).take i) ++
      statements (insideAt source i) ((split '\n' source).drop i) := by
  rw [insideAt, ← statements_append, List.take_append_drop, programLines_eq]

/-- Where the sections are left as they were, the program is the same just if the text has no
statements. -/
theorem programLines_insertAt_eq_iff {text : String}
    (h : insideAfter (insideAt source i) (split '\n' text) = insideAt source i) :
    programLines (insertAt source i text) = programLines source ↔
      statements (insideAt source i) (split '\n' text) = [] := by
  rw [programLines_insertAt, programLines_eq_take_append source i, h, List.append_cancel_left_eq,
    List.append_left_eq_self]

end Inserted

/-- Inside a section there are no statements before it is closed. -/
theorem statements_inside {lines : List String}
    (h : ∀ line ∈ lines, startsWithWord "END_VAR" (bare line) = false) :
    statements true lines = [] ∧ insideAfter true lines = true := by
  induction lines with
  | nil => exact ⟨rfl, rfl⟩
  | cons line lines ih =>
    obtain ⟨hline, hlines⟩ := List.forall_mem_cons.1 h
    have hnext : nextInside true (bare line) = true := by simp [nextInside, hline]
    have hnone : statementOf true line = [] := by simp [statementOf, isStatement]
    rw [statements_cons, insideAfter_cons, hnext, hnone]
    exact ih hlines

/-! ## Comments -/

/-- A comment. -/
def commentText (body : String) : String := "(*" ++ body ++ "*)"

/-- The comment stands on one line, and no remark in it hides its end. -/
def IsInline (body : String) : Prop :=
  '\n' ∉ body.toList ∧ contains "//" body = false

instance (body : String) : Decidable (IsInline body) :=
  inferInstanceAs (Decidable (_ ∧ _))

theorem cutRemark_cons {c : Char} (hc : c ≠ '/') (s : List Char) :
    cutRemark (c :: s) = c :: cutRemark s := by
  have hstart : ['/', '/'].isPrefixOf (c :: s) = false := by simp [List.isPrefixOf, Ne.symm hc]
  rw [cutRemark, Chars.breakOn?, hstart, cutRemark]
  cases Chars.breakOn? ['/', '/'] s <;> rfl

theorem cutRemark_of_not_contains {s : List Char} (h : Chars.contains ['/', '/'] s = false) :
    cutRemark s = s := by
  rw [cutRemark, Chars.breakOn?_eq_none_iff.2 h]

theorem cutRemark_isPrefix (s : List Char) : cutRemark s <+: s := by
  rw [cutRemark]
  split
  · rename_i a b h
    rw [Chars.eq_of_breakOn? h, List.append_assoc]
    exact List.prefix_append a _
  · exact List.prefix_rfl

/-- A remark hides what follows. -/
theorem cutRemark_append {s : List Char} (h : Chars.contains ['/', '/'] s = true) (t : List Char) :
    cutRemark (s ++ t) = cutRemark s := by
  cases hbreak : Chars.breakOn? ['/', '/'] s with
  | none => rw [Chars.breakOn?_eq_none_iff.1 hbreak] at h; cases h
  | some r => rw [cutRemark, Chars.breakOn?_append hbreak, cutRemark, hbreak]

/-- A comment is closed where its body ends. -/
theorem breakOn?_closing {body : List Char} (h : Chars.contains ['*', ')'] body = false)
    (rest : List Char) :
    Chars.breakOn? ['*', ')'] (body ++ '*' :: ')' :: rest) = some (body, rest) := by
  induction body with
  | nil => simp [Chars.breakOn?]
  | cons c body ih =>
    rw [Chars.contains, Bool.or_eq_false_iff] at h
    have hstart : ['*', ')'].isPrefixOf (c :: (body ++ '*' :: ')' :: rest)) = false := by
      cases body with
      | nil => simp [List.isPrefixOf]
      | cons d body => simpa [List.isPrefixOf] using h.1
    rw [List.cons_append, Chars.breakOn?, hstart, ih h.2]
    rfl

theorem dropComments_comment {body : List Char} (h : Chars.contains ['*', ')'] body = false) :
    dropComments ('(' :: '*' :: (body ++ ['*', ')'])) = [] := by
  have hclosing := breakOn?_closing h []
  rw [dropComments]
  split
  · rename_i after hafter
    cases hclosing.symm.trans hafter
    rw [dropComments]
  · rename_i hnone
    cases hclosing.symm.trans hnone

/-- A comment that is not closed stays, bracket and all. -/
theorem dropComments_open {body : List Char} (h : Chars.contains ['*', ')'] body = false) :
    dropComments ('(' :: '*' :: body) = '(' :: dropComments ('*' :: body) := by
  rw [dropComments, Chars.breakOn?_eq_none_iff.2 h]

theorem toList_commentText (body : String) :
    (commentText body).toList = '(' :: '*' :: (body.toList ++ ['*', ')']) := by
  simp [commentText]

section Body

variable {body : String}

/-- Nothing is left of a comment on one line. -/
theorem bare_comment_of_isInline (hbody : contains "*)" body = false) (h : IsInline body) :
    split '\n' (commentText body) = [commentText body] ∧ bare (commentText body) = "" := by
  obtain ⟨hnewline, hremark⟩ := h
  have hline : '\n' ∉ (commentText body).toList := by simp [toList_commentText, hnewline]
  have hend : Chars.breakOn? ['/', '/'] (body.toList ++ '*' :: [')']) = none := by
    have hbefore : Chars.breakOn? ['/', '/'] body.toList = none :=
      Chars.breakOn?_eq_none_iff.2 hremark
    rw [Chars.breakOn?_append_sep (by decide) (by decide), hbefore]
    rfl
  have hcut : cutRemark (commentText body).toList = (commentText body).toList := by
    rw [toList_commentText, cutRemark_cons (by decide), cutRemark_cons (by decide),
      cutRemark_of_not_contains (Chars.breakOn?_eq_none_iff.1 hend)]
  refine ⟨by rw [split, List.splitOn_eq_singleton hline]; simp, ?_⟩
  rw [bare, bareLine, hcut, toList_commentText, dropComments_comment hbody]
  rfl

/-- On the first line of any other comment a remark or the end of the line comes before the end of
the comment. -/
theorem exists_cutRemark_of_not_isInline (h : ¬ IsInline body) :
    ∃ line lines, split '\n' (commentText body) = line :: lines ∧
      ∃ start, start <+: body.toList ∧ cutRemark line.toList = '(' :: '*' :: start := by
  have hcut : ∀ s, cutRemark ('(' :: '*' :: s) = '(' :: '*' :: cutRemark s := fun s => by
    rw [cutRemark_cons (by decide), cutRemark_cons (by decide)]
  by_cases hnewline : '\n' ∈ body.toList
  · obtain ⟨first, rest, hfirst, hbody⟩ := List.eq_append_cons_of_mem hnewline
    have hline : '\n' ∉ '(' :: '*' :: first := by simp [hbody]
    have hsplit : split '\n' (commentText body) = String.ofList ('(' :: '*' :: first) ::
        (List.splitOn '\n' (rest ++ ['*', ')'])).map String.ofList := by
      have htext : (commentText body).toList =
          ('(' :: '*' :: first) ++ '\n' :: (rest ++ ['*', ')']) := by
        simp [toList_commentText, hfirst]
      rw [split, htext, List.splitOn_append_cons_self_of_not_mem hline, List.map_cons]
    refine ⟨_, _, hsplit, cutRemark first, ?_, ?_⟩
    · rw [hfirst]
      exact (cutRemark_isPrefix first).trans (List.prefix_append first _)
    · rw [String.toList_ofList, hcut]
  · have hremark : Chars.contains ['/', '/'] body.toList = true := by
      rw [← Bool.not_eq_false]
      exact fun hremark => h ⟨hnewline, hremark⟩
    have hline : '\n' ∉ (commentText body).toList := by simp [toList_commentText, hnewline]
    refine ⟨commentText body, [], ?_, cutRemark body.toList, cutRemark_isPrefix _, ?_⟩
    · rw [split, List.splitOn_eq_singleton hline]
      simp
    · rw [toList_commentText, hcut, cutRemark_append hremark]

/-- So the comment is not closed on this line, and its bracket stays. -/
theorem exists_bare_of_not_isInline (hbody : contains "*)" body = false) (h : ¬ IsInline body) :
    ∃ line lines, split '\n' (commentText body) = line :: lines ∧
      ∃ t, (bare line).toList = '(' :: t := by
  obtain ⟨line, lines, hsplit, start, hstart, hcut⟩ := exists_cutRemark_of_not_isInline h
  refine ⟨line, lines, hsplit, ?_⟩
  have hopen := dropComments_open (Chars.contains_eq_false_of_isPrefix hbody hstart)
  obtain ⟨t, ht⟩ := exists_trimRight_append (p := isBlank) (x := '(') (by decide) []
    (dropComments ('*' :: start))
  refine ⟨t, ?_⟩
  rw [bare, bareLine, hcut, hopen, strip, String.toList_ofList, String.toList_ofList, Chars.trim,
    Chars.trimLeft, List.dropWhile_cons_of_neg (by decide)]
  exact ht

/-- A line that begins with a bracket is a statement outside the sections and opens none. -/
theorem statementOf_bracket {line : String} {t : List Char} (h : (bare line).toList = '(' :: t) :
    statementOf false line = [bare line] ∧ nextInside false (bare line) = false := by
  have hne : bare line ≠ "" := by simp [← String.toList_inj, h]
  have hvar : startsWithWord "VAR" (bare line) = false := by
    simp only [startsWithWord, h]
    rfl
  have hend : startsWithWord "END_VAR" (bare line) = false := by
    simp only [startsWithWord, h]
    rfl
  have hremark : startsWith "//" (bare line) = false := by simp [startsWith, h, List.isPrefixOf]
  simp [statementOf, isStatement, nextInside, hne, hvar, hend, hremark]

/-- Outside the sections the first line of such a comment is a statement. -/
theorem statements_comment (hbody : contains "*)" body = false) (h : ¬ IsInline body) :
    ∃ line lines, split '\n' (commentText body) = line :: lines ∧ startsWith "(" (bare line) ∧
      statements false (line :: lines) = bare line :: statements false lines := by
  obtain ⟨line, lines, hsplit, t, ht⟩ := exists_bare_of_not_isInline hbody h
  obtain ⟨hstatement, hnext⟩ := statementOf_bracket ht
  refine ⟨line, lines, hsplit, by simp [startsWith, ht], ?_⟩
  rw [statements_cons, hstatement, hnext, List.singleton_append]

end Body

/-- What becomes of a program when a comment is put between two of its lines.

A comment on one line and without a remark changes nothing, and inside a section no comment does
before one of its lines closes the section.  Any other comment is read line by line as if it were
code: the bracket that opens it becomes a statement, as do its lines.  It then changes the program,
unless its lines open or close a section. -/
theorem logic_insertAt_comment (source body : String) (i : Nat)
    (hbody : contains "*)" body = false) :
    let logic := fun s => (Exchange.readProgram Table.empty s).logic
    let comment := split '\n' (commentText body)
    let inside := insideAt source i
    logic (insertAt source i (commentText body)) =
        statements false ((split '\n' source).take i) ++ (statements inside comment ++
          statements (insideAfter inside comment) ((split '\n' source).drop i)) ∧
      (IsInline body → logic (insertAt source i (commentText body)) = logic source) ∧
      (inside = true → (∀ line ∈ comment, startsWithWord "END_VAR" (bare line) = false) →
        logic (insertAt source i (commentText body)) = logic source) ∧
      (inside = false → ¬ IsInline body → ∃ line ∈ comment, startsWith "(" (bare line) ∧
        bare line ∈ logic (insertAt source i (commentText body))) ∧
      (inside = false → insideAfter inside comment = false →
        (logic (insertAt source i (commentText body)) = logic source ↔ IsInline body)) := by
  simp only [logic_readProgram]
  have hinline : IsInline body →
      statements (insideAt source i) (split '\n' (commentText body)) = [] ∧
        insideAfter (insideAt source i) (split '\n' (commentText body)) = insideAt source i := by
    intro h
    obtain ⟨hline, hempty⟩ := bare_comment_of_isInline hbody h
    rw [hline, statements_cons, statementOf, insideAfter_cons, hempty, nextInside_empty]
    exact ⟨rfl, rfl⟩
  refine ⟨programLines_insertAt source i _, fun h => ?_, fun hinside hopen => ?_,
    fun hinside h => ?_, fun hinside hafter => ?_⟩
  · obtain ⟨hnone, hsame⟩ := hinline h
    exact (programLines_insertAt_eq_iff source i hsame).2 hnone
  · obtain ⟨hnone, hsame⟩ := statements_inside hopen
    rw [programLines_insertAt_eq_iff source i (by rw [hinside, hsame]), hinside, hnone]
  · obtain ⟨line, lines, hsplit, hbracket, hstatements⟩ := statements_comment hbody h
    refine ⟨line, by rw [hsplit]; exact List.mem_cons_self, hbracket, ?_⟩
    rw [programLines_insertAt, hinside, hsplit, hstatements]
    simp
  · rw [programLines_insertAt_eq_iff source i (by rw [hafter, hinside])]
    refine ⟨fun hnone => ?_, fun h => (hinline h).1⟩
    by_contra h
    obtain ⟨line, lines, hsplit, -, hstatements⟩ := statements_comment hbody h
    rw [hinside, hsplit, hstatements] at hnone
    cases hnone

/-- A program of two statements. -/
def levelSource : String := "Level := 1;\nLevel := 3;"

/-- A comment that switches a statement off, on lines of its own. -/
def switchedOff : String := " off\nPump := 1;\n"

theorem logic_insertAt_comment_levelSource :
    contains "*)" switchedOff = false ∧ ¬ IsInline switchedOff ∧
      (Exchange.readProgram Table.empty (insertAt levelSource 1 (commentText switchedOff))).logic ≠
        (Exchange.readProgram Table.empty levelSource).logic ∧
    contains "*)" " Pump := 1; " = false ∧ IsInline " Pump := 1; " ∧
      (Exchange.readProgram Table.empty
        (insertAt levelSource 1 (commentText " Pump := 1; "))).logic =
        (Exchange.readProgram Table.empty levelSource).logic := by
  have hlines : ¬ IsInline switchedOff := by decide
  have houtside : insideAt levelSource 1 = false := by decide +kernel
  have hafter : insideAfter (insideAt levelSource 1) (split '\n' (commentText switchedOff)) =
      false := by decide +kernel
  have hinline : IsInline " Pump := 1; " := by decide
  have hswitched := logic_insertAt_comment levelSource switchedOff 1 (by decide)
  have hplain := logic_insertAt_comment levelSource " Pump := 1; " 1 (by decide)
  exact ⟨by decide, hlines, fun h => hlines ((hswitched.2.2.2.2 houtside hafter).1 h), by decide,
    hinline, hplain.2.1 hinline⟩

/-- A statement that is switched off by a comment over several lines is run all the same, between
statements made of the brackets. -/
theorem switchedOff_becomes_statement :
    insertAt levelSource 1 (commentText switchedOff) =
        "Level := 1;\n(* off\nPump := 1;\n*)\nLevel := 3;" ∧
      (Exchange.readProgram Table.empty (insertAt levelSource 1 (commentText switchedOff))).logic =
        ["Level := 1;", "(* off", "Pump := 1;", "*)", "Level := 3;"] ∧
      (Exchange.readProgram Table.empty levelSource).logic = ["Level := 1;", "Level := 3;"] := by
  decide +kernel

end ControlLogic.StructuredText
