import ControlLogic.Analysis.Reference
import ControlLogic.Proofs.Text.Chars
import ControlLogic.Proofs.Text.Preferred

/-!
# What is kept of a reference

A reference is an upper case name with parts behind dots.  Its pattern passes all of it, but what
it remembers is overwritten with each part, so that the last part is all that is kept.

* `TagPath` holds a name with its parts, `TagPath.text` is the reference as it is written, and
  `TagPath.kept` its last part with the dot.
* `exists_prefers_reference` follows the pattern over a whole reference.
* `firstReference?_text` and `references_text` read it off: the text of a path gives what is kept of
  it, and nothing if it has no parts.
* `isPart_of_firstReference?` and `isPart_of_mem_references`: nothing but such parts is ever found,
  in any expression.
-/

namespace ControlLogic.Analysis

open Text Text.Pattern

/-! ## Paths -/

theorem isNamePart_of_isNameStart {c : Char} (h : isNameStart c = true) : isNamePart c = true := by
  simp [isNamePart, h]

/-- The characters of names are capital letters, digits and the underscore. -/
theorem isNamePart_iff {c : Char} : isNamePart c = true ↔
    65 ≤ c.toNat ∧ c.toNat ≤ 90 ∨ 48 ≤ c.toNat ∧ c.toNat ≤ 57 ∨ c.toNat = 95 := by
  have hunderscore : c = '_' ↔ c.toNat = 95 :=
    ⟨fun h => h ▸ rfl, fun h => Char.toNat_inj.1 h⟩
  simp only [isNamePart, isNameStart, Bool.or_eq_true, Bool.and_eq_true, decide_eq_true_eq,
    beq_iff_eq, Char.le_def, UInt32.le_iff_toNat_le, hunderscore, or_assoc]
  exact Iff.rfl

theorem isWordChar_of_isNamePart {c : Char} (h : isNamePart c = true) : isWordChar c = true := by
  have hrange := isNamePart_iff.1 h
  rw [isWordChar, if_pos (by omega)]
  simp only [isNamePart, isNameStart, Bool.or_eq_true] at h
  simp only [isNameChar, isLetter, isAsciiDigit, Bool.or_eq_true]
  tauto

/-- A capital letter, and then capital letters, digits and underscores. -/
def IsUpperName (s : String) : Prop :=
  s.toList.head?.any isNameStart = true ∧ ∀ c ∈ s.toList, isNamePart c = true

instance (s : String) : Decidable (IsUpperName s) :=
  have := List.decidableBAll (fun c => isNamePart c = true) s.toList
  inferInstanceAs (Decidable (_ ∧ _))

theorem IsUpperName.exists_cons {s : String} (h : IsUpperName s) :
    ∃ c t, s.toList = c :: t ∧ isNameStart c = true ∧ ∀ x ∈ t, isNamePart x = true := by
  obtain ⟨hstart, hparts⟩ := h
  cases hs : s.toList with
  | nil =>
    rw [hs] at hstart
    cases hstart
  | cons c t =>
    rw [hs] at hstart hparts
    exact ⟨c, t, rfl, by simpa using hstart, fun x hx => hparts x (List.mem_cons_of_mem _ hx)⟩

theorem IsUpperName.exists_getLast? {s : String} (h : IsUpperName s) :
    ∃ y, s.toList.getLast? = some y ∧ isWordChar y = true := by
  obtain ⟨x, t, hlist, -⟩ := h.exists_cons
  have hne : s.toList ≠ [] := hlist ▸ List.cons_ne_nil x t
  exact ⟨_, List.getLast?_eq_some_getLast hne,
    isWordChar_of_isNamePart (h.2 _ (List.getLast_mem hne))⟩

/-- A name with parts. -/
structure TagPath where
  name : String
  parts : List String
  isUpperName : ∀ s ∈ name :: parts, IsUpperName s

namespace TagPath

variable (T : TagPath)

/-- The reference as it is written. -/
def text : String := join "." (T.name :: T.parts)

/-- What is kept of the reference: its last part with the dot, or nothing. -/
def kept : String := (T.parts.getLast?.map ("." ++ ·)).getD ""

/-- The parts as they are written, with their dots. -/
def dotted (parts : List String) : List Char := parts.flatMap fun s => '.' :: s.toList

theorem toList_text : T.text.toList = T.name.toList ++ dotted T.parts := by
  rw [text, toList_join, List.map_cons]
  generalize T.name.toList = name
  induction T.parts generalizing name with
  | nil => simp [dotted]
  | cons s parts ih =>
    rw [List.map_cons, List.intercalate_cons_cons, ih]
    simp [dotted]

/-- A reference holds nothing but characters of names and dots. -/
theorem mem_text {c : Char} (h : c ∈ T.text.toList) : isNamePart c = true ∨ c = '.' := by
  rw [toList_text, List.mem_append, dotted, List.mem_flatMap] at h
  rcases h with h | ⟨s, hs, h⟩
  · exact .inl ((T.isUpperName T.name List.mem_cons_self).2 c h)
  · rcases List.mem_cons.1 h with rfl | h
    · exact .inr rfl
    · exact .inl ((T.isUpperName s (List.mem_cons_of_mem _ hs)).2 c h)

/-- A reference begins with a letter, and so with no dot. -/
theorem exists_text_eq_cons : ∃ c t, T.text.toList = c :: t ∧ c ≠ '.' := by
  obtain ⟨c, t, hname, hc, -⟩ := (T.isUpperName T.name List.mem_cons_self).exists_cons
  refine ⟨c, t ++ dotted T.parts, by rw [toList_text, hname, List.cons_append], ?_⟩
  rintro rfl
  exact absurd hc (by decide)

theorem kept_eq_empty_iff : T.kept = "" ↔ T.parts = [] := by
  rw [kept, ← List.getLast?_eq_none_iff]
  cases T.parts.getLast? <;> simp

/-- A reference is never what is kept of it. -/
theorem kept_ne_text : T.kept ≠ T.text := by
  obtain ⟨c, t, htext, hdot⟩ := T.exists_text_eq_cons
  rw [Ne, ← String.toList_inj, htext, kept]
  cases T.parts.getLast? with
  | none => simp
  | some s => simp [hdot.symm]

end TagPath

/-! ## The pattern over a path -/

/-- One part of a reference, which is remembered. -/
def referencePart : Pattern := .group 1 (.seq (.text ".") upperName)

theorem prefers_upperName {c : Cursor} {s : String} {t : List Char} (hs : IsUpperName s)
    (hrest : c.rest = s.toList ++ t) (ht : t.head?.any isNamePart = false) :
    Prefers upperName c (c.past s.toList t) := by
  obtain ⟨x, u, hlist, hx, hu⟩ := hs.exists_cons
  rw [hlist] at hrest ⊢
  have hstart : Prefers (.one isNameStart) c (c.past [x] (u ++ t)) := prefers_one hrest hx
  have hparts : Prefers (.star (.one isNamePart)) (c.past [x] (u ++ t))
      ((c.past [x] (u ++ t)).past u t) := prefers_star rfl hu ht
  rw [Cursor.past_past] at hparts
  exact hstart.seq hparts

theorem prefers_referencePart {c : Cursor} {s : String} {t : List Char} (hs : IsUpperName s)
    (hrest : c.rest = '.' :: s.toList ++ t) (ht : t.head?.any isNamePart = false) :
    Prefers referencePart c ((c.past ('.' :: s.toList) t).mark 1 ('.' :: s.toList)) := by
  have hdot : Prefers (.text ".") c (c.past ".".toList (s.toList ++ t)) := prefers_text hrest
  have hname := prefers_upperName (c := c.past ".".toList (s.toList ++ t)) hs rfl ht
  rw [Cursor.past_past] at hname
  exact (hdot.seq hname).group hrest

/-- Behind a name comes a dot or the end. -/
theorem head?_dotted (parts : List String) :
    (TagPath.dotted parts).head?.any isNamePart = false := by
  cases parts with
  | nil => rfl
  | cons s parts => exact (by decide : isNamePart '.' = false)

/-- The parts are passed one by one, and each is remembered before those that came before. -/
theorem exists_rounds_parts {parts : List String} (hparts : ∀ s ∈ parts, IsUpperName s)
    {c : Cursor} (hrest : c.rest = TagPath.dotted parts)
    (hbefore : c.before.any isWordChar = true) :
    ∃ d, Rounds referencePart c d ∧ d.rest = [] ∧ d.pos = c.pos + (TagPath.dotted parts).length ∧
      d.before.any isWordChar = true ∧
      d.marks = parts.reverse.map (fun s => (1, '.' :: s.toList)) ++ c.marks := by
  induction parts generalizing c with
  | nil => exact ⟨c, .nil c, hrest, rfl, hbefore, rfl⟩
  | cons s parts ih =>
    obtain ⟨hs, hparts⟩ := List.forall_mem_cons.1 hparts
    have hround := prefers_referencePart hs hrest (head?_dotted parts)
    have hlast : ((('.' :: s.toList).getLast?).or c.before).any isWordChar = true := by
      obtain ⟨y, hy, hword⟩ := hs.exists_getLast?
      rw [List.getLast?_cons, hy]
      exact hword
    obtain ⟨d, hrounds, hdrest, hdpos, hdbefore, hdmarks⟩ := ih hparts
      (c := (c.past ('.' :: s.toList) (TagPath.dotted parts)).mark 1 ('.' :: s.toList)) rfl hlast
    refine ⟨d, .cons hround ?_ hrounds, hdrest, ?_, hdbefore, ?_⟩
    · simp [Cursor.past, Cursor.mark]
    · rw [hdpos, TagPath.dotted, TagPath.dotted, List.flatMap_cons, List.length_append]
      simp only [Cursor.past, Cursor.mark]
      omega
    · rw [hdmarks]
      simp

/-- The pattern passes the whole reference. -/
theorem exists_prefers_reference (T : TagPath) :
    ∃ d, Prefers reference ⟨0, none, T.text.toList, []⟩ d ∧ d.pos = T.text.toList.length ∧
      d.marks = T.parts.reverse.map fun s => (1, '.' :: s.toList) := by
  obtain ⟨hname, hparts⟩ := List.forall_mem_cons.1 T.isUpperName
  obtain ⟨x, t, hlist, hx, -⟩ := hname.exists_cons
  have hword : isWordChar x = true := isWordChar_of_isNamePart (isNamePart_of_isNameStart hx)
  have hfirst : Prefers upperName ⟨0, none, T.text.toList, []⟩
      (Cursor.past ⟨0, none, T.text.toList, []⟩ T.name.toList (TagPath.dotted T.parts)) :=
    prefers_upperName hname T.toList_text (head?_dotted T.parts)
  have hlast : (T.name.toList.getLast?.or none).any isWordChar = true := by
    obtain ⟨y, hy, hlastWord⟩ := hname.exists_getLast?
    rw [hy]
    exact hlastWord
  obtain ⟨d, hrounds, hrest, hpos, hbefore, hmarks⟩ := exists_rounds_parts hparts
    (c := Cursor.past ⟨0, none, T.text.toList, []⟩ T.name.toList (TagPath.dotted T.parts)) rfl hlast
  -- at the end no part and no index is left, and the last word ends
  have hpart : referencePart.Fails d := by
    refine fails_of_not_matches fun e he => ?_
    have hdot : '.' ∈ d.rest := he.mem_of_demands (.inl fun y hy => eq_of_beq hy)
    simp [hrest] at hdot
  have hindex : (Pattern.all [.text "[", .star (.except "]"), .text "]"]).Fails d := by
    refine fails_of_not_matches fun e he => ?_
    have hbracket : '[' ∈ d.rest := he.mem_of_demands (.inl fun y hy => eq_of_beq hy)
    simp [hrest] at hbracket
  have hbegin : (⟨0, none, T.text.toList, []⟩ : Cursor).atEdge = true := by
    simp [Cursor.atEdge, T.toList_text, hlist, hword]
  have hend : d.atEdge = true := by
    simp [Cursor.atEdge, hbefore, hrest]
  refine ⟨d, ?_, ?_, by simpa using hmarks⟩
  · exact (prefers_edge hbegin).seq (hfirst.seq ((hrounds.prefers_star hpart).seq
      ((prefers_right hindex (prefers_empty d)).seq (prefers_edge hend))))
  · rw [hpos, T.toList_text, List.length_append]
    simp [Cursor.past]

/-- The match of a path. -/
def TagPath.found (T : TagPath) : Match :=
  ⟨0, T.text.toList, T.parts.reverse.map fun s => (1, '.' :: s.toList)⟩

theorem matchAt_reference (T : TagPath) :
    reference.matchAt 0 none T.text.toList = some T.found := by
  obtain ⟨d, hprefers, hpos, hmarks⟩ := exists_prefers_reference T
  rw [matchAt_of_prefers hprefers, hpos, hmarks, Nat.sub_zero, List.take_length, TagPath.found]

/-- The mark that counts is the last one. -/
theorem group_found (T : TagPath) : T.found.group 1 = T.kept := by
  rw [Match.group, Match.group?, TagPath.found, TagPath.kept, List.getLast?_eq_head?_reverse]
  cases T.parts.reverse with
  | nil => rfl
  | cons s parts => simp

theorem matchAt_reference_nil (pos : Nat) (before : Option Char) :
    reference.matchAt pos before [] = none := by
  rw [matchAt]
  refine fails_of_not_matches (fun d hd => ?_) _
  cases hd with | seq hedge hrest =>
  cases hedge
  cases hrest with | seq hname _ =>
  cases hname with | seq hstart _ =>
  cases hstart with | one hrest _ => cases hrest

/-! ## What is found -/

theorem firstReference?_text (T : TagPath) : firstReference? T.text = some T.kept := by
  obtain ⟨c, t, htext, -⟩ := T.exists_text_eq_cons
  have hmatch := matchAt_reference T
  rw [htext] at hmatch
  rw [firstReference?, find?, htext, findFrom, hmatch, Option.map_some, group_found]

theorem findAll_reference (T : TagPath) : reference.findAll T.text = [T.found] := by
  obtain ⟨c, t, htext, -⟩ := T.exists_text_eq_cons
  have hmatch := matchAt_reference T
  have hlength : T.found.text.length = t.length + 1 := by
    rw [TagPath.found, htext, List.length_cons]
  obtain ⟨pos, before, hscan⟩ := exists_scanFrom_length reference 1 (some c) t
  rw [htext] at hmatch
  rw [findAll, htext, scanFrom, hmatch]
  simp only [hlength]
  rw [hscan, matchAt_reference_nil]
  rfl

/-- A path is found under its last part, and not at all if it has no parts. -/
theorem references_text (T : TagPath) :
    references T.text = if T.parts = [] then [] else [T.kept] := by
  rw [references, findAll_reference, List.map_singleton, group_found]
  have hempty : Text.isEmpty T.kept = decide (T.parts = []) := by
    rw [Bool.eq_iff_iff, decide_eq_true_eq, ← T.kept_eq_empty_iff]
    simp [Text.isEmpty]
  by_cases hparts : T.parts = []
  · simp [hempty, hparts, ascending]
  · simp [hempty, hparts, ascending, List.eraseDups_cons]

/-- A dot and a name. -/
def IsPart (tag : String) : Prop := ∃ s, IsUpperName s ∧ tag = "." ++ s

theorem exists_upperName_of_matches {c d : Cursor} (h : Matches upperName c d) :
    ∃ s, IsUpperName s ∧ c.rest = s.toList ++ d.rest := by
  cases h with | seq hstart hparts =>
  cases hstart with | one hrest hx =>
  rename_i x xs
  obtain ⟨t, ht, -, hall⟩ := hparts.exists_passed (P := (isNamePart · = true)) fun _ h => h
  refine ⟨String.ofList (x :: t), ⟨by simpa using hx, ?_⟩, ?_⟩
  · rw [String.toList_ofList]
    exact List.forall_mem_cons.2 ⟨isNamePart_of_isNameStart hx, hall⟩
  · rw [hrest, String.toList_ofList, List.cons_append, ← ht]

/-- What a match remembers is a part. -/
theorem isPart_of_group? {pos : Nat} {before : Option Char} {rest : List Char} {m : Match}
    (h : reference.matchAt pos before rest = some m) {tag : String} (htag : m.group? 1 = some tag) :
    IsPart tag := by
  obtain ⟨a, c, d, ha, hmatches, -, hrest⟩ := exists_matches_of_group? h htag
  obtain rfl : a = .seq (.text ".") upperName := congrArg (·.2) (List.mem_singleton.1 ha)
  cases hmatches with | seq hdot hname =>
  obtain ⟨s, hs, hsrest⟩ := exists_upperName_of_matches hname
  rw [hdot.rest_text, hsrest, ← List.append_assoc] at hrest
  refine ⟨s, hs, String.toList_inj.1 ?_⟩
  rw [String.toList_append]
  exact (List.append_cancel_right hrest).symm

theorem isPart_of_group {pos : Nat} {before : Option Char} {rest : List Char} {m : Match}
    (h : reference.matchAt pos before rest = some m) (hne : m.group 1 ≠ "") :
    IsPart (m.group 1) := by
  rw [Match.group] at hne ⊢
  cases hgroup : m.group? 1 with
  | none =>
    rw [hgroup] at hne
    exact absurd rfl hne
  | some tag => exact isPart_of_group? h hgroup

/-- What an expression is taken to refer to is a part. -/
theorem isPart_of_firstReference? {expression tag : String}
    (h : firstReference? expression = some tag) (hne : tag ≠ "") : IsPart tag := by
  obtain ⟨m, hm, rfl⟩ := Option.map_eq_some_iff.1 h
  obtain ⟨pos, before, rest, hmatch⟩ := exists_matchAt_of_findFrom hm
  exact isPart_of_group hmatch hne

theorem isPart_of_mem_references {expression tag : String} (h : tag ∈ references expression) :
    IsPart tag := by
  rw [references, mem_ascending, List.mem_filter] at h
  obtain ⟨hmem, hne⟩ := h
  obtain ⟨m, hm, rfl⟩ := List.mem_map.1 hmem
  obtain ⟨pos, before, rest, -, hmatch⟩ := exists_matchAt_of_mem_findAll hm
  exact isPart_of_group hmatch (by simpa [Text.isEmpty] using hne)

/-- A part is no reference. -/
theorem IsPart.ne_text {tag : String} (h : IsPart tag) (T : TagPath) : tag ≠ T.text := by
  obtain ⟨s, -, rfl⟩ := h
  obtain ⟨c, t, htext, hdot⟩ := T.exists_text_eq_cons
  rw [Ne, ← String.toList_inj, htext, String.toList_append]
  simp [hdot.symm]

end ControlLogic.Analysis
