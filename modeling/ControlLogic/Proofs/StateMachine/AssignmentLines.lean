import ControlLogic.Proofs.StateMachine.Closed
import ControlLogic.Proofs.Text.Search
import ControlLogic.Proofs.Text.Spacing

/-!
# Lines that assign a value

A line may assign a value by an equals sign, by a colon, or by both.  One pattern reads all three: a
word, one of the two characters, and what follows up to a semicolon.  This file says what it makes
of them.

* `IsName`, `isStateName_of_isName` and `isStateName_eq_false`: which texts are names of states.
* `Assigns` and `exists_strip_of_assigns`: the form of the lines.
* `assignment?_of_sign`: the value is what follows the first of the two characters, so that of a
  colon and an equals sign the second belongs to the value.
* `not_standsWith_of_assigns`: nothing in such a line is found as a state in another way.

`recorded_iff_one_character` is the result.
-/

namespace ControlLogic.StateMachine

open Text Text.Pattern

/-! ## Names and states -/

/-- A word of ASCII letters, digits and underscores. -/
def IsName (s : String) : Prop :=
  s ≠ "" ∧ ∀ c ∈ s.toList, isNameChar c = true

instance (s : String) : Decidable (IsName s) :=
  have := List.decidableBAll (fun c => isNameChar c = true) s.toList
  inferInstanceAs (Decidable (s ≠ "" ∧ ∀ c ∈ s.toList, isNameChar c = true))

/-- What holds of the name characters among the first 128 holds of all of them. -/
theorem of_forall_isNameChar {P : Char → Prop}
    (h : ∀ n < 128, isNameChar (Char.ofNat n) = true → P (Char.ofNat n)) {c : Char}
    (hc : isNameChar c = true) : P c :=
  of_forall_ascii (P := fun c => isNameChar c = true → P c) h (toNat_lt_of_isNameChar hc) hc

theorem IsName.isWord {s : String} (h : IsName s) : IsWord s :=
  ⟨h.1, fun c hc => isWordChar_of_isNameChar (h.2 c hc)⟩

/-- A name character becomes one name character, and digits stay digits. -/
theorem lowerChar_of_isNameChar {c : Char} (h : isNameChar c = true) :
    lowerChar c = [fold c] ∧ isNameChar (fold c) = true ∧ isQuote (fold c) = false ∧
      isDigit (fold c) = isDigit c :=
  of_forall_isNameChar (P := fun c => lowerChar c = [fold c] ∧ isNameChar (fold c) = true ∧
    isQuote (fold c) = false ∧ isDigit (fold c) = isDigit c) (by decide) h

theorem lowerFrom_of_isNameChar {s : List Char} (hs : ∀ c ∈ s, isNameChar c = true)
    (before : List Char) : lowerFrom before s = s.map fold := by
  induction s generalizing before with
  | nil => rfl
  | cons c s ih =>
    have hc := hs c List.mem_cons_self
    have hsigma : c.toNat ≠ 931 := by
      have := toNat_lt_of_isNameChar hc
      omega
    rw [lowerFrom, ih fun x hx => hs x (List.mem_cons_of_mem _ hx), if_neg hsigma,
      (lowerChar_of_isNameChar hc).1, List.map_cons, List.singleton_append]

/-- A name is the name of a state unless it is a number. -/
theorem isStateName_of_isName {s : String} (h : IsName s) : isStateName s = !isDigits s := by
  have hmem : ∀ d ∈ s.toList.map fold, ∃ c ∈ s.toList, fold c = d := fun d hd => List.mem_map.1 hd
  have hchars : ∀ d ∈ s.toList.map fold, isNameChar d = true := fun d hd => by
    obtain ⟨c, hc, rfl⟩ := hmem d hd
    exact (lowerChar_of_isNameChar (h.2 c hc)).2.1
  have hlower : unquoted (lower s) = String.ofList (s.toList.map fold) := by
    rw [unquoted, Text.trim, lower, lowerFrom_of_isNameChar h.2, String.toList_ofList,
      Chars.trim_of_forall_not]
    intro d hd
    obtain ⟨c, hc, rfl⟩ := hmem d hd
    exact (lowerChar_of_isNameChar (h.2 c hc)).2.2.1
  have hne : s.toList.map fold ≠ [] := fun hnil =>
    h.1 (String.toList_inj.1 (List.map_eq_nil_iff.1 hnil))
  have hmatch : ((all [plus (one isNameChar), atEnd]).matchStart?
      (String.ofList (s.toList.map fold))).isSome := by
    have hword : Prefers (plus (one isNameChar)) ⟨0, none, s.toList.map fold, []⟩
        (Cursor.past _ (s.toList.map fold) []) :=
      prefers_plus (List.append_nil _).symm hne hchars rfl
    have hwhole : Prefers (all [plus (one isNameChar), atEnd]) ⟨0, none, s.toList.map fold, []⟩
        (Cursor.past _ (s.toList.map fold) []) := hword.seq (prefers_atEnd rfl)
    rw [matchStart?, String.toList_ofList, matchAt_of_prefers hwhole]
    rfl
  have hdigits : isDigits (String.ofList (s.toList.map fold)) = isDigits s := by
    have hall : (s.toList.map fold).all isDigit = s.toList.all isDigit := by
      rw [List.all_map, Bool.eq_iff_iff, List.all_eq_true, List.all_eq_true]
      refine forall₂_congr fun c hc => ?_
      rw [Function.comp_apply, (lowerChar_of_isNameChar (h.2 c hc)).2.2.2]
    obtain ⟨c, t, hs⟩ := List.exists_cons_of_ne_nil h.isWord.toList_ne_nil
    rw [isDigits, isDigits, String.toList_ofList, hs]
    rwa [hs] at hall
  rw [isStateName]
  simp only [hlower, hmatch, hdigits, Bool.true_and]

theorem mem_lowerFrom {x : Char} (hx : lowerChar x = [x]) (hsigma : x.toNat ≠ 931)
    {s : List Char} (h : x ∈ s) (before : List Char) : x ∈ lowerFrom before s := by
  induction s generalizing before with
  | nil => cases h
  | cons c s ih =>
    rw [lowerFrom]
    rcases List.mem_cons.1 h with rfl | h
    · rw [if_neg hsigma, hx]
      exact List.mem_cons_self
    · exact List.mem_append_right _ (ih h _)

theorem mem_trim {p : Char → Bool} {x : Char} (hx : p x = false) {s : List Char} (h : x ∈ s) :
    x ∈ Chars.trim p s := by
  have hdrop : ∀ {l : List Char}, x ∈ l → x ∈ l.dropWhile p := by
    intro l hl
    rw [← List.takeWhile_append_dropWhile (p := p) (l := l), List.mem_append] at hl
    refine hl.resolve_left fun htake => ?_
    have hpx := List.all_eq_true.1 List.all_takeWhile x htake
    rw [hx] at hpx
    cases hpx
  rw [Chars.trim, Chars.trimRight, List.mem_reverse]
  exact hdrop (List.mem_reverse.2 (hdrop h))

/-- A text with a colon or an equals sign is not the name of a state. -/
theorem isStateName_eq_false {s : String} {x : Char} (hsign : x = ':' ∨ x = '=')
    (h : x ∈ s.toList) : isStateName s = false := by
  have hx : lowerChar x = [x] ∧ x.toNat ≠ 931 ∧ isQuote x = false ∧ isNameChar x = false ∧
      x ≠ '\n' := by
    rcases hsign with rfl | rfl <;> decide
  have hmem : x ∈ (unquoted (lower s)).toList := by
    rw [unquoted, Text.trim, lower, String.toList_ofList, String.toList_ofList]
    exact mem_trim hx.2.2.1 (mem_lowerFrom hx.1 hx.2.1 h [])
  have hnone : (all [plus (one isNameChar), atEnd]).matchStart? (unquoted (lower s)) = none := by
    refine fails_of_not_matches (fun d hd => ?_) _
    cases hd with | seq hword hend =>
    obtain ⟨t, ht, -, hname⟩ := hword.exists_passed (P := (isNameChar · = true))
      ⟨fun _ h => h, fun _ h => h⟩
    cases hend with | atEnd hend =>
    simp only at ht
    rw [ht, List.mem_append] at hmem
    rcases hmem with hmem | hmem
    · rw [hname x hmem] at hx
      cases hx.2.2.2.1
    · rcases hend with hend | hend
      · rw [hend] at hmem
        cases hmem
      · rw [hend, List.mem_singleton] at hmem
        exact hx.2.2.2.2 hmem
  rw [isStateName, hnone]
  rfl

/-! ## The form of a line -/

/-- A line assigns a value to a variable: the two with a sign between them and a semicolon at the
end, and any blanks around them. -/
def Assigns (sign line name value : String) : Prop :=
  ∃ a b c d e, AllBlank a ∧ AllBlank b ∧ AllBlank c ∧ AllBlank d ∧ AllBlank e ∧
    line.toList = a ++ name.toList ++ b ++ sign.toList ++ c ++ value.toList ++ d ++ ';' :: e

section

variable {sign line name value : String}

theorem IsName.unquoted_strip (h : IsName name) : unquoted (strip name) = name := by
  have hquote : ∀ c ∈ name.toList, isQuote c = false := fun c hc =>
    of_forall_isNameChar (P := fun c => isQuote c = false) (by decide) (h.2 c hc)
  rw [strip_of_hasEnds h.isWord.hasEnds, unquoted, Text.trim, Chars.trim_of_forall_not hquote,
    String.ofList_toList]

/-- Without the blanks around it a line begins with the variable and ends with the semicolon. -/
theorem exists_strip_of_assigns (hname : IsName name) (h : Assigns sign line name value) :
    ∃ b c d, AllBlank b ∧ AllBlank c ∧ AllBlank d ∧ (strip line).toList =
      name.toList ++ (b ++ (sign.toList ++ (c ++ (value.toList ++ (d ++ [';']))))) := by
  obtain ⟨a, b, c, d, e, ha, hb, hc, hd, he, hline⟩ := h
  refine ⟨b, c, d, hb, hc, hd, ?_⟩
  have hends : HasEnds
      (name.toList ++ (b ++ (sign.toList ++ (c ++ (value.toList ++ (d ++ [';'])))))) := by
    have hparts := hname.isWord.hasEnds.append (t := [';']) (by decide)
      (b ++ sign.toList ++ c ++ value.toList ++ d)
    simpa only [List.append_assoc] using hparts
  have htrim := trim_between ha hends he
  rw [strip, String.toList_ofList, hline]
  simpa only [List.append_assoc, List.cons_append, List.nil_append] using htrim

/-! ## What is recorded -/

/-- The value is what stands between the first sign and the semicolon, without blanks around it. -/
theorem assignment?_of_sign {x : Char} {b c v d : List Char} (hname : IsName name)
    (hx : x = ':' ∨ x = '=') (hb : AllBlank b) (hc : AllBlank c) (hv : HasEnds v)
    (hsemicolon : ';' ∉ v) (hd : AllBlank d)
    (hline : line.toList = name.toList ++ (b ++ x :: (c ++ (v ++ (d ++ [';']))))) :
    assignment? line = some ⟨name, String.ofList v, line⟩ := by
  have hsign : isBlank x = false ∧ isWordChar x = false ∧ ":=".toList.contains x = true := by
    rcases hx with rfl | rfl <;> decide
  have hvalue : ';' ∉ v ++ d := fun hmem => by
    rcases List.mem_append.1 hmem with hmem | hmem
    · exact hsemicolon hmem
    · exact absurd (hd _ hmem) (by decide)
  let start : Cursor := ⟨0, none, line.toList, []⟩
  let named := (start.past name.toList (b ++ x :: (c ++ (v ++ (d ++ [';']))))).mark 1 name.toList
  let signed := (named.past b (x :: (c ++ (v ++ (d ++ [';']))))).past [x] (c ++ (v ++ (d ++ [';'])))
  let behind := signed.past c (v ++ (d ++ [';']))
  have h₁ : Prefers (group 1 word) start named :=
    Prefers.group hline (prefers_plus hline hname.isWord.toList_ne_nil hname.isWord.2
      (head?_any_append (fun _ => isBlank_of_isWordChar) hb hsign.2.1))
  have h₂ : Prefers blanks named (named.past b (x :: (c ++ (v ++ (d ++ [';']))))) :=
    prefers_star rfl hb hsign.1
  have h₃ : Prefers (among ":=") (named.past b (x :: (c ++ (v ++ (d ++ [';']))))) signed :=
    prefers_one rfl hsign.2.2
  have h₄ : Prefers blanks signed behind := prefers_star rfl hc (hv.head?_any_append _)
  have h₅ : Prefers (group 2 (plus (except ";"))) behind
      ((behind.past (v ++ d) [';']).mark 2 (v ++ d)) :=
    Prefers.group (List.append_assoc ..).symm (prefers_plus (List.append_assoc ..).symm
      (List.append_ne_nil_of_left_ne_nil hv.ne_nil d) (forall_except rfl hvalue) (by decide))
  have hmatch : Prefers assignmentPattern start ((behind.past (v ++ d) [';']).mark 2 (v ++ d)) :=
    h₁.seq (h₂.seq (h₃.seq (h₄.seq h₅)))
  have hstrip : strip (String.ofList v ++ String.ofList d) = String.ofList v := by
    have htrim := trim_between (a := []) (by decide) hv hd
    rw [List.nil_append] at htrim
    rw [← String.ofList_append, strip, String.toList_ofList, htrim]
  rw [assignment?, find?, findFrom_of_matchAt (matchAt_of_prefers hmatch), Option.map_some]
  simp [Match.group, Match.group?, start, named, signed, behind, hstrip]

/-- With a colon and an equals sign, the equals sign is recorded as part of the value. -/
theorem exists_assignment?_of_assigns (hname : IsName name) (hvalue : IsName value)
    (h : Assigns ":=" line name value) : ∃ c, AllBlank c ∧ assignment? (strip line) =
      some ⟨name, String.ofList ('=' :: (c ++ value.toList)), strip line⟩ := by
  obtain ⟨b, c, d, hb, hc, hd, hstrip⟩ := exists_strip_of_assigns hname h
  have hends : HasEnds ('=' :: (c ++ value.toList)) :=
    HasEnds.append (s := ['=']) (by decide) hvalue.isWord.hasEnds c
  have hsemicolon : ';' ∉ '=' :: (c ++ value.toList) := by
    rw [List.mem_cons, List.mem_append, not_or, not_or]
    refine ⟨by decide, fun hmem => absurd (hc _ hmem) (by decide),
      fun hmem => absurd (hvalue.2 _ hmem) (by decide)⟩
  exact ⟨c, hc, assignment?_of_sign (c := []) hname (.inl rfl) hb (by decide) hends hsemicolon hd
    (by simpa using hstrip)⟩

/-- With one of the two signs, the value is recorded. -/
theorem assignment?_of_assigns (hname : IsName name) (hvalue : IsName value)
    (hsign : sign = ":" ∨ sign = "=") (h : Assigns sign line name value) :
    assignment? (strip line) = some ⟨name, value, strip line⟩ := by
  obtain ⟨b, c, d, hb, hc, hd, hstrip⟩ := exists_strip_of_assigns hname h
  have hsemicolon : ';' ∉ value.toList := fun hmem => absurd (hvalue.2 _ hmem) (by decide)
  have hread : ∀ x : Char, x = ':' ∨ x = '=' → sign.toList = [x] →
      assignment? (strip line) = some ⟨name, value, strip line⟩ := by
    intro x hx hsign
    rw [hsign] at hstrip
    have hread := assignment?_of_sign hname hx hb hc hvalue.isWord.hasEnds hsemicolon hd hstrip
    rwa [String.ofList_toList] at hread
  rcases hsign with rfl | rfl
  · exact hread ':' (.inl rfl) rfl
  · exact hread '=' (.inr rfl) rfl

/-! ## What else is found -/

/-- Whether a character stands in a line beside the sign. -/
def isPlain (x : Char) : Bool := isNameChar x || isBlank x || x == ';'

theorem exists_split_of_assigns (hname : IsName name) (hvalue : IsName value)
    (h : Assigns ":=" line name value) : ∃ front tail,
      (strip line).toList = front ++ ':' :: '=' :: tail ∧
      (∀ x ∈ front, isPlain x = true) ∧ ∀ x ∈ tail, isPlain x = true := by
  obtain ⟨b, c, d, hb, hc, hd, hstrip⟩ := exists_strip_of_assigns hname h
  have hnamed : ∀ {s}, IsName s → ∀ x ∈ s.toList, isPlain x = true := fun hs x hx => by
    simp [isPlain, hs.2 x hx]
  have hblank : ∀ {g}, AllBlank g → ∀ x ∈ g, isPlain x = true := fun hg x hx => by
    simp [isPlain, hg x hx]
  refine ⟨name.toList ++ b, c ++ (value.toList ++ (d ++ [';'])), by simpa using hstrip, ?_, ?_⟩
  · exact List.forall_mem_append.2 ⟨hnamed hname, hblank hb⟩
  · refine List.forall_mem_append.2 ⟨hblank hc, List.forall_mem_append.2 ⟨hnamed hvalue,
      List.forall_mem_append.2 ⟨hblank hd, List.forall_mem_singleton.2 (by decide)⟩⟩⟩

end

section Guards

variable {front tail : List Char} {c d : Cursor}

theorem not_mem_of_isPlain {x : Char} {l : List Char} (hx : isPlain x = false)
    (hl : ∀ y ∈ l, isPlain y = true) : x ∉ l := fun hmem => by
  rw [hl x hmem] at hx
  cases hx

/-- The last character of a text is not before the blanks at its end. -/
theorem mem_of_append_blanks {a s g : List Char} {x : Char} (hs : s ≠ []) (hg : AllBlank g)
    (hx : isBlank x = false) (h : a ++ (s ++ g) = front ++ [x]) : x ∈ s := by
  have hlast := congrArg List.getLast? h
  rw [List.getLast?_concat, List.getLast?_append, List.getLast?_append] at hlast
  cases hglast : g.getLast? with
  | some y =>
    rw [hglast] at hlast
    cases hlast
    rw [hg x (List.mem_of_getLast? hglast)] at hx
    cases hx
  | none =>
    rw [hglast, List.getLast?_eq_some_getLast hs] at hlast
    cases hlast
    exact List.getLast_mem hs

/-- In a condition the colon is taken for a part of the variable. -/
theorem colon_mem_of_matches_condition (hfront : ∀ x ∈ front, isPlain x = true)
    (htail : ∀ x ∈ tail, isPlain x = true) (h : Matches GuardKind.condition.pattern c d)
    (hc : c.rest <:+ front ++ ':' :: '=' :: tail) (hmarks : c.marks = []) :
    ∃ s t, d.marks = [(2, t), (1, s)] ∧ ':' ∈ s := by
  obtain ⟨before, hbefore⟩ := hc
  cases h with | seq hif h =>
  cases h with | seq hgap h =>
  cases h with | seq hvariable h =>
  cases h with | seq hblanks h =>
  cases h with | seq hsigns h =>
  cases h with | seq hblanks' hvalue =>
  rename_i c₁ c₂ c₃ c₄ c₅ c₆
  obtain ⟨u, hu, -⟩ := hif.exists_passed (within_true _)
  obtain ⟨v, hv, -⟩ := hgap.exists_passed (within_true _)
  obtain ⟨s, hs, hsrest, -, hsmark⟩ := hvariable.exists_passed_group_plus
  obtain ⟨g, hg, -, hgblank⟩ := hblanks.exists_passed (P := (isBlank · = true)) fun _ h => h
  obtain ⟨signs, hne, hsignsrest, -, hsigns'⟩ := hsigns.exists_passed_plus
  obtain ⟨t, -, -, -, htmark⟩ := hvalue.exists_passed_group_plus
  refine ⟨s, t, ?_, ?_⟩
  · rw [htmark, hblanks'.marks_eq rfl, hsigns.marks_eq rfl, hblanks.marks_eq rfl, hsmark,
      hgap.marks_eq rfl, hif.marks_eq rfl, hmarks]
  · obtain ⟨y, signs, rfl⟩ := List.exists_cons_of_ne_nil hne
    have hy : isPlain y = false ∧ y ≠ ':' := by
      have hmem : y ∈ "=!<>".toList := by simpa using hsigns' y List.mem_cons_self
      have hall : "=!<>".toList.all (fun z => !isPlain z && z != ':') = true := by decide
      simpa using List.all_eq_true.1 hall y hmem
    -- the sign stands behind the colon, since there is no other place for it
    have hline : (front ++ [':']) ++ '=' :: tail =
        (before ++ (u ++ (v ++ (s ++ g)))) ++ y :: (signs ++ c₅.rest) := by
      rw [List.append_assoc, List.singleton_append, ← hbefore, hu, hv, hsrest, hg, hsignsrest]
      simp only [List.append_assoc, List.cons_append]
    have hplace := (List.append_cons_inj_of_notMem
      (by simpa using ⟨not_mem_of_isPlain hy.1 hfront, hy.2⟩)
      (not_mem_of_isPlain hy.1 htail)).1 hline
    exact mem_of_append_blanks (a := before ++ (u ++ v)) hs hgblank (by decide)
      (by simpa only [List.append_assoc] using hplace.1.symm)

/-- In an assignment the equals sign is taken for a part of the value. -/
theorem equals_mem_of_matches_assignment (hfront : ∀ x ∈ front, isPlain x = true)
    (htail : ∀ x ∈ tail, isPlain x = true) (h : Matches assignmentPattern c d)
    (hc : c.rest <:+ front ++ ':' :: '=' :: tail) (hmarks : c.marks = []) :
    ∃ s t, d.marks = [(2, t), (1, s)] ∧ '=' ∈ t := by
  obtain ⟨before, hbefore⟩ := hc
  cases h with | seq hvariable h =>
  cases h with | seq hblanks h =>
  cases h with | seq hsign h =>
  cases h with | seq hblanks' hvalue =>
  obtain ⟨s, hs, hsrest, hword, hsmark⟩ := hvariable.exists_passed_group_plus
  obtain ⟨g, hg, -, hgblank⟩ := hblanks.exists_passed (P := (isBlank · = true)) fun _ h => h
  obtain ⟨g', hg', -, hgblank'⟩ := hblanks'.exists_passed (P := (isBlank · = true)) fun _ h => h
  obtain ⟨t, ht, htrest, -, htmark⟩ := hvalue.exists_passed_group_plus
  refine ⟨s, t, ?_, ?_⟩
  · rw [htmark, hblanks'.marks_eq rfl, hsign.marks_eq rfl, hblanks.marks_eq rfl, hsmark, hmarks]
  · cases hsign with | one hrest hy =>
    rename_i y ys
    simp only at hg'
    have hline : front ++ ':' :: '=' :: tail =
        (before ++ (s ++ g)) ++ y :: (g' ++ (t ++ d.rest)) := by
      rw [← hbefore, hsrest, hg, hrest, hg', htrest]
      simp only [List.append_assoc]
    have hy' : y = ':' ∨ y = '=' := by simpa using hy
    rcases hy' with rfl | rfl
    · have hplace := (List.append_cons_inj_of_notMem (not_mem_of_isPlain (by decide) hfront)
        (by simpa using not_mem_of_isPlain (by decide) htail)).1 hline
      obtain rfl : g' = [] := by
        cases g' with
        | nil => rfl
        | cons x g' =>
          obtain ⟨rfl, -⟩ := List.cons.inj hplace.2.2
          exact absurd (hgblank' _ List.mem_cons_self) (by decide)
      obtain ⟨x, t, rfl⟩ := List.exists_cons_of_ne_nil ht
      obtain ⟨rfl, -⟩ := List.cons.inj hplace.2.2
      exact List.mem_cons_self
    · -- the colon would end the variable
      have hline' : (front ++ [':']) ++ '=' :: tail =
          (before ++ (s ++ g)) ++ '=' :: (g' ++ (t ++ d.rest)) := by
        rw [← hline, List.append_assoc, List.singleton_append]
      have hplace := (List.append_cons_inj_of_notMem
        (by simpa using not_mem_of_isPlain (by decide) hfront)
        (not_mem_of_isPlain (by decide) htail)).1 hline'
      have hcolon := mem_of_append_blanks hs hgblank (by decide) hplace.1.symm
      exact absurd (hword _ hcolon) (by decide)

end Guards

section Recorded

variable {line name value : String}

/-- In a guard of such a line a sign belongs to one of the parts, if there are two. -/
theorem parts_of_mem_guardsOf (hname : IsName name) (hvalue : IsName value)
    (h : Assigns ":=" line name value) {g : Guard} (hg : g ∈ guardsOf (strip line)) :
    (∃ s, g.parts = [s]) ∨
      ∃ s t x, g.parts = [s, t] ∧ (x = ':' ∨ x = '=') ∧ (x ∈ s.toList ∨ x ∈ t.toList) := by
  obtain ⟨front, tail, hsplit, hfront, htail⟩ := exists_split_of_assigns hname hvalue h
  obtain ⟨kind, -, hkind⟩ := List.mem_flatMap.1 hg
  obtain ⟨m, hm, rfl⟩ := List.mem_map.1 hkind
  obtain ⟨pos, before, rest, hrest, hmatch⟩ := exists_matchAt_of_mem_findAll hm
  obtain ⟨d, hd, hmark⟩ := exists_matches_of_run _ _ _ _ hmatch
  cases hmark
  rw [hsplit] at hrest
  cases kind with
  | condition =>
    obtain ⟨s, t, hmarks, hmem⟩ := colon_mem_of_matches_condition hfront htail hd hrest rfl
    exact .inr ⟨String.ofList s, String.ofList t, ':', by
      simp [GuardKind.arity, List.range, List.range.loop, Match.group, Match.group?, hmarks],
      .inl rfl, .inl (by simpa using hmem)⟩
  | assignment =>
    obtain ⟨s, t, hmarks, hmem⟩ := equals_mem_of_matches_assignment hfront htail hd hrest rfl
    exact .inr ⟨String.ofList s, String.ofList t, '=', by
      simp [GuardKind.arity, List.range, List.range.loop, Match.group, Match.group?, hmarks],
      .inr rfl, .inr (by simpa using hmem)⟩
  | call =>
    have hdemands : GuardKind.call.pattern.Demands '(' :=
      .inr (.inr (.inl fun y hy => eq_of_beq hy))
    have hopen := hrest.subset (hd.mem_of_demands hdemands)
    have hnot : isPlain '(' = false := by decide
    simp [not_mem_of_isPlain hnot hfront, not_mem_of_isPlain hnot htail] at hopen
  | selection | loop | count => exact .inl ⟨_, rfl⟩

/-- In a guard of such a line no state stands with the variable. -/
theorem not_standsWith_of_assigns (hname : IsName name) (hvalue : IsName value)
    (h : Assigns ":=" line name value) (s : String) : ¬StandsWith (strip line) name s := by
  rintro ⟨g, hg, hin, hs, hne, hstate⟩
  obtain ⟨t, ht⟩ | ⟨t, u, x, hparts, hx, hmem⟩ := parts_of_mem_guardsOf hname hvalue h hg
  · rw [ht, List.mem_singleton] at hin hs
    exact hne (hs.trans hin.symm)
  · -- neither the variable nor a state has the sign in it
    have hsign : isNameChar x = false := by rcases hx with rfl | rfl <;> decide
    have hnot : ∀ {w}, w = name ∨ w = s → x ∉ w.toList := by
      rintro w (rfl | rfl) hw
      · rw [hname.2 x hw] at hsign
        cases hsign
      · rw [isStateName_eq_false hx hw] at hstate
        cases hstate
    rw [hparts, List.mem_pair] at hin hs
    rcases hin with rfl | rfl <;> rcases hs with rfl | rfl
    · exact hne rfl
    · exact hmem.elim (hnot (.inl rfl)) (hnot (.inr rfl))
    · exact hmem.elim (hnot (.inr rfl)) (hnot (.inl rfl))
    · exact hne rfl

/-- The value of such a line is not a state. -/
theorem not_gives_of_assigns (hname : IsName name) (hvalue : IsName value)
    (h : Assigns ":=" line name value) (s : String) : ¬Gives (strip line) name s := by
  rintro ⟨a, ha, -, rfl, hstate⟩
  obtain ⟨c, -, hread⟩ := exists_assignment?_of_assigns hname hvalue h
  obtain rfl := Option.some.inj (ha.symm.trans hread)
  rw [isStateName_eq_false (x := '=') (.inr rfl)] at hstate
  · cases hstate
  · rw [unquoted, Text.trim, strip, String.toList_ofList, String.toList_ofList,
      String.toList_ofList]
    exact mem_trim (by decide) (mem_trim (by decide) List.mem_cons_self)

variable {p : Project} {e : Evidence}

theorem mem_assignments_iff (he : evidence p = .ok e) {a : Assignment} :
    a ∈ e.assignments ↔ a.line ∈ lines p ∧ assignment? a.line = some a := by
  have hto : a ∈ e.assignmentsTo a.name ↔ _ := mem_assignmentsTo_iff he
  rwa [Evidence.assignmentsTo, List.mem_filter, and_iff_left BEq.rfl, and_iff_left rfl] at hto

theorem strip_mem_lines {r : Project.Routine} (hr : r ∈ p.routines)
    (hline : line ∈ Text.split '\n' r.text) : strip line ∈ lines p :=
  List.mem_flatMap.2 ⟨r, hr, List.mem_map_of_mem hline⟩

/-- The value of such a line is recorded with the equals sign, and not without it. -/
theorem mem_assignments_of_assigns (he : evidence p = .ok e) (hline : strip line ∈ lines p)
    (hname : IsName name) (hvalue : IsName value) (h : Assigns ":=" line name value) :
    ∃ c, AllBlank c ∧ ∀ v, ⟨name, v, strip line⟩ ∈ e.assignments ↔
      v = String.ofList ('=' :: (c ++ value.toList)) := by
  obtain ⟨c, hc, hread⟩ := exists_assignment?_of_assigns hname hvalue h
  refine ⟨c, hc, fun v => ?_⟩
  rw [mem_assignments_iff he, and_iff_right hline, hread]
  simp [eq_comm]

/-- What states a variable has does not depend on such lines. -/
theorem mem_states_iff_of_assigns (he : evidence p = .ok e) (hname : IsName name)
    (hvalue : IsName value) (h : Assigns ":=" line name value) {known : List String} {s : String} :
    s ∈ e.states known name ↔ s ∈ known ∨ ∃ other ∈ lines p, other ≠ strip line ∧
      (Gives other name s ∨ StandsWith other name s) := by
  rw [mem_states_iff he]
  refine or_congr_right (exists_congr fun other => and_congr_right fun _ => ?_)
  refine ⟨fun hshows => ⟨?_, hshows⟩, fun hshows => hshows.2⟩
  rintro rfl
  exact hshows.elim (not_gives_of_assigns hname hvalue h s)
    (not_standsWith_of_assigns hname hvalue h s)

/-- A value is recorded for the variable exactly if one character, an equals sign or a colon, stands
between the two.  Then it is a state of the variable, unless it is a number.  If both characters
stand there, the equals sign is recorded as part of the value, and the line gives the variable no
state: its states are the known ones and those that other lines show. -/
theorem recorded_iff_one_character {sign : String} {r : Project.Routine} (he : evidence p = .ok e)
    (hr : r ∈ p.routines) (hline : line ∈ Text.split '\n' r.text) (hname : IsName name)
    (hvalue : IsName value) (hsign : sign = ":=" ∨ sign = ":" ∨ sign = "=")
    (h : Assigns sign line name value) :
    (⟨name, value, strip line⟩ ∈ e.assignments ↔ sign ≠ ":=") ∧
    (sign ≠ ":=" → isDigits value = false → ∀ known, value ∈ e.states known name) ∧
    (sign = ":=" →
      (∃ c, AllBlank c ∧ ∀ v, ⟨name, v, strip line⟩ ∈ e.assignments ↔
        v = String.ofList ('=' :: (c ++ value.toList))) ∧
      ∀ known s, s ∈ e.states known name ↔ s ∈ known ∨ ∃ other ∈ lines p, other ≠ strip line ∧
        (Gives other name s ∨ StandsWith other name s)) := by
  have hmem := strip_mem_lines hr hline
  rcases hsign with rfl | hsign
  · obtain ⟨c, hc, hassign⟩ := mem_assignments_of_assigns he hmem hname hvalue h
    refine ⟨iff_of_false (fun hrec => ?_) (· rfl), fun hne => absurd rfl hne,
      fun _ => ⟨⟨c, hc, hassign⟩, fun known s => mem_states_iff_of_assigns he hname hvalue h⟩⟩
    have hequals : '=' ∈ value.toList := by
      rw [(hassign value).1 hrec, String.toList_ofList]
      exact List.mem_cons_self
    exact absurd (hvalue.2 _ hequals) (by decide)
  · have hone : sign ≠ ":=" := by rcases hsign with rfl | rfl <;> decide
    have hread := assignment?_of_assigns hname hvalue hsign h
    refine ⟨iff_of_true ((mem_assignments_iff he).2 ⟨hmem, hread⟩) hone, fun _ hdigits known => ?_,
      fun heq => absurd heq hone⟩
    refine (mem_states_iff he).2 (.inr ⟨strip line, hmem, .inl ⟨_, hread, rfl, ?_, ?_⟩⟩)
    · exact hvalue.unquoted_strip
    · rw [isStateName_of_isName hvalue, hdigits]
      rfl

end Recorded

/-- A program of one routine. -/
def modeProgram (text : String) : Project where
  controller := { name := "Mixer" }
  programs := [{
    name := "Main"
    routines := [{ name := "R", language := .st, content := some text }] }]

theorem assigns_run : Assigns ":=" "mode := RUN;" "mode" "RUN" :=
  ⟨[], [' '], [' '], [], [], by decide, by decide, by decide, by decide, by decide, by decide⟩

theorem assigns_idle : Assigns "=" "mode = IDLE;" "mode" "IDLE" :=
  ⟨[], [' '], [' '], [], [], by decide, by decide, by decide, by decide, by decide, by decide⟩

theorem recorded_iff_one_character_idle_run :
    ∃ e, evidence (modeProgram "mode = IDLE;\nmode := RUN;") = .ok e ∧
      ⟨"mode", "IDLE", "mode = IDLE;"⟩ ∈ e.assignments ∧ "IDLE" ∈ e.states [] "mode" ∧
      ⟨"mode", "RUN", "mode := RUN;"⟩ ∉ e.assignments := by
  have hlines : ∀ line ∈ ["mode = IDLE;", "mode := RUN;"],
      line ∈ Text.split '\n' "mode = IDLE;\nmode := RUN;" ∧ strip line = line := by decide
  have hidle := recorded_iff_one_character (p := modeProgram "mode = IDLE;\nmode := RUN;") rfl
    List.mem_cons_self (hlines "mode = IDLE;" (by simp)).1 (by decide) (by decide)
    (.inr (.inr rfl)) assigns_idle
  have hrun := recorded_iff_one_character (p := modeProgram "mode = IDLE;\nmode := RUN;") rfl
    List.mem_cons_self (hlines "mode := RUN;" (by simp)).1 (by decide) (by decide)
    (.inl rfl) assigns_run
  rw [(hlines "mode = IDLE;" (by simp)).2] at hidle
  rw [(hlines "mode := RUN;" (by simp)).2] at hrun
  exact ⟨_, rfl, hidle.1.2 (by decide), hidle.2.1 (by decide) (by decide) [],
    fun hrec => hrun.1.1 hrec rfl⟩

/-- A mode that is set to `RUN` is not recorded to be, and `RUN` is not a state of it. -/
theorem run_not_recorded : ∃ e, evidence (modeProgram "mode := RUN;") = .ok e ∧
    (∀ a ∈ e.assignments, a.value ≠ "RUN") ∧ e.states [] "mode" = [] := by
  have hlines : lines (modeProgram "mode := RUN;") = ["mode := RUN;"] := by decide
  have hread : assignment? "mode := RUN;" = some ⟨"mode", "= RUN", "mode := RUN;"⟩ := by
    decide
  obtain ⟨e, he⟩ : ∃ e, evidence (modeProgram "mode := RUN;") = .ok e := ⟨_, rfl⟩
  refine ⟨e, he, fun a ha => ?_, List.eq_nil_iff_forall_not_mem.2 fun s hs => ?_⟩
  · obtain ⟨hline, hassign⟩ := (mem_assignments_iff he).1 ha
    rw [hlines, List.mem_singleton] at hline
    rw [hline, hread] at hassign
    cases hassign
    decide
  · rw [mem_states_iff_of_assigns he (by decide) (by decide) assigns_run] at hs
    obtain hs | ⟨other, hother, hne, -⟩ := hs
    · cases hs
    · rw [hlines, List.mem_singleton] at hother
      exact hne (hother.trans (by decide))

end ControlLogic.StateMachine
