import ControlLogic.Proofs.Overlay.TagText
import ControlLogic.Proofs.Table
import ControlLogic.Proofs.Text.Search
import Mathlib.Algebra.Group.Int.Defs

/-!
# Reading a tag back

A line that declares a tag is searched six times: for the definition up to the semicolon, for the
type and its dimensions, for the attributes in parentheses, for one attribute after the other, for
the parentheses once more, and for the value in what is left without them.

* `exists_match_tagLine`, `exists_match_typeWithDimensions`, `readAttributes_definition` and
  `find?_assignedValue` say what each search finds.
* `fails_ahead_within`: a lazy text does not stop before its end.
* `readDimensions_dimensionText`: numbers with too many digits are not read.

`readTagLine?_eq_tag` is the result.
-/

namespace ControlLogic.Overlay

open Text Text.Pattern

section Reading

variable (t : TagText)

/-! ## The definition -/

/-- A line has a name, and a definition up to the semicolon. -/
theorem exists_match_tagLine : ∃ m, tagLine.matchStart? t.line = some m ∧ m.group 1 = t.name ∧
    m.group 2 = t.definition := by
  have hname := t.isWord_name
  have hends := t.hasEnds_definition
  have hdefinition := t.avoids_definition
  let start : Cursor := ⟨0, none, t.line.toList, []⟩
  let named := (start.past t.name.toList
    ([' '] ++ ([':'] ++ ([' '] ++ (t.definition.toList ++ [';']))))).mark 1 t.name.toList
  let signed := (named.past [' '] ([':'] ++ ([' '] ++ (t.definition.toList ++ [';'])))).past
    ":".toList ([' '] ++ (t.definition.toList ++ [';']))
  let defined := (signed.past [' '] (t.definition.toList ++ [';'])).past t.definition.toList [';']
  have h₁ : Prefers (group 1 word) start named :=
    Prefers.group t.toList_line (prefers_plus t.toList_line hname.toList_ne_nil hname.2 rfl)
  have h₂ : Prefers blanks named
      (named.past [' '] ([':'] ++ ([' '] ++ (t.definition.toList ++ [';'])))) :=
    prefers_star rfl (List.forall_mem_singleton.2 rfl) rfl
  have h₃ : Prefers (.text ":") (named.past [' '] _) signed := prefers_text rfl
  have h₄ : Prefers blanks signed (signed.past [' '] (t.definition.toList ++ [';'])) :=
    prefers_star rfl (List.forall_mem_singleton.2 rfl) (hends.head?_any_append _)
  have h₅ : Prefers (.text ";") (defined.mark 2 t.definition.toList)
      ((defined.mark 2 t.definition.toList).past ";".toList []) := prefers_text rfl
  have h₆ : Prefers (.seq (.group 2 (.lazyPlus .inLine)) (.text ";"))
      (signed.past [' '] (t.definition.toList ++ [';']))
      ((defined.mark 2 t.definition.toList).past ";".toList []) := by
    refine prefers_group_lazyPlus_seq rfl hends.ne_nil (fun y hy => ?_) ?_ h₅
    · have hline := hdefinition y hy
      simp only [List.mem_cons, List.not_mem_nil, or_false, not_or] at hline
      simpa using hline.2
    · intro c u v huv _ hv hrest
      refine fails_of_not_matches fun d hd => ?_
      obtain ⟨y, v, rfl⟩ := List.exists_cons_of_ne_nil hv
      have hy : y = ';' := (List.cons.inj (hrest.symm.trans hd.rest_text)).1
      exact hdefinition ';' (by simp [huv, hy]) List.mem_cons_self
  have hmatch : Prefers tagLine start ((defined.mark 2 t.definition.toList).past ";".toList []) :=
    h₁.seq (h₂.seq (h₃.seq (h₄.seq h₆)))
  refine ⟨_, matchAt_of_prefers hmatch, ?_, ?_⟩ <;>
    simp [Match.group, Match.group?, start, named, signed, defined]

/-! ## The type -/

/-- The pattern of dimensions in brackets. -/
def dimensionPattern : Pattern :=
  .all [.blanks, .text "[", .group 2 (.plus (.except "]")), .text "]"]

theorem fails_dimensionPattern {c : Cursor}
    (hc : c.rest = t.attributeText.toList ++ t.valueText.toList) : dimensionPattern.Fails c := by
  refine fails_of_not_matches fun d hd => ?_
  cases hd with | seq hblanks hd =>
  cases hd with | seq hopen hd =>
  obtain ⟨g, hg, -, hblank⟩ := hblanks.exists_passed (P := (isBlank · = true)) fun _ h => h
  have hdrop : (c.rest.dropWhile isBlank).head? = some '[' := by
    rw [hg, hopen.rest_text, dropWhile_append_of_head? hblank rfl]
    rfl
  rw [hc] at hdrop
  rcases t.tail_eq with htail | ⟨x, u, hx, htail⟩
  · rw [htail] at hdrop
    cases hdrop
  · rw [htail] at hdrop
    rcases hx with rfl | rfl <;> exact absurd (Option.some.inj hdrop) (by decide)

/-- A definition begins with a type, and with dimensions if there are any. -/
theorem exists_match_typeWithDimensions : ∃ m,
    typeWithDimensions.matchStart? t.definition = some m ∧ m.group 1 = t.dataType ∧
      m.group? 2 = t.dimensions.map dimensionText := by
  let tail := t.attributeText.toList ++ t.valueText.toList
  let start : Cursor := ⟨0, none, t.definition.toList, []⟩
  have hword := t.isWord_dataType
  have hgroup : ∀ {rest}, t.definition.toList = t.dataType.toList ++ rest →
      rest.head?.any isWordChar = false →
      Prefers (group 1 word) start ((start.past t.dataType.toList rest).mark 1 t.dataType.toList) :=
    fun hrest hhead =>
      Prefers.group hrest (prefers_plus hrest hword.toList_ne_nil hword.2 hhead)
  cases hdims : t.dimensions with
  | none =>
    have hdefinition : t.definition.toList = t.dataType.toList ++ tail := by
      simp [TagText.definition, TagText.typeText, hdims, tail]
    have hhead : tail.head?.any isWordChar = false := by
      rcases t.tail_eq with htail | ⟨x, u, -, htail⟩ <;> simp only [tail, htail] <;> rfl
    let typed := (start.past t.dataType.toList tail).mark 1 t.dataType.toList
    have hmatch : Prefers typeWithDimensions start typed :=
      (hgroup hdefinition hhead).seq
        (prefers_right (fails_dimensionPattern t rfl) (prefers_empty typed))
    refine ⟨_, matchAt_of_prefers hmatch, ?_, ?_⟩ <;>
      simp [Match.group, Match.group?, start, typed]
  | some ds =>
    have hdefinition : t.definition.toList = t.dataType.toList ++
        ("[".toList ++ ((dimensionText ds).toList ++ ("]".toList ++ tail))) := by
      simp [TagText.definition, TagText.typeText, hdims, tail]
    let typed := (start.past t.dataType.toList
      ("[".toList ++ ((dimensionText ds).toList ++ ("]".toList ++ tail)))).mark 1 t.dataType.toList
    let opened := typed.past "[".toList ((dimensionText ds).toList ++ ("]".toList ++ tail))
    let counted := (opened.past (dimensionText ds).toList ("]".toList ++ tail)).mark 2
      (dimensionText ds).toList
    have h₁ : Prefers blanks typed typed := prefers_star_nil rfl
    have h₂ : Prefers (.text "[") typed opened := prefers_text rfl
    have h₃ : Prefers (group 2 (plus (except "]"))) opened counted :=
      Prefers.group rfl (prefers_plus rfl
        (toList_dimensionText_ne_nil fun hnil => t.dimensions_ne_nil (hnil ▸ hdims))
        (forall_except (x := ']') rfl ((avoids_dimensionText ds).not_mem (by simp))) rfl)
    have h₄ : Prefers (.text "]") counted (counted.past "]".toList tail) := prefers_text rfl
    have hdimensions : Prefers dimensionPattern typed (counted.past "]".toList tail) :=
      h₁.seq (h₂.seq (h₃.seq h₄))
    have hmatch : Prefers typeWithDimensions start (counted.past "]".toList tail) :=
      (hgroup hdefinition rfl).seq hdimensions.left
    refine ⟨_, matchAt_of_prefers hmatch, ?_, ?_⟩ <;>
      simp [Match.group, Match.group?, start, typed, opened, counted]

theorem mapM_ite {α β : Type} (p : α → Prop) [DecidablePred p] (f : α → β) (l : List α) :
    l.mapM (fun a => if p a then some (f a) else none) =
      if ∀ a ∈ l, p a then some (l.map f) else none := by
  induction l with
  | nil => simp
  | cons a l ih =>
    rw [List.mapM_cons, ih]
    by_cases ha : p a
    · by_cases hl : ∀ b ∈ l, p b
      · rw [if_pos ha, if_pos hl, if_pos (List.forall_mem_cons.2 ⟨ha, hl⟩)]
        rfl
      · rw [if_pos ha, if_neg hl, if_neg fun h => hl (List.forall_mem_cons.1 h).2]
        rfl
    · rw [if_neg ha, if_neg fun h => ha (List.forall_mem_cons.1 h).1]
      rfl

/-- Numbers are read back unless one of them has too many digits. -/
theorem readDimensions_dimensionText {ds : List Nat} (hne : ds ≠ []) :
    readDimensions (dimensionText ds) = readable ds := by
  have hsplit : split ',' (dimensionText ds) = ds.map toString := by
    refine split_join_of_toList rfl (by simpa using hne) fun piece hpiece => ?_
    obtain ⟨d, -, rfl⟩ := List.mem_map.1 hpiece
    exact not_mem_toString rfl d
  have hread : (fun d : Nat => readInt? (strip (toString d))) =
      fun d => if d < 10 ^ maxNumeralDigits then some (Int.ofNat d) else none := by
    funext d
    rw [strip, Chars.trim_of_forall_not fun c hc => isBlank_of_isWordChar
      (isWordChar_of_isDigit (isDigit_of_mem_toString hc)), String.ofList_toList, readInt?_toString]
    rfl
  rw [readDimensions, hsplit, List.mapM_map, readable, Function.comp_def, hread, mapM_ite]
  split <;> rfl

/-! ## Lazy texts -/

/-- Within a text that ends with no blank, neither its end nor the sign behind it is reached. -/
theorem fails_ahead_within {b : Pattern} {x : Char} (hb : Begins (· == x) b)
    {s u v r : List Char} (hs : HasEnds s) (hsx : x ∉ s) (huv : s = u ++ v) (hv : v ≠ [])
    {c : Cursor} (hc : c.rest = v ++ r) :
    (Pattern.ahead (.alt (.seq .blanks b) .atEnd)).Fails c := by
  obtain ⟨-, y, hy, hyblank⟩ := hs
  have hlast : y ∈ v := by
    rw [huv, List.getLast?_append, List.getLast?_eq_some_getLast hv] at hy
    cases hy
    exact List.getLast_mem hv
  refine fails_of_not_matches fun d hd => ?_
  cases hd with | ahead hd =>
  cases hd with
  | left hd =>
    cases hd with | seq hblanks hsign =>
    obtain ⟨g, hg, -, hblank⟩ := hblanks.exists_passed (P := (isBlank · = true)) fun _ h => h
    rw [hc, List.append_eq_append_iff] at hg
    -- all of `v` cannot be blank, and so the sign would have to stand in it
    rcases hg with ⟨w, hw, -⟩ | ⟨w, hw, hrest⟩
    · rw [hblank y (hw ▸ List.mem_append_left w hlast)] at hyblank
      cases hyblank
    · cases w with
      | nil =>
        rw [hblank y (by simpa [hw] using hlast)] at hyblank
        cases hyblank
      | cons z w =>
        have hz : z = x := by simpa [hrest] using hb hsign
        exact hsx (by simp [huv, hw, hz])
  | right hd =>
    cases hd with | atEnd hend =>
    rw [hc] at hend
    rcases hend with hend | hend
    · exact hv (List.append_eq_nil_iff.1 hend).1
    · have hy' : y ∈ ['\n'] := hend ▸ List.mem_append_left r hlast
      rw [List.mem_singleton.1 hy'] at hyblank
      cases hyblank

/-! ## One attribute after the other -/

/-- What stands before the next attribute. -/
def nextAttribute : Pattern :=
  .all [.blanks, .text ",", .blanks, .word, .blanks, .text ":="]

theorem prefers_nextAttribute {c : Cursor} {a : AttributeKey × String} {r : List Char}
    (hc : c.rest = ", ".toList ++ ((pairText a).toList ++ r)) :
    ∃ d, Prefers nextAttribute c d ∧ d.marks = c.marks := by
  have hword := a.1.isWord_spelling
  have hrest : c.rest = ",".toList ++ ([' '] ++ (a.1.spelling.toList ++
      ([' '] ++ (":=".toList ++ ([' '] ++ ((a.1.written a.2).toList ++ r)))))) := by
    simp [hc, pairText]
  let third := ":=".toList ++ ([' '] ++ ((a.1.written a.2).toList ++ r))
  let comma := c.past ",".toList ([' '] ++ (a.1.spelling.toList ++ ([' '] ++ third)))
  let gap := comma.past [' '] (a.1.spelling.toList ++ ([' '] ++ third))
  let named := gap.past a.1.spelling.toList ([' '] ++ third)
  have h₁ : Prefers blanks c c := prefers_star_nil (by rw [hrest]; rfl)
  have h₂ : Prefers (.text ",") c comma := prefers_text hrest
  have h₃ : Prefers blanks comma gap := prefers_star rfl (List.forall_mem_singleton.2 rfl)
    (hword.hasEnds.head?_any_append _)
  have h₄ : Prefers word gap named := prefers_plus rfl hword.toList_ne_nil hword.2 rfl
  have h₅ : Prefers blanks named (named.past [' '] third) :=
    prefers_star rfl (List.forall_mem_singleton.2 rfl) rfl
  have h₆ : Prefers (.text ":=") (named.past [' '] third) _ := prefers_text rfl
  exact ⟨_, h₁.seq (h₂.seq (h₃.seq (h₄.seq (h₅.seq h₆)))), rfl⟩

/-- An attribute is followed by nothing or by another one. -/
def Follows (r : List Char) : Prop :=
  r = [] ∨ ∃ b u, r = ", ".toList ++ ((pairText b).toList ++ u)

theorem prefers_ahead {c : Cursor} (hr : Follows c.rest) :
    Prefers (.ahead (.alt nextAttribute .atEnd)) c c := by
  rcases hr with hr | ⟨b, u, hr⟩
  · have hcomma : nextAttribute.Demands ',' := .inr (.inl fun y hy => eq_of_beq hy)
    exact (prefers_right (fails_of_demands hcomma (by simp [hr])) (prefers_atEnd hr)).ahead
  · obtain ⟨d, hd, hmarks⟩ := prefers_nextAttribute hr
    have hahead := (hd.left (b := .atEnd)).ahead
    rwa [hmarks] at hahead

/-- An attribute is read up to the next one or the end. -/
theorem prefers_attributePair {a : AttributeKey × String} (ha : a.1.Allows a.2) {c : Cursor}
    {r : List Char} (hc : c.rest = (pairText a).toList ++ r) (hr : Follows r) :
    ∃ d, Prefers attributePair c d ∧ d.pos = c.pos + (pairText a).toList.length ∧
      d.marks = (2, (a.1.written a.2).toList) :: (1, a.1.spelling.toList) :: c.marks := by
  have hword := a.1.isWord_spelling
  have hends := AttributeKey.hasEnds_written ha
  have hcomma : ',' ∉ (a.1.written a.2).toList :=
    (AttributeKey.avoids_written ha).not_mem List.mem_cons_self
  have hrest : c.rest = a.1.spelling.toList ++
      ([' '] ++ (":=".toList ++ ([' '] ++ ((a.1.written a.2).toList ++ r)))) := by
    simp [hc, pairText]
  let third := ":=".toList ++ ([' '] ++ ((a.1.written a.2).toList ++ r))
  let named := (c.past a.1.spelling.toList ([' '] ++ third)).mark 1 a.1.spelling.toList
  let signed := (named.past [' '] third).past ":=".toList
    ([' '] ++ ((a.1.written a.2).toList ++ r))
  let behind := signed.past [' '] ((a.1.written a.2).toList ++ r)
  let valued := (behind.past (a.1.written a.2).toList r).mark 2 (a.1.written a.2).toList
  have h₁ : Prefers (group 1 word) c named :=
    Prefers.group hrest (prefers_plus hrest hword.toList_ne_nil hword.2 rfl)
  have h₂ : Prefers blanks named (named.past [' '] third) :=
    prefers_star rfl (List.forall_mem_singleton.2 rfl) rfl
  have h₃ : Prefers (.text ":=") (named.past [' '] third) signed := prefers_text rfl
  have h₄ : Prefers blanks signed behind :=
    prefers_star rfl (List.forall_mem_singleton.2 rfl) (hends.head?_any_append r)
  have h₅ : Prefers (.ahead (.alt nextAttribute .atEnd)) valued valued := prefers_ahead hr
  have h₆ : Prefers (.seq (.group 2 (.lazyPlus (.except ",")))
      (.ahead (.alt nextAttribute .atEnd))) behind valued := by
    refine prefers_group_lazyPlus_seq rfl hends.ne_nil (forall_except rfl hcomma) ?_ h₅
    intro c u v huv _ hv hc
    exact fails_ahead_within ((begins_one _).seq _) hends hcomma huv hv hc
  refine ⟨valued, h₁.seq (h₂.seq (h₃.seq (h₄.seq h₆))), ?_, rfl⟩
  simp [valued, behind, signed, named, Cursor.past, Cursor.mark, pairText]
  omega

/-- The attributes that are found from a place on. -/
def found (pos : Nat) (before : Option Char) (s : List Char) : List (String × String) :=
  ((attributePair.scanFrom 0 pos before s).filterMap Piece.hit?).map fun m => (m.group 1, m.group 2)

theorem found_nil (pos : Nat) (before : Option Char) : found pos before [] = [] := by
  have hequals : attributePair.Demands '=' := .inr (.inr (.inl (.inr fun y hy => eq_of_beq hy)))
  rw [found, scanFrom_nil (fails_of_demands hequals List.not_mem_nil)]
  rfl

theorem found_pairText {a : AttributeKey × String} (ha : a.1.Allows a.2) {r : List Char}
    (hr : Follows r) (pos : Nat) (before : Option Char) :
    found pos before ((pairText a).toList ++ r) = (a.1.spelling, a.1.written a.2) ::
      found (pos + (pairText a).toList.length) ((pairText a).toList.getLast?.or before) r := by
  obtain ⟨d, hd, hpos, hmarks⟩ := prefers_attributePair ha
    (c := ⟨pos, before, (pairText a).toList ++ r, []⟩) rfl hr
  rw [found, scanFrom_of_prefers hd hpos (by simp [pairText])]
  simp [Piece.hit?, Match.group, Match.group?, hmarks, found]

theorem found_separator (pos : Nat) (before : Option Char) (s : List Char) :
    found pos before (", ".toList ++ s) = found (pos + 2) (some ' ') s := by
  have hbegins : Begins isWordChar attributePair := (((begins_one _).seq _).group 1).seq _
  have hnot : ", ".toList.all (fun x => !isWordChar x) = true := by decide
  rw [found, scanFrom_append (noneWithin_of_begins hbegins
    (fun x hx => by simpa using List.all_eq_true.1 hnot x hx) before s), List.filterMap_append,
    filterMap_hit?_plain]
  rfl

/-- The attributes are found one after the other. -/
theorem found_pairs {attributes : List (AttributeKey × String)}
    (h : ∀ a ∈ attributes, a.1.Allows a.2) (pos : Nat) (before : Option Char) :
    found pos before (join ", " (attributes.map pairText)).toList =
      attributes.map fun a => (a.1.spelling, a.1.written a.2) := by
  induction attributes generalizing pos before with
  | nil => exact found_nil pos before
  | cons a attributes ih =>
    obtain ⟨ha, h⟩ := List.forall_mem_cons.1 h
    cases attributes with
    | nil =>
      have hfound := found_pairText ha (.inl rfl) pos before
      rw [found_nil, List.append_nil] at hfound
      rw [List.map_singleton, join_singleton, hfound, List.map_singleton]
    | cons b attributes =>
      let others := (join ", " ((b :: attributes).map pairText)).toList
      have htext : (join ", " ((a :: b :: attributes).map pairText)).toList =
          (pairText a).toList ++ (", ".toList ++ others) := by
        simp [others, List.intercalate_cons_cons]
      have hfollows : Follows (", ".toList ++ others) := by
        cases attributes with
        | nil => exact .inr ⟨b, [], by simp [others]⟩
        | cons d attributes => exact .inr ⟨b, _, by simp [others, List.intercalate_cons_cons]; rfl⟩
      rw [htext, found_pairText ha hfollows, found_separator, ih h]
      rfl

/-- The attributes are read into a table under their names in capitals. -/
theorem foldl_findAll_pairsText : (attributePair.findAll t.pairsText).foldl
      (fun u m => u.insert (upper (strip (m.group 1))) (strip (m.group 2))) Table.empty =
    Table.ofList (t.attributes.map fun a => (upper a.1.spelling, a.1.written a.2)) := by
  have hpairs : (attributePair.findAll t.pairsText).map (fun m => (m.group 1, m.group 2)) =
      t.attributes.map fun a => (a.1.spelling, a.1.written a.2) := by
    rw [findAll_eq]
    exact found_pairs t.allows_attributes 0 none
  have hentries : (attributePair.findAll t.pairsText).map
        (fun m => (upper (strip (m.group 1)), strip (m.group 2))) =
      t.attributes.map fun a => (upper a.1.spelling, a.1.written a.2) := by
    have hstrip := congrArg (List.map fun e => (upper (strip e.1), strip e.2)) hpairs
    rw [List.map_map, List.map_map] at hstrip
    refine hstrip.trans (List.map_congr_left fun a ha => ?_)
    simp only [Function.comp_apply]
    rw [strip_of_hasEnds a.1.isWord_spelling.hasEnds,
      strip_of_hasEnds (AttributeKey.hasEnds_written (t.allows_attributes a ha))]
  rw [← hentries, Table.ofList, List.foldl_map]

/-- The list in parentheses is found. -/
theorem find?_attributeList (h : t.attributes ≠ []) :
    ∃ m, attributeList.find? t.definition = some m ∧ m.group 1 = t.pairsText := by
  let front := t.typeText.toList ++ [' ']
  let behind := ")".toList ++ t.valueText.toList
  have hdefinition : t.definition.toList =
      front ++ ("(".toList ++ (t.pairsText.toList ++ behind)) := by
    simp [TagText.definition, TagText.attributeText, h, front, behind]
  have hfront : ∀ x ∈ front, (x == '(') = false := by
    intro x hx
    rw [beq_eq_false_iff_ne]
    rintro rfl
    rcases List.mem_append.1 hx with hx | hx
    · exact t.avoids_typeText.not_mem (by simp [enders]) hx
    · exact absurd (List.mem_singleton.1 hx) (by decide)
  let start : Cursor :=
    ⟨front.length, front.getLast?, "(".toList ++ (t.pairsText.toList ++ behind), []⟩
  let opened := start.past "(".toList (t.pairsText.toList ++ behind)
  let listed := (opened.past t.pairsText.toList behind).mark 1 t.pairsText.toList
  have h₁ : Prefers (.text "(") start opened := prefers_text rfl
  have h₂ : Prefers (.group 1 (.plus (.except ")"))) opened listed :=
    Prefers.group rfl (prefers_plus rfl (t.toList_pairsText_ne_nil h)
      (forall_except (x := ')') rfl (t.avoids_pairsText.not_mem (by simp [enders]))) rfl)
  have h₃ : Prefers (.text ")") listed (listed.past ")".toList t.valueText.toList) :=
    prefers_text rfl
  have hmatch : Prefers attributeList start (listed.past ")".toList t.valueText.toList) :=
    h₁.seq (h₂.seq h₃)
  have hbegins : Begins (· == '(') attributeList := (begins_one _).seq _
  refine ⟨_, find?_of_prefers hdefinition (noneWithin_of_begins hbegins hfront none _) hmatch, ?_⟩
  simp [Match.group, Match.group?, listed]

theorem readAttributes_definition : readAttributes t.definition =
    Table.ofList (t.attributes.map fun a => (upper a.1.spelling, a.1.written a.2)) := by
  by_cases hnone : t.attributes = []
  · have hopen : '(' ∉ t.definition.toList := by
      have hvalue : '(' ∉ t.valueText.toList :=
        t.avoids_valueText.not_mem (by simp [enders])
      simp [TagText.definition, TagText.attributeText, hnone, hvalue,
        t.avoids_typeText.not_mem (x := '(') (by simp [enders])]
    have hdemands : attributeList.Demands '(' := .inl fun y hy => eq_of_beq hy
    rw [readAttributes, find?_eq_none hdemands hopen, hnone]
    rfl
  · obtain ⟨m, hfind, hgroup⟩ := find?_attributeList t hnone
    rw [readAttributes, hfind]
    simp only
    rw [hgroup, foldl_findAll_pairsText]

theorem upper_spelling_injective : Function.Injective fun k : AttributeKey => upper k.spelling := by
  intro k l
  cases k <;> cases l <;> decide

theorem get?_readAttributes (k : AttributeKey) :
    (readAttributes t.definition).get? (upper k.spelling) =
      (Table.lookup k t.attributes).map k.written := by
  have hkeys : ((t.attributes.map fun a => (upper a.1.spelling, a.1.written a.2)).map
      (·.1)).Nodup := by
    rw [List.map_map]
    have hnodup := t.nodup_attributes.map upper_spelling_injective
    rwa [List.map_map] at hnodup
  rw [readAttributes_definition, Table.get?, Table.entries_ofList hkeys]
  exact Table.lookup_map_of_injective upper_spelling_injective AttributeKey.written t.attributes k

/-- No attribute names another tag. -/
theorem get?_readAttributes_aliasFor : (readAttributes t.definition).get? "ALIAS_FOR" = none := by
  rw [readAttributes_definition]
  refine Table.get?_ofList_of_not_mem fun hmem => ?_
  rw [List.map_map] at hmem
  obtain ⟨a, -, ha⟩ := List.mem_map.1 hmem
  have hkeys : ∀ k : AttributeKey, upper k.spelling ≠ "ALIAS_FOR" := by
    intro k
    cases k <;> decide
  exact hkeys a.1 ha

theorem unquoted_quoted (v : String) : unquoted ("\"" ++ v ++ "\"") = v := by
  have hlist : ("\"" ++ v ++ "\"").toList = '"' :: (v.toList ++ ['"']) := by simp
  rw [unquoted, unquote, hlist]
  simp [List.getLast?_cons]

/-! ## The value -/

/-- Without the parentheses, a line has its value behind its type. -/
theorem exists_substitute_line : ∃ g, AllBlank g ∧
    (parenthesised.substitute (fun _ => "") t.line).toList =
      t.frontText.toList ++ (g ++ (t.valueText.toList ++ [';'])) := by
  have hvalue : '(' ∉ t.valueText.toList :=
    t.avoids_valueText.not_mem (by simp [enders])
  have hfront : '(' ∉ t.frontText.toList := t.avoids_frontText.not_mem (by simp [enders])
  by_cases hnone : t.attributes = []
  · have hline : t.line.toList = t.frontText.toList ++ (t.valueText.toList ++ [';']) := by
      simp [TagText.line, TagText.definition, TagText.attributeText, hnone, TagText.frontText]
    have hdemands : parenthesised.Demands '(' := .inl fun y hy => eq_of_beq hy
    refine ⟨[], by decide, ?_⟩
    rw [substitute_eq_self hdemands _ (by simp [hline, hvalue, hfront]), hline, List.nil_append]
  · let front := t.frontText.toList ++ [' ']
    let list := "(".toList ++ (t.pairsText.toList ++ ")".toList)
    let behind := t.valueText.toList ++ [';']
    have hline : t.line.toList = front ++ (list ++ behind) := by
      simp [TagText.line, TagText.definition, TagText.attributeText, hnone, TagText.frontText,
        front, list, behind]
    let start : Cursor := ⟨front.length, front.getLast?, list ++ behind, []⟩
    let opened := start.past "(".toList (t.pairsText.toList ++ (")".toList ++ behind))
    let passed := opened.past t.pairsText.toList (")".toList ++ behind)
    have h₁ : Prefers (.text "(") start opened := prefers_text (by simp [start, list])
    have h₂ : Prefers (.star (.except ")")) opened passed :=
      prefers_star rfl
        (forall_except (x := ')') rfl (t.avoids_pairsText.not_mem (by simp [enders]))) rfl
    have h₃ : Prefers (.text ")") passed (passed.past ")".toList behind) := prefers_text rfl
    have hmatch : Prefers parenthesised start (passed.past ")".toList behind) :=
      h₁.seq (h₂.seq h₃)
    have hbegins : Begins (· == '(') parenthesised := (begins_one _).seq _
    have hother : ∀ {s : List Char}, '(' ∉ s → ∀ x ∈ s, (x == '(') = false := fun hs x hx =>
      beq_eq_false_iff_ne.2 fun heq => hs (heq ▸ hx)
    refine ⟨[' '], by decide, ?_⟩
    rw [substitute_of_prefers hbegins _ hline (hother (by simp [front, hfront]))
      (hother (by simp [behind, hvalue])) (by simp [list]) hmatch]
    · simp [front, behind]
    · simp [passed, opened, start, list, Cursor.past]
      omega

/-- No value is found before the sign of the value, as the line has no equals sign before it and no
colon right before it. -/
theorem noneWithin_assignedValue {s r : List Char} (hs : '=' ∉ s) :
    assignedValue.NoneWithin none (s ++ [' ']) (":=".toList ++ r) := by
  intro c u v huv hv _ hrest
  refine fails_of_not_matches fun d hd => ?_
  cases hd with | seq hsign _ =>
  have htext := hrest.symm.trans hsign.rest_text
  obtain ⟨x, v, rfl⟩ := List.exists_cons_of_ne_nil hv
  have hx : x = ':' := (List.cons.inj htext).1
  cases v with
  | nil =>
    have hlast := (List.append_inj' huv rfl).2
    exact absurd ((List.cons.inj hlast).1.trans hx) (by decide)
  | cons y v =>
    have hy : y = '=' := (List.cons.inj (List.cons.inj htext).2).1
    have hmem : '=' ∈ s ++ [' '] := by simp [huv, hy]
    simp [hs] at hmem

/-- The value of a line is found, if it has one. -/
theorem find?_assignedValue :
    (assignedValue.find? (parenthesised.substitute (fun _ => "") t.line)).map
      (fun m => strip (m.group 1)) = t.value := by
  obtain ⟨g, hg, hline⟩ := exists_substitute_line t
  have hequals : '=' ∉ t.frontText.toList ++ g := fun hmem => by
    rcases List.mem_append.1 hmem with hmem | hmem
    · exact t.avoids_frontText.not_mem List.mem_cons_self hmem
    · exact absurd (hg _ hmem) (by decide)
  cases hvalue : t.value with
  | none =>
    have hdemands : assignedValue.Demands '=' := .inl (.inr fun y hy => eq_of_beq hy)
    rw [find?_eq_none hdemands]
    · rfl
    · rw [hline, ← List.append_assoc, List.mem_append, not_or]
      exact ⟨hequals, by simp [TagText.valueText, hvalue]⟩
  | some v =>
    obtain ⟨hends, havoids⟩ := t.isValue_value v hvalue
    let front := t.frontText.toList ++ g ++ [' ']
    let behind := [' '] ++ (v.toList ++ [';'])
    have htext : (parenthesised.substitute (fun _ => "") t.line).toList =
        front ++ (":=".toList ++ behind) := by
      simp [hline, TagText.valueText, hvalue, front, behind]
    let start : Cursor := ⟨front.length, front.getLast?, ":=".toList ++ behind, []⟩
    let signed := start.past ":=".toList behind
    let gap := signed.past [' '] (v.toList ++ [';'])
    let valued := (gap.past v.toList [';']).mark 1 v.toList
    have hsemicolon : ';' ∉ v.toList := fun hmem => havoids _ hmem (by simp [enders])
    have h₁ : Prefers (.text ":=") start signed := prefers_text rfl
    have h₂ : Prefers blanks signed gap :=
      prefers_star rfl (List.forall_mem_singleton.2 rfl) (hends.head?_any_append _)
    have hend : Prefers (.seq .blanks (.text ";")) valued (valued.past ";".toList []) :=
      (prefers_star_nil rfl).seq (prefers_text rfl)
    have h₃ : Prefers (.ahead (.alt (.seq .blanks (.text ";")) .atEnd)) valued valued :=
      (hend.left (b := .atEnd)).ahead
    have h₄ : Prefers (.seq (.group 1 (.lazyPlus (.except ";")))
        (.ahead (.alt (.seq .blanks (.text ";")) .atEnd))) gap valued := by
      refine prefers_group_lazyPlus_seq rfl hends.ne_nil (forall_except rfl hsemicolon) ?_ h₃
      intro c u v huv _ hv hc
      exact fails_ahead_within (begins_one _) hends hsemicolon huv hv hc
    have hmatch : Prefers assignedValue start valued := h₁.seq (h₂.seq h₄)
    rw [find?_of_prefers htext (noneWithin_assignedValue hequals) hmatch, Option.map_some]
    simp [Match.group, Match.group?, valued, strip_of_hasEnds hends]

/-! ## The tag -/

/-- The attributes are found under their names. -/
theorem get?_readAttributes_keys :
    (readAttributes t.definition).get? "RADIX" = Table.lookup .radix t.attributes ∧
    ((readAttributes t.definition).get? "DESCRIPTION").map unquoted =
      Table.lookup .description t.attributes ∧
    ((readAttributes t.definition).get? "EXTERNALACCESS").map unquoted =
      Table.lookup .externalAccess t.attributes := by
  have hunquoted : ∀ o : Option String, (o.map fun v => "\"" ++ v ++ "\"").map unquoted = o := by
    intro o
    cases o with
    | none => rfl
    | some v => rw [Option.map_some, Option.map_some, unquoted_quoted]
  refine ⟨?_, ?_, ?_⟩
  · exact (get?_readAttributes t .radix).trans Option.map_id'
  · exact (congrArg (Option.map unquoted) (get?_readAttributes t .description)).trans (hunquoted _)
  · exact (congrArg (Option.map unquoted) (get?_readAttributes t .externalAccess)).trans
      (hunquoted _)

/-- A line is read back, and is constant if its definition says so. -/
theorem readTagLine?_line : readTagLine? t.line =
    some { t.tag with constant := contains "CONSTANT" (upper t.definition) } := by
  obtain ⟨m, hm, hname, hdefinition⟩ := exists_match_tagLine t
  obtain ⟨type, htype, hdataType, hdimensions⟩ := exists_match_typeWithDimensions t
  obtain ⟨hradix, hdescription, haccess⟩ := get?_readAttributes_keys t
  have hstrip : strip (m.group 2) = t.definition := by
    rw [hdefinition, strip_of_hasEnds t.hasEnds_definition]
  have hread : (t.dimensions.map dimensionText).map readDimensions =
      t.dimensions.map readable := by
    rw [Option.map_map]
    refine Option.map_congr fun ds hds => readDimensions_dimensionText ?_
    rintro rfl
    exact t.dimensions_ne_nil hds
  rw [readTagLine?, hm]
  simp only [Option.bind_eq_bind, Option.bind_some, hstrip, htype, hname, hdataType, hdimensions,
    find?_assignedValue, t.upper_dataType, hread, hradix, hdescription, haccess,
    get?_readAttributes_aliasFor]
  rfl

theorem contains_upper_definition (h : contains "CONSTANT" (upper t.line) = false) :
    contains "CONSTANT" (upper t.definition) = false := by
  rw [contains, Bool.eq_false_iff, Ne, Chars.contains_iff_infix] at h ⊢
  intro hdefinition
  have hline : (upper t.line).toList = (upper (t.name ++ " : ")).toList ++
      ((upper t.definition).toList ++ (upper ";").toList) := by
    simp [upper, TagText.line]
  rw [hline] at h
  exact h (hdefinition.trans ((List.prefix_append _ _).isInfix.trans
    (List.suffix_append _ _).isInfix))

end Reading

/-- A line that declares a tag is read back: the name, the type, the attributes and the value are
those that were written, also as the value to begin with.  The dimensions are those that were
written if each of them has digits few enough, and otherwise there are none.  What was not written
is absent, and the tag is not constant if that word stands nowhere. -/
theorem readTagLine?_eq_tag (t : TagText) (h : contains "CONSTANT" (upper t.line) = false) :
    readTagLine? t.line = some t.tag := by
  rw [readTagLine?_line, contains_upper_definition t h]
  rfl

/-- A tag with all parts. -/
def setpoints : TagText where
  name := "Setpoints"
  dataType := "DINT"
  dimensions := some [10, 2]
  attributes := [(.description, "a := b"), (.radix, "Hex"), (.externalAccess, "Read Only")]
  value := some "[1] : =0"
  isWord_name := by decide
  dataType_ne_empty := by decide
  isTypeChar_dataType := List.all_eq_true.1 (by decide)
  dimensions_ne_nil := by decide
  nodup_attributes := by decide
  allows_attributes := by decide
  isValue_value := by simp; decide

theorem contains_upper_setpoints : contains "CONSTANT" (upper setpoints.line) = false := by
  -- the parts are put together as lists of characters, which is faster than as texts
  simp only [contains, upper, setpoints, TagText.line, TagText.definition, TagText.typeText,
    TagText.attributeText, TagText.valueText, dimensionText, TagText.pairsText, pairText,
    AttributeKey.spelling, AttributeKey.written, String.toList_ofList, String.toList_append,
    reduceCtorEq, if_false, toList_join, List.map_cons, List.map_nil]
  decide

theorem readTagLine?_eq_tag_setpoints :
    setpoints.line = "Setpoints : DINT[10,2] (DESCRIPTION := \"a := b\", " ++
      "RADIX := Hex, ExternalAccess := \"Read Only\") := [1] : =0;" ∧
    readTagLine? setpoints.line = some {
      name := "Setpoints"
      dataType := "DINT"
      value := some "[1] : =0"
      description := some "a := b"
      externalAccess := some "Read Only"
      radix := some "Hex"
      arrayDimensions := some [10, 2]
      initialValue := some "[1] : =0" } := by
  have hread : readable [10, 2] = [10, 2] := by decide +kernel
  refine ⟨by decide, (readTagLine?_eq_tag setpoints contains_upper_setpoints).trans ?_⟩
  simp [TagText.tag, setpoints, hread, Table.lookup]

/-- A tag with one dimension. -/
def levels (n : Nat) : TagText where
  name := "Level"
  dataType := "DINT"
  dimensions := some [n]
  isWord_name := by decide
  dataType_ne_empty := by decide
  isTypeChar_dataType := List.all_eq_true.1 (by decide)
  dimensions_ne_nil := by simp
  nodup_attributes := by decide
  allows_attributes := by simp
  isValue_value := by simp

/-- There is no letter C in the line. -/
theorem contains_upper_levels (n : Nat) : contains "CONSTANT" (upper (levels n).line) = false := by
  have hline : (levels n).line.toList =
      "Level : DINT[".toList ++ ((toString n).toList ++ "];".toList) := by
    simp [TagText.line, TagText.definition, TagText.typeText, TagText.attributeText,
      TagText.valueText, levels, dimensionText]
  have hdigit : ∀ c ∈ (toString n).toList, upperChar c = [c] ∧ c ≠ 'C' := fun c hc =>
    of_forall_ascii (P := fun c => c.isDigit = true → upperChar c = [c] ∧ c ≠ 'C')
      (by decide) (toNat_lt_of_isDigit (isDigit_of_mem_toString hc))
      (isDigit_of_mem_toString hc)
  rw [contains, Bool.eq_false_iff, Ne, Chars.contains_iff_infix]
  intro hconstant
  have hC : 'C' ∈ (upper (levels n).line).toList := hconstant.subset (by decide)
  rw [upper, String.toList_ofList, hline, List.flatMap_append, List.flatMap_append,
    List.mem_append, List.mem_append] at hC
  rcases hC with hC | hC | hC
  · exact absurd hC (by decide)
  · obtain ⟨c, hc, hC⟩ := List.mem_flatMap.1 hC
    rw [(hdigit c hc).1, List.mem_singleton] at hC
    exact (hdigit c hc).2 hC.symm
  · exact absurd hC (by decide)

theorem readable_of_not_lt {ds : List Nat} {d : Nat} (hd : d ∈ ds)
    (h : ¬d < 10 ^ maxNumeralDigits) : readable ds = [] :=
  if_neg fun hall => h (hall d hd)

/-- A dimension of too many digits is lost. -/
theorem large_dimension_lost :
    contains "CONSTANT" (upper (levels (10 ^ maxNumeralDigits)).line) = false ∧
    ∃ tag, readTagLine? (levels (10 ^ maxNumeralDigits)).line = some tag ∧
      tag.arrayDimensions ≠ some [10 ^ maxNumeralDigits] := by
  refine ⟨contains_upper_levels _, _, readTagLine?_line _, ?_⟩
  have hread := readable_of_not_lt (List.mem_singleton_self (10 ^ maxNumeralDigits))
    (Nat.lt_irrefl _)
  simp [TagText.tag, levels, hread]

end ControlLogic.Overlay
