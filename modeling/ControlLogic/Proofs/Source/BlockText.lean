import ControlLogic.Proofs.Text.WholeWord
import ControlLogic.Source.OpenPlc
import Mathlib.Data.List.TakeWhile

/-!
# Variable blocks and what is read from their text

A file of variable blocks: each has the word of its kind, entries `name : TYPE;` and the word that
ends it, with blanks around them.  The words of the entries are any words without the letters of the
keyword `VAR`.

* `Block.enclosed`: what stands within a block does not hold the keyword and ends with a separator,
  so that no end of a block begins in it (`Enclosed.afterKeyword?_endWord`).
* `readPiece?_text` reads an entry, and `readPiece?_word_text` says that a word before it spoils it.
* `readBlock_entries` and `readBlock_word_entries` read the entries of a block: all of them, or all
  but the first if a word stands before them.
* `readBlock_blanks`: blanks around the text of a block change nothing.
-/

namespace ControlLogic.Source.OpenPlc

open Text Text.Pattern

/-! ## The layout -/

/-- The keyword of variables. -/
def varWord : List Char := "VAR".toList

/-- The word that ends a block. -/
def endWord : List Char := "END_VAR".toList

/-- An entry `name : TYPE;` of a block, and the blanks behind it. -/
structure Entry where
  name : String
  type : String
  gap : String := "\n"
  isWord_name : IsWord name := by decide
  isWord_type : IsWord type := by decide
  lacks_name : Lacks varWord name.toList := by decide
  lacks_type : Lacks varWord type.toList := by decide
  allBlank_gap : AllBlank gap.toList := by decide

namespace Entry

variable (e : Entry)

/-- The entry up to its semicolon. -/
def text : String := e.name ++ " : " ++ e.type

def chars : List Char := e.text.toList ++ ';' :: e.gap.toList

/-- The variable that an entry declares in a block of a kind. -/
def toVariable (kind : String) : Variable := ⟨e.name, e.type, none, kind⟩

theorem toList_text : e.text.toList = e.name.toList ++ ([' '] ++ ([':'] ++ ([' '] ++
    e.type.toList))) := by
  simp [text]

theorem hasEnds_text : HasEnds e.text.toList := by
  have hends := e.isWord_name.hasEnds.append e.isWord_type.hasEnds " : ".toList
  simpa [text] using hends

theorem not_mem_text : ';' ∉ e.text.toList := by
  intro hmem
  have hword : isWordChar ';' = true := by
    simp only [toList_text, List.mem_append, List.mem_singleton, false_or, Char.reduceEq] at hmem
    rcases hmem with hmem | hmem
    · exact e.isWord_name.2 _ hmem
    · exact e.isWord_type.2 _ hmem
  exact absurd hword (by decide)

/-- Whether one of the words of an entry has the letter that ends begin with. -/
def hasLetter : Bool := (e.name.toList ++ e.type.toList).any (sameLetter 'E')

end Entry

/-- A block of entries: the word of its kind, blanks, the entries, and the word that ends it with
the blanks behind it. -/
structure Block where
  kind : String
  lead : String := "\n"
  entries : List Entry
  trail : String := "\n"
  kind_mem : kind ∈ blockKinds := by decide
  lead_ne : lead ≠ "" := by decide
  allBlank_lead : AllBlank lead.toList := by decide
  allBlank_trail : AllBlank trail.toList := by decide

namespace Block

variable (b : Block)

/-- What stands between the word of the kind and the word that ends the block. -/
def inner : List Char := b.lead.toList ++ b.entries.flatMap Entry.chars

def chars : List Char := b.kind.toList ++ (b.inner ++ (endWord ++ b.trail.toList))

/-- Whether a word of an entry has the letter that ends begin with. -/
def hasLetter : Bool := b.entries.any Entry.hasLetter

/-- The variables of a block, as those of a block of a kind. -/
def variablesAs (kind : String) : List Variable := b.entries.map (·.toVariable kind)

/-- The variables that the block declares. -/
def declared : List Variable := b.variablesAs b.kind

theorem toList_lead_ne_nil : b.lead.toList ≠ [] :=
  fun hnil => b.lead_ne (String.toList_inj.1 hnil)

end Block

/-! ## The words of the kinds -/

/-- What the word of a kind has behind the keyword of variables. -/
def kindTail (kind : String) : List Char := kind.toList.drop 3

section Kinds

variable {kind : String} (hkind : kind ∈ blockKinds)

include hkind

theorem toList_kind : kind.toList = varWord ++ kindTail kind := by
  have hall : ∀ k ∈ blockKinds, k.toList = varWord ++ kindTail k := by decide
  exact hall kind hkind

theorem kindTail_eq_nil_iff : kindTail kind = [] ↔ kind = "VAR" := by
  have hall : ∀ k ∈ blockKinds, kindTail k = [] ↔ k = "VAR" := by decide
  exact hall kind hkind

theorem wordlike_kind : Wordlike kind := by
  have hall : ∀ k ∈ blockKinds, Wordlike k := by decide
  exact hall kind hkind

theorem isWordChar_of_mem_kindTail {x : Char} (hx : x ∈ kindTail kind) : isWordChar x = true :=
  ((wordlike_kind hkind).2 x (List.mem_of_mem_drop hx)).2

/-- The word of a kind does not have the letter that ends begin with. -/
theorem any_kind : kind.toList.any (sameLetter 'E') = false := by
  have hall : ∀ k ∈ blockKinds, k.toList.any (sameLetter 'E') = false := by decide
  exact hall kind hkind

theorem any_kindTail : (kindTail kind).any (sameLetter 'E') = false := by
  refine List.any_eq_false.2 fun x hx => ?_
  exact List.any_eq_false.1 (any_kind hkind) x (List.mem_of_mem_drop hx)

/-- The keyword stands only at the beginning of the word of a kind. -/
theorem lacks_kindTail : Lacks varWord ("AR".toList ++ kindTail kind) := by
  have hall : ∀ k ∈ blockKinds, Lacks varWord ("AR".toList ++ kindTail k) := by decide
  exact hall kind hkind

end Kinds

/-! ## Characters of a block -/

theorem separates_varWord {x : Char} (hx : isSeparator x = true) : Separates x varWord :=
  separates_of_isSeparator hx (by decide)

theorem separates_varWord_of_isBlank {x : Char} (hx : isBlank x = true) : Separates x varWord :=
  separates_of_isBlank hx (by decide)

theorem separates_endWord {x : Char} (hx : isSeparator x = true) : Separates x endWord :=
  separates_of_isSeparator hx (by decide)

/-- A separator does not change whether a text holds the keyword. -/
theorem lacks_cons_iff {x : Char} (hx : Separates x varWord) {t : List Char} :
    Lacks varWord (x :: t) ↔ Lacks varWord t := by
  have happend := lacks_append_sep (s := []) (t := t) (by decide) hx
  rw [List.nil_append] at happend
  exact happend.trans (and_iff_right (by decide))

theorem lacks_allBlank_append_iff {g : List Char} (hg : AllBlank g) {t : List Char} :
    Lacks varWord (g ++ t) ↔ Lacks varWord t := by
  induction g with
  | nil => rfl
  | cons x g ih =>
    obtain ⟨hx, hg⟩ := List.forall_mem_cons.1 hg
    rw [List.cons_append, lacks_cons_iff (separates_varWord_of_isBlank hx), ih hg]

theorem lacks_entries (entries : List Entry) :
    Lacks varWord (entries.flatMap Entry.chars) := by
  have hspace : Separates ' ' varWord := by decide
  have hcolon : Separates ':' varWord := by decide
  have hsemicolon : Separates ';' varWord := by decide
  induction entries with
  | nil => decide
  | cons e entries ih =>
    rw [List.flatMap_cons, Entry.chars, Entry.toList_text]
    simp only [List.append_assoc, List.cons_append, List.nil_append]
    rw [lacks_append_sep (by decide) hspace, lacks_cons_iff hcolon, lacks_cons_iff hspace,
      lacks_append_sep (by decide) hsemicolon, lacks_allBlank_append_iff e.allBlank_gap]
    exact ⟨e.lacks_name, e.lacks_type, ih⟩

theorem exists_flatMap_chars (entries : List Entry) (s : List Char) (x : Char)
    (hx : isSeparator x = true) :
    ∃ s' x', isSeparator x' = true ∧ (s ++ [x]) ++ entries.flatMap Entry.chars = s' ++ [x'] := by
  induction entries generalizing s x with
  | nil => exact ⟨s, x, hx, by simp⟩
  | cons e entries ih =>
    rcases List.eq_nil_or_concat' e.gap.toList with hgap | ⟨g, y, hgap⟩
    · obtain ⟨s', x', hx', heq⟩ := ih (s ++ [x] ++ e.text.toList) ';' (by decide)
      exact ⟨s', x', hx', by simpa [Entry.chars, hgap] using heq⟩
    · have hy : isSeparator y = true := by
        rw [isSeparator, e.allBlank_gap y (by simp [hgap]), Bool.true_or]
      obtain ⟨s', x', hx', heq⟩ := ih (s ++ [x] ++ e.text.toList ++ ';' :: g) y hy
      exact ⟨s', x', hx', by simpa [Entry.chars, hgap] using heq⟩

namespace Block

variable (b : Block)

/-- The text of a block begins with the keyword. -/
theorem chars_append (t : List Char) : b.chars ++ t =
    varWord ++ (kindTail b.kind ++ (b.inner ++ (endWord ++ (b.trail.toList ++ t)))) := by
  rw [Block.chars, toList_kind b.kind_mem]
  simp

/-- What stands within a block does not hold the keyword. -/
theorem lacks_inner : Lacks varWord b.inner :=
  (lacks_allBlank_append_iff b.allBlank_lead).2 (lacks_entries b.entries)

/-- What stands within a block ends with a separator. -/
theorem exists_inner : ∃ s x, isSeparator x = true ∧ b.inner = s ++ [x] := by
  obtain ⟨g, y, hlead⟩ := (List.eq_nil_or_concat' b.lead.toList).resolve_left b.toList_lead_ne_nil
  have hy : isSeparator y = true := by
    rw [isSeparator, b.allBlank_lead y (by simp [hlead]), Bool.true_or]
  obtain ⟨s, x, hx, heq⟩ := exists_flatMap_chars b.entries g y hy
  exact ⟨s, x, hx, by rw [Block.inner, hlead, heq]⟩

/-- What stands within a block begins with a blank. -/
theorem exists_inner_eq_cons : ∃ x t, isBlank x = true ∧ b.inner = x :: t := by
  obtain ⟨x, g, hlead⟩ := List.exists_cons_of_ne_nil b.toList_lead_ne_nil
  refine ⟨x, g ++ b.entries.flatMap Entry.chars, b.allBlank_lead x (by simp [hlead]), ?_⟩
  rw [Block.inner, hlead, List.cons_append]

/-- What stands within a block separates what stands around it. -/
theorem lacks_around {u v : List Char} (hu : Lacks varWord u) (hv : Lacks varWord v) :
    Lacks varWord (u ++ (b.inner ++ v)) := by
  have hend : Lacks varWord (b.inner ++ v) := by
    obtain ⟨s, y, hy, hinner⟩ := b.exists_inner
    have hlacks := b.lacks_inner
    rw [hinner, lacks_append_sep (by decide) (separates_varWord hy)] at hlacks
    rw [hinner, List.append_assoc, List.singleton_append,
      lacks_append_sep (by decide) (separates_varWord hy)]
    exact ⟨hlacks.1, hv⟩
  obtain ⟨x, t, hx, hinner⟩ := b.exists_inner_eq_cons
  rw [hinner, List.cons_append] at hend ⊢
  have hsep := separates_varWord_of_isBlank hx
  rw [lacks_append_sep (by decide) hsep]
  exact ⟨hu, (lacks_cons_iff hsep).1 hend⟩

end Block

/-- The text does not hold the keyword and ends with a separator. -/
def Enclosed (s : List Char) : Prop :=
  Lacks varWord s ∧ ∃ u x, isSeparator x = true ∧ s = u ++ [x]

theorem Block.enclosed (b : Block) {u : List Char} (hu : Lacks varWord u) :
    Enclosed (u ++ b.inner) := by
  obtain ⟨s, x, hx, hinner⟩ := b.exists_inner
  have hlacks := b.lacks_around hu (v := []) (by decide)
  rw [List.append_nil] at hlacks
  exact ⟨hlacks, u ++ s, x, hx, by rw [hinner, List.append_assoc]⟩

/-- No end of a block begins within such a text. -/
theorem Enclosed.afterKeyword?_endWord {s u v : List Char} (hs : Enclosed s) (huv : s = u ++ v)
    (hv : v ≠ []) (t : List Char) : afterKeyword? endWord (v ++ t) = none := by
  obtain ⟨hlacks, w, x, hx, hsep⟩ := hs
  obtain ⟨v, y, rfl⟩ := (List.eq_nil_or_concat' v).resolve_left hv
  have hlast : u ++ v ++ [y] = w ++ [x] := by rw [List.append_assoc, ← huv, hsep]
  obtain ⟨-, hy⟩ := List.append_inj' hlast rfl
  cases hy
  have hmiddle : Lacks varWord v :=
    Lacks.of_infix hlacks ⟨u, [x], by rw [huv, List.append_assoc]⟩
  have hend : Lacks ("END_".toList ++ varWord) v := hmiddle.of_append _
  rw [List.append_assoc, List.singleton_append, afterKeyword?_append_sep (separates_endWord hx)]
  exact Option.map_eq_none_iff.2 (lacks_iff.1 hend v List.suffix_rfl)

theorem AllBlank.any_eq_false {g : List Char} (hg : AllBlank g) :
    g.any (sameLetter 'E') = false := by
  refine List.any_eq_false.2 fun x hx => ?_
  rw [separates_of_isBlank (hg x hx) (k := ['E']) (by decide) 'E' List.mem_cons_self]
  exact Bool.false_ne_true

theorem Entry.any_chars (e : Entry) : e.chars.any (sameLetter 'E') = e.hasLetter := by
  have hspace : sameLetter 'E' ' ' = false := by decide
  have hcolon : sameLetter 'E' ':' = false := by decide
  have hsemicolon : sameLetter 'E' ';' = false := by decide
  rw [Entry.chars, toList_text, Entry.hasLetter]
  simp [hspace, hcolon, hsemicolon, AllBlank.any_eq_false e.allBlank_gap]

/-- The letter that ends begin with stands in a block if it stands in a word of an entry. -/
theorem Block.any_inner (b : Block) : b.inner.any (sameLetter 'E') = b.hasLetter := by
  rw [Block.inner, List.any_append, AllBlank.any_eq_false b.allBlank_lead, Bool.false_or,
    List.any_flatMap, Block.hasLetter]
  simp only [Entry.any_chars]

/-! ## Reading an entry -/

/-- What a piece between semicolons is read as. -/
def readPiece? (kind : String) (piece : List Char) : Option Variable :=
  (declaration.matchStart? (String.ofList (Chars.trim isBlank piece))).map fun m =>
    ⟨strip (m.group 1), strip (m.group 2), (m.group? 3).map strip, kind⟩

theorem matchStart?_declaration_eq_none {s : String} (h : ':' ∉ s.toList) :
    declaration.matchStart? s = none := by
  have hcolon : (Pattern.text ":").Demands ':' := fun y hy => eq_of_beq hy
  have hdemands : declaration.Demands ':' := .inr (.inr (.inr (.inl hcolon)))
  exact fails_of_demands hdemands (c := ⟨0, none, s.toList, []⟩) h _

/-- A piece without a colon declares nothing. -/
theorem readPiece?_eq_none (kind : String) {s : List Char} (h : ':' ∉ s) :
    readPiece? kind s = none := by
  rw [readPiece?, matchStart?_declaration_eq_none, Option.map_none]
  rw [String.toList_ofList]
  exact fun hmem => h (Chars.mem_of_mem_trim hmem)

/-- The pattern of the address of a variable. -/
def address : Pattern := .all [.gap, .text "AT", .gap, .plus (.except ":")]

/-- An address has blanks, a word, blanks again, and something that is no colon. -/
theorem exists_of_matches_address {c d : Cursor} (h : Matches address c d) :
    ∃ g g' r x, g ≠ [] ∧ AllBlank g ∧ g' ≠ [] ∧ AllBlank g' ∧ x ≠ ':' ∧
      c.rest = g ++ ("AT".toList ++ (g' ++ x :: r)) := by
  cases h with | seq hgap h =>
  cases h with | seq hword h =>
  cases h with | seq hgap' hplace =>
  obtain ⟨g, hg, hrest, -, hblank⟩ := hgap.exists_passed_plus
  obtain ⟨g', hg', hrest', -, hblank'⟩ := hgap'.exists_passed_plus
  obtain ⟨s, hs, hrest'', -, hplace⟩ := hplace.exists_passed_plus
  obtain ⟨x, s, rfl⟩ := List.exists_cons_of_ne_nil hs
  refine ⟨g, g', s ++ d.rest, x, hg, hblank, hg', hblank', ?_, ?_⟩
  · rintro rfl
    exact absurd (hplace ':' List.mem_cons_self) (by decide)
  · rw [hrest, hword.rest_text, hrest', hrest'', List.cons_append]

/-- Blanks around a piece change nothing. -/
theorem readPiece?_blanks (kind : String) {a b : List Char} (ha : AllBlank a) (hb : AllBlank b)
    (t : List Char) : readPiece? kind (a ++ (t ++ b)) = readPiece? kind t := by
  have htrim : Chars.trim isBlank (a ++ (t ++ b)) = Chars.trim isBlank t := by
    obtain ⟨a', b', ha', hb', ht, -⟩ := exists_eq_trim t
    by_cases hnil : Chars.trim isBlank t = []
    · have hall : AllBlank (a ++ (t ++ b)) := by
        rw [hnil, List.nil_append] at ht
        intro x hx
        rw [ht] at hx
        simp only [List.mem_append] at hx
        rcases hx with hx | (hx | hx) | hx
        · exact ha x hx
        · exact ha' x hx
        · exact hb' x hx
        · exact hb x hx
      rw [hnil, Chars.trim, Chars.trimLeft, List.dropWhile_eq_nil_iff.2 hall]
      rfl
    · have happend : ∀ {s t : List Char}, AllBlank s → AllBlank t → AllBlank (s ++ t) :=
        fun hs ht => List.forall_mem_append.2 ⟨hs, ht⟩
      have htext : a ++ (t ++ b) = (a ++ a') ++ (Chars.trim isBlank t ++ (b' ++ b)) := by
        conv_lhs => rw [ht]
        simp
      rw [htext, trim_between (happend ha ha') (hasEnds_trim hnil) (happend hb' hb)]
  rw [readPiece?, htrim, readPiece?]

namespace Entry

variable (e : Entry)

/-- The word before a colon is no address. -/
theorem not_matches_address {c d : Cursor} {g : List Char} (hg : AllBlank g)
    (hrest : c.rest = g ++ e.text.toList) : ¬ Matches address c d := by
  intro h
  obtain ⟨g₁, g₂, r, x, -, hg₁, hne, hg₂, hx, heq⟩ := exists_of_matches_address h
  have htext := e.hasEnds_text.head?_any_append []
  rw [List.append_nil] at htext
  rw [hrest] at heq
  obtain rfl : g = g₁ := Chars.append_inj_of_run hg htext hg₁ rfl heq
  have heq := List.append_cancel_left heq
  rw [toList_text] at heq
  -- the name ends where the word of the address does, and a colon follows one blank later
  obtain ⟨y, g₂, rfl⟩ := List.exists_cons_of_ne_nil hne
  have hy : isWordChar y = false := by
    rw [Bool.eq_false_iff]
    intro hword
    have hblank := hg₂ y List.mem_cons_self
    rw [isBlank_of_isWordChar hword] at hblank
    cases hblank
  have hname : e.name.toList = "AT".toList :=
    Chars.append_inj_of_run e.isWord_name.2 rfl (List.forall_mem_cons.2
      ⟨rfl, List.forall_mem_singleton.2 rfl⟩) (by simpa using hy) heq
  rw [hname] at heq
  have heq := (List.cons.inj (List.append_cancel_left heq)).2
  cases g₂ with
  | nil => exact hx (List.cons.inj heq).1.symm
  | cons z g₂ =>
    have hz := hg₂ z (by simp)
    rw [← (List.cons.inj heq).1] at hz
    exact absurd hz (by decide)

/-- An entry is read as the variable that it declares. -/
theorem matchStart?_text : ∃ m, declaration.matchStart? e.text = some m ∧ m.group 1 = e.name ∧
    m.group 2 = e.type ∧ m.group? 3 = none := by
  let start : Cursor := ⟨0, none, e.text.toList, []⟩
  let named := (start.past e.name.toList ([' '] ++ ([':'] ++ ([' '] ++ e.type.toList)))).mark 1
    e.name.toList
  let signed := (named.past [' '] ([':'] ++ ([' '] ++ e.type.toList))).past ":".toList
    ([' '] ++ e.type.toList)
  let spaced := signed.past [' '] (e.type.toList ++ [])
  let typed := (spaced.past e.type.toList []).mark 2 e.type.toList
  have h₁ : Prefers (group 1 word) start named :=
    Prefers.group e.toList_text
      (prefers_plus e.toList_text e.isWord_name.toList_ne_nil e.isWord_name.2 rfl)
  have h₂ : Prefers (optional address) named named := by
    refine prefers_right (fails_of_not_matches fun d h => ?_) (prefers_empty named)
    obtain ⟨g, g', r, x, hne, hg, -, -, -, heq⟩ := exists_of_matches_address h
    obtain ⟨y, g, rfl⟩ := List.exists_cons_of_ne_nil hne
    have heq := (List.cons.inj heq).2
    cases g with
    | nil => exact absurd (List.cons.inj heq).1 (by decide)
    | cons z g =>
      have hz := hg z (by simp)
      rw [← (List.cons.inj heq).1] at hz
      exact absurd hz (by decide)
  have h₃ : Prefers blanks named (named.past [' '] ([':'] ++ ([' '] ++ e.type.toList))) :=
    prefers_star rfl (List.forall_mem_singleton.2 rfl) rfl
  have h₄ : Prefers (.text ":") (named.past [' '] _) signed := prefers_text rfl
  have h₅ : Prefers blanks signed spaced := by
    refine prefers_star ?_ (List.forall_mem_singleton.2 rfl)
      (e.isWord_type.hasEnds.head?_any_append [])
    rw [List.append_nil]
    rfl
  have h₆ : Prefers (group 2 (.seq .word (.optional arraySize))) spaced typed := by
    have hsize : arraySize.Fails (spaced.past e.type.toList []) := by
      have hopen : (Pattern.text "[").Demands '[' := fun y hy => eq_of_beq hy
      have hdemands : arraySize.Demands '[' := ⟨.inr (.inl hopen), .inr (.inl hopen)⟩
      exact fails_of_demands hdemands List.not_mem_nil
    exact Prefers.group rfl
      ((prefers_plus rfl e.isWord_type.toList_ne_nil e.isWord_type.2 rfl).seq
        (prefers_right hsize (prefers_empty _)))
  have h₇ : Prefers blanks typed typed := prefers_star_nil rfl
  have h₈ : Prefers (.optional (.all [.text ":", .optional (.text "="), .blanks,
      .group 3 (.plus (.except ";"))])) typed typed := by
    refine prefers_right (fails_of_not_matches fun d h => ?_) (prefers_empty typed)
    cases h with | seq hcolon _ => cases hcolon.rest_text
  have hmatch : Prefers declaration start typed :=
    h₁.seq (h₂.seq (h₃.seq (h₄.seq (h₅.seq (h₆.seq (h₇.seq h₈))))))
  refine ⟨_, matchAt_of_prefers hmatch, ?_, ?_, ?_⟩ <;>
    simp [Match.group, Match.group?, start, named, signed, spaced, typed]

theorem readPiece?_text (kind : String) {g : List Char} (hg : AllBlank g) :
    readPiece? kind (g ++ e.text.toList) = some (e.toVariable kind) := by
  have htrim := trim_between hg e.hasEnds_text (b := []) (by decide)
  rw [List.append_nil] at htrim
  obtain ⟨m, hm, hname, htype, hvalue⟩ := e.matchStart?_text
  rw [readPiece?, htrim, String.ofList_toList, hm, Option.map_some, hname, htype, hvalue,
    strip_of_hasEnds e.isWord_name.hasEnds, strip_of_hasEnds e.isWord_type.hasEnds]
  rfl

/-- A word before an entry spoils it. -/
theorem readPiece?_word_text (kind : String) {w g : List Char} (hw : w ≠ [])
    (hword : ∀ c ∈ w, isWordChar c = true) (hg : AllBlank g) (hne : g ≠ []) :
    readPiece? kind (w ++ (g ++ e.text.toList)) = none := by
  have hends : HasEnds w :=
    hasEnds_of_forall_not hw fun c hc => isBlank_of_isWordChar (hword c hc)
  have htrim := trim_between (a := []) (by decide) (hends.append e.hasEnds_text g) (b := [])
    (by decide)
  rw [List.append_nil, List.nil_append] at htrim
  have htext := e.hasEnds_text.head?_any_append []
  rw [List.append_nil] at htext
  have hblank : ∀ {s t : List Char}, AllBlank s → t.head?.any isWordChar = false →
      (s ++ t).head?.any isWordChar = false := fun hs ht =>
    head?_any_append (fun _ => isBlank_of_isWordChar) hs ht
  have hafter : (g ++ e.text.toList).head?.any isWordChar = false := by
    obtain ⟨x, g, rfl⟩ := List.exists_cons_of_ne_nil hne
    have hx := hblank (List.forall_mem_singleton.2 (hg x List.mem_cons_self)) (t := []) rfl
    simpa using hx
  have hfails : declaration.matchStart? (String.ofList (w ++ (g ++ e.text.toList))) = none := by
    refine fails_of_not_matches (c := ⟨0, none, _, []⟩) (fun d h => ?_) _
    cases h with | seq hname h =>
    cases h with | seq haddress h =>
    cases h with | seq hgap h =>
    cases h with | seq hcolon _ =>
    obtain ⟨s, -, hs, hsword, -⟩ := hname.exists_passed_group_plus
    rw [String.toList_ofList] at hs
    cases haddress with
    | left haddress =>
      obtain ⟨g₁, g₂, r, x, hne₁, hg₁, -, -, -, heq⟩ := exists_of_matches_address haddress
      have hhead : (g₁ ++ ("AT".toList ++ (g₂ ++ x :: r))).head?.any isWordChar = false := by
        obtain ⟨y, g₁, rfl⟩ := List.exists_cons_of_ne_nil hne₁
        have hy := hblank (List.forall_mem_singleton.2 (hg₁ y List.mem_cons_self)) (t := []) rfl
        simpa using hy
      have hrest := hs
      rw [heq] at hrest
      obtain rfl := Chars.append_inj_of_run hword hafter hsword hhead hrest
      exact e.not_matches_address hg (List.append_cancel_left hs).symm haddress
    | right hempty =>
      cases hempty
      obtain ⟨g₁, hrest, -, hg₁⟩ := hgap.exists_passed (P := (isBlank · = true)) fun _ h => h
      rw [hrest, hcolon.rest_text] at hs
      obtain rfl := Chars.append_inj_of_run hword hafter hsword (hblank hg₁ rfl) hs
      have heq := List.append_cancel_left hs
      obtain rfl := Chars.append_inj_of_run hg htext hg₁ rfl heq
      have heq := List.append_cancel_left heq
      rw [toList_text] at heq
      -- the entry begins with its name, not with a colon
      obtain ⟨x, n, hn⟩ := List.exists_cons_of_ne_nil e.isWord_name.toList_ne_nil
      have hx := e.isWord_name.2 x (by simp [hn])
      rw [hn] at heq
      rw [(List.cons.inj heq).1] at hx
      exact absurd hx (by decide)
  rw [readPiece?, htrim, hfails, Option.map_none]

end Entry

/-! ## Reading the entries of a block -/

/-- The declarations of a block are read piece by piece. -/
theorem readBlock_eq (body : List Char) (kind : String) :
    readBlock (String.ofList body) kind =
      (List.splitOn ';' body).filterMap (readPiece? kind) := by
  rw [readBlock, Text.split, List.map_map, List.filterMap_filter, List.filterMap_map,
    String.toList_ofList]
  refine List.filterMap_congr fun piece _ => ?_
  simp only [Function.comp_apply, strip, String.toList_ofList, readPiece?]
  split
  · rfl
  · rename_i hnot
    have hempty : String.ofList (Chars.trim isBlank piece) = "" := by simpa using hnot
    rw [hempty, matchStart?_declaration_eq_none List.not_mem_nil, Option.map_none]

theorem AllBlank.not_mem {g : List Char} (hg : AllBlank g) {x : Char} (hx : isBlank x = false) :
    x ∉ g := by
  intro hmem
  rw [hg x hmem] at hx
  cases hx

section

variable (kind : String) {g last : List Char}

/-- Behind blanks all entries are read. -/
theorem readBlock_entries (entries : List Entry) (hg : AllBlank g) (hlast : ';' ∉ last)
    (hcolon : ':' ∉ last) :
    readBlock (String.ofList (g ++ (entries.flatMap Entry.chars ++ last))) kind =
      entries.map (·.toVariable kind) := by
  rw [readBlock_eq]
  induction entries generalizing g with
  | nil =>
    have hsemicolon : ';' ∉ g ++ last := by
      rw [List.mem_append, not_or]
      exact ⟨AllBlank.not_mem hg (by decide), hlast⟩
    have hnone := readPiece?_eq_none kind (s := g ++ last) (by
      rw [List.mem_append, not_or]
      exact ⟨AllBlank.not_mem hg (by decide), hcolon⟩)
    rw [List.flatMap_nil, List.nil_append, List.splitOn_eq_singleton hsemicolon,
      List.filterMap_cons_none hnone]
    rfl
  | cons e entries ih =>
    have hsemicolon : ';' ∉ g ++ e.text.toList := by
      rw [List.mem_append, not_or]
      exact ⟨AllBlank.not_mem hg (by decide), e.not_mem_text⟩
    have hsplit := List.splitOn_append_cons_self_of_not_mem hsemicolon
      (e.gap.toList ++ (entries.flatMap Entry.chars ++ last))
    have htext : g ++ ((e :: entries).flatMap Entry.chars ++ last) =
        g ++ e.text.toList ++ ';' :: (e.gap.toList ++ (entries.flatMap Entry.chars ++ last)) := by
      simp [Entry.chars]
    rw [htext, hsplit, List.filterMap_cons_some (e.readPiece?_text kind hg), ih e.allBlank_gap,
      List.map_cons]

/-- Behind a word all entries but the first are read. -/
theorem readBlock_word_entries (entries : List Entry) {w : List Char} (hw : w ≠ [])
    (hword : ∀ c ∈ w, isWordChar c = true) (hg : AllBlank g) (hne : g ≠ []) (hlast : ';' ∉ last)
    (hcolon : ':' ∉ last) :
    readBlock (String.ofList (w ++ (g ++ (entries.flatMap Entry.chars ++ last)))) kind =
      (entries.map (·.toVariable kind)).drop 1 := by
  have hfront : ∀ x : Char, isBlank x = false → isWordChar x = false → x ∉ w ++ g := by
    intro x hblank hnot hmem
    rcases List.mem_append.1 hmem with hmem | hmem
    · rw [hword x hmem] at hnot
      cases hnot
    · exact AllBlank.not_mem hg hblank hmem
  cases entries with
  | nil =>
    have hsemicolon : ';' ∉ w ++ g ++ last := by
      rw [List.mem_append, not_or]
      exact ⟨hfront ';' (by decide) (by decide), hlast⟩
    have hnone := readPiece?_eq_none kind (s := w ++ g ++ last) (by
      rw [List.mem_append, not_or]
      exact ⟨hfront ':' (by decide) (by decide), hcolon⟩)
    have htext : w ++ (g ++ (([] : List Entry).flatMap Entry.chars ++ last)) = w ++ g ++ last := by
      simp
    rw [htext, readBlock_eq, List.splitOn_eq_singleton hsemicolon, List.filterMap_cons_none hnone]
    rfl
  | cons e entries =>
    have hsemicolon : ';' ∉ w ++ (g ++ e.text.toList) := by
      rw [← List.append_assoc, List.mem_append, not_or]
      exact ⟨hfront ';' (by decide) (by decide), e.not_mem_text⟩
    have htext : w ++ (g ++ ((e :: entries).flatMap Entry.chars ++ last)) =
        w ++ (g ++ e.text.toList) ++
          ';' :: (e.gap.toList ++ (entries.flatMap Entry.chars ++ last)) := by
      simp [Entry.chars]
    have hrest := readBlock_entries kind entries e.allBlank_gap hlast hcolon
    rw [readBlock_eq] at hrest
    rw [htext, readBlock_eq, List.splitOn_append_cons_self_of_not_mem hsemicolon,
      List.filterMap_cons_none (e.readPiece?_word_text kind hw hword hg hne), hrest,
      List.map_cons, List.drop_one, List.tail_cons]

/-! ## Blanks around a block -/

theorem filterMap_split_blanks {a b : List Char} (ha : AllBlank a) (hb : AllBlank b)
    (t : List Char) :
    (List.splitOn ';' (a ++ (t ++ b))).filterMap (readPiece? kind) =
      (List.splitOn ';' t).filterMap (readPiece? kind) := by
  have hnot : ∀ {g : List Char}, AllBlank g → ';' ∉ g := fun hg => AllBlank.not_mem hg (by decide)
  by_cases hmem : ';' ∈ t
  · -- the blanks in front belong to the first piece, those behind to what follows it
    obtain ⟨u, v, ht, hu⟩ := List.eq_append_cons_of_mem hmem
    have htext : a ++ (t ++ b) = (a ++ (u ++ [])) ++ ';' :: ([] ++ (v ++ b)) := by simp [ht]
    have hfirst : ';' ∉ a ++ (u ++ []) := by
      simp [hnot ha, hu]
    rw [htext, ht, List.splitOn_append_cons_self_of_not_mem hfirst,
      List.splitOn_append_cons_self_of_not_mem hu, List.filterMap_cons, List.filterMap_cons,
      readPiece?_blanks kind ha (b := []) (by decide),
      filterMap_split_blanks (a := []) (by decide) hb v]
  · have hall : ';' ∉ a ++ (t ++ b) := by
      simp [hnot ha, hnot hb, hmem]
    rw [List.splitOn_eq_singleton hall, List.splitOn_eq_singleton hmem, List.filterMap_cons,
      List.filterMap_cons, readPiece?_blanks kind ha hb]
  termination_by t.length
  decreasing_by
    rw [ht, List.length_append, List.length_cons]
    omega

/-- Blanks around the text of a block change nothing. -/
theorem readBlock_blanks {a b : List Char} (ha : AllBlank a) (hb : AllBlank b) (t : List Char) :
    readBlock (String.ofList (a ++ (t ++ b))) kind = readBlock (String.ofList t) kind := by
  rw [readBlock_eq, readBlock_eq, filterMap_split_blanks kind ha hb]

theorem readBlock_strip (s : String) : readBlock (strip s) kind = readBlock s kind := by
  obtain ⟨a, b, ha, hb, hs, -⟩ := exists_eq_trim s.toList
  have hblanks := readBlock_blanks kind ha hb (Chars.trim isBlank s.toList)
  rw [← hs, String.ofList_toList] at hblanks
  rw [hblanks, strip]

end

end ControlLogic.Source.OpenPlc
