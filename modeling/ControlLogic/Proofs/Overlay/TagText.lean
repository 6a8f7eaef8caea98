import ControlLogic.Overlay.Basic
import ControlLogic.Proofs.Text.Numeral
import ControlLogic.Proofs.Text.Spacing
import Mathlib.Data.List.Basic

/-!
# Tags in one line

A line declares a tag: its name and type, its dimensions, attributes in parentheses, and a value.
All but the first two may be absent.

* `TagText` is a tag with texts of the kinds that can be told apart in a line.
* `TagText.line` writes it, and `TagText.tag` is what should be read from the line.
* The other lemmas say which characters stand in the parts of the line.
-/

namespace ControlLogic.Overlay

open Text

/-- The characters that end a line or stand around attributes. -/
def enders : List Char := [';', '(', ')', '\n']

/-- None of the characters stands in the text. -/
def Avoids (xs s : List Char) : Prop := ∀ c ∈ s, c ∉ xs

instance (xs s : List Char) : Decidable (Avoids xs s) := List.decidableBAll (fun c => c ∉ xs) s

/-! ## Attributes -/

/-- The attributes that a line can give to a tag. -/
inductive AttributeKey where
  | radix
  | description
  | externalAccess
  deriving DecidableEq

namespace AttributeKey

/-- The name of an attribute in a line. -/
def spelling : AttributeKey → String
  | radix => "RADIX"
  | description => "DESCRIPTION"
  | externalAccess => "ExternalAccess"

/-- The value of an attribute in a line: a radix is a word, and the others are quoted. -/
def written : AttributeKey → String → String
  | radix, v => v
  | description, v | externalAccess, v => "\"" ++ v ++ "\""

/-- The values that an attribute can have. -/
def Allows : AttributeKey → String → Prop
  | radix, v => IsWord v
  | description, v | externalAccess, v => Avoids ('"' :: ',' :: enders) v.toList

instance (k : AttributeKey) (v : String) : Decidable (k.Allows v) :=
  match k with
  | radix => inferInstanceAs (Decidable (IsWord v))
  | description | externalAccess =>
    inferInstanceAs (Decidable (Avoids ('"' :: ',' :: enders) v.toList))

end AttributeKey

/-! ## Tags -/

/-- Whether a character may stand in the name of a type. -/
def isTypeChar (c : Char) : Bool := ('A' ≤ c && c ≤ 'Z') || isAsciiDigit c || c == '_'

/-- A value that a line can give: it has no blanks around it and none of the characters that end it
or that stand around attributes. -/
def IsValue (v : String) : Prop := HasEnds v.toList ∧ Avoids enders v.toList

instance (v : String) : Decidable (IsValue v) :=
  inferInstanceAs (Decidable (HasEnds v.toList ∧ Avoids enders v.toList))

/-- A tag as a line declares it. -/
structure TagText where
  name : String
  dataType : String
  dimensions : Option (List Nat) := none
  attributes : List (AttributeKey × String) := []
  value : Option String := none
  isWord_name : IsWord name
  dataType_ne_empty : dataType ≠ ""
  isTypeChar_dataType : ∀ c ∈ dataType.toList, isTypeChar c = true
  dimensions_ne_nil : dimensions ≠ some []
  nodup_attributes : (attributes.map (·.1)).Nodup
  allows_attributes : ∀ a ∈ attributes, a.1.Allows a.2
  isValue_value : ∀ v ∈ value, IsValue v

/-- The numbers of dimensions, if all of them have digits few enough to be read. -/
def readable (ds : List Nat) : List Int :=
  if ∀ d ∈ ds, d < 10 ^ maxNumeralDigits then ds.map Int.ofNat else []

/-- The dimensions with commas between them. -/
def dimensionText (ds : List Nat) : String := join "," (ds.map toString)

/-- An attribute with its value. -/
def pairText (a : AttributeKey × String) : String := a.1.spelling ++ " := " ++ a.1.written a.2

namespace TagText

variable (t : TagText)

/-- The type, and the dimensions in brackets. -/
def typeText : String :=
  match t.dimensions with
  | none => t.dataType
  | some ds => t.dataType ++ ("[" ++ (dimensionText ds ++ "]"))

/-- The attributes with commas between them. -/
def pairsText : String := join ", " (t.attributes.map pairText)

/-- The attributes in parentheses. -/
def attributeText : String := if t.attributes = [] then "" else " (" ++ (t.pairsText ++ ")")

/-- The value after its sign. -/
def valueText : String :=
  match t.value with
  | none => ""
  | some v => " := " ++ v

/-- All that is said of a tag. -/
def definition : String := t.typeText ++ (t.attributeText ++ t.valueText)

/-- What stands before the attributes. -/
def frontText : String := t.name ++ (" : " ++ t.typeText)

/-- The line that declares a tag. -/
def line : String := t.name ++ (" : " ++ (t.definition ++ ";"))

/-- The tag that a line declares. -/
def tag : Tag where
  name := t.name
  dataType := t.dataType
  value := t.value
  description := Table.lookup .description t.attributes
  externalAccess := Table.lookup .externalAccess t.attributes
  radix := Table.lookup .radix t.attributes
  arrayDimensions := t.dimensions.map readable
  initialValue := t.value

end TagText

/-! ## Characters -/

/-- A type is a word in capitals. -/
theorem isWordChar_of_isTypeChar {c : Char} (h : isTypeChar c = true) :
    isWordChar c = true ∧ upperChar c = [c] := by
  have hcode : c.toNat < 128 := by
    simp only [isTypeChar, isAsciiDigit, Bool.or_eq_true, Bool.and_eq_true, decide_eq_true_eq,
      beq_iff_eq, Char.le_def, UInt32.le_iff_toNat_le] at h
    rcases h with (h | h) | rfl
    · exact Nat.lt_of_le_of_lt h.2 (by decide)
    · exact Nat.lt_of_le_of_lt h.2 (by decide)
    · decide
  exact of_forall_ascii (P := fun c => isTypeChar c = true →
    isWordChar c = true ∧ upperChar c = [c]) (by decide) hcode h

theorem isWordChar_of_isDigit {c : Char} (h : c.isDigit = true) : isWordChar c = true :=
  of_forall_ascii (P := fun c => c.isDigit = true → isWordChar c = true) (by decide)
    (toNat_lt_of_isDigit h) h

/-- The characters of a line that stand in no word. -/
def signs : List Char := '[' :: ']' :: ':' :: '=' :: ' ' :: '"' :: ',' :: enders

theorem avoids_of_isWord {s : String} (h : IsWord s) : Avoids signs s.toList := by
  have hsigns : signs.all (fun x => !isWordChar x) = true := by decide
  intro c hc hmem
  have hc' := List.all_eq_true.1 hsigns c hmem
  rw [h.2 c hc] at hc'
  cases hc'

theorem Avoids.mono {xs ys s : List Char} (h : Avoids ys s) (hxs : xs ⊆ ys) : Avoids xs s :=
  fun c hc hmem => h c hc (hxs hmem)

theorem Avoids.not_mem {xs s : List Char} (h : Avoids xs s) {x : Char} (hx : x ∈ xs) : x ∉ s :=
  fun hmem => h x hmem hx

theorem avoids_append {xs s t : List Char} : Avoids xs (s ++ t) ↔ Avoids xs s ∧ Avoids xs t :=
  List.forall_mem_append

namespace AttributeKey

variable (k : AttributeKey)

theorem isWord_spelling : IsWord k.spelling := by cases k <;> decide

variable {k} {v : String}

theorem hasEnds_written (h : k.Allows v) : HasEnds (k.written v).toList := by
  have hquoted : HasEnds ("\"" ++ v ++ "\"").toList := by
    have hends := HasEnds.append (s := ['"']) (t := ['"']) (by decide) (by decide) v.toList
    simpa using hends
  cases k with
  | radix => exact IsWord.hasEnds h
  | description | externalAccess => exact hquoted

/-- Of the characters that end a value, a list of attributes or a line, none stands in a value. -/
theorem avoids_written (h : k.Allows v) : Avoids (',' :: enders) (k.written v).toList := by
  have hquoted : Avoids ('"' :: ',' :: enders) v.toList →
      Avoids (',' :: enders) ("\"" ++ v ++ "\"").toList := by
    intro hv
    rw [String.toList_append, String.toList_append, avoids_append, avoids_append]
    exact ⟨⟨by decide, hv.mono (List.subset_cons_self _ _)⟩, by decide⟩
  cases k with
  | radix => exact (avoids_of_isWord h).mono (by simp [signs, enders])
  | description | externalAccess => exact hquoted h

end AttributeKey

theorem avoids_pairText {a : AttributeKey × String} (h : a.1.Allows a.2) :
    Avoids (',' :: enders) (pairText a).toList := by
  rw [pairText, String.toList_append, String.toList_append, avoids_append, avoids_append]
  exact ⟨⟨(avoids_of_isWord a.1.isWord_spelling).mono (by simp [signs, enders]), by decide⟩,
    AttributeKey.avoids_written h⟩

theorem avoids_join {xs : List Char} {sep : String} {pieces : List String}
    (hsep : Avoids xs sep.toList) (h : ∀ piece ∈ pieces, Avoids xs piece.toList) :
    Avoids xs (join sep pieces).toList := by
  intro c hc
  rcases mem_toList_join hc with hc | ⟨piece, hpiece, hc⟩
  · exact hsep c hc
  · exact h piece hpiece c hc

/-- Pieces that are not empty do not make up nothing. -/
theorem toList_join_map_ne_nil {α : Type} {sep : String} (hsep : sep ≠ "") {f : α → String}
    (hf : ∀ a, f a ≠ "") {l : List α} (hne : l ≠ []) : (join sep (l.map f)).toList ≠ [] := by
  intro hnil
  rcases (join_eq_empty_iff hsep _).1 (String.toList_inj.1 hnil) with hnil | hempty
  · exact hne (List.map_eq_nil_iff.1 hnil)
  · obtain ⟨a, -, ha⟩ := List.mem_map.1 (hempty ▸ List.mem_singleton_self "")
    exact hf a ha

theorem toList_dimensionText_ne_nil {ds : List Nat} (hne : ds ≠ []) :
    (dimensionText ds).toList ≠ [] :=
  toList_join_map_ne_nil (by decide) (fun d hd => toList_toString_ne_nil d (by rw [hd]; rfl)) hne

/-- Between the brackets stand digits and commas. -/
theorem avoids_dimensionText (ds : List Nat) :
    Avoids ('[' :: ']' :: ':' :: '=' :: ' ' :: enders) (dimensionText ds).toList := by
  refine avoids_join (by decide) fun piece hpiece => ?_
  obtain ⟨d, -, rfl⟩ := List.mem_map.1 hpiece
  have hsigns : ('[' :: ']' :: ':' :: '=' :: ' ' :: enders).all (fun x => !x.isDigit) = true := by
    decide
  intro c hc hmem
  have hc' := List.all_eq_true.1 hsigns c hmem
  rw [isDigit_of_mem_toString hc] at hc'
  cases hc'

namespace TagText

variable (t : TagText)

theorem isWord_dataType : IsWord t.dataType :=
  ⟨t.dataType_ne_empty, fun c hc => (isWordChar_of_isTypeChar (t.isTypeChar_dataType c hc)).1⟩

theorem upper_dataType : upper t.dataType = t.dataType := by
  have hchars : t.dataType.toList.flatMap upperChar = t.dataType.toList.flatMap fun c => [c] :=
    List.flatMap_congr fun c hc => (isWordChar_of_isTypeChar (t.isTypeChar_dataType c hc)).2
  rw [upper, hchars, List.flatMap_singleton', String.ofList_toList]

/-- No character of a type or of its dimensions stands at the beginning or end of another part. -/
theorem avoids_typeText : Avoids (':' :: '=' :: ' ' :: enders) t.typeText.toList := by
  have htype : Avoids (':' :: '=' :: ' ' :: enders) t.dataType.toList :=
    (avoids_of_isWord t.isWord_dataType).mono (by simp [signs, enders])
  rw [typeText]
  cases t.dimensions with
  | none => exact htype
  | some ds =>
    rw [String.toList_append, String.toList_append, String.toList_append, avoids_append,
      avoids_append, avoids_append]
    exact ⟨htype, by decide, (avoids_dimensionText ds).mono (by simp), by decide⟩

theorem avoids_pairsText : Avoids enders t.pairsText.toList := by
  refine avoids_join (by decide) fun piece hpiece => ?_
  obtain ⟨a, ha, rfl⟩ := List.mem_map.1 hpiece
  exact (avoids_pairText (t.allows_attributes a ha)).mono (List.subset_cons_self _ _)

theorem avoids_valueText : Avoids enders t.valueText.toList := by
  rw [valueText]
  cases h : t.value with
  | none => decide
  | some v =>
    rw [String.toList_append, avoids_append]
    exact ⟨by decide, (t.isValue_value v h).2⟩

/-- A definition stands in one line and ends with it. -/
theorem avoids_definition : Avoids [';', '\n'] t.definition.toList := by
  have henders : [';', '\n'] ⊆ enders := by simp [enders]
  rw [definition, String.toList_append, String.toList_append, avoids_append, avoids_append]
  refine ⟨t.avoids_typeText.mono (by simp [enders]), ?_, t.avoids_valueText.mono henders⟩
  rw [attributeText]
  split
  · decide
  · rw [String.toList_append, String.toList_append, avoids_append, avoids_append]
    exact ⟨by decide, t.avoids_pairsText.mono henders, by decide⟩

theorem hasEnds_typeText : HasEnds t.typeText.toList := by
  have htype := t.isWord_dataType.hasEnds
  rw [typeText]
  cases t.dimensions with
  | none => exact htype
  | some ds =>
    have hends := htype.append (t := [']']) (by decide) ('[' :: (dimensionText ds).toList)
    simpa using hends

/-- A definition has no blanks around it. -/
theorem hasEnds_definition : HasEnds t.definition.toList := by
  have hattributes : HasEnds (t.typeText.toList ++ t.attributeText.toList) := by
    rw [attributeText]
    split
    · simpa using t.hasEnds_typeText
    · have hends := t.hasEnds_typeText.append (t := [')']) (by decide)
        (" (".toList ++ t.pairsText.toList)
      simpa using hends
  rw [definition, String.toList_append, String.toList_append, ← List.append_assoc, valueText]
  cases h : t.value with
  | none => simpa using hattributes
  | some v =>
    have hends := hattributes.append (t.isValue_value v h).1 " := ".toList
    simpa using hends

theorem avoids_frontText : Avoids ('=' :: enders) t.frontText.toList := by
  rw [frontText, String.toList_append, String.toList_append, avoids_append, avoids_append]
  exact ⟨(avoids_of_isWord t.isWord_name).mono (by simp [signs, enders]), by decide,
    t.avoids_typeText.mono (by simp [enders])⟩

theorem toList_pairsText_ne_nil (h : t.attributes ≠ []) : t.pairsText.toList ≠ [] :=
  toList_join_map_ne_nil (by decide) (fun a ha => by simp [pairText] at ha) h

theorem toList_line : t.line.toList =
    t.name.toList ++ ([' '] ++ ([':'] ++ ([' '] ++ (t.definition.toList ++ [';'])))) := by
  simp [line]

/-- Behind the type and its dimensions comes nothing, or a blank and the sign of another part. -/
theorem tail_eq : t.attributeText.toList ++ t.valueText.toList = [] ∨
    ∃ x u, (x = '(' ∨ x = ':') ∧
      t.attributeText.toList ++ t.valueText.toList = ' ' :: x :: u := by
  rw [attributeText, valueText]
  split
  · cases t.value with
    | none => exact .inl rfl
    | some v => exact .inr ⟨':', _, .inr rfl, by simp; rfl⟩
  · exact .inr ⟨'(', _, .inl rfl, by simp; rfl⟩

end TagText

end ControlLogic.Overlay
