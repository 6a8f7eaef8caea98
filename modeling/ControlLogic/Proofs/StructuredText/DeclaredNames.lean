import ControlLogic.Proofs.StructuredText.ReservedWords
import ControlLogic.StructuredText.Name

/-!
# Names where they are declared and where they are used

A name that is declared is looked up in the table of reserved words in capitals (`safeName`).  In
the statements the same name is compared with the words of the table whatever their case
(`replaceReserved`).  The two give the same text only if the table has the word in capitals.

* `sameLetters_iff_upper_eq`: for ASCII, comparing case aside is comparing the capitals.
* `replaceReserved_of_isIdentifier` and `safeName_of_isIdentifier` say what becomes of an
  identifier.
* `not_reserved_or_exists`: either no entry of a table has a word, or an entry decides what is used.

`safeName_eq_replaceReserved_iff` is the result: two words of the table are not in capitals, and
they are the only ones that are declared and used under different names.
-/

namespace ControlLogic.Text

/-! ## Capitals of ASCII -/

/-- The one capital of a character of ASCII. -/
def capital (c : Char) : Char := (upperChar c).headD c

theorem upperChar_of_ascii {c : Char} (hc : c.toNat < 128) : upperChar c = [capital c] :=
  of_forall_ascii (P := fun c => upperChar c = [capital c]) (by decide) hc

theorem upper_of_ascii {w : String} (hw : ∀ c ∈ w.toList, c.toNat < 128) :
    upper w = String.ofList (w.toList.map capital) := by
  have hchars : w.toList.flatMap upperChar = w.toList.flatMap fun c => [capital c] :=
    List.flatMap_congr fun c hc => upperChar_of_ascii (hw c hc)
  rw [upper, hchars, ← List.map_eq_flatMap]

/-- Characters of ASCII are one letter exactly if they have one capital. -/
theorem sameLetter_iff_capital_eq {a c : Char} (ha : a.toNat < 128) (hc : c.toNat < 128) :
    sameLetter a c = true ↔ capital a = capital c := by
  have hcapital : ∀ {x : Char}, x.toNat < 128 → capital (fold x) = capital x :=
    fun hx => of_forall_ascii (P := fun x => capital (fold x) = capital x) (by decide) hx
  have hfold : ∀ {x : Char}, x.toNat < 128 → fold (capital x) = fold x :=
    fun hx => of_forall_ascii (P := fun x => fold (capital x) = fold x) (by decide) hx
  have hascii : ∀ {x : Char}, x.toNat < 128 → (fold x).toNat < 128 :=
    fun hx => of_forall_ascii (P := fun x => (fold x).toNat < 128) (by decide) hx
  -- no two letters of ASCII are forms of one another
  have hforms : ∀ forms ∈ letterForms, ∀ m ∈ forms, ∀ n ∈ forms, m < 128 → n < 128 → m = n := by
    decide
  constructor
  · intro h
    simp only [sameLetter, Bool.or_eq_true, beq_iff_eq, List.any_eq_true, Bool.and_eq_true,
      List.contains_iff_mem] at h
    have hcode : (fold a).toNat = (fold c).toNat := by
      rcases h with h | ⟨forms, hmem, hx, hy⟩
      · exact h
      · exact hforms forms hmem _ hx _ hy (hascii ha) (hascii hc)
    rw [← hcapital ha, ← hcapital hc, Char.toNat_inj.1 hcode]
  · intro h
    have hsame : fold a = fold c := by rw [← hfold ha, ← hfold hc, h]
    simp [sameLetter, hsame]

theorem sameLetters_iff_map_capital {k w : List Char} (hk : ∀ c ∈ k, c.toNat < 128)
    (hw : ∀ c ∈ w, c.toNat < 128) : sameLetters k w = true ↔ k.map capital = w.map capital := by
  fun_induction sameLetters k w with
  | case1 => simp
  | case2 a k c w ih =>
    obtain ⟨ha, hk⟩ := List.forall_mem_cons.1 hk
    obtain ⟨hc, hw⟩ := List.forall_mem_cons.1 hw
    rw [Bool.and_eq_true, sameLetter_iff_capital_eq ha hc, ih hk hw, List.map_cons, List.map_cons,
      List.cons_eq_cons]
  | case3 k w hnil hcons =>
    cases k with
    | nil =>
      cases w with
      | nil => exact (hnil rfl rfl).elim
      | cons c w => simp
    | cons a k =>
      cases w with
      | nil => simp
      | cons c w => exact (hcons a k c w rfl rfl).elim

/-- Words of ASCII agree, case aside, exactly if their capitals do. -/
theorem sameLetters_iff_upper_eq {k w : String} (hk : ∀ c ∈ k.toList, c.toNat < 128)
    (hw : ∀ c ∈ w.toList, c.toNat < 128) :
    sameLetters k.toList w.toList = true ↔ upper k = upper w := by
  rw [sameLetters_iff_map_capital hk hw, upper_of_ascii hk, upper_of_ascii hw,
    String.ofList_inj]

end ControlLogic.Text

namespace ControlLogic.StructuredText

open Text

/-! ## Identifiers -/

/-- An identifier: a letter or an underscore, and then letters, digits and underscores. -/
def IsIdentifier (w : String) : Prop :=
  (∃ c ∈ w.toList.head?, c.isAlpha = true ∨ c = '_') ∧ ∀ c ∈ w.toList, isNameChar c = true

instance (w : String) : Decidable (IsIdentifier w) :=
  have (o : Option Char) : Decidable (∃ c ∈ o, c.isAlpha = true ∨ c = '_') :=
    Option.decidableExistsMem o
  have := List.decidableBAll (fun c => isNameChar c = true) w.toList
  inferInstanceAs (Decidable ((∃ c ∈ w.toList.head?, c.isAlpha = true ∨ c = '_') ∧
    ∀ c ∈ w.toList, isNameChar c = true))

theorem isAlpha_eq (c : Char) : c.isAlpha =
    (decide ('A'.val ≤ c.val ∧ c.val ≤ 'Z'.val) ||
      decide ('a'.val ≤ c.val) && decide (c.val ≤ 'z'.val)) := rfl

namespace IsIdentifier

variable {w : String} (hw : IsIdentifier w)

include hw

theorem ascii : ∀ c ∈ w.toList, c.toNat < 128 := fun c hc => toNat_lt_of_isNameChar (hw.2 c hc)

theorem isRun : IsRun w.toList := by
  obtain ⟨⟨c, hc, -⟩, hchars⟩ := hw
  refine ⟨?_, fun d hd => isWordChar_of_isNameChar (hchars d hd)⟩
  intro hnil
  rw [hnil] at hc
  cases hc

/-- An identifier is clean. -/
theorem cleanName_eq : cleanName w = w := by
  obtain ⟨⟨c, hc, hfirst⟩, hchars⟩ := hw
  have hmap : (w.toList.map fun c => if isNameChar c then c else '_') = w.toList := by
    conv_rhs => rw [← List.map_id w.toList]
    exact List.map_congr_left fun d hd => if_pos (hchars d hd)
  have hdigit : c.isDigit = false := by
    rcases hfirst with h | rfl
    · simp only [isAlpha_eq, Char.isDigit, Bool.or_eq_true, Bool.and_eq_true, decide_eq_true_eq,
        Bool.and_eq_false_iff, decide_eq_false_iff_not, UInt32.le_iff_toNat_le] at h ⊢
      have h65 : ('A'.val).toNat = 65 := rfl
      have h97 : ('a'.val).toNat = 97 := rfl
      have h57 : ('9'.val).toNat = 57 := rfl
      omega
    · decide
  have hnot : ¬ w.toList.head?.any Char.isDigit = true := by
    rw [Option.mem_def.1 hc, Option.any_some, hdigit]
    exact Bool.false_ne_true
  unfold cleanName
  simp only [hmap, if_neg hnot, String.ofList_toList]

end IsIdentifier

/-- An identifier that is used becomes the replacement of the first entry that has it. -/
theorem replaceReserved_of_isIdentifier {w : String} (hw : IsIdentifier w) :
    replaceReserved w = String.ofList (replacement reservedWords w.toList) := by
  have hruns := Chars.mapRuns_append (f := replacement reservedWords) (t := []) hw.isRun.1
    hw.isRun.2 rfl
  rw [List.append_nil] at hruns
  rw [replaceReserved_eq, mapWords, hruns]
  exact congrArg String.ofList (List.append_nil _)

/-- An identifier that is declared becomes the replacement of its capitals, if there is one. -/
theorem safeName_of_isIdentifier {w : String} (hw : IsIdentifier w) :
    safeName w = (Table.lookup (upper w) reservedWords).getD w := by
  rw [safeName, hw.cleanName_eq]

/-! ## The table -/

theorem upper_upper {w : String} (hw : ∀ c ∈ w.toList, c.toNat < 128) :
    upper (upper w) = upper w := by
  have hascii : ∀ {x : Char}, x.toNat < 128 → (capital x).toNat < 128 :=
    fun hx => of_forall_ascii (P := fun x => (capital x).toNat < 128) (by decide) hx
  have hcapital : ∀ {x : Char}, x.toNat < 128 → capital (capital x) = capital x :=
    fun hx => of_forall_ascii (P := fun x => capital (capital x) = capital x)
      (by decide) hx
  have hupper := upper_of_ascii hw
  have hchars : ∀ c ∈ (upper w).toList, c.toNat < 128 := by
    intro c hc
    rw [hupper, String.toList_ofList] at hc
    obtain ⟨d, hd, rfl⟩ := List.mem_map.1 hc
    exact hascii (hw d hd)
  rw [upper_of_ascii hchars, hupper, String.toList_ofList, List.map_map]
  exact congrArg String.ofList (List.map_congr_left fun c hc => hcapital (hw c hc))

section

variable {table : List (String × String)}

/-- Either no entry has a word, or the first entry that has it says what becomes of it. -/
theorem not_reserved_or_exists (hold : ∀ e ∈ table, Pattern.Wordlike e.1) {w : String}
    (hw : ∀ c ∈ w.toList, c.toNat < 128) :
    ((∀ e ∈ table, upper e.1 ≠ upper w) ∧ replacement table w.toList = w.toList) ∨
    ∃ e ∈ table, upper e.1 = upper w ∧ replacement table w.toList = e.2.toList := by
  have hsame : ∀ e ∈ table,
      sameLetters e.1.toList w.toList = true ↔ upper e.1 = upper w := fun e he =>
    sameLetters_iff_upper_eq (fun c hc => ((hold e he).2 c hc).1) hw
  unfold replacement
  cases hfind : table.find? fun e => sameLetters e.1.toList w.toList with
  | none =>
    refine .inl ⟨fun e he hupper => ?_, rfl⟩
    exact List.find?_eq_none.1 hfind e he ((hsame e he).2 hupper)
  | some e =>
    have he := List.mem_of_find?_eq_some hfind
    have hletters : sameLetters e.1.toList w.toList = true := by
      simpa only using List.find?_some hfind
    exact .inr ⟨e, he, (hsame e he).1 hletters, rfl⟩

/-- A word that no entry has is not found in capitals either. -/
theorem lookup_upper_eq_none {w : String} (hw : ∀ c ∈ w.toList, c.toNat < 128)
    (h : ∀ e ∈ table, upper e.1 ≠ upper w) : Table.lookup (upper w) table = none := by
  cases hlookup : Table.lookup (upper w) table with
  | none => rfl
  | some r =>
    have hmem : (upper w, r) ∈ table := Table.mem_entries_of_get? (t := ⟨table⟩) hlookup
    exact (h (upper w, r) hmem (upper_upper hw)).elim

end

/-- The entries that stand in the table in capitals too, with the same replacement, are all but
two. -/
theorem lookup_upper_reservedWords : ∀ e ∈ reservedWords,
    Table.lookup (upper e.1) reservedWords = some e.2 ∧ upper e.1 ≠ "TYPE" ∧ upper e.1 ≠ "ALM" ∨
    Table.lookup (upper e.1) reservedWords = none ∧
      (upper e.1 = "TYPE" ∧ e.2 = "TYPE1" ∨ upper e.1 = "ALM" ∧ e.2 = "alarm1") := by
  decide

/-- An identifier is declared under the name under which it is used exactly if it is neither `type`
nor `alm`, in any case.  These two are declared as they are and used under another name. -/
theorem safeName_eq_replaceReserved_iff {w : String} (hw : IsIdentifier w) :
    (safeName w = replaceReserved w ↔ upper w ≠ "TYPE" ∧ upper w ≠ "ALM") ∧
    (upper w = "TYPE" → safeName w = w ∧ replaceReserved w = "TYPE1") ∧
    (upper w = "ALM" → safeName w = w ∧ replaceReserved w = "alarm1") := by
  have htype : upper "TYPE1" ≠ "TYPE" := by decide
  have halm : upper "alarm1" ≠ "ALM" := by decide
  rw [safeName_of_isIdentifier hw, replaceReserved_of_isIdentifier hw]
  rcases not_reserved_or_exists wordlike_reservedWords hw.ascii with
    ⟨hnone, hreplace⟩ | ⟨e, he, hupper, hreplace⟩
  · have hwords : ("type", "TYPE1") ∈ reservedWords ∧ ("alm", "alarm1") ∈ reservedWords := by
      decide
    have hnotType : upper w ≠ "TYPE" := (hnone _ hwords.1).symm
    have hnotAlm : upper w ≠ "ALM" := (hnone _ hwords.2).symm
    rw [lookup_upper_eq_none hw.ascii hnone, hreplace, Option.getD_none, String.ofList_toList]
    exact ⟨⟨fun _ => ⟨hnotType, hnotAlm⟩, fun _ => rfl⟩, fun h => absurd h hnotType,
      fun h => absurd h hnotAlm⟩
  · rw [← hupper, hreplace, String.ofList_toList]
    rcases lookup_upper_reservedWords e he with ⟨hlookup, hnotType, hnotAlm⟩ | ⟨hlookup, hword⟩
    · rw [hlookup, Option.getD_some]
      exact ⟨⟨fun _ => ⟨hnotType, hnotAlm⟩, fun _ => rfl⟩, fun h => absurd h hnotType,
        fun h => absurd h hnotAlm⟩
    · rw [hlookup, Option.getD_none]
      rcases hword with ⟨hword, hnew⟩ | ⟨hword, hnew⟩
      · -- the replacement has another word in capitals, so it is not the identifier
        have hne : w ≠ e.2 := by
          rintro rfl
          exact htype (by rw [← hnew, ← hupper, hword])
        rw [hword, hnew]
        exact ⟨⟨fun h => absurd (h.trans hnew.symm) hne, fun h => absurd rfl h.1⟩,
          fun _ => ⟨rfl, rfl⟩, fun h => absurd h (by decide)⟩
      · have hne : w ≠ e.2 := by
          rintro rfl
          exact halm (by rw [← hnew, ← hupper, hword])
        rw [hword, hnew]
        exact ⟨⟨fun h => absurd (h.trans hnew.symm) hne, fun h => absurd rfl h.2⟩,
          fun h => absurd h (by decide), fun _ => ⟨rfl, rfl⟩⟩

theorem safeName_eq_replaceReserved_iff_status :
    IsIdentifier "status" ∧ safeName "status" = replaceReserved "status" ∧
      IsIdentifier "Type" ∧ safeName "Type" ≠ replaceReserved "Type" := by
  have hstatus : IsIdentifier "status" := by decide
  have htype : IsIdentifier "Type" := by decide
  refine ⟨hstatus, (safeName_eq_replaceReserved_iff hstatus).1.2 (by decide), htype, ?_⟩
  intro h
  exact ((safeName_eq_replaceReserved_iff htype).1.1 h).1 (by decide)

/-- A variable `type` is declared under this name and used under another. -/
theorem type_used_undeclared :
    IsIdentifier "type" ∧ safeName "type" = "type" ∧ replaceReserved "type" = "TYPE1" := by
  have htype : IsIdentifier "type" := by decide
  refine ⟨htype, ?_, ?_⟩
  · rw [safeName_of_isIdentifier htype]
    decide
  · rw [replaceReserved_of_isIdentifier htype]
    decide

end ControlLogic.StructuredText
