import ControlLogic.Proofs.Text.WholeWord
import ControlLogic.StructuredText.Reserved

/-!
# Reserved words are replaced all at once

The entries of the table of reserved words are gone through one after the other, each over the
whole line that the ones before it left.  This file shows that this is one map of words.

* `renameWord_eq`: an entry changes the maximal runs of word characters, and each by itself.
* `foldl_renameWord`: so do all entries together, and what they make of a word does not depend on
  what stands around it.
* `IsSettled`: no entry changes a replacement.  Then a word is changed at most once, by the first
  entry that has it (`foldl_renamed`), and a second time nothing changes
  (`replacement_replacement`).

`replaceReserved_eq_mapWords` is the result.
-/

namespace ControlLogic.StructuredText

open Text

/-- What an entry makes of a word. -/
def renamed (e : String × String) (w : List Char) : List Char :=
  if sameLetters e.1.toList w then e.2.toList else w

/-- What becomes of a word: the replacement of the first entry that has it, case aside. -/
def replacement (table : List (String × String)) (w : List Char) : List Char :=
  match table.find? fun e => sameLetters e.1.toList w with
  | some e => e.2.toList
  | none => w

/-! ## One entry after the other -/

/-- A nonempty list of word characters. -/
def IsRun (w : List Char) : Prop := w ≠ [] ∧ ∀ c ∈ w, isWordChar c = true

theorem isRun_of_isWord {s : String} (h : IsWord s) : IsRun s.toList :=
  ⟨h.toList_ne_nil, h.2⟩

theorem isRun_renamed {e : String × String} (he : IsWord e.2) {w : List Char} (hw : IsRun w) :
    IsRun (renamed e w) := by
  unfold renamed
  split
  · exact isRun_of_isWord he
  · exact hw

/-- An entry changes the runs of a line one by one. -/
theorem renameWord_eq {e : String × String} (he : Pattern.Wordlike e.1) (line : String) :
    renameWord e.1 e.2 line = String.ofList (mapWords (renamed e) line.toList) :=
  Pattern.substitute_wholeWord he e.2 line

/-- All entries together change the runs of a line one by one. -/
theorem foldl_renameWord {table : List (String × String)}
    (hold : ∀ e ∈ table, Pattern.Wordlike e.1) (hnew : ∀ e ∈ table, IsWord e.2) (line : String) :
    table.foldl (fun l e => renameWord e.1 e.2 l) line =
      String.ofList (mapWords (fun w => table.foldl (fun w e => renamed e w) w) line.toList) := by
  induction table generalizing line with
  | nil => simp only [List.foldl_nil, mapWords, Chars.mapRuns_id, String.ofList_toList]
  | cons e table ih =>
    have hrun : ∀ w, w ≠ [] → (∀ c ∈ w, isWordChar c = true) → IsRun (renamed e w) :=
      fun w hne hw => isRun_renamed (hnew e List.mem_cons_self) ⟨hne, hw⟩
    rw [List.foldl_cons, ih (fun d hd => hold d (List.mem_cons_of_mem _ hd))
        (fun d hd => hnew d (List.mem_cons_of_mem _ hd)),
      renameWord_eq (hold e List.mem_cons_self), String.toList_ofList, mapWords, mapWords,
      Chars.mapRuns_mapRuns hrun]
    rfl

/-! ## One word -/

/-- No entry of the table changes a replacement of the table. -/
def IsSettled (table : List (String × String)) : Prop :=
  ∀ e ∈ table, ∀ d ∈ table, sameLetters d.1.toList e.2.toList = true → d.2 = e.2

instance (table : List (String × String)) : Decidable (IsSettled table) :=
  inferInstanceAs (Decidable (∀ e ∈ table, ∀ d ∈ table,
    sameLetters d.1.toList e.2.toList = true → d.2 = e.2))

section

variable {table : List (String × String)}

theorem renamed_of_mem (h : IsSettled table) {e d : String × String} (he : e ∈ table)
    (hd : d ∈ table) : renamed d e.2.toList = e.2.toList := by
  unfold renamed
  split
  · rename_i hsame
    rw [h e he d hd hsame]
  · rfl

/-- A replacement is left alone by all entries. -/
theorem foldl_renamed_of_mem (h : IsSettled table) {e : String × String} (he : e ∈ table)
    {entries : List (String × String)} (hentries : entries ⊆ table) :
    entries.foldl (fun w e => renamed e w) e.2.toList = e.2.toList := by
  induction entries with
  | nil => rfl
  | cons d entries ih =>
    obtain ⟨hd, hentries⟩ := List.cons_subset.1 hentries
    rw [List.foldl_cons, renamed_of_mem h he hd, ih hentries]

/-- The first entry that has a word decides what becomes of it. -/
theorem foldl_renamed (h : IsSettled table) {entries : List (String × String)}
    (hentries : entries ⊆ table) (w : List Char) :
    entries.foldl (fun w e => renamed e w) w = replacement entries w := by
  induction entries with
  | nil => rfl
  | cons d entries ih =>
    obtain ⟨hd, hentries⟩ := List.cons_subset.1 hentries
    rw [List.foldl_cons, renamed, replacement, List.find?_cons]
    cases hsame : sameLetters d.1.toList w with
    | true => exact foldl_renamed_of_mem h hd hentries
    | false => exact ih hentries

/-- A word that has been replaced is not replaced again. -/
theorem replacement_replacement (h : IsSettled table) (w : List Char) :
    replacement table (replacement table w) = replacement table w := by
  cases hfind : table.find? fun e => sameLetters e.1.toList w with
  | none =>
    have hself : replacement table w = w := by rw [replacement, hfind]
    rw [hself, hself]
  | some e =>
    have hnew : replacement table w = e.2.toList := by rw [replacement, hfind]
    have he := List.mem_of_find?_eq_some hfind
    rw [hnew, ← foldl_renamed h (List.Subset.refl table), foldl_renamed_of_mem h he]
    exact List.Subset.refl table

theorem isRun_replacement (hnew : ∀ e ∈ table, IsWord e.2) {w : List Char} (hw : IsRun w) :
    IsRun (replacement table w) := by
  unfold replacement
  split
  · rename_i e hfind
    exact isRun_of_isWord (hnew e (List.mem_of_find?_eq_some hfind))
  · exact hw

end

/-! ## The table of reserved words -/

theorem wordlike_reservedWords : ∀ e ∈ reservedWords, Pattern.Wordlike e.1 := by decide

theorem isWord_reservedWords : ∀ e ∈ reservedWords, IsWord e.2 := by decide

theorem isSettled_reservedWords : IsSettled reservedWords := by decide +kernel

theorem replaceReserved_eq (line : String) :
    replaceReserved line = String.ofList (mapWords (replacement reservedWords) line.toList) := by
  rw [replaceReserved, foldl_renameWord wordlike_reservedWords isWord_reservedWords]
  simp only [foldl_renamed isSettled_reservedWords (List.Subset.refl _)]

/-- Every maximal run of word characters that is a reserved word becomes the replacement of the
first entry with this word, everything else stays as it is, and doing it again changes nothing. -/
theorem replaceReserved_eq_mapWords (line : String) :
    replaceReserved line = String.ofList (mapWords (replacement reservedWords) line.toList) ∧
    replaceReserved (replaceReserved line) = replaceReserved line := by
  refine ⟨replaceReserved_eq line, ?_⟩
  have hrun : ∀ w, w ≠ [] → (∀ c ∈ w, isWordChar c = true) → IsRun (replacement reservedWords w) :=
    fun w hne hw => isRun_replacement isWord_reservedWords ⟨hne, hw⟩
  rw [replaceReserved_eq (replaceReserved line), replaceReserved_eq line, String.toList_ofList,
    mapWords, mapWords, Chars.mapRuns_mapRuns hrun]
  simp only [replacement_replacement isSettled_reservedWords]

end ControlLogic.StructuredText
