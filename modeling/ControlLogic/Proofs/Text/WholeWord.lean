import ControlLogic.Proofs.Text.Search
import ControlLogic.Proofs.Text.Spacing

/-!
# Whole words

A word of a text is a maximal run of word characters.  A search for a word between edges, case
aside, finds the runs that are this word, so that what is put in the place of the matches is put in
the place of runs.

* `isWordChar_of_sameLetter`: a word character in any case is a word character.
* `mapRuns_append`, `mapRuns_cons_of_not` and `runs_induction` go through a text run by run, and
  `mapRuns_mapRuns` changes the runs twice.
* `exists_of_matches_wholeWord` says where a whole word can be found.

`substitute_wholeWord` is the result.
-/

namespace ControlLogic.Text

/-! ## Letters in any case -/

/-- The codes of the lower case forms of the word characters of ASCII, with those of the letters
that count as the same. -/
def wordCodes : List Nat := List.range' 48 10 ++ [95] ++ List.range' 97 26 ++ [305, 383]

theorem exists_of_applyRuns {n m : Nat} {runs : List CaseRun} (h : applyRuns n runs = some m) :
    ∃ r ∈ runs, r.first ≤ n ∧ n ≤ r.last ∧ m = ((n : Int) + r.shift).toNat := by
  induction runs with
  | nil => cases h
  | cons r runs ih =>
    rw [applyRuns] at h
    split at h
    · rename_i hr
      simp only [Bool.and_eq_true, decide_eq_true_eq] at hr
      cases h
      exact ⟨r, List.mem_cons_self, hr.1.1, hr.1.2, rfl⟩
    · obtain ⟨r', hr', hrun⟩ := ih h
      exact ⟨r', List.mem_cons_of_mem _ hr', hrun⟩

theorem mem_wordCodes_of_sameLetter {x c : Char} (hx : x.toNat < 128) (hword : isWordChar x = true)
    (h : sameLetter x c = true) : (fold c).toNat ∈ wordCodes := by
  have hfold : ∀ n < 128, isWordChar (Char.ofNat n) = true →
      (fold (Char.ofNat n)).toNat ∈ wordCodes := by decide
  have hforms : ∀ n ∈ wordCodes, ∀ forms ∈ letterForms, n ∈ forms → forms ⊆ wordCodes := by
    decide
  have hcode := of_forall_ascii (P := fun x => isWordChar x = true → (fold x).toNat ∈ wordCodes)
    hfold hx hword
  simp only [sameLetter, Bool.or_eq_true, beq_iff_eq, List.any_eq_true, Bool.and_eq_true,
    List.contains_iff_mem] at h
  rcases h with h | ⟨forms, hmem, hfx, hfc⟩
  · rwa [← h]
  · exact hforms _ hcode forms hmem hfx hfc

/-- What folds to a word character of ASCII is a word character. -/
theorem isWordChar_of_fold {c : Char} (h : (fold c).toNat ∈ wordCodes) : isWordChar c = true := by
  have hascii : ∀ n < 128, (fold (Char.ofNat n)).toNat ∈ wordCodes →
      isWordChar (Char.ofNat n) = true := by decide
  have hspecial : ∀ e ∈ lowerSpecial, isWordChar (Char.ofNat e.1) = true := by decide
  have hruns : ∀ r ∈ lowerRuns, ∀ m ∈ wordCodes, r.first ≤ ((m : Int) - r.shift).toNat →
      ((m : Int) - r.shift).toNat ≤ r.last →
      isWordChar (Char.ofNat ((m : Int) - r.shift).toNat) = true := by decide +kernel
  have hself : ∀ n ∈ wordCodes, isWordChar (Char.ofNat n) = true := by decide
  by_cases hc : c.toNat < 128
  · exact of_forall_ascii (P := fun c => (fold c).toNat ∈ wordCodes → isWordChar c = true)
      hascii hc h
  · rw [fold, lowerChar] at h
    simp only [hc, if_false] at h
    split at h
    · rename_i n form hfind
      obtain rfl : n = c.toNat := by simpa using List.find?_some hfind
      simpa using hspecial _ (List.mem_of_find?_eq_some hfind)
    · split at h
      · rename_i m hm
        obtain ⟨r, hr, hfirst, hlast, hshift⟩ := exists_of_applyRuns hm
        have hmem : m ∈ wordCodes := by
          rw [List.headD_cons, Char.ofNat] at h
          by_cases hvalid : m.isValidChar
          · rw [dif_pos hvalid] at h
            exact h
          · rw [dif_neg hvalid] at h
            exact absurd h (by decide)
        have hpos : m ≠ 0 := by
          rintro rfl
          exact absurd hmem (by decide)
        have hn : ((m : Int) - r.shift).toNat = c.toNat := by omega
        simpa [hn] using hruns r hr m hmem (by rwa [hn]) (by rwa [hn])
      · simpa using hself _ h

/-- A word character of ASCII in any case is a word character. -/
theorem isWordChar_of_sameLetter {x c : Char} (hx : x.toNat < 128) (hword : isWordChar x = true)
    (h : sameLetter x c = true) : isWordChar c = true :=
  isWordChar_of_fold (mem_wordCodes_of_sameLetter hx hword h)

/-- The same letters one by one make up a keyword. -/
theorem afterKeyword?_of_sameLetters {k w : List Char} (h : sameLetters k w = true) :
    afterKeyword? k w = some [] := by
  fun_induction sameLetters k w with
  | case1 => rfl
  | case2 x k c w ih =>
    rw [Bool.and_eq_true] at h
    rw [afterKeyword?, if_pos h.1, ih h.2]
  | case3 => cases h

/-! ## Runs -/

namespace Chars

variable {p : Char → Bool} {w s t : List Char} {f g : List Char → List Char}

theorem mapRuns_append (hne : w ≠ []) (hw : ∀ c ∈ w, p c = true) (ht : t.head?.any p = false) :
    mapRuns p f (w ++ t) = f w ++ mapRuns p f t := by
  rw [mapRuns, runs_append hne hw (by simpa using ht), List.flatMap_cons,
    if_pos (List.all_eq_true.2 hw), mapRuns]

theorem mapRuns_cons_of_not {c : Char} (hc : p c = false) :
    mapRuns p f (c :: s) = c :: mapRuns p f s := by
  unfold mapRuns
  rw [runs]
  split
  · rename_i d run more hruns
    rw [hruns]
    split
    · rename_i hcd
      -- both characters are outside of the class, so neither run is changed
      have hd : p d = false := by rw [hc] at hcd; simpa using hcd.symm
      simp [hc, hd]
    · simp [hc]
  · simp [hc]

/-- What holds of the empty text, and is kept by putting a character of another class or a whole run
in front, holds of every text. -/
theorem runs_induction {motive : List Char → Prop} (p : Char → Bool) (nil : motive [])
    (other : ∀ c s, p c = false → motive s → motive (c :: s))
    (run : ∀ w t, w ≠ [] → (∀ c ∈ w, p c = true) → t.head?.any p = false → motive t →
      motive (w ++ t)) (s : List Char) : motive s := by
  -- a run is taken off at once, so the induction is on the length
  induction hn : s.length using Nat.strongRecOn generalizing s with
  | ind n ih =>
    subst hn
    cases s with
    | nil => exact nil
    | cons c s =>
      cases hc : p c with
      | false => exact other c s hc (ih s.length (Nat.lt_succ_self _) s rfl)
      | true =>
        have hhead := List.head?_dropWhile_not p (c :: s)
        have hlength : ((c :: s).dropWhile p).length < (c :: s).length := by
          rw [List.dropWhile_cons_of_pos hc]
          exact Nat.lt_succ_of_le (List.dropWhile_sublist p).length_le
        rw [← List.takeWhile_append_dropWhile (p := p) (l := c :: s)]
        refine run _ _ ?_ (List.all_eq_true.1 List.all_takeWhile) ?_ (ih _ hlength _ rfl)
        · rw [List.takeWhile_cons_of_pos hc]
          exact List.cons_ne_nil _ _
        · cases hd : (c :: s).dropWhile p with
          | nil => rfl
          | cons d t =>
            rw [hd] at hhead
            simpa using hhead

theorem mapRuns_id (s : List Char) : mapRuns p (fun w => w) s = s := by
  induction s using runs_induction p with
  | nil => rfl
  | other c s hc ih => rw [mapRuns_cons_of_not hc, ih]
  | run w t hne hw ht ih => rw [mapRuns_append hne hw ht, ih]

theorem head?_mapRuns (hs : s.head?.any p = false) : (mapRuns p f s).head?.any p = false := by
  cases s with
  | nil => rfl
  | cons c s =>
    have hc : p c = false := by simpa using hs
    rw [mapRuns_cons_of_not hc]
    exact hs

/-- If runs become runs, then changing them twice is changing each of them twice. -/
theorem mapRuns_mapRuns (hf : ∀ w, w ≠ [] → (∀ c ∈ w, p c = true) →
      f w ≠ [] ∧ ∀ c ∈ f w, p c = true) (g : List Char → List Char) (s : List Char) :
    mapRuns p g (mapRuns p f s) = mapRuns p (fun w => g (f w)) s := by
  induction s using runs_induction p with
  | nil => rfl
  | other c s hc ih =>
    rw [mapRuns_cons_of_not hc, mapRuns_cons_of_not hc, mapRuns_cons_of_not hc, ih]
  | run w t hne hw ht ih =>
    obtain ⟨hne', hw'⟩ := hf w hne hw
    rw [mapRuns_append hne hw ht, mapRuns_append hne' hw' (head?_mapRuns ht),
      mapRuns_append hne hw ht, ih]

/-- A text begins with one run only. -/
theorem append_inj_of_run {r : List Char} (hw : ∀ c ∈ w, p c = true) (ht : t.head?.any p = false)
    (hs : ∀ c ∈ s, p c = true) (hr : r.head?.any p = false) (h : w ++ t = s ++ r) : w = s := by
  have htake : ∀ {a b : List Char}, (∀ c ∈ a, p c = true) → b.head?.any p = false →
      (a ++ b).takeWhile p = a := by
    intro a b ha hb
    rw [List.takeWhile_append_of_pos ha]
    cases b with
    | nil => simp
    | cons d b => simp_all
  rw [← htake hw ht, h, htake hs hr]

end Chars

/-! ## Searching for a whole word -/

namespace Pattern

variable {u : String} {c d : Cursor}

/-- A keyword passes its letters in any case. -/
theorem Matches.exists_past_keyword (h : Matches (.keyword u) c d) :
    ∃ s, sameLetters u.toList s = true ∧ c.rest = s ++ d.rest ∧ d = c.past s d.rest := by
  rw [keyword] at h
  generalize u.toList = k at *
  induction k generalizing c with
  | nil =>
    cases h
    exact ⟨[], rfl, rfl, (Cursor.past_nil rfl).symm⟩
  | cons y k ih =>
    cases k with
    | nil =>
      cases h with | one hrest hx =>
      rename_i x xs
      exact ⟨[x], by simp [sameLetters, hx], hrest, rfl⟩
    | cons z k =>
      cases h with | seq hfirst hothers =>
      cases hfirst with | one hrest hx =>
      rename_i x xs
      obtain ⟨s, hs, hs', hpast⟩ := ih hothers
      refine ⟨x :: s, by rw [sameLetters, hx, hs, Bool.and_self], ?_, ?_⟩
      · rw [hrest, List.cons_append, ← hs']
      · rw [hpast]
        exact Cursor.past_past c [x] s xs _

/-- A word of ASCII characters. -/
def Wordlike (u : String) : Prop :=
  u ≠ "" ∧ ∀ x ∈ u.toList, x.toNat < 128 ∧ isWordChar x = true

instance (u : String) : Decidable (Wordlike u) :=
  have := List.decidableBAll (fun x : Char => x.toNat < 128 ∧ isWordChar x = true) u.toList
  inferInstanceAs (Decidable (u ≠ "" ∧ ∀ x ∈ u.toList, x.toNat < 128 ∧ isWordChar x = true))

theorem Wordlike.of_sameLetters (hu : Wordlike u) {s : List Char}
    (h : sameLetters u.toList s = true) : s ≠ [] ∧ ∀ x ∈ s, isWordChar x = true := by
  have hafter := afterKeyword?_of_sameLetters h
  constructor
  · rintro rfl
    cases hlist : u.toList with
    | nil => exact hu.1 (String.toList_inj.1 hlist)
    | cons x k =>
      rw [hlist] at hafter
      cases hafter
  · intro y hy
    obtain ⟨x, hx, hsame⟩ := exists_sameLetter_of_afterKeyword? hafter y hy
    exact isWordChar_of_sameLetter (hu.2 x hx).1 (hu.2 x hx).2 hsame

/-- A blank is none of the letters of a word. -/
theorem Wordlike.separates (hu : Wordlike u) {y : Char} (hy : isBlank y = true) :
    Separates y u.toList := by
  intro x hx
  rw [Bool.eq_false_iff]
  intro hsame
  rw [isBlank_of_isWordChar (isWordChar_of_sameLetter (hu.2 x hx).1 (hu.2 x hx).2 hsame)] at hy
  cases hy

/-- A whole word is found only as a maximal run of word characters. -/
theorem exists_of_matches_wholeWord (hu : Wordlike u) (h : Matches (.wholeWord u) c d) :
    ∃ s, sameLetters u.toList s = true ∧ c.rest = s ++ d.rest ∧
      c.before.any isWordChar = false ∧ d.rest.head?.any isWordChar = false := by
  cases h with | seq hbegin h =>
  cases hbegin with | edge hbegin =>
  cases h with | seq hword hend =>
  cases hend with | edge hend =>
  obtain ⟨s, hs, hrest, hpast⟩ := hword.exists_past_keyword
  obtain ⟨hne, hchars⟩ := hu.of_sameLetters hs
  refine ⟨s, hs, hrest, ?_, ?_⟩
  · obtain ⟨x, s, rfl⟩ := List.exists_cons_of_ne_nil hne
    have hx := hchars x List.mem_cons_self
    simpa [Cursor.atEdge, hrest, hx] using hbegin
  · have hlast := hchars _ (List.getLast_mem hne)
    rw [hpast] at hend
    simpa [Cursor.atEdge, Cursor.past, List.getLast?_eq_getLast_of_ne_nil hne, hlast] using hend

/-- A maximal run that is the word is found. -/
theorem prefers_wholeWord {s t : List Char} (hrest : c.rest = s ++ t) (hu : Wordlike u)
    (hs : sameLetters u.toList s = true) (hbefore : c.before.any isWordChar = false)
    (ht : t.head?.any isWordChar = false) : Prefers (.wholeWord u) c (c.past s t) := by
  obtain ⟨hne, hchars⟩ := hu.of_sameLetters hs
  have hbegin : c.atEdge = true := by
    obtain ⟨x, s, rfl⟩ := List.exists_cons_of_ne_nil hne
    simp [Cursor.atEdge, hrest, hbefore, hchars x List.mem_cons_self]
  have hend : (c.past s t).atEdge = true := by
    simp [Cursor.atEdge, Cursor.past, ht, List.getLast?_eq_getLast_of_ne_nil hne,
      hchars _ (List.getLast_mem hne)]
  exact (prefers_edge hbegin).seq
    ((prefers_keyword hrest (afterKeyword?_of_sameLetters hs)).seq (prefers_edge hend))

/-- No whole word begins within a run that is not the word. -/
theorem noneWithin_wholeWord (hu : Wordlike u) {before : Option Char} {w t : List Char}
    (hw : ∀ x ∈ w, isWordChar x = true) (ht : t.head?.any isWordChar = false)
    (hne : sameLetters u.toList w = false) : NoneWithin (.wholeWord u) before w t := by
  rintro c a v rfl hv hbefore hrest
  refine fails_of_not_matches fun d hd => ?_
  obtain ⟨s, hs, hs', hedge, hd'⟩ := exists_of_matches_wholeWord hu hd
  rcases List.eq_nil_or_concat' a with rfl | ⟨a, x, rfl⟩
  · rw [hrest] at hs'
    obtain rfl := Chars.append_inj_of_run hw ht (hu.of_sameLetters hs).2 hd' hs'
    rw [hs] at hne
    cases hne
  · have hx := hw x (by simp)
    simp [hbefore, hx] at hedge

/-- No whole word begins where no word does. -/
theorem fails_wholeWord (hu : Wordlike u) (hc : c.rest.head?.any isWordChar = false) :
    (wholeWord u).Fails c := by
  refine fails_of_not_matches fun d hd => ?_
  obtain ⟨s, hs, hrest, -⟩ := exists_of_matches_wholeWord hu hd
  obtain ⟨hne, hchars⟩ := hu.of_sameLetters hs
  obtain ⟨x, s, rfl⟩ := List.exists_cons_of_ne_nil hne
  have hx := hchars x List.mem_cons_self
  simp [hrest, hx] at hc

theorem flatMap_scanFrom_wholeWord (hu : Wordlike u) (new : String) (s : List Char) (pos : Nat)
    (before : Option Char)
    (hedge : before.any isWordChar = false ∨ s.head?.any isWordChar = false) :
    ((wholeWord u).scanFrom 0 pos before s).flatMap (Piece.written fun _ => new) =
      Chars.mapRuns isWordChar
        (fun w => if sameLetters u.toList w then new.toList else w) s := by
  induction s using Chars.runs_induction isWordChar generalizing pos before with
  | nil =>
    rw [scanFrom_nil (fails_wholeWord hu rfl)]
    rfl
  | other x s hx ih =>
    have hnone : NoneWithin (.wholeWord u) before [x] s := by
      intro c a v hsplit hv _ hrest
      obtain rfl : v = [x] := by
        cases a with
        | nil => exact hsplit.symm
        | cons y a => simp_all
      exact fails_wholeWord hu (by rw [hrest]; exact hx)
    have hscan := scanFrom_append hnone pos
    rw [List.singleton_append] at hscan
    rw [hscan, List.flatMap_append, flatMap_written_plain, Chars.mapRuns_cons_of_not hx,
      ← ih (pos + 1) (some x) (.inl hx)]
    rfl
  | run w t hne hw ht ih =>
    have hbefore : before.any isWordChar = false := by
      refine hedge.resolve_right fun hhead => ?_
      obtain ⟨x, w, rfl⟩ := List.exists_cons_of_ne_nil hne
      have hx := hw x List.mem_cons_self
      simp [hx] at hhead
    rw [Chars.mapRuns_append hne hw ht, ← ih _ _ (.inr ht)]
    cases hsame : sameLetters u.toList w with
    | true =>
      rw [scanFrom_of_prefers (prefers_wholeWord rfl hu hsame hbefore ht) rfl hne]
      rfl
    | false =>
      rw [scanFrom_append (noneWithin_wholeWord hu hw ht hsame), List.flatMap_append,
        flatMap_written_plain]
      rfl

/-- What is put in the place of a whole word is put in the place of the runs that are this word. -/
theorem substitute_wholeWord (hu : Wordlike u) (new text : String) :
    (wholeWord u).substitute (fun _ => new) text = String.ofList (Chars.mapRuns isWordChar
      (fun w => if sameLetters u.toList w then new.toList else w) text.toList) := by
  rw [substitute_eq, flatMap_scanFrom_wholeWord hu new text.toList 0 none (.inl rfl)]

end Pattern

end ControlLogic.Text
