import ControlLogic.Proofs.StructuredText.BitProgram

/-!
# Spelling of bit programs

Which texts are read as which programs, as rules that follow the grammar.  A writer of bit
programs is proved right with these rules alone; no later proof opens a reader.

* `Lexes s ts` says that a piece of text is cut into `ts`, whatever follows it.  Such pieces
  are put together with `Lexes.append`.
* `SpellsPart`, `SpellsAll` and `SpellsAny` say that tokens are read as a condition at a level
  of precedence.  `SpellsAll.cons` and `SpellsAny.cons` are the rules for `AND` and `OR`: the
  left side of an `OR` is a whole conjunction, so no parentheses are needed around it.
* `SpellsProgram` says the same of statements.
* `execute_eq` joins the two: a text that lexes to a spelling of a program runs as it.
-/

namespace ControlLogic.StructuredText

/-! ## Pieces of text -/

/-- The piece `s` of a text is cut into `ts`, whatever stands behind it. -/
def Lexes (s : List Char) (ts : List Token) : Prop :=
  ∀ rest, tokensFrom [] (s ++ rest) = ts ++ tokensFrom [] rest

theorem Lexes.nil : Lexes [] [] := fun _ => rfl

theorem Lexes.append {s t : List Char} {ts us : List Token} (hs : Lexes s ts)
    (ht : Lexes t us) : Lexes (s ++ t) (ts ++ us) := by
  intro rest
  rw [List.append_assoc, hs, ht, List.append_assoc]

theorem absorb_blank (w : List Char) {c : Char} (h : Text.isBlank c = true) :
    absorb w c = (finish w, []) := by
  rw [absorb, if_pos h]

theorem absorb_letter (w : List Char) {c : Char} (h : isLetter c = true) :
    absorb w c = ([], c :: w) := by
  simp only [isLetter, Bool.and_eq_true, Bool.not_eq_true', decide_eq_true_eq,
    Option.isNone_iff_eq_none] at h
  obtain ⟨⟨hblank, heq⟩, hmark⟩ := h
  rw [absorb, hblank, if_neg Bool.false_ne_true, if_neg heq, hmark]

/-- Blanks are cut away. -/
theorem Lexes.blanks {s : List Char} (h : ∀ c ∈ s, Text.isBlank c = true) : Lexes s [] := by
  induction s with
  | nil => exact .nil
  | cons c s ih =>
    intro rest
    rw [List.cons_append, tokensFrom, absorb_blank [] (h c List.mem_cons_self)]
    exact ih (fun d hd => h d (List.mem_cons_of_mem _ hd)) rest

/-- Letters gather in the unfinished word. -/
theorem tokensFrom_letters {s : List Char} (h : ∀ c ∈ s, isLetter c = true)
    (w rest : List Char) : tokensFrom w (s ++ rest) = tokensFrom (s.reverse ++ w) rest := by
  induction s generalizing w with
  | nil => rfl
  | cons c s ih =>
    rw [List.cons_append, tokensFrom, absorb_letter w (h c List.mem_cons_self),
      List.nil_append, ih fun d hd => h d (List.mem_cons_of_mem _ hd)]
    simp

theorem IsName.isLetter {operand : String} (h : IsName operand) :
    ∀ c ∈ operand.toList, isLetter c = true :=
  List.all_eq_true.1 h.1

theorem IsName.toList_ne {operand : String} (h : IsName operand) : operand.toList ≠ [] := by
  intro hnil
  have hword := h.2
  rw [hnil, wordToken] at hword
  simp [keyword?] at hword

/-- A name is one token once a space follows it. -/
theorem Lexes.name {operand : String} (h : IsName operand) :
    Lexes (operand.toList ++ [' ']) [.name operand] := by
  intro rest
  have hfinish : finish operand.toList.reverse = [.name operand] := by
    rw [finish, if_neg (by simpa using h.toList_ne), List.reverse_reverse, h.2]
  rw [List.append_assoc, tokensFrom_letters h.isLetter, List.append_nil, List.singleton_append,
    tokensFrom, absorb_blank _ (by decide), hfinish]

/-- Pieces joined by a separator are cut into the tokens of the pieces, joined by those of
the separator. -/
theorem Lexes.intercalate {α : Type} {sep : List Char} {us : List Token} (hsep : Lexes sep us)
    {f : α → List Char} {g : α → List Token} {xs : List α} (h : ∀ x ∈ xs, Lexes (f x) (g x)) :
    Lexes (sep.intercalate (xs.map f)) (us.intercalate (xs.map g)) := by
  induction xs with
  | nil => exact .nil
  | cons x xs ih =>
    have hx : Lexes (f x) (g x) := h x List.mem_cons_self
    cases xs with
    | nil => simpa using hx
    | cons y xs =>
      simp only [List.map_cons, List.intercalate_cons_cons]
      exact (hx.append hsep).append (ih fun z hz => h z (List.mem_cons_of_mem _ hz))

/-! ## Conditions

The bound on the calls is three for each token, since a token is passed through three levels,
and as many more as there are levels above the one that reads. -/

/-- The tokens `ts` are read as the part `c`. -/
def SpellsPart (ts : List Token) (c : Condition) : Prop :=
  ∀ n rest, 3 * ts.length ≤ n → readPart n (ts ++ rest) = some (c, rest)

/-- The tokens `ts` are read as the conjunction `c`, unless it goes on. -/
def SpellsAll (ts : List Token) (c : Condition) : Prop :=
  ∀ n rest, 3 * ts.length + 1 ≤ n → rest.head? ≠ some .and →
    readAll n (ts ++ rest) = some (c, rest)

/-- The tokens `ts` are read as the condition `c`, unless it goes on. -/
def SpellsAny (ts : List Token) (c : Condition) : Prop :=
  ∀ n rest, 3 * ts.length + 2 ≤ n → rest.head? ≠ some .and → rest.head? ≠ some .or →
    readAny n (ts ++ rest) = some (c, rest)

theorem SpellsPart.bit (x : String) (on : Bool) :
    SpellsPart [.name x, .equals, .bit on] (.bit x on) := by
  intro n rest hn
  simp only [List.length_cons, List.length_nil] at hn
  obtain ⟨m, rfl⟩ := Nat.exists_eq_add_one.2 (show 0 < n by omega)
  simp [readPart]

theorem SpellsAny.group {ts : List Token} {c : Condition} (h : SpellsAny ts c) :
    SpellsPart (.opening :: ts ++ [.closing]) c := by
  intro n rest hn
  simp only [List.length_append, List.length_cons, List.length_nil] at hn
  obtain ⟨m, rfl⟩ := Nat.exists_eq_add_one.2 (show 0 < n by omega)
  have hinner := h m (.closing :: rest) (by omega) (by simp) (by simp)
  simp [readPart, hinner]

theorem SpellsPart.all {ts : List Token} {c : Condition} (h : SpellsPart ts c) :
    SpellsAll ts c := by
  intro n rest hn hrest
  obtain ⟨m, rfl⟩ := Nat.exists_eq_add_one.2 (show 0 < n by omega)
  rw [readAll, h m rest (by omega)]
  cases rest with
  | nil => rfl
  | cons t rest => cases t <;> simp_all

/-- A part, `AND` and a conjunction are a conjunction. -/
theorem SpellsAll.cons {ts us : List Token} {c d : Condition} (hc : SpellsPart ts c)
    (hd : SpellsAll us d) : SpellsAll (ts ++ .and :: us) (.and c d) := by
  intro n rest hn hrest
  simp only [List.length_append, List.length_cons] at hn
  obtain ⟨m, rfl⟩ := Nat.exists_eq_add_one.2 (show 0 < n by omega)
  have hleft := hc m (.and :: us ++ rest) (by omega)
  have hright := hd m rest (by omega) hrest
  rw [readAll, List.append_assoc, hleft]
  simp [hright]

theorem SpellsAll.any {ts : List Token} {c : Condition} (h : SpellsAll ts c) :
    SpellsAny ts c := by
  intro n rest hn hand hor
  obtain ⟨m, rfl⟩ := Nat.exists_eq_add_one.2 (show 0 < n by omega)
  rw [readAny, h m rest (by omega) hand]
  cases rest with
  | nil => rfl
  | cons t rest => cases t <;> simp_all

/-- A conjunction, `OR` and a condition are a condition. -/
theorem SpellsAny.cons {ts us : List Token} {c d : Condition} (hc : SpellsAll ts c)
    (hd : SpellsAny us d) : SpellsAny (ts ++ .or :: us) (.or c d) := by
  intro n rest hn hand hor
  simp only [List.length_append, List.length_cons] at hn
  obtain ⟨m, rfl⟩ := Nat.exists_eq_add_one.2 (show 0 < n by omega)
  have hleft := hc m (.or :: us ++ rest) (by omega) (by simp)
  have hright := hd m rest (by omega) hand hor
  rw [readAny, List.append_assoc, hleft]
  simp [hright]

/-! ## Statements -/

/-- What may stand behind a sequence of statements: nothing, or a word that ends a branch. -/
def Stops (rest : List Token) : Prop :=
  rest = [] ∨ rest.head? = some .elseBegins ∨ rest.head? = some .ifEnds

/-- The tokens `ts` are read as the program `p`. -/
def SpellsProgram (ts : List Token) (p : Program) : Prop :=
  ∀ n rest, 3 * ts.length + 3 ≤ n → Stops rest → readProgram n (ts ++ rest) = some (p, rest)

theorem SpellsProgram.done : SpellsProgram [] .done := by
  intro n rest hn hrest
  obtain ⟨m, rfl⟩ := Nat.exists_eq_add_one.2 (show 0 < n by omega)
  rcases rest with _ | ⟨t, rest⟩
  · rfl
  · cases t <;> simp_all [Stops, readProgram]

theorem SpellsProgram.assign {ts : List Token} {p : Program} (h : SpellsProgram ts p)
    (x : String) (on : Bool) :
    SpellsProgram (.name x :: .becomes :: .bit on :: .stop :: ts) (.assign x on p) := by
  intro n rest hn hrest
  simp only [List.length_cons] at hn
  obtain ⟨m, rfl⟩ := Nat.exists_eq_add_one.2 (show 0 < n by omega)
  have hnext := h m rest (by omega) hrest
  simp [readProgram, hnext]

theorem SpellsProgram.branch {cs ys ts : List Token} {c : Condition} {yes next : Program}
    (hc : SpellsAny cs c) (hyes : SpellsProgram ys yes) (hnext : SpellsProgram ts next) :
    SpellsProgram (.ifBegins :: cs ++ .thenBegins :: ys ++ .ifEnds :: .stop :: ts)
      (.branch c yes .done next) := by
  intro n rest hn hrest
  simp only [List.length_append, List.length_cons] at hn
  obtain ⟨m, rfl⟩ := Nat.exists_eq_add_one.2 (show 0 < n by omega)
  have h1 := hc m (.thenBegins :: (ys ++ .ifEnds :: .stop :: (ts ++ rest))) (by omega)
    (by simp) (by simp)
  have h2 := hyes m (.ifEnds :: .stop :: (ts ++ rest)) (by omega) (by simp [Stops])
  have h3 := hnext m rest (by omega) hrest
  simp [readProgram, h1, h2, h3]

theorem SpellsProgram.branchElse {cs ys ns ts : List Token} {c : Condition}
    {yes no next : Program} (hc : SpellsAny cs c) (hyes : SpellsProgram ys yes)
    (hno : SpellsProgram ns no) (hnext : SpellsProgram ts next) :
    SpellsProgram
      (.ifBegins :: cs ++ .thenBegins :: ys ++ .elseBegins :: ns ++ .ifEnds :: .stop :: ts)
      (.branch c yes no next) := by
  intro n rest hn hrest
  simp only [List.length_append, List.length_cons] at hn
  obtain ⟨m, rfl⟩ := Nat.exists_eq_add_one.2 (show 0 < n by omega)
  have h1 := hc m (.thenBegins :: (ys ++ .elseBegins :: (ns ++ .ifEnds :: .stop :: (ts ++ rest))))
    (by omega) (by simp) (by simp)
  have h2 := hyes m (.elseBegins :: (ns ++ .ifEnds :: .stop :: (ts ++ rest))) (by omega)
    (by simp [Stops])
  have h3 := hno m (.ifEnds :: .stop :: (ts ++ rest)) (by omega) (by simp [Stops])
  have h4 := hnext m rest (by omega) hrest
  simp [readProgram, h1, h2, h3, h4]

/-- A text that is cut into a spelling of a program runs as that program. -/
theorem execute_eq {text : String} {ts : List Token} {p : Program}
    (hlex : Lexes text.toList ts) (hp : SpellsProgram ts p) (v : Valuation) :
    execute text v = some (p.run v) := by
  have htokens : tokens text = ts := by
    have h := hlex []
    rw [List.append_nil] at h
    rw [tokens, h]
    simp [tokensFrom, finish]
  have hread := hp (3 * ts.length + 3) [] (Nat.le_refl _) (.inl rfl)
  rw [List.append_nil] at hread
  simp [execute, program?, htokens, hread]

end ControlLogic.StructuredText
