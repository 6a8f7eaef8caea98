import ControlLogic.Text.Chars

/-!
# Blanks

The characters that separate words: the space, the control characters that move the
cursor, the four information separators, and the spaces of other scripts.
-/

namespace ControlLogic.Text

/-- Whether `c` separates words. -/
def isBlank (c : Char) : Bool :=
  let n := c.toNat
  (9 ≤ n && n ≤ 13) || (28 ≤ n && n ≤ 32) || n == 133 || n == 160 || n == 5760 ||
    (8192 ≤ n && n ≤ 8202) || n == 8232 || n == 8233 || n == 8239 || n == 8287 || n == 12288

/-- Whether `c` ends a line: the line feed and its relatives. -/
def isLineEnd (c : Char) : Bool :=
  let n := c.toNat
  (10 ≤ n && n ≤ 13) || (28 ≤ n && n ≤ 30) || n == 133 || n == 8232 || n == 8233

/-- The text without blanks at either end. -/
def strip (s : String) : String :=
  String.ofList (Chars.trim isBlank s.toList)

/-- The words between blanks. -/
def words (s : String) : List String :=
  (Chars.words isBlank s.toList).map String.ofList

/-- Every stretch of blanks becomes one space. -/
def collapseBlanks (s : String) : String :=
  String.ofList (Chars.mapRuns isBlank (fun _ => [' ']) s.toList)

/-- Carriage returns, alone or before a line feed, become line feeds. -/
def unifyLineEnds : List Char → List Char
  | [] => []
  | '\r' :: '\n' :: rest => '\n' :: unifyLineEnds rest
  | '\r' :: rest => '\n' :: unifyLineEnds rest
  | c :: rest => c :: unifyLineEnds rest

/-- Without carriage returns nothing changes. -/
theorem unifyLineEnds_of_not_mem {s : List Char} (h : '\r' ∉ s) : unifyLineEnds s = s := by
  fun_induction unifyLineEnds s with
  | case1 => rfl
  | case2 rest => exact absurd List.mem_cons_self h
  | case3 rest => exact absurd List.mem_cons_self h
  | case4 c rest _ _ ih => rw [ih fun hr => h (List.mem_cons_of_mem _ hr)]

theorem not_mem_unifyLineEnds (s : List Char) : '\r' ∉ unifyLineEnds s := by
  fun_induction unifyLineEnds s with
  | case1 => exact List.not_mem_nil
  | case2 rest ih => simpa using ih
  | case3 rest _ ih => simpa using ih
  | case4 c rest _ hc ih =>
    rw [List.mem_cons, not_or]
    exact ⟨fun h => hc h.symm, ih⟩

theorem mem_unifyLineEnds {s : List Char} {c : Char} (h : c ∈ unifyLineEnds s) :
    c = '\n' ∨ c ∈ s := by
  fun_induction unifyLineEnds s with
  | case1 => exact absurd h List.not_mem_nil
  | case2 rest ih => grind
  | case3 rest _ ih => grind
  | case4 d rest _ _ ih => grind

/-- A text without carriage returns stays before any other. -/
theorem unifyLineEnds_append_of_not_mem {s : List Char} (h : '\r' ∉ s) (t : List Char) :
    unifyLineEnds (s ++ t) = s ++ unifyLineEnds t := by
  induction s with
  | nil => rfl
  | cons c s ih =>
    rw [List.mem_cons, not_or] at h
    rw [List.cons_append, unifyLineEnds, ih h.2, List.cons_append] <;> grind

/-- Texts are unified one by one, unless a line feed begins the second. -/
theorem unifyLineEnds_append {s t : List Char} (h : t.head? ≠ some '\n') :
    unifyLineEnds (s ++ t) = unifyLineEnds s ++ unifyLineEnds t := by
  fun_induction unifyLineEnds s with
  | case1 => rfl
  | case2 rest ih => rw [List.cons_append, List.cons_append, unifyLineEnds, ih, List.cons_append]
  | case3 rest hrest ih =>
    rw [List.cons_append, unifyLineEnds, ih, List.cons_append]
    rintro rest' happend
    cases rest with
    | nil => exact h (by rw [← List.nil_append t, happend, List.head?_cons])
    | cons d rest =>
      cases happend
      exact hrest rest rfl
  | case4 c rest hrest hc ih => rw [List.cons_append, unifyLineEnds, ih, List.cons_append] <;> grind

/-- Cuts at line ends; a carriage return and a line feed together are one line end, and a
line end at the very end opens no further line. -/
def lineListAux : List Char → List Char → List (List Char)
  | piece, [] => if piece.isEmpty then [] else [piece.reverse]
  | piece, '\r' :: '\n' :: rest => piece.reverse :: lineListAux [] rest
  | piece, c :: rest =>
    if isLineEnd c then piece.reverse :: lineListAux [] rest else lineListAux (c :: piece) rest

/-- The lines of a text, without their ends. -/
def lines (s : String) : List String :=
  (lineListAux [] s.toList).map String.ofList

end ControlLogic.Text
