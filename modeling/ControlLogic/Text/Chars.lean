/-!
# Lists of characters

Cutting, joining and searching of texts given as lists of characters.  Every function here
is by recursion on the list or from the library of lists, so that a statement about it is proved
by induction or by a lemma of the library.

* `trim`, `trimLeft` and `trimRight` drop characters of a class at the ends.
* `splitOn` cuts at every occurrence of a text, from left to right without overlap.
* `replace` puts a text in place of every such occurrence, and `replaceFirst` in place of
  the first.
* `breakOn?` cuts at the first occurrence of a text.
* `runs` cuts into maximal stretches of characters of a class and of its complement.
-/

namespace ControlLogic.Text.Chars

/-- Drops the leading characters of the class `p`. -/
def trimLeft (p : Char → Bool) (s : List Char) : List Char :=
  s.dropWhile p

/-- Drops the trailing characters of the class `p`. -/
def trimRight (p : Char → Bool) (s : List Char) : List Char :=
  (s.reverse.dropWhile p).reverse

/-- Drops the characters of the class `p` at both ends. -/
def trim (p : Char → Bool) (s : List Char) : List Char :=
  trimRight p (trimLeft p s)

/-- The loop of `splitOn`: `skip` characters belong to the separator just met, and `piece`
holds the current piece backwards. -/
def splitOnAux (sep : List Char) : Nat → List Char → List Char → List (List Char)
  | _, piece, [] => [piece.reverse]
  | skip + 1, piece, _ :: rest => splitOnAux sep skip piece rest
  | 0, piece, d :: rest =>
    if sep.isPrefixOf (d :: rest) then
      piece.reverse :: splitOnAux sep (sep.length - 1) [] rest
    else splitOnAux sep 0 (d :: piece) rest

/-- The pieces between the occurrences of `sep`, met from left to right.  An empty
separator cuts nothing. -/
def splitOn (sep s : List Char) : List (List Char) :=
  if sep.isEmpty then [s] else splitOnAux sep 0 [] s

/-- The pieces with `sep` between them. -/
def join (sep : List Char) : List (List Char) → List Char
  | [] => []
  | [piece] => piece
  | piece :: pieces => piece ++ sep ++ join sep pieces

/-- Puts `new` in place of every occurrence of `old`. -/
def replace (old new s : List Char) : List Char :=
  join new (splitOn old s)

/-- Puts `new` in place of the first occurrence of `old`. -/
def replaceFirst (old new : List Char) : List Char → List Char
  | [] => if old.isEmpty then new else []
  | d :: rest =>
    if old.isPrefixOf (d :: rest) then new ++ (d :: rest).drop old.length
    else d :: replaceFirst old new rest

/-- Whether `t` occurs in the text. -/
def contains (t : List Char) : List Char → Bool
  | [] => t.isEmpty
  | d :: rest => t.isPrefixOf (d :: rest) || contains t rest

/-- The number of characters before the first occurrence of `c`, if there is one. -/
def indexOf? (c : Char) : List Char → Option Nat
  | [] => none
  | d :: rest => if d = c then some 0 else (indexOf? c rest).map (· + 1)

/-- The number of characters before the last occurrence of `c`, if there is one. -/
def lastIndexOf? (c : Char) (s : List Char) : Option Nat :=
  (indexOf? c s.reverse).map fun k => s.length - 1 - k

/-- What stands before the first occurrence of `t`, and what stands after it. -/
def breakOn? (t : List Char) : List Char → Option (List Char × List Char)
  | [] => if t.isEmpty then some ([], []) else none
  | d :: rest =>
    if t.isPrefixOf (d :: rest) then some ([], (d :: rest).drop t.length)
    else (breakOn? t rest).map fun (a, b) => (d :: a, b)

/-- A cut text is what stands before, the text searched for, and what stands after. -/
theorem eq_of_breakOn? {t s a b : List Char} (h : breakOn? t s = some (a, b)) :
    s = a ++ t ++ b := by
  induction s generalizing a with
  | nil => unfold breakOn? at h; split at h <;> simp_all
  | cons d rest ih =>
    unfold breakOn? at h
    split at h
    · next hp =>
      simp only [Option.some.injEq, Prod.mk.injEq] at h
      obtain ⟨u, hu⟩ := List.isPrefixOf_iff_prefix.1 hp
      rw [← h.1, ← h.2, ← hu]; simp
    · cases hr : breakOn? t rest with
      | none => simp [hr] at h
      | some p =>
        simp only [hr, Option.map_some, Option.some.injEq, Prod.mk.injEq] at h
        have := ih (a := p.1) (by rw [hr, ← h.2])
        rw [← h.1, this]; simp

/-- What follows an occurrence is no longer than the text. -/
theorem length_of_breakOn? {t s a b : List Char} (h : breakOn? t s = some (a, b)) :
    b.length ≤ s.length := by
  rw [eq_of_breakOn? h]; simp only [List.length_append]; omega

/-- Maximal stretches of characters inside and outside the class `p`, in order. -/
def runs (p : Char → Bool) : List Char → List (List Char)
  | [] => []
  | c :: rest =>
    match runs p rest with
    | (d :: run) :: more => if p c == p d then (c :: d :: run) :: more else [c] :: (d :: run) :: more
    | more => [c] :: more

/-- The stretches of characters outside the class `p`: the words between its separators. -/
def words (p : Char → Bool) (s : List Char) : List (List Char) :=
  (runs p s).filter fun run => !run.all p

/-- Applies `f` to every maximal stretch of the class `p` and leaves the rest alone. -/
def mapRuns (p : Char → Bool) (f : List Char → List Char) (s : List Char) : List Char :=
  (runs p s).flatMap fun run => if run.all p then f run else run

end ControlLogic.Text.Chars
