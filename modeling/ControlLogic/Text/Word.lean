import ControlLogic.Text.Ranges

/-!
# Word characters and digits

A word is made of letters and digits of any script and of underscores.  A decimal digit has
a value; other digit forms, such as superscripts, are digits without one.
-/

namespace ControlLogic.Text

/-- Whether `c` is an ASCII letter. -/
def isLetter (c : Char) : Bool :=
  ('a' ≤ c && c ≤ 'z') || ('A' ≤ c && c ≤ 'Z')

/-- Whether `c` is one of `0` to `9`. -/
def isAsciiDigit (c : Char) : Bool :=
  '0' ≤ c && c ≤ '9'

/-- Whether `c` may stand in a name: an ASCII letter or digit, or an underscore. -/
def isNameChar (c : Char) : Bool :=
  isLetter c || isAsciiDigit c || c == '_'

/-- Whether `c` may stand in a word. -/
def isWordChar (c : Char) : Bool :=
  if c.toNat < 128 then isNameChar c
  else inRanges c.toNat alphanumericRanges

theorem toNat_lt_of_isNameChar {c : Char} (h : isNameChar c = true) : c.toNat < 128 := by
  simp only [isNameChar, isLetter, isAsciiDigit, Bool.or_eq_true, Bool.and_eq_true,
    decide_eq_true_eq, beq_iff_eq, Char.le_def, UInt32.le_iff_toNat_le] at h
  rcases h with ((h | h) | h) | rfl
  · exact Nat.lt_of_le_of_lt h.2 (by decide)
  · exact Nat.lt_of_le_of_lt h.2 (by decide)
  · exact Nat.lt_of_le_of_lt h.2 (by decide)
  · decide

/-- The name characters are the ASCII characters that may stand in a word. -/
theorem isWordChar_of_isNameChar {c : Char} (h : isNameChar c = true) : isWordChar c = true := by
  rw [isWordChar, if_pos (toNat_lt_of_isNameChar h)]
  exact h

/-- The value of a decimal digit of any script. -/
def decimalValue? (c : Char) : Option Nat :=
  if c.toNat < 128 then
    if isAsciiDigit c then some (c.toNat - 48) else none
  else (decimalZeros.find? fun z => z ≤ c.toNat && c.toNat < z + 10).map (c.toNat - ·)

/-- Whether `c` is a decimal digit of any script. -/
def isDecimal (c : Char) : Bool :=
  (decimalValue? c).isSome

/-- Whether `c` is a digit in any form. -/
def isDigit (c : Char) : Bool :=
  isDecimal c || inRanges c.toNat digitFormRanges

/-- Whether `s` is made of digits and has at least one. -/
def isDigits (s : String) : Bool :=
  match s.toList with
  | [] => false
  | cs => cs.all isDigit

end ControlLogic.Text
