import ControlLogic.Text.Basic

/-!
# Decimal texts of numbers

`shortest` writes a floating point number with the fewest digits that read back as the same
number, and of those the nearest.  It is positional for exponents from -4 to 15 and has an
exponent of at least two digits otherwise; a whole number keeps one decimal.

`fixed` writes a quotient with a fixed number of decimals, ties to even.
-/

namespace ControlLogic.Text.Decimal

/-- A positive number `m * 2 ^ q`, with whether the gap below is half the gap above. -/
structure Binary where
  m : Nat
  q : Int
  narrow : Bool

/-- Numerator and denominator of `n * 2 ^ q`. -/
def scaleTwo (n : Nat) (q : Int) : Nat × Nat :=
  if 0 ≤ q then (n * Nat.pow 2 q.toNat, 1) else (n, Nat.pow 2 (-q).toNat)

/-- The least `j ≤ fuel` with `den ≤ num * 10 ^ j`. -/
def firstPower (num den : Nat) : Nat → Nat → Nat
  | 0, j => j
  | fuel + 1, j => if den ≤ num then j else firstPower (num * 10) den fuel (j + 1)

/-- The exponent of the first digit of `num / den`. -/
def leadingExponent (num den : Nat) : Int :=
  if den ≤ num then ((Nat.toDigits 10 (num / den)).length : Int) - 1
  else -(firstPower num den 400 0 : Int)

/-- Whether `d * 10 ^ k` reads back as `b`. -/
def readsBack (b : Binary) (d : Nat) (k : Int) : Bool :=
  -- All sides are taken in quarters of the unit `2 ^ q`.
  let (dn, dd) := if 0 ≤ k then (d * Nat.pow 10 k.toNat, 1) else (d, Nat.pow 10 (-k).toNat)
  let (un, ud) := scaleTwo 1 (b.q - 2)
  let value := dn * ud
  let unit := dd * un
  let low := (4 * b.m - (if b.narrow then 1 else 2)) * unit
  let high := (4 * b.m + 2) * unit
  if b.m % 2 == 0 then low ≤ value && value ≤ high else low < value && value < high

/-- The digits and exponent of the first grid with a number that reads back. -/
def searchDigits (b : Binary) (num den : Nat) (e : Int) : Nat → Nat → Nat × Int
  | 0, n => (0, e - n)
  | fuel + 1, n =>
    let k := e - (n : Int) + 1
    let (vn, vd) :=
      if 0 ≤ k then (num, den * Nat.pow 10 k.toNat) else (num * Nat.pow 10 (-k).toNat, den)
    let d := vn / vd
    let lowOk := readsBack b d k
    let highOk := readsBack b (d + 1) k
    let twice := 2 * (vn % vd)
    if lowOk && highOk then
      if twice < vd || (twice == vd && d % 2 == 0) then (d, k) else (d + 1, k)
    else if lowOk then (d, k)
    else if highOk then (d + 1, k)
    else searchDigits b num den e fuel (n + 1)

/-- The digits of `n` without trailing zeros, and how many zeros were dropped. -/
def dropZeros (digits : List Char) : List Char :=
  match (digits.reverse.dropWhile (· == '0')).reverse with
  | [] => ['0']
  | ds => ds

/-- Writes digits with the decimal exponent `e` of the first one. -/
def write (digits : List Char) (e : Int) : List Char :=
  let n := digits.length
  if -4 ≤ e && e < 16 then
    if e < 0 then ['0', '.'] ++ List.replicate ((-e).toNat - 1) '0' ++ digits
    else
      let whole := e.toNat + 1
      if n ≤ whole then digits ++ List.replicate (whole - n) '0' ++ ['.', '0']
      else digits.take whole ++ ['.'] ++ digits.drop whole
  else
    let mantissa :=
      match digits with
      | d :: (f :: more) => d :: '.' :: f :: more
      | ds => ds
    let size := Nat.toDigits 10 e.natAbs
    let size := List.replicate (2 - size.length) '0' ++ size
    mantissa ++ ['e', if e < 0 then '-' else '+'] ++ size

/-- The fewest digits that read back, in decimal notation. -/
def shortest (x : Float) : String :=
  let bits := x.toBits.toNat
  let neg : Bool := bits / Nat.pow 2 63 == 1
  let field : Nat := bits / Nat.pow 2 52 % Nat.pow 2 11
  let fraction : Nat := bits % Nat.pow 2 52
  let body : List Char :=
    if field == 2047 then
      if fraction == 0 then ['i', 'n', 'f'] else ['n', 'a', 'n']
    else if field == 0 && fraction == 0 then ['0', '.', '0']
    else
      let b : Binary :=
        if field == 0 then ⟨fraction, -1074, false⟩
        else ⟨Nat.pow 2 52 + fraction, (field : Int) - 1075, fraction == 0 && field != 1⟩
      let (num, den) := scaleTwo b.m b.q
      let e := leadingExponent num den
      let (d, k) := searchDigits b num den e 17 1
      let digits := Nat.toDigits 10 d
      write (dropZeros digits) (k + (digits.length : Int) - 1)
  String.ofList (if neg && !(field == 2047 && fraction != 0) then '-' :: body else body)

/-- The quotient `num / den` with `places` decimals. -/
def fixed (num den places : Nat) : String :=
  let scaled := num * Nat.pow 10 places
  let q := scaled / den
  let twice := 2 * (scaled % den)
  let q := if den < twice || (twice == den && q % 2 == 1) then q + 1 else q
  let digits := Nat.toDigits 10 q
  let digits := List.replicate (places + 1 - digits.length) '0' ++ digits
  String.ofList (digits.take (digits.length - places) ++ ['.'] ++ digits.drop (digits.length - places))

end ControlLogic.Text.Decimal
