/-!
# Bytes and texts

Reading texts from bytes in the encoding of one to four bytes a character.  A byte sequence
that encodes nothing is a fault, or is passed over by the lenient reading.
-/

namespace ControlLogic.Text

/-- What the first byte of a character says: how many bytes follow, the bounds of the first
of them, and the leading bits of the number. -/
def leadOf? (b : Nat) : Option (Nat × Nat × Nat × Nat) :=
  if 0xC2 ≤ b && b ≤ 0xDF then some (1, 0x80, 0xBF, b - 0xC0)
  else if b = 0xE0 then some (2, 0xA0, 0xBF, 0)
  else if b = 0xED then some (2, 0x80, 0x9F, 13)
  else if 0xE1 ≤ b && b ≤ 0xEF then some (2, 0x80, 0xBF, b - 0xE0)
  else if b = 0xF0 then some (3, 0x90, 0xBF, 0)
  else if b = 0xF4 then some (3, 0x80, 0x8F, 4)
  else if 0xF1 ≤ b && b ≤ 0xF3 then some (3, 0x80, 0xBF, b - 0xF0)
  else none

/-- Why bytes encode nothing. -/
inductive Flaw where
  | start
  | following
  | unfinished
  deriving DecidableEq

/-- The wording of a flaw. -/
def Flaw.wording : Flaw → String
  | start => "invalid start byte"
  | following => "invalid continuation byte"
  | unfinished => "unexpected end of data"

/-- Reads the bytes that follow a first byte: the number or the flaw, and how many of them were
in order. -/
def readFollowing : Nat → Nat → Nat → Nat → List Nat → Except Flaw Nat × Nat
  | 0, _, _, value, _ => (.ok value, 0)
  | _ + 1, _, _, _, [] => (.error .unfinished, 0)
  | n + 1, lo, hi, value, b :: rest =>
    if lo ≤ b && b ≤ hi then
      let (r, k) := readFollowing n 0x80 0xBF (value * 64 + (b - 0x80)) rest
      (r, k + 1)
    else (.error .following, 0)

/-- Reads one character: the character or the flaw, and the number of bytes that the reading
went through. -/
def readEncoded (b : Nat) (rest : List Nat) : Except Flaw Char × Nat :=
  if b < 0x80 then (.ok (Char.ofNat b), 1)
  else
    match leadOf? b with
    | none => (.error .start, 1)
    | some (n, lo, hi, value) =>
      let (r, k) := readFollowing n lo hi value rest
      (r.map Char.ofNat, k + 1)

/-- Bytes that encode nothing: their first, its place, their number, and what is wrong. -/
structure Misfit where
  byte : Nat
  place : Nat
  size : Nat
  flaw : Flaw
  deriving DecidableEq

/-- Reads all characters; `skip` bytes belong to the character just read, and `place` bytes
have been passed. -/
def decodeFrom (lenient : Bool) : (skip place : Nat) → List Nat → Except Misfit (List Char)
  | _, _, [] => .ok []
  | skip + 1, place, _ :: rest => decodeFrom lenient skip (place + 1) rest
  | 0, place, b :: rest =>
    match readEncoded b rest with
    | (.ok c, k) => (decodeFrom lenient (k - 1) (place + 1) rest).map (c :: ·)
    | (.error flaw, k) =>
      if lenient then decodeFrom lenient (k - 1) (place + 1) rest
      else .error ⟨b, place, k, flaw⟩

/-- The text of bytes. -/
def decode (bytes : List Nat) : Except Misfit String :=
  (decodeFrom false 0 0 bytes).map String.ofList

/-- The text of bytes, without those that encode nothing. -/
def decodeLenient (bytes : List Nat) : String :=
  match decodeFrom true 0 0 bytes with
  | .ok cs => String.ofList cs
  | .error _ => ""

end ControlLogic.Text
