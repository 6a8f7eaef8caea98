import ControlLogic.Proofs.Text.Chars
import ControlLogic.Text.Numeral
import Mathlib.Algebra.Group.Nat.Defs

/-!
# Reading natural numbers back

* `readDigits_of_isDigit`: decimal digits are read for their value.
* `readInt?_toString`: a natural number is read back from its digits, if there are not too many of
  them.
-/

namespace ControlLogic.Text

theorem toNat_lt_of_isDigit {c : Char} (h : c.isDigit = true) : c.toNat < 128 := by
  simp only [Char.isDigit, Bool.and_eq_true, decide_eq_true_eq, ge_iff_le,
    UInt32.le_iff_toNat_le] at h
  exact Nat.lt_of_le_of_lt h.2 (by decide)

/-- What a numeral needs to know of a digit. -/
theorem digitValue?_of_isDigit {c : Char} (h : c.isDigit = true) :
    digitValue? c = some (c.toNat - '0'.toNat) ∧ c.toNat - '0'.toNat < 10 ∧ c ≠ '_' ∧ c ≠ '-' ∧
      c ≠ '+' ∧ isBlank c = false :=
  of_forall_ascii (P := fun c => c.isDigit = true → digitValue? c = some (c.toNat - '0'.toNat) ∧
    c.toNat - '0'.toNat < 10 ∧ c ≠ '_' ∧ c ≠ '-' ∧ c ≠ '+' ∧ isBlank c = false)
    (by decide) (toNat_lt_of_isDigit h) h

theorem readDigits_of_isDigit {s : List Char} (h : ∀ c ∈ s, c.isDigit = true) (value : Nat)
    {wanted : Bool} (hne : wanted = true → s ≠ []) :
    readDigits 10 value wanted s = some (Nat.ofDigitChars 10 s value) := by
  induction s generalizing value wanted with
  | nil =>
    cases wanted with
    | false => rfl
    | true => exact absurd rfl (hne rfl)
  | cons c s ih =>
    obtain ⟨hvalue, hlt, hunderscore, -⟩ := digitValue?_of_isDigit (h c List.mem_cons_self)
    rw [readDigits, if_neg (by simpa using hunderscore), hvalue]
    simp only [if_pos hlt]
    rw [ih (fun x hx => h x (List.mem_cons_of_mem _ hx)) _ Bool.false_ne_true.elim,
      Nat.ofDigitChars_cons, Nat.mul_comm]

theorem toList_toString_ne_nil (n : Nat) : (toString n).toList ≠ [] := by
  rw [Nat.toString_eq_ofList_toDigits, String.toList_ofList]
  exact Nat.toDigits_ne_nil

/-- A natural number is read back from its digits unless there are too many. -/
theorem readInt?_toString (n : Nat) :
    readInt? (toString n) = if n < 10 ^ maxNumeralDigits then some (n : Int) else none := by
  have hdigit : ∀ c ∈ (toString n).toList, c.isDigit = true := fun c => isDigit_of_mem_toString
  obtain ⟨c, s, hcs⟩ := List.exists_cons_of_ne_nil (toList_toString_ne_nil n)
  have htrim : Chars.trim isBlank (toString n).toList = (toString n).toList :=
    Chars.trim_of_forall_not fun x hx => (digitValue?_of_isDigit (hdigit x hx)).2.2.2.2.2
  have hsign : readSign (toString n).toList = (false, (toString n).toList) := by
    obtain ⟨-, -, -, hminus, hplus, -⟩ := digitValue?_of_isDigit
      (hdigit c (hcs ▸ List.mem_cons_self))
    rw [hcs, readSign]
    · exact fun _ h => hminus (List.cons.inj h).1
    · exact fun _ h => hplus (List.cons.inj h).1
  have hfilter : (toString n).toList.filter (· != '_') = (toString n).toList :=
    List.filter_eq_self.2 fun x hx => by
      simpa using (digitValue?_of_isDigit (hdigit x hx)).2.2.1
  have hlength : maxNumeralDigits < (toString n).toList.length ↔ ¬n < 10 ^ maxNumeralDigits := by
    rw [Nat.toString_eq_ofList_toDigits, String.toList_ofList, ← Nat.not_le,
      Nat.length_toDigits_le_iff (by decide) (by decide)]
  have hread : readDigits 10 0 true (toString n).toList = some n := by
    rw [readDigits_of_isDigit hdigit 0 fun _ => toList_toString_ne_nil n,
      Nat.toString_eq_ofList_toDigits, String.toList_ofList,
      Nat.ofDigitChars_toDigits (by decide) (by decide)]
  rw [readInt?, htrim, hsign]
  simp only [hfilter, hlength, hread, ite_not]
  rfl

end ControlLogic.Text
