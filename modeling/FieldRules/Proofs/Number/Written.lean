import FieldRules.Number.Reading
import Mathlib.Data.List.Basic

/-!
# Written numbers

A number is written with ASCII digits, and a sign if it is below zero, and what is written is read back
(`readInt?_toString_int`).
-/

namespace FieldRules

namespace Text

/-! ## ASCII digits -/

theorem isAsciiDigit_iff {c : Char} : isAsciiDigit c = true ↔ '0' ≤ c ∧ c ≤ '9' := by
  simp [isAsciiDigit]

/-- What holds of the ten digits holds of every ASCII digit. -/
theorem forall_asciiDigit {p : Char → Prop} (h : ∀ d < 10, p (Char.ofNat (48 + d))) :
    ∀ c, isAsciiDigit c = true → p c := by
  intro c hc
  obtain ⟨hlow, hhigh⟩ := isAsciiDigit_iff.mp hc
  have hfirst : 48 ≤ c.toNat := UInt32.le_iff_toNat_le.mp hlow
  have hlast : c.toNat ≤ 57 := UInt32.le_iff_toNat_le.mp hhigh
  have hplace := h (c.toNat - 48) (by omega)
  rwa [Nat.add_sub_cancel' hfirst, Char.ofNat_toNat] at hplace

theorem isAsciiDigit_of_mem_toDigits {n : Nat} {c : Char} (h : c ∈ Nat.toDigits 10 n) :
    isAsciiDigit c = true := by
  have hdigit : c.isDigit = true := Nat.isDigit_of_mem_toDigits (by decide) (by decide) h
  exact hdigit

/-- A text without characters of a class keeps both its ends. -/
theorem trimBy_of_forall_not {p : Char → Bool} {s : List Char} (h : ∀ c ∈ s, p c = false) :
    trimBy p s = s := by
  have hkept : ∀ {l : List Char}, (∀ c ∈ l, p c = false) → l.dropWhile p = l := by
    intro l hl
    cases l with
    | nil => rfl
    | cons c l => rw [List.dropWhile_cons_of_neg (by simp [hl c List.mem_cons_self])]
  rw [trimBy, hkept h, hkept (by simpa using h), List.reverse_reverse]

end Text

namespace Number

open FieldRules.Text

/-! ## The parts of reading -/

variable {s : List Char}

/-- A digit of ASCII is its own ASCII form. -/
theorem asciiDigits_of_digits (h : ∀ c ∈ s, isAsciiDigit c = true) : asciiDigits s = s := by
  have hsame : ∀ c, isAsciiDigit c = true → asciiDigits [c] = [c] := forall_asciiDigit (by decide)
  have hchars := List.map_congr_left fun c hc => List.singleton_inj.mp (hsame c (h c hc))
  exact hchars.trans (List.map_id' s)

theorem isNumberBlank_of_digit : ∀ c, isAsciiDigit c = true → isNumberBlank c = false :=
  forall_asciiDigit (by decide)

theorem takeSign_of_digits (h : ∀ c ∈ s, isAsciiDigit c = true) : takeSign s = (false, s) := by
  cases s with
  | nil => rfl
  | cons c s =>
      have hsigns : ∀ c, isAsciiDigit c = true → c ≠ '-' ∧ c ≠ '+' := forall_asciiDigit (by decide)
      have hsign := hsigns c (h c List.mem_cons_self)
      simp [takeSign, hsign]

theorem joinDigits?_of_digits (h : ∀ c ∈ s, isAsciiDigit c = true) (afterDigit : Bool) :
    joinDigits? afterDigit s = some s := by
  induction s generalizing afterDigit with
  | nil => rfl
  | cons c s ih =>
      obtain ⟨hc, hs⟩ := List.forall_mem_cons.mp h
      have hline : ∀ c, isAsciiDigit c = true → c ≠ '_' := forall_asciiDigit (by decide)
      rw [joinDigits?, if_neg (hline c hc), ih hs, Option.map_some]

/-! ## Reading what was written -/

/-- ASCII digits are read as the number that they write. -/
theorem readInt?_of_digits (h : ∀ c ∈ s, isAsciiDigit c = true) (hne : s ≠ []) :
    readInt? s = some (digitsValue s : Int) := by
  have hblank : ∀ c ∈ s, isNumberBlank c = false := fun c hc => isNumberBlank_of_digit c (h c hc)
  have hempty : s.isEmpty = false := by simpa using hne
  have hall : s.all isAsciiDigit = true := List.all_eq_true.mpr h
  rw [readInt?, asciiDigits_of_digits h, readIntWith?, trimBy_of_forall_not hblank, takeSign_of_digits h]
  simp only [joinDigits?_of_digits h, hempty, hall, Bool.not_true, Bool.or_self, Bool.false_eq_true,
    if_false]

/-- A number is read back from its digits. -/
theorem readInt?_toString (n : Nat) : readInt? (toString n).toList = some (n : Int) := by
  have hdigits : (toString n).toList = Nat.toDigits 10 n := by
    rw [Nat.toString_eq_ofList_toDigits, String.toList_ofList]
  have hvalue : digitsValue (Nat.toDigits 10 n) = n := Nat.ofDigitChars_ten_toDigits
  rw [hdigits, readInt?_of_digits (fun c hc => isAsciiDigit_of_mem_toDigits hc) Nat.toDigits_ne_nil,
    hvalue]

end Number

end FieldRules
