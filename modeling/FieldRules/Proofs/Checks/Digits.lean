import FieldRules.Proofs.Checks.Passing
import FieldRules.Proofs.Number.Written
import FieldRules.Proofs.Pattern.Words
import Mathlib

/-!
# Digits

The rules about digits look for the end of a text before a final line feed, so `numeric` takes digits with a
line feed behind them, and `digits` counts the line feed. `digits_exact` says which texts pass these rules;
they are the texts of digits, and those of a given number of digits, as far as no line feed is at the end.
-/

namespace FieldRules.Checks

open FieldRules.Pattern FieldRules.Text

/-! ## The pattern -/

/-- A text of nothing but ASCII digits. -/
def AllDigits (s : List Char) : Prop := ∀ c ∈ s, '0' ≤ c ∧ c ≤ '9'

theorem allDigits_iff {s : List Char} : AllDigits s ↔ s.all isAsciiDigit = true := by
  simp [AllDigits, isAsciiDigit_iff]

instance (s : List Char) : Decidable (AllDigits s) := decidable_of_iff _ allDigits_iff.symm

theorem not_allDigits_append_lineFeed (s : List Char) : ¬ AllDigits (s ++ ['\n']) := by
  intro h
  exact absurd (h '\n' (by simp)) (by decide)

/-- The set of digits. -/
def digitItems : List SetItem := [.range 48 57]

theorem matchesSet_digits {c : Char} : matchesSet {} false digitItems c = true ↔ '0' ≤ c ∧ c ≤ '9' := by
  simp [matchesSet, digitItems, inItem, Char.le_def, UInt32.le_iff_toNat_le]

/-- What the pattern is read as. -/
def numericForm : Compiled where
  nodes := [.anchor .lineStart, manyOf false digitItems 0, .anchor .lineEnd]
  flags := {}
  groups := 0

theorem read_numericPattern : Pattern.read numericPattern.toList = .ok numericForm := by
  cbv

/-- The pattern looks for digits and for an end, and takes a final line feed for one. -/
theorem matchesStart_numericForm_iff {s : List Char} :
    numericForm.matchesStart s = true ↔ BeforeLineFeed AllDigits s := by
  have hwords : ∀ {w}, w ∈ manyWords {} false digitItems 0 ↔ AllDigits w := by
    simp [mem_manyWords_iff, matchesSet_digits, AllDigits]
  have hspells : Spells s (matchList s.toArray {} [manyOf false digitItems 0])
      (manyWords {} false digitItems 0) := spells_singleton (spells_manyOf false digitItems 0)
  rw [matchesStart_iff (p := numericForm) [manyOf false digitItems 0] rfl rfl hspells, past_atEnd_iff]
  simp only [BeforeLineFeed, hwords]

/-! ## The rules -/

variable {v : Value}

theorem passes_numeric_iff : Passes "numeric" v ↔ BeforeLineFeed AllDigits v.fieldText.toList := by
  have hread : Rule.readAll "numeric" = [{ name := "numeric" }] := by decide
  have hname : ("numeric", numeric) ∈ Builtin.predicates := by simp [Builtin.predicates]
  rw [passes_iff hread hname, numeric, saysYes_fits read_numericPattern, matchesStart_numericForm_iff]

theorem passes_alphaNum_iff :
    Passes "alpha_num" v ↔ ∀ c ∈ v.fieldText.toList, isAlphanumeric c = true := by
  have hread : Rule.readAll "alpha_num" = [{ name := "alpha_num" }] := by decide
  have hname : ("alpha_num", alphaNum) ∈ Builtin.predicates := by simp [Builtin.predicates]
  rw [passes_iff hread hname]
  exact List.all_eq_true

/-- The rule looks at its parameter if the text is one of digits, and asks it for the length. -/
theorem saysYes_digits_iff {p : Value} {others : List Value} :
    saysYes (digits v (p :: others)) = true ↔
      BeforeLineFeed AllDigits v.fieldText.toList ∧ toInt p = .ok (v.fieldText.length : Int) := by
  have hparam : param (p :: others) 0 = .ok p := rfl
  have hfits := fits_of_read read_numericPattern v.fieldText.toList
  rw [← matchesStart_numericForm_iff, ← String.length_toList]
  unfold digits
  cases hdigits : numericForm.matchesStart v.fieldText.toList with
  | false => simp [hfits, hdigits, saysYes, bind, Except.bind, pure, Except.pure]
  | true =>
      cases hn : toInt p with
      | error f => simp [hfits, hdigits, hparam, saysYes, bind, Except.bind, hn]
      | ok n => simp [hfits, hdigits, hparam, saysYes, bind, Except.bind, pure, Except.pure, hn, eq_comm]

theorem passes_digits_iff {n : Nat} :
    Passes ("digits:" ++ toString n) v ↔ Passes "numeric" v ∧ v.fieldText.length = n := by
  have htrimmed : Trimmed "digits".toList := trim_eq_self_iff.mp (by decide)
  have hread : Rule.readAll ("digits:" ++ toString n) = [{ name := "digits", params := [toString n] }] :=
    Rule.readAll_append_number htrimmed (by decide) n
  have hname : ("digits", digits) ∈ Builtin.predicates := by simp [Builtin.predicates]
  have hlength : toInt (.text (toString n)) = .ok (v.fieldText.length : Int) ↔
      v.fieldText.length = n := by
    rw [toInt_toString, Except.ok.injEq, Int.natCast_inj, eq_comm]
  rw [passes_iff hread hname, List.map_singleton, saysYes_digits_iff, hlength, passes_numeric_iff]

/-! ## The line feed -/

/-- Of the texts of digits up to a final line feed those are without a line feed that are digits only. -/
theorem allDigits_iff_no_lineFeed {s : List Char} (h : BeforeLineFeed AllDigits s) :
    AllDigits s ↔ '\n' ∉ s := by
  rcases h with hdigits | ⟨l, -, rfl⟩
  · have hfree : '\n' ∉ s := fun hmem => absurd (hdigits '\n' hmem) (by decide)
    exact iff_of_true hdigits hfree
  · have hmem : '\n' ∈ l ++ ['\n'] := by simp
    exact iff_of_false (not_allDigits_append_lineFeed l) (not_not_intro hmem)

/-- Digits are alphanumeric, and a line feed is not. -/
theorem alphanumeric_iff_no_lineFeed {s : List Char} (h : BeforeLineFeed AllDigits s) :
    (∀ c ∈ s, isAlphanumeric c = true) ↔ '\n' ∉ s := by
  constructor
  · intro hall hmem
    exact absurd (hall '\n' hmem) (by decide)
  · intro hfree c hc
    have hdigits : AllDigits s := (allDigits_iff_no_lineFeed h).mpr hfree
    have hplain : ∀ c, isAsciiDigit c = true → isAlphanumeric c = true := forall_asciiDigit (by decide)
    exact hplain c (isAsciiDigit_iff.mpr (hdigits c hc))

/-- The text of a value passes `numeric` if it is made of ASCII digits up to a final line feed, and `digits`
if besides it has the number of characters that is given. So digits of a given number are numeric. What is
numeric is made of digits only, and is alphanumeric, exactly if there is no line feed in it. -/
theorem digits_exact (v : Value) (n : Nat) :
    (Passes "numeric" v ↔ BeforeLineFeed AllDigits v.fieldText.toList) ∧
    (Passes ("digits:" ++ toString n) v ↔
      BeforeLineFeed AllDigits v.fieldText.toList ∧ v.fieldText.length = n) ∧
    (Passes ("digits:" ++ toString n) v → Passes "numeric" v) ∧
    (Passes "numeric" v → (AllDigits v.fieldText.toList ↔ '\n' ∉ v.fieldText.toList) ∧
      (Passes "alpha_num" v ↔ '\n' ∉ v.fieldText.toList)) := by
  refine ⟨passes_numeric_iff, ?_, ?_, ?_⟩
  · rw [passes_digits_iff, passes_numeric_iff]
  · intro hdigits
    exact (passes_digits_iff.mp hdigits).1
  · intro hnumeric
    have hends := passes_numeric_iff.mp hnumeric
    rw [passes_alphaNum_iff]
    exact ⟨allDigits_iff_no_lineFeed hends, alphanumeric_iff_no_lineFeed hends⟩

/-- One digit with a line feed behind it passes as numeric and as two digits, and not as alphanumeric. -/
theorem digit_and_lineFeed_pass :
    let v := Value.text "5\n"
    Passes "numeric" v ∧ Passes ("digits:" ++ toString 2) v ∧ ¬ Passes "alpha_num" v ∧
      ¬ AllDigits v.fieldText.toList := by
  intro v
  have hends : BeforeLineFeed AllDigits v.fieldText.toList := Or.inr ⟨['5'], by decide, by decide⟩
  have hfeed : ¬ '\n' ∉ v.fieldText.toList := by decide
  have hnumeric : Passes "numeric" v := passes_numeric_iff.mpr hends
  have hdigits : Passes ("digits:" ++ toString 2) v :=
    passes_digits_iff.mpr ⟨hnumeric, by decide⟩
  have halpha : ¬ Passes "alpha_num" v := by
    rwa [passes_alphaNum_iff, alphanumeric_iff_no_lineFeed hends]
  exact ⟨hnumeric, hdigits, halpha, (allDigits_iff_no_lineFeed hends).not.mpr hfeed⟩

end FieldRules.Checks
