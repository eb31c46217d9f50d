import FieldRules.Text.Case
import Mathlib.Data.List.Basic

/-!
# Letters of ASCII in either case

Which characters are the same letter as one of ASCII but for their case (`sameLetter_iff`): the letter in
either case of ASCII, and the few letters outside ASCII whose case forms meet those of `i`, `k` and `s`.
-/

namespace FieldRules.Text

/-! ## Lower-case forms -/

theorem CaseRun.lookup?_eq_some {r : CaseRun} {n m : Nat} (h : r.lookup? n = some m) :
    r.first ≤ n ∧ n ≤ r.last ∧ m = (n + r.offset).toNat := by
  unfold CaseRun.lookup? at h
  split at h
  · rename_i hrange
    exact ⟨hrange.1, hrange.2.1, (Option.some.inj h).symm⟩
  · simp at h

/-- Outside ASCII a lower-case form is the code point itself or is found in a run. -/
theorem lowerPoint_cases {n : Nat} (hn : 128 ≤ n) :
    lowerPoint n = n ∨ ∃ r ∈ lowerRuns, r.lookup? n = some (lowerPoint n) := by
  rw [lowerPoint, if_neg (by omega)]
  cases hfound : lowerRuns.findSome? (·.lookup? n) with
  | none => exact Or.inl rfl
  | some m => exact Or.inr (List.exists_of_findSome?_eq_some hfound)

/-- Two capital letters outside ASCII have their lower-case forms in ASCII: `İ` and the sign for
kelvin. -/
theorem lowerPoint_eq_ascii_iff {n m : Nat} (hn : 128 ≤ n) (hm : m < 128) :
    lowerPoint n = m ↔ m = 0x69 ∧ n = 0x130 ∨ m = 0x6b ∧ n = 0x212a := by
  constructor
  · rintro rfl
    have hruns : ∀ r ∈ lowerRuns, (r.last : Int) < 128 ∨ 128 ≤ r.first + r.offset ∨
        r.first = 0x130 ∧ r.last = 0x130 ∧ r.offset = -199 ∨
        r.first = 0x212a ∧ r.last = 0x212a ∧ r.offset = -8383 := by
      decide +kernel
    rcases lowerPoint_cases hn with hself | ⟨r, hr, hlookup⟩
    · omega
    · have hrun := hruns r hr
      obtain ⟨hfirst, hlast, hform⟩ := CaseRun.lookup?_eq_some hlookup
      omega
  · rintro (⟨rfl, rfl⟩ | ⟨rfl, rfl⟩) <;> decide

/-- The small letters `ı` and `ſ` are the lower-case forms of nothing but themselves. -/
theorem lowerPoint_eq_twin_iff {n m : Nat} (hn : 128 ≤ n) (hm : m ∈ [0x131, 0x17f]) :
    lowerPoint n = m ↔ n = m := by
  have hruns : ∀ m ∈ [0x131, 0x17f], ∀ r ∈ lowerRuns,
      r.lookup? ((m : Nat) - r.offset).toNat ≠ some m := by
    decide +kernel
  have hself : ∀ m ∈ [0x131, 0x17f], 128 ≤ m ∧ lowerPoint m = m := by decide +kernel
  constructor
  · rintro rfl
    rcases lowerPoint_cases hn with hsame | ⟨r, hr, hlookup⟩
    · exact hsame.symm
    · -- The code point that the run would take there is not in the run.
      have hpoint : n = ((lowerPoint n : Int) - r.offset).toNat := by
        have hlarge := (hself _ hm).1
        have hform := (CaseRun.lookup?_eq_some hlookup).2.2
        omega
      exact absurd (hpoint ▸ hlookup) (hruns _ hm r hr)
  · rintro rfl
    exact (hself _ hm).2

/-! ## Letters -/

/-- Same letter but for its case: the lower-case forms are equal or twins. -/
def sameLetter (a b : Char) : Bool :=
  let l := lowerPoint a.toNat
  let m := lowerPoint b.toNat
  l == m || (caseTwins l).contains m

/-- What holds of the first 128 code points holds of every character of ASCII. -/
theorem forall_ascii {p : Char → Prop} (h : ∀ n < 128, p (Char.ofNat n)) :
    ∀ c, c.toNat < 128 → p c := by
  intro c hc
  have hpoint := h c.toNat hc
  rwa [Char.ofNat_toNat] at hpoint

theorem lowerPoint_of_ascii : ∀ c : Char, c.toNat < 128 → lowerPoint c.toNat = c.toLower.toNat :=
  forall_ascii (by decide +kernel)

theorem toLower_lt_of_ascii : ∀ c : Char, c.toNat < 128 → c.toLower.toNat < 128 :=
  forall_ascii (by decide +kernel)

/-- Only the capital letters of ASCII have a small letter there. -/
theorem toLower_of_not_capital {c : Char} (h : c.toNat < 65 ∨ 90 < c.toNat) : c.toLower = c := by
  unfold Char.toLower
  split
  · rename_i hcapital
    have hfirst : 65 ≤ c.toNat := UInt32.le_iff_toNat_le.mp hcapital.1
    have hlast : c.toNat ≤ 90 := UInt32.le_iff_toNat_le.mp hcapital.2
    omega
  · rfl

theorem mem_caseTwins_iff {n m : Nat} (hn : n < 128) :
    m ∈ caseTwins n ↔ n = 0x69 ∧ m = 0x131 ∨ n = 0x73 ∧ m = 0x17f := by
  have hall : ∀ n < 128, caseTwins n =
      if n = 0x69 then [0x131] else if n = 0x73 then [0x17f] else [] := by decide +kernel
  rw [hall n hn]
  split
  · simp_all
  · split <;> simp_all

/-- A letter of ASCII is the same letter as itself in either case, `i` also as `ı` and `İ`, `k` as the sign
for kelvin and `s` as the long `ſ`. -/
theorem sameLetter_iff {w c : Char} (hw : w.toNat < 128) :
    sameLetter w c = true ↔ c.toLower = w.toLower ∨ w.toLower = 'i' ∧ (c = 'ı' ∨ c = 'İ') ∨
      w.toLower = 'k' ∧ c = '\u212a' ∨ w.toLower = 's' ∧ c = 'ſ' := by
  have hform := toLower_lt_of_ascii w hw
  simp only [sameLetter, lowerPoint_of_ascii w hw, Bool.or_eq_true, beq_iff_eq, List.contains_iff_mem,
    mem_caseTwins_iff hform, ← Char.toNat_inj, Char.reduceToNat]
  rcases Nat.lt_or_ge c.toNat 128 with hc | hc
  · -- Both are in ASCII, and so are their lower-case forms.
    have hsmall := toLower_lt_of_ascii c hc
    rw [lowerPoint_of_ascii c hc]
    omega
  · -- Outside ASCII a lower-case form meets that of a letter, or its twin, in four places only.
    have hlow := lowerPoint_eq_ascii_iff hc hform
    have hi := lowerPoint_eq_twin_iff (m := 0x131) hc (by simp)
    have hs := lowerPoint_eq_twin_iff (m := 0x17f) hc (by simp)
    have hself : c.toLower = c := toLower_of_not_capital (by omega)
    rw [hself, eq_comm, hlow, hi, hs]
    omega

end FieldRules.Text
