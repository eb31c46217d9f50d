import FieldRules.Proofs.Checks.Passing

/-!
# Sizes of collections

`required` asks a collection for a member, `min` and `max` compare what is measured of it with a number.
What is measured is the number of members, but for a frozen set, of which the text is measured as of any value
that is no collection. The text is longer than the set has members (`lt_length_frozenset`), so the rules about
size go wrong for every frozen set and for no other collection (`size_rules_exact`).
-/

namespace FieldRules.Checks

/-- A value is a collection with a number of members. -/
inductive HasMembers : Value → Nat → Prop
  | list (vs : List Value) : HasMembers (.list vs) vs.length
  | tuple (vs : List Value) : HasMembers (.tuple vs) vs.length
  | set (vs : List Value) : HasMembers (.set vs) vs.length
  | frozenset (vs : List Value) : HasMembers (.frozenset vs) vs.length
  | dict (es : List (Value × Value)) : HasMembers (.dict es) es.length

/-! ## What is measured -/

theorem length_literals (vs : List Value) : (Value.literals vs).length = vs.length := by
  induction vs with
  | nil => rfl
  | cons v vs ih => rw [Value.literals, List.length_cons, List.length_cons, ih]

/-- Between each two texts that are joined there is what they are joined with. -/
theorem le_length_intercalate (joint : String) (first : String) (rest : List String) :
    joint.length * rest.length ≤ (String.intercalate joint (first :: rest)).length := by
  induction rest generalizing first with
  | nil => simp
  | cons second rest ih =>
      have hrest := ih second
      rw [String.intercalate_cons_cons, String.length_append, String.length_append, List.length_cons,
        Nat.mul_succ]
      omega

/-- The text of a frozen set has more characters than the set has members. -/
theorem lt_length_frozenset (vs : List Value) : vs.length < length (.frozenset vs) := by
  have hlength := length_literals vs
  show vs.length < (Value.frozenset vs).literal.length
  rw [Value.literal]
  cases hliterals : Value.literals vs with
  | nil =>
      rw [hliterals] at hlength
      rw [← hlength]
      decide
  | cons first rest =>
      rw [hliterals, List.length_cons] at hlength
      have hjoined := le_length_intercalate ", " first rest
      have hjoint : ", ".length = 2 := by decide
      have hname : "frozenset(\x7b".length = 11 := by decide
      rw [hjoint] at hjoined
      simp only [String.length_append, hname]
      omega

theorem length_of_not_frozen {c : Value} {k : Nat} (h : HasMembers c k)
    (hfrozen : ∀ vs, c ≠ .frozenset vs) : length c = k := by
  cases h with
  | frozenset vs => exact absurd rfl (hfrozen vs)
  | _ => rfl

/-! ## The rules -/

variable {v : Value}

/-- A rule that compares the number in its first parameter says no if there is none. -/
theorem saysYes_compare_iff {p : Value} {others : List Value} {compare : Int → Bool} :
    saysYes (do
      let n ← toInt (← param (p :: others) 0)
      return compare n) = true ↔ ∃ n, toInt p = .ok n ∧ compare n = true := by
  have hparam : param (p :: others) 0 = .ok p := rfl
  rw [hparam]
  cases hn : toInt p <;> simp [saysYes, bind, Except.bind, pure, Except.pure, hn]

theorem saysYes_min_iff {p : Value} {others : List Value} :
    saysYes (min v (p :: others)) = true ↔ ∃ n, toInt p = .ok n ∧ n ≤ length v := by
  rw [min, saysYes_compare_iff]
  simp only [decide_eq_true_eq]

theorem saysYes_max_iff {p : Value} {others : List Value} :
    saysYes (max v (p :: others)) = true ↔ ∃ n, toInt p = .ok n ∧ (length v : Int) ≤ n := by
  rw [max, saysYes_compare_iff]
  simp only [decide_eq_true_eq]

/-! ## Numbers as parameters -/

/-- What is asked of a number that is written is asked of it as it was. -/
theorem exists_written_iff {n : Nat} {P : Int → Prop} :
    (∃ m, toInt (.text (toString n)) = .ok m ∧ P m) ↔ P n := by
  rw [toInt_toString]
  simp

theorem exists_given_iff {n : Int} {P : Int → Prop} : (∃ m, toInt (.int n) = .ok m ∧ P m) ↔ P n := by
  simp [toInt]

/-- A rule that asks something of the number in its first parameter asks it of the number written behind its
name, and of one that the caller gives. -/
theorem passes_number_iff {name : String} {predicate : Value → List Value → Except Fault Bool}
    (hname : (name, predicate) ∈ Builtin.predicates) (htrimmed : Text.Trimmed name.toList)
    (hfree : '|' ∉ name.toList ∧ ':' ∉ name.toList) {P : Int → Prop}
    (hasks : ∀ p, saysYes (predicate v [p]) = true ↔ ∃ n, toInt p = .ok n ∧ P n) (n : Nat) :
    (Passes (name ++ ":" ++ toString n) v ↔ P n) ∧
      (PassesRule { name } [.int n] v ↔ P n) := by
  constructor
  · have hread := Rule.readAll_append_number htrimmed hfree n
    rw [passes_iff_passesRule hread, passesRule_iff hname, ← exists_written_iff (P := P)]
    exact hasks (.text (toString n))
  · rw [passesRule_iff hname, ← exists_given_iff (P := P)]
    exact hasks (.int n)

theorem passes_min_iff (v : Value) (n : Nat) :
    (Passes ("min:" ++ toString n) v ↔ n ≤ length v) ∧
      (PassesRule { name := "min" } [.int n] v ↔ n ≤ length v) := by
  have hname : ("min", min) ∈ Builtin.predicates := by simp [Builtin.predicates]
  rw [← Int.ofNat_le]
  exact passes_number_iff hname (Text.trim_eq_self_iff.mp (by decide)) (by decide)
    (fun _ => saysYes_min_iff) n

theorem passes_max_iff (v : Value) (n : Nat) :
    (Passes ("max:" ++ toString n) v ↔ length v ≤ n) ∧
      (PassesRule { name := "max" } [.int n] v ↔ length v ≤ n) := by
  have hname : ("max", max) ∈ Builtin.predicates := by simp [Builtin.predicates]
  rw [← Int.ofNat_le]
  exact passes_number_iff hname (Text.trim_eq_self_iff.mp (by decide)) (by decide)
    (fun _ => saysYes_max_iff) n

theorem passes_required_iff {c : Value} {k : Nat} (h : HasMembers c k) : Passes "required" c ↔ 0 < k := by
  have hread : Rule.readAll "required" = [{ name := "required" }] := by decide
  have hname : ("required", required) ∈ Builtin.predicates := by simp [Builtin.predicates]
  rw [passes_iff_passesRule hread, passesRule_iff hname]
  cases h <;> simp [required, saysYes, List.length_pos_iff]

/-! ## Sizes -/

/-- A collection passes `required` if it has a member, `min` with a number that is not above what is measured
of it, and `max` with one that is not below, whether the number is written or given. The members are what is
measured of every collection but a frozen set; of a frozen set it is the characters of the text, which are
more. So the empty frozen set is the only collection that passes one of `required` and `min:1` and not the
other, and the frozen sets are the only ones for which `min` and `max` together do not ask for a number of
members. -/
theorem size_rules_exact {c : Value} {k : Nat} (h : HasMembers c k) :
    (Passes "required" c ↔ 0 < k) ∧
    (∀ n : Nat,
      (Passes ("min:" ++ toString n) c ↔ n ≤ length c) ∧
      (Passes ("max:" ++ toString n) c ↔ length c ≤ n) ∧
      (PassesRule { name := "min" } [.int n] c ↔ n ≤ length c) ∧
      (PassesRule { name := "max" } [.int n] c ↔ length c ≤ n)) ∧
    ((∀ vs, c ≠ .frozenset vs) → length c = k) ∧
    (∀ vs, c = .frozenset vs → length c = c.asText.length ∧ k < length c) ∧
    ((Passes "required" c ↔ Passes "min:1" c) ↔ c ≠ .frozenset []) ∧
    ((∀ n : Nat,
      PassesRule { name := "min" } [.int n] c ∧ PassesRule { name := "max" } [.int n] c ↔ k = n) ↔
        ∀ vs, c ≠ .frozenset vs) := by
  have hfrozen : ∀ vs, c = .frozenset vs → length c = c.asText.length ∧ k < length c := by
    rintro vs rfl
    cases h
    exact ⟨rfl, lt_length_frozenset vs⟩
  have hone : Passes "min:1" c ↔ 1 ≤ length c := by
    have hwritten : "min:1" = "min:" ++ toString 1 := by decide
    rw [hwritten, (passes_min_iff c 1).1]
  refine ⟨passes_required_iff h, ?_, length_of_not_frozen h, hfrozen, ?_, ?_⟩
  · intro n
    obtain ⟨hminWritten, hminGiven⟩ := passes_min_iff c n
    obtain ⟨hmaxWritten, hmaxGiven⟩ := passes_max_iff c n
    exact ⟨hminWritten, hmaxWritten, hminGiven, hmaxGiven⟩
  · rw [passes_required_iff h, hone]
    by_cases hc : ∃ vs, c = .frozenset vs
    · -- The text is never empty, so it depends on the members alone whether the rules agree.
      obtain ⟨vs, rfl⟩ := hc
      have hlt := (hfrozen vs rfl).2
      have hpasses : 1 ≤ length (.frozenset vs) := by omega
      cases h
      simp [hpasses, List.length_pos_iff]
    · rw [not_exists] at hc
      rw [length_of_not_frozen h hc]
      exact iff_of_true Iff.rfl (hc [])
  · simp only [fun n => (passes_min_iff c n).2, fun n => (passes_max_iff c n).2]
    constructor
    · rintro hall vs rfl
      have hlt := (hfrozen vs rfl).2
      have hmeasured := (hall (length (.frozenset vs))).mp ⟨Nat.le_refl _, Nat.le_refl _⟩
      omega
    · intro hc n
      rw [length_of_not_frozen h hc]
      omega

/-- A dictionary of two entries has two members, whatever stands in it. -/
theorem size_rules_exact_dict :
    let c := Value.dict [(.text "a", .null), (.int 2, .list [.null, .null])]
    HasMembers c 2 ∧ Passes "required" c ∧ Passes ("min:" ++ toString 2) c ∧
      Passes ("max:" ++ toString 2) c ∧ ¬ Passes ("max:" ++ toString 1) c := by
  intro c
  have hmembers : HasMembers c 2 := .dict _
  obtain ⟨hrequired, hsizes, hlength, -⟩ := size_rules_exact hmembers
  have htwo : length c = 2 := hlength (by simp [c])
  refine ⟨hmembers, hrequired.mpr (by decide), ?_, ?_, ?_⟩
  · exact (hsizes 2).1.mpr htwo.ge
  · exact (hsizes 2).2.1.mpr htwo.le
  · intro hpasses
    have hle := (hsizes 1).2.1.mp hpasses
    omega

/-- A frozen set of one member passes as one of two, and the empty one as one of one. -/
theorem frozen_sets_too_long :
    let c := Value.frozenset [.int 7]
    HasMembers c 1 ∧ Passes ("min:" ++ toString 2) c ∧ ¬ Passes ("max:" ++ toString 1) c ∧
      ¬ Passes "required" (.frozenset []) ∧ Passes ("min:" ++ toString 1) (.frozenset []) := by
  intro c
  have hlong : 1 < length c := lt_length_frozenset [.int 7]
  have hempty : 0 < length (.frozenset []) := lt_length_frozenset []
  refine ⟨.frozenset _, ?_, ?_, ?_, ?_⟩
  · exact (passes_min_iff c 2).1.mpr hlong
  · intro hpasses
    have hle := (passes_max_iff c 1).1.mp hpasses
    omega
  · rw [passes_required_iff (.frozenset [])]
    simp
  · exact (passes_min_iff _ 1).1.mpr hempty

end FieldRules.Checks
