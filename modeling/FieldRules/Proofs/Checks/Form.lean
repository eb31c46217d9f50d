import FieldRules.Proofs.Checks.Passing
import Mathlib.Data.List.Chain

/-!
# Patterns in rules

The rule that asks for a form is written with its pattern behind the colon. Reading the rule cuts the
pattern at its commas and trims the parts, and the rule joins the parts again with commas. So the pattern
that is searched for is the one that was written without the white space beside its commas, and it is the
one that was written exactly if there is no such white space (`tightened_eq_self_iff`).
-/

namespace FieldRules

open FieldRules.Text

/-! ## White space beside commas -/

namespace Pattern

/-- No white space stands beside a comma. -/
def Tight (s : List Char) : Prop :=
  s.IsChain fun a b => (a = ',' → isBlank b = false) ∧ (b = ',' → isBlank a = false)

/-- The pattern without the white space beside its commas and at its ends. -/
def tightened (pattern : String) : String :=
  String.ofList ([','].intercalate ((pattern.toList.splitOn ',').map trim))

/-- The pattern is found in the text of a value. -/
def Found (pattern : String) (value : Value) : Prop :=
  ∃ p, read pattern.toList = .ok p ∧ p.search value.fieldText.toList = true

theorem tight_of_no_comma {s : List Char} (h : ',' ∉ s) : Tight s := by
  apply List.Pairwise.isChain
  apply List.pairwise_of_forall_mem_list
  intro a ha b hb
  constructor
  · rintro rfl
    exact absurd ha h
  · rintro rfl
    exact absurd hb h

/-- A comma is what the texts before and behind it are to keep white space from. -/
theorem tight_append_comma_iff {l s : List Char} (hl : ',' ∉ l) :
    Tight (l ++ ',' :: s) ↔
      (∀ c ∈ l.getLast?, isBlank c = false) ∧ (∀ c ∈ s.head?, isBlank c = false) ∧ Tight s := by
  unfold Tight
  rw [List.isChain_append, List.isChain_cons]
  constructor
  · rintro ⟨-, ⟨hhead, hs⟩, hlast⟩
    exact ⟨fun c hc => (hlast c hc ',' rfl).2 rfl, fun c hc => (hhead c hc).1 rfl, hs⟩
  · rintro ⟨hlast, hhead, hs⟩
    refine ⟨tight_of_no_comma hl, ⟨fun c hc => ⟨fun _ => hhead c hc, ?_⟩, hs⟩, fun c hc b hb => ?_⟩
    · intro _
      decide
    · obtain rfl := Option.some.inj hb
      exact ⟨by rintro rfl; exact absurd (List.mem_of_getLast? hc) hl, fun _ => hlast c hc⟩

/-- Parts joined by commas are trimmed exactly if there is no white space beside a comma or at an end. -/
theorem trimmed_parts_iff {parts : List (List Char)} (hfree : ∀ l ∈ parts, ',' ∉ l) :
    (∀ l ∈ parts, Trimmed l) ↔
      Trimmed ([','].intercalate parts) ∧ Tight ([','].intercalate parts) := by
  induction parts with
  | nil => simp [Trimmed, Tight]
  | cons l parts ih =>
      obtain ⟨hl, hrest⟩ := List.forall_mem_cons.mp hfree
      cases parts with
      | nil => simp [tight_of_no_comma hl]
      | cons m parts =>
          rw [List.forall_mem_cons, ih hrest, intercalate_cons_cons_singleton,
            trimmed_append_cons_iff (by decide), tight_append_comma_iff hl]
          constructor
          · rintro ⟨hpart, hjoined, htight⟩
            exact ⟨⟨hpart.1, hjoined.2⟩, hpart.2, hjoined.1, htight⟩
          · rintro ⟨⟨hstart, hend⟩, hlast, hhead, htight⟩
            exact ⟨⟨hstart, hlast⟩, ⟨hhead, hend⟩, htight⟩

/-- A pattern is left as it is exactly if no white space stands beside a comma. -/
theorem tightened_eq_self_iff {pattern : String} (h : Trimmed pattern.toList) :
    tightened pattern = pattern ↔ Tight pattern.toList := by
  let parts := pattern.toList.splitOn ','
  have hparts : ∀ l ∈ parts, ',' ∉ l := fun l hl => (of_mem_splitOn hl).1
  have hjoined : [','].intercalate parts = pattern.toList := List.intercalate_splitOn ','
  have htrimmed := trimmed_parts_iff hparts
  rw [hjoined, and_iff_right h] at htrimmed
  have hkept : parts.map trim = parts ↔ ∀ l ∈ parts, Trimmed l := by
    conv_lhs => rhs; rw [← List.map_id parts]
    rw [List.map_inj_left]
    exact forall₂_congr fun l _ => trim_eq_self_iff
  rw [← htrimmed, ← hkept, tightened, ← String.toList_inj, String.toList_ofList]
  constructor
  · intro hsame
    -- What was joined can be cut again, since no part holds a comma, trimmed or not.
    have hcut := congrArg (List.splitOn ',') hsame
    rwa [List.splitOn_intercalate ',' _ (by simp [List.splitOn_ne_nil])] at hcut
    intro k hk
    obtain ⟨part, hpart, rfl⟩ := List.mem_map.mp hk
    exact fun hcomma => hparts part hpart (trim_subset part hcomma)
  · intro hsame
    rw [hsame, hjoined]

end Pattern

/-! ## The rule that asks for a form -/

namespace Pattern

/-- The rule finds the pattern that its parameters are joined to. -/
theorem saysYes_form_iff (value : Value) (params : List Value) :
    saysYes (Checks.form value params) = true ↔ Found (Checks.patternText params) value := by
  unfold Checks.form Found
  cases read (Checks.patternText params).toList with
  | error flaw => simp [saysYes]
  | ok p => simp [saysYes]

/-- The parameters are joined to the pattern that was written, without the white space beside commas. -/
theorem patternText_params (pattern : String) :
    Checks.patternText (((pattern.toList.splitOn ',').map fun p => String.ofList (trim p)).map
      Value.text) = tightened pattern := by
  rw [← String.toList_inj, tightened, String.toList_ofList, Checks.patternText,
    String.toList_intercalate, List.map_map, List.map_map]
  simp [Function.comp_def, Value.asText]

/-- The rule that asks for a form searches for the pattern without the white space beside its commas,
which is the pattern as it was written exactly if there is no such white space. -/
theorem form_rule_iff {pattern : String} (hbar : '|' ∉ pattern.toList)
    (htrimmed : Trimmed pattern.toList) :
    (∃ params, Rule.readAll ("regex:" ++ pattern) = [{ name := "regex", params }] ∧
      Checks.patternText (params.map .text) = tightened pattern) ∧
    (tightened pattern = pattern ↔ Tight pattern.toList) ∧
    ∀ (e : Engine) (shared : Shared) (field : String) (value : Value),
      e.rules? field = some (Rule.readAll ("regex:" ++ pattern)) →
      (e.overlay.resolve shared.catalog "regex").map (·.validate) =
        some (Validator.ofPredicate Checks.form) →
      ∃ passed, (e.validate shared field value).2.result = .ok (.known passed) ∧
        (passed = true ↔ Found (tightened pattern) value) := by
  have hname : Trimmed "regex".toList := trim_eq_self_iff.mp (by decide)
  have hread := Rule.readAll_append_colon hname (by decide) htrimmed hbar
  refine ⟨⟨_, hread, patternText_params pattern⟩, tightened_eq_self_iff htrimmed, ?_⟩
  intro e shared field value hrules hresolved
  have hrule : e.rules? field = some
      [{ name := "regex"
         params := (pattern.toList.splitOn ',').map fun p => String.ofList (trim p) }] := by
    rw [hrules]
    exact congrArg some hread
  refine ⟨_, Engine.validate_one hrule hresolved value, ?_⟩
  rw [saysYes_form_iff, patternText_params]

/-- An engine whose field `code` has one rule, with the validators that everybody has. -/
def codeEngine (expression : String) : Engine :=
  Engine.ofRules [("code", Rule.readAll expression)] (.text englishLocale) []

theorem rules?_codeEngine (expression : String) :
    (codeEngine expression).rules? "code" = some (Rule.readAll expression) := rfl

theorem resolve_codeEngine (expression : String) :
    ((codeEngine expression).overlay.resolve Host.firstShared.catalog "regex").map (·.validate) =
      some (Validator.ofPredicate Checks.form) := rfl

/-- A comma between numbers of repetitions comes back. -/
theorem form_rule_iff_twoOrThree :
    let pattern := "^a\x7b2,3\x7d$"
    '|' ∉ pattern.toList ∧ Trimmed pattern.toList ∧ Tight pattern.toList ∧
      ∃ passed, ((codeEngine ("regex:" ++ pattern)).validate Host.firstShared "code"
          (.text "aa")).2.result = .ok (.known passed) ∧
        (passed = true ↔ Found pattern (.text "aa")) := by
  intro pattern
  have hbar : '|' ∉ pattern.toList := by decide
  have htrimmed : Trimmed pattern.toList := trim_eq_self_iff.mp (by decide)
  obtain ⟨-, hkept, hpasses⟩ := form_rule_iff hbar htrimmed
  have htight : Tight pattern.toList := by
    rw [← hkept]
    decide
  have hsame := hkept.mpr htight
  rw [hsame] at hpasses
  exact ⟨hbar, htrimmed, htight, hpasses _ Host.firstShared "code" (.text "aa")
    (rules?_codeEngine _) (resolve_codeEngine _)⟩

/-- A space behind a comma is lost: a text in which the pattern is found as it was written fails. -/
theorem spaced_pattern_lost :
    let pattern := "a, b"
    '|' ∉ pattern.toList ∧ Trimmed pattern.toList ∧ Found pattern (.text "a, b") ∧
      ((codeEngine ("regex:" ++ pattern)).validate Host.firstShared "code"
        (.text "a, b")).2.result = .ok (.known false) := by
  intro pattern
  refine ⟨by decide, trim_eq_self_iff.mp (by decide), ?_, ?_⟩
  · have hyes : saysYes (Checks.form (.text "a, b") [.text pattern]) = true := by decide +kernel
    exact (saysYes_form_iff (.text "a, b") [.text pattern]).mp hyes
  · have hno : saysYes (Checks.form (.text "a, b") [.text "a", .text "b"]) = false := by decide +kernel
    have hrules : (codeEngine ("regex:" ++ pattern)).rules? "code" =
        some [{ name := "regex", params := ["a", "b"] }] := by decide
    rw [Engine.validate_one hrules (resolve_codeEngine _)]
    show Except.ok (Verdict.known (saysYes (Checks.form _ [.text "a", .text "b"]))) = _
    rw [hno]

end Pattern

end FieldRules
