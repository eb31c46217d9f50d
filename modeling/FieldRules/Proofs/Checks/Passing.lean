import FieldRules.Host
import FieldRules.Proofs.Catalog.Builtin
import FieldRules.Proofs.Engine.Validation
import FieldRules.Proofs.Number.Written
import FieldRules.Proofs.Rule.RoundTrip

/-!
# Values that pass

`Passes` is what it means that a value passes the rules of an expression with the validators that everybody
has: a new engine that has the expression for a field validates the value to true. For a rule that is a
predicate this is what the predicate says (`passes_iff`).
-/

namespace FieldRules

open FieldRules.Text

/-! ## A rule in an expression -/

namespace Rule

/-- A rule that is written alone has for its parameters what stands between the commas behind its name. -/
theorem readAll_append_colon {name params : String} (hname : Trimmed name.toList)
    (hfree : '|' ∉ name.toList ∧ ':' ∉ name.toList) (hparams : Trimmed params.toList)
    (hbar : '|' ∉ params.toList) :
    readAll (name ++ ":" ++ params) =
      [{ name, params := (params.toList.splitOn ',').map fun p => String.ofList (trim p) }] := by
  have hchars : (name ++ ":" ++ params).toList = name.toList ++ ':' :: params.toList := by simp
  have htrim : trim (name.toList ++ ':' :: params.toList) = name.toList ++ ':' :: params.toList :=
    ((trimmed_append_cons_iff (by decide)).mpr ⟨hname.1, hparams.2⟩).trim_eq
  have hsplit : (name.toList ++ ':' :: params.toList).splitOn '|' =
      [name.toList ++ ':' :: params.toList] := splitOn_of_notMem (by simp [hfree.1, hbar])
  have hcolon : ∀ c ∈ name.toList, (c != ':') = true := by
    intro c hc
    rw [bne_iff_ne]
    rintro rfl
    exact hfree.2 hc
  have hdrop : (trim (name.toList ++ ':' :: params.toList)).dropWhile (· != ':') =
      ':' :: params.toList := by
    rw [htrim, List.dropWhile_append_of_pos hcolon]
    simp
  have htake : (trim (name.toList ++ ':' :: params.toList)).takeWhile (· != ':') = name.toList := by
    rw [htrim, List.takeWhile_append_of_pos hcolon]
    simp
  rw [readAll, readChars, hchars, htrim, hsplit, List.filter_cons_of_pos (by simp [htrim]),
    List.filter_nil, List.map_singleton, ofToken_of_colon hdrop, htake, hname.trim_eq,
    String.ofList_toList]

/-- A rule with a number behind the colon has the number, as it is written, for its only parameter. -/
theorem readAll_append_number {name : String} (hname : Trimmed name.toList)
    (hfree : '|' ∉ name.toList ∧ ':' ∉ name.toList) (n : Nat) :
    readAll (name ++ ":" ++ toString n) = [{ name, params := [toString n] }] := by
  have hdigits : ∀ c ∈ (toString n).toList, isAsciiDigit c = true := by
    rw [Nat.toString_eq_ofList_toDigits, String.toList_ofList]
    exact fun c hc => isAsciiDigit_of_mem_toDigits hc
  have hplain : ∀ c, isAsciiDigit c = true → isBlank c = false ∧ c ≠ '|' ∧ c ≠ ',' :=
    forall_asciiDigit (by decide)
  have htrimmed : Trimmed (toString n).toList :=
    ⟨fun c hc => (hplain c (hdigits c (List.mem_of_head? hc))).1,
      fun c hc => (hplain c (hdigits c (List.mem_of_getLast? hc))).1⟩
  have hbar : '|' ∉ (toString n).toList := fun h => (hplain _ (hdigits _ h)).2.1 rfl
  have hcomma : ',' ∉ (toString n).toList := fun h => (hplain _ (hdigits _ h)).2.2 rfl
  rw [readAll_append_colon hname hfree htrimmed hbar, splitOn_of_notMem hcomma, List.map_singleton,
    htrimmed.trim_eq, String.ofList_toList]

end Rule

/-- The number that a parameter was written from. -/
theorem Checks.toInt_toString (n : Nat) : toInt (.text (toString n)) = .ok (n : Int) := by
  rw [toInt, Number.readInt?_toString]
  rfl

/-- What a predicate says if it does not fail. -/
def saysYes (r : Except Fault Bool) : Bool :=
  match r with
  | .ok passed => passed
  | .error _ => false

/-- A pattern that can be read says whether it matches. -/
theorem Checks.fits_of_read {pattern : Except Pattern.PatternError Pattern.Compiled}
    {p : Pattern.Compiled} (hread : pattern = .ok p) (s : List Char) :
    fits pattern s = .ok (p.matchesStart s) := by
  rw [hread]
  rfl

theorem Checks.saysYes_fits {pattern : Except Pattern.PatternError Pattern.Compiled}
    {p : Pattern.Compiled} (hread : pattern = .ok p) (s : List Char) :
    saysYes (fits pattern s) = p.matchesStart s := by
  rw [fits_of_read hread]
  rfl

/-- A field with one rule, whose name stands for a predicate, passes as the predicate says of the parameters
of the rule and of those of the caller. -/
theorem Engine.validate_one_with {e : Engine} {shared : Shared} {field : String} {rule : Rule}
    {predicate : Value → List Value → Except Fault Bool} (hrules : e.rules? field = some [rule])
    (hname : (e.overlay.resolve shared.catalog rule.name).map (·.validate) =
      some (Validator.ofPredicate predicate)) (value : Value) (extra : List Value) :
    (e.validate shared field value (.list extra)).2.result =
      .ok (.known (saysYes (predicate value (callParams rule extra)))) := by
  obtain ⟨d, hd, hvalidate⟩ := Option.map_eq_some_iff.mp hname
  have hcall : (callRule (e.overlay.resolve shared.catalog) value extra rule).result.outcome =
      .settled (saysYes (predicate value (callParams rule extra))) := by
    simp only [callRule, hd, invoke, hvalidate, Validator.ofPredicate]
    cases predicate value (callParams rule extra) <;> rfl
  have hasked : e.asked shared field value (.list extra) =
      .calls [(callRule (e.overlay.resolve shared.catalog) value extra rule).result] :=
    (asked_with_list hrules (List.cons_ne_nil rule []) shared value extra).1
  have hknown : [(callRule (e.overlay.resolve shared.catalog) value extra rule).result].any
      RuleCall.isPending = false := by
    simp [RuleCall.isPending, hcall]
  rw [(validate_known hasked hknown).2]
  simp [settledResults, hcall]

theorem Engine.validate_one {e : Engine} {shared : Shared} {field : String} {rule : Rule}
    {predicate : Value → List Value → Except Fault Bool} (hrules : e.rules? field = some [rule])
    (hname : (e.overlay.resolve shared.catalog rule.name).map (·.validate) =
      some (Validator.ofPredicate predicate)) (value : Value) :
    (e.validate shared field value).2.result =
      .ok (.known (saysYes (predicate value (rule.params.map .text)))) := by
  have hparams : callParams rule [] = rule.params.map .text := List.append_nil _
  rw [validate_one_with hrules hname value [], hparams]

/-! ## Passing -/

/-- A new engine with the rules of an expression for a field. -/
def Engine.ofExpression (field expression : String) : Engine :=
  ofRules [(field, Rule.readAll expression)] (.text englishLocale) []

/-- A value passes the rules of an expression. -/
def Passes (expression : String) (value : Value) : Prop :=
  ((Engine.ofExpression "field" expression).validate Host.firstShared "field" value).2.result =
    .ok (.known true)

/-- A value passes a rule, with parameters of the caller after those of the rule. -/
def PassesRule (rule : Rule) (extra : List Value) (value : Value) : Prop :=
  ((Engine.ofRules [("field", [rule])] (.text englishLocale) []).validate Host.firstShared "field" value
    (.list extra)).2.result = .ok (.known true)

/-- A value passes a rule with the name of a predicate if the predicate says yes. -/
theorem passesRule_iff {rule : Rule} {predicate : Value → List Value → Except Fault Bool}
    (hname : (rule.name, predicate) ∈ Builtin.predicates) (extra : List Value) (value : Value) :
    PassesRule rule extra value ↔ saysYes (predicate value (callParams rule extra)) = true := by
  have hrules : (Engine.ofRules [("field", [rule])] (.text englishLocale) []).rules? "field" = some [rule] :=
    rfl
  have hresolve : ((Engine.ofRules [("field", [rule])] (.text englishLocale) []).overlay.resolve
      Host.firstShared.catalog rule.name).map (·.validate) = some (Validator.ofPredicate predicate) :=
    Builtin.validate_of_predicate hname
  rw [PassesRule, Engine.validate_one_with hrules hresolve]
  simp

/-- To pass the rules of an expression that is read as one rule is to pass this rule. -/
theorem passes_iff_passesRule {expression : String} {rule : Rule}
    (hread : Rule.readAll expression = [rule]) (value : Value) :
    Passes expression value ↔ PassesRule rule [] value := by
  rw [Passes, Engine.ofExpression, hread]
  rfl

/-- A value passes one rule if the predicate of its name says yes. -/
theorem passes_iff {expression : String} {rule : Rule}
    {predicate : Value → List Value → Except Fault Bool} (hread : Rule.readAll expression = [rule])
    (hname : (rule.name, predicate) ∈ Builtin.predicates) (value : Value) :
    Passes expression value ↔ saysYes (predicate value (rule.params.map .text)) = true := by
  have hparams : callParams rule [] = rule.params.map .text := List.append_nil _
  rw [passes_iff_passesRule hread, passesRule_iff hname, hparams]

end FieldRules
