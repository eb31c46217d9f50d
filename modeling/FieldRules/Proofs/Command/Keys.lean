import FieldRules.Proofs.Command.Check

/-!
# Fields and keys

The fields of a check are the texts of the keys of the rules file, and the value of a field is looked up
under that text. The keys of the data file are not made texts. So a field finds the value of its key if
the key is a text, and hardly ever if it is a number, a truth value or a date, although both files have
it (`judged_number_null`). `value_judged_iff` says exactly when it does.
-/

namespace FieldRules.Command

/-- The value that a mapping holds under a key. -/
def lookup (entries : List (Value × Value)) (k : Value) : Option Value :=
  (entries.find? fun e => e.1.sameKey k).map (·.2)

theorem lookupText_eq_lookup (entries : List (Value × Value)) (name : String) :
    Value.lookupText entries name = lookup entries (.text name) := rfl

/-- A key of the rules file, if no later one has the same text, is judged by its own rules. -/
theorem get?_rulesOf_of_last (before after : List (Value × Value)) (k x : Value)
    (h : ∀ e ∈ after, e.1.asText ≠ k.asText) :
    Table.get? (rulesOf (before ++ (k, x) :: after)) k.asText = some (Rule.readAll x.fieldText) := by
  unfold rulesOf
  rw [List.map_append, List.map_cons]
  apply Table.get?_ofPairs_of_last
  intro hmem
  simp only [Table.keys, List.map_map, List.mem_map, Function.comp_apply] at hmem
  obtain ⟨e, he, htext⟩ := hmem
  exact h e he htext

/-- A field of the rules is judged once, on the value under its name. -/
theorem mem_judged_iff {rules values : List (Value × Value)} {j : Judged} :
    j ∈ judged rules values ↔ Table.get? (rulesOf rules) j.field = some j.rules ∧
      j.value = (lookup values (.text j.field)).getD .null := by
  unfold judged
  rw [List.mem_map]
  constructor
  · rintro ⟨f, hf, rfl⟩
    exact ⟨Table.get?_eq_some_of_mem (nodup_keys_rulesOf rules) hf, rfl⟩
  · rintro ⟨hrules, hvalue⟩
    refine ⟨(j.field, j.rules), Table.mem_of_get?_eq_some hrules, ?_⟩
    rw [lookupText_eq_lookup, ← hvalue]

/-- What a check makes of a key of the rules file and the expression under it. -/
structure JudgedAs (js : List Judged) (values : List (Value × Value)) (k expression : Value)
    (j : Judged) : Prop where
  mem : j ∈ js
  /-- The key becomes a field by its text, with its own rules. -/
  field : j.field = k.asText
  rules : j.rules = Rule.readAll expression.fieldText
  /-- The field is judged once. -/
  only : ∀ other ∈ js, other.field = k.asText → other = j
  /-- If the key is a text, what is judged is the value that the data file holds under it. -/
  value_of_text : ∀ s v, k = .text s → lookup values k = some v → j.value = v
  /-- In general, what is judged is that value exactly if the data file holds it under the text of the key
  as well, or if it is null and there is nothing under that text. -/
  value_iff : ∀ v, lookup values k = some v →
    (j.value = v ↔ lookup values (.text k.asText) = some v ∨
      lookup values (.text k.asText) = none ∧ v = .null)

theorem exists_judgedAs {rules values before after : List (Value × Value)} {k x : Value}
    (hrules : rules = before ++ (k, x) :: after) (hlast : ∀ e ∈ after, e.1.asText ≠ k.asText) :
    ∃ j, JudgedAs (judged rules values) values k x j := by
  have hget := get?_rulesOf_of_last before after k x hlast
  rw [← hrules] at hget
  refine ⟨⟨k.asText, Rule.readAll x.fieldText, (lookup values (.text k.asText)).getD .null⟩, ?_⟩
  constructor
  · exact mem_judged_iff.mpr ⟨hget, rfl⟩
  · rfl
  · rfl
  · -- The name of a field determines its rules and its value, so no other is judged under it.
    rintro ⟨field, others, value⟩ hmem hfield
    obtain ⟨hothers, hvalue⟩ := mem_judged_iff.mp hmem
    simp only at hfield hothers hvalue
    rw [hfield, hget, Option.some.injEq] at hothers
    rw [hvalue, hfield, ← hothers]
  · rintro s v rfl hv
    have htext : (Value.text s).asText = s := rfl
    simp only [htext, hv, Option.getD_some]
  · intro v _
    cases lookup values (.text k.asText) with
    | none => simp [eq_comm]
    | some u => simp

variable {env : Environment} {folder : Folder} {words : List String} {w : Words}
  {dictionary : Dictionary} {rules values : List (Value × Value)}

/-- What a check answers depends on what is judged alone, and there every key of the rules file, unless a
later one has the same text, occurs once, by its text and with its rules. The value that is judged is that
of the key in the data file whenever the key is a text. -/
theorem value_judged_iff (hcall : CallsCheck words w)
    (hload : Loads env folder w dictionary rules values) :
    run env folder words =
        answer { catalog := Builtin.catalog, dictionary } (localeOf env w) (judged rules values) ∧
      ∀ before k x after, rules = before ++ (k, x) :: after →
        (∀ e ∈ after, e.1.asText ≠ k.asText) →
        ∃ j, JudgedAs (judged rules values) values k x j := by
  constructor
  · exact run_of_loads hcall hload
  · intro before k x after hrules hlast
    exact exists_judgedAs hrules hlast

theorem value_judged_iff_photo :
    CallsCheck twoFiles { plain := ["rules.yaml", "data.yaml"] } ∧
      Loads [] formFolder { plain := ["rules.yaml", "data.yaml"] } Dictionary.bundled formRules
        formValues ∧
      lookup formValues (.text "photo") = some (.text "none") ∧
      ∃ j, JudgedAs (judged formRules formValues) formValues (.text "photo") (.text "dimensions:x") j ∧
        j.value = .text "none" := by
  have hv : lookup formValues (.text "photo") = some (.text "none") := rfl
  have hlast : ∀ e ∈ formRules.tail, e.1.asText ≠ (Value.text "photo").asText := by
    simp [formRules, Value.asText]
  obtain ⟨j, hj⟩ := (value_judged_iff callsCheck_twoFiles loads_form).2 [] (.text "photo")
    (.text "dimensions:x") formRules.tail rfl hlast
  exact ⟨callsCheck_twoFiles, loads_form, hv, j, hj, hj.value_of_text "photo" _ rfl hv⟩

/-- A rules file and a data file that have the number one as their key. -/
def numberFolder : Folder :=
  ⟨[(Path.ofText "rules.yaml", .file "1: required\n".toUTF8.toList),
    (Path.ofText "data.yaml", .file "1: x\n".toUTF8.toList)], Yaml.reader⟩

/-- The entries of the rules file of `numberFolder`. -/
def numberRules : List (Value × Value) := [(.int 1, .text "required")]

/-- The entries of the data file of `numberFolder`. -/
def numberValues : List (Value × Value) := [(.int 1, .text "x")]

/-- The data file has a value under the number one, but what is judged is null, and the check fails. -/
theorem judged_number_null :
    CallsCheck twoFiles { plain := ["rules.yaml", "data.yaml"] } ∧
      Loads [] numberFolder { plain := ["rules.yaml", "data.yaml"] } Dictionary.bundled numberRules
        numberValues ∧
      lookup numberRules (.int 1) = some (.text "required") ∧
      lookup numberValues (.int 1) = some (.text "x") ∧
      judged numberRules numberValues =
        [{ field := "1", rules := [{ name := "required" }], value := .null }] ∧
      run [] numberFolder twoFiles =
        { status := 1, lines := ["1: The 1 is required.", "", "1 error(s) found"] } := by
  have hload : Loads [] numberFolder { plain := ["rules.yaml", "data.yaml"] } Dictionary.bundled
      numberRules numberValues := by
    apply loads_twoFiles <;> decide +kernel
  have hread : Rule.readAll "required" = [{ name := "required" }] := by decide +kernel
  have hjudged : judged numberRules numberValues =
      [{ field := "1", rules := [{ name := "required" }], value := .null }] := by
    rw [← hread]
    rfl
  refine ⟨callsCheck_twoFiles, hload, rfl, rfl, hjudged, ?_⟩
  rw [run_of_loads callsCheck_twoFiles hload]
  decide +kernel

end FieldRules.Command
