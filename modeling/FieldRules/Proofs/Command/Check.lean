import FieldRules.Proofs.Command.Settled
import FieldRules.Yaml.Reader

/-!
# What a check reports

A check judges each field of a rules mapping on the value that a data mapping holds under its name. What
it answers depends on these alone (`run_of_loads`): the status, the items and their number come from the
result of the validation, the entries of the bag and their count, which agree since the validation of all
fields is canonical.

The specification (`Reports`) speaks of rules that fail on values, and of neither engine nor bag.
-/

namespace FieldRules.Command

/-! ## What is judged -/

/-- A field with its rules and the value that they judge. -/
structure Judged where
  field : String
  rules : List Rule
  value : Value

/-- The fields of a rules mapping, each with the value that a data mapping holds under its name; null if
it holds none. -/
def judged (rules values : List (Value × Value)) : List Judged :=
  (rulesOf rules).map fun f =>
    { field := f.1, rules := f.2, value := (Value.lookupText values f.1).getD .null }

/-- An item for each rule that fails: the field and the message. -/
def Judged.items (shared : Shared) (locale : Key) (j : Judged) : List String :=
  (j.rules.filter fun r => r.Fails shared.catalog Image.probe j.value).map fun r =>
    j.field ++ ": " ++ Engine.failureMessage shared locale j.field r

/-- The answer of a check that judged some fields. -/
def answer (shared : Shared) (locale : Key) (js : List Judged) : Result :=
  let items := js.flatMap (Judged.items shared locale)
  if items = [] then { lines := ["All fields are valid (" ++ toString js.length ++ " checked)."] }
  else { status := 1, lines := items ++ ["", toString items.length ++ " error(s) found"] }

/-- A result reports exactly the rules that fail. -/
structure Reports (shared : Shared) (locale : Key) (js : List Judged) (result : Result) : Prop where
  /-- The status is zero exactly if no rule of any field fails on its value. -/
  passes : result.status = 0 ↔
    ∀ j ∈ js, ∀ r ∈ j.rules, ¬ r.Fails shared.catalog Image.probe j.value
  /-- Then there is one line, with the number of the fields. -/
  success : result.status = 0 →
    result.lines = ["All fields are valid (" ++ toString js.length ++ " checked)."]
  /-- Else the status is one, and there is one item for each rule that fails, field after field and rule
  after rule, and then their number. -/
  failure : result.status ≠ 0 → result.status = 1 ∧
    result.lines = js.flatMap (Judged.items shared locale) ++
      ["", toString (js.flatMap (Judged.items shared locale)).length ++ " error(s) found"]
  /-- There is neither an error nor a fault. -/
  quiet : result.error = none ∧ result.fault = none

theorem items_eq_nil_iff (shared : Shared) (locale : Key) (js : List Judged) :
    js.flatMap (Judged.items shared locale) = [] ↔
      ∀ j ∈ js, ∀ r ∈ j.rules, ¬ r.Fails shared.catalog Image.probe j.value := by
  simp [List.flatMap_eq_nil_iff, Judged.items, List.filter_eq_nil_iff]

theorem reports_answer (shared : Shared) (locale : Key) (js : List Judged) :
    Reports shared locale js (answer shared locale js) := by
  unfold answer
  by_cases hitems : js.flatMap (Judged.items shared locale) = []
  · rw [if_pos hitems]
    refine ⟨?_, fun _ => rfl, fun hfailed => absurd rfl hfailed, rfl, rfl⟩
    constructor
    · intro _
      exact (items_eq_nil_iff shared locale js).mp hitems
    · intro _
      rfl
  · rw [if_neg hitems]
    refine ⟨?_, fun hpassed => ?_, fun _ => ⟨rfl, rfl⟩, rfl, rfl⟩
    · rw [← items_eq_nil_iff shared locale js]
      simp [hitems]
    · simp at hpassed

/-! ## The validation of a check -/

theorem nodup_keys_rulesOf (es : List (Value × Value)) : (Table.keys (rulesOf es)).Nodup :=
  Table.nodup_keys_ofPairs _

/-- With the validators that everybody has, the entries in the bag are those of the rules that fail, and
the result tells whether there is none. -/
theorem validateFully_ofRules {rules : Table String (List Rule)} (hnodup : (Table.keys rules).Nodup)
    (dictionary : Dictionary) (locale : Key) (values : String → Value) :
    let shared : Shared := { catalog := Builtin.catalog, dictionary }
    let last := validateFully (Engine.ofRules rules locale []) shared values
    let failures : List Entry := rules.flatMap fun f =>
      (f.2.filter fun r => r.Fails shared.catalog Image.probe (values f.1)).map fun r =>
        { field := f.1, message := Engine.failureMessage shared locale f.1 r, rule := some r.name }
    last.1.bag.entries = failures ∧ (last.2 = true ↔ failures = []) := by
  intro shared last failures
  have hentries := Engine.formEntries_ofRules hnodup shared Image.probe locale values
  -- A course declares the fields one by one, and then has the engine of the rules.
  obtain ⟨hengine, hshared, hjobs⟩ := Course.run_attach shared rules locale []
  have hconsistent := (Course.consistent_fresh shared locale []).run
    (rules.map fun r => .attach r.1 r.2)
  generalize (Course.fresh shared locale []).run (rules.map fun r => .attach r.1 r.2) = c
    at hengine hshared hjobs hconsistent
  have hgates : ∀ f ∈ c.engine.fieldNames,
      ∀ x ∈ c.engine.callsOf c.shared f (values f), ¬ x.WaitsForGate := by
    intro f _
    rw [hengine, hshared, Engine.callsOf, Engine.resolve_ofRules]
    exact not_waitsForGate_dispatch (values f) _
  have hends := formEnds_validateFully hjobs hgates
  have hbag := (hconsistent.formEnds hends).1
  have hresult := hconsistent.result_iff hends
  unfold delivery at hbag hresult
  rw [hengine, hshared] at hbag hresult
  simp only [hentries] at hbag hresult
  exact ⟨hbag, hresult⟩

/-- The report of the validation is the answer for what was judged. -/
theorem report_eq_answer (rules values : List (Value × Value)) (dictionary : Dictionary)
    (locale : Key) :
    let shared : Shared := { catalog := Builtin.catalog, dictionary }
    let last := validateFully (Engine.ofRules (rulesOf rules) locale []) shared fun field =>
      (Value.lookupText values field).getD .null
    report (rulesOf rules).length last.1.bag last.2 = answer shared locale (judged rules values) := by
  intro shared last
  obtain ⟨hbag, hresult⟩ := validateFully_ofRules (nodup_keys_rulesOf rules) dictionary locale
    fun field => (Value.lookupText values field).getD .null
  -- What is printed, the result and the count are all read off the same entries.
  have hlines : last.1.bag.entries.map (fun e => e.field ++ ": " ++ e.message) =
      (judged rules values).flatMap (Judged.items shared locale) := by
    rw [hbag, judged, List.flatMap_map, List.map_flatMap]
    apply List.flatMap_congr
    intro f _
    rw [List.map_map]
    rfl
  have hnone : (judged rules values).flatMap (Judged.items shared locale) = [] ↔ last.2 = true := by
    rw [hresult, ← hbag, ← hlines, List.map_eq_nil_iff]
  have hcount : last.1.bag.count =
      ((judged rules values).flatMap (Judged.items shared locale)).length := by
    rw [← hlines, List.length_map]
    rfl
  have hfields : (judged rules values).length = (rulesOf rules).length := List.length_map _
  unfold report answer
  by_cases hpassed : last.2 = true
  · rw [if_pos hpassed, if_pos (hnone.mpr hpassed), hfields]
  · rw [if_neg hpassed, if_neg (fun hempty => hpassed (hnone.mp hempty)), hlines, hcount]

/-! ## The whole command -/

/-- The words of the program call for a check, with these words after them, and do not ask for help. -/
def CallsCheck (words : List String) (w : Words) : Prop :=
  ∃ outer rest, readWords globalOptions false words = .ok outer ∧
    outer.value? helpOption.long = none ∧ outer.plain = "check" :: rest ∧
    readWords checkOptions true rest = .ok w ∧ w.value? helpOption.long = none

/-- The paths of a check lead to what it needs: the locale directories load, to this dictionary, and both
files hold mappings, with these entries. -/
def Loads (env : Environment) (folder : Folder) (w : Words) (dictionary : Dictionary)
    (rules values : List (Value × Value)) : Prop :=
  ∃ messages rulesFile dataFile, checkPaths folder w = .ok (messages, rulesFile, dataFile) ∧
    loadLocales folder Dictionary.bundled
      ((Config.ofEnvironment env).localeDirectory.toList ++ messages.toList) = .ok dictionary ∧
    loadMapping folder rulesFile = .ok rules ∧ loadMapping folder dataFile = .ok values

/-- The locale of the messages of a check. -/
def localeOf (env : Environment) (w : Words) : Key :=
  .text ((Config.ofEnvironment env).engineLocale (w.value? "--locale"))

variable {env : Environment} {folder : Folder} {words : List String} {w : Words}
  {dictionary : Dictionary} {rules values : List (Value × Value)}

theorem run_of_callsCheck (h : CallsCheck words w) :
    run env folder words = match check env folder w with
      | .ok r => r
      | .error stop => stop.result := by
  obtain ⟨outer, rest, houter, hhelp, hplain, hinner, hhelp'⟩ := h
  have hwords : words.isEmpty = false := by
    cases words with
    | nil =>
        -- Without words there is no command.
        simp only [readWords, Except.ok.injEq] at houter
        rw [← houter] at hplain
        simp at hplain
    | cons word words => rfl
  have hrun : runWords env folder words = check env folder w := by
    simp only [runWords, houter, Except.mapError, bind, Except.bind, hhelp, Option.isSome_none,
      Bool.false_eq_true, if_false, hplain, dispatch, if_true, command, hinner, hhelp']
  rw [run, hwords, hrun]
  rfl

theorem check_of_loads (h : Loads env folder w dictionary rules values) :
    check env folder w =
      .ok (answer { catalog := Builtin.catalog, dictionary } (localeOf env w) (judged rules values)) := by
  obtain ⟨messages, rulesFile, dataFile, hpaths, hlocales, hrules, hvalues⟩ := h
  have hreport := report_eq_answer rules values dictionary (localeOf env w)
  simp only [check, hpaths, Except.mapError, bind, Except.bind, hlocales, hrules, hvalues, pure,
    Except.pure]
  rw [← hreport]
  rfl

/-- A check answers for what was judged. -/
theorem run_of_loads (hcall : CallsCheck words w) (hload : Loads env folder w dictionary rules values) :
    run env folder words =
      answer { catalog := Builtin.catalog, dictionary } (localeOf env w) (judged rules values) := by
  rw [run_of_callsCheck hcall, check_of_loads hload]

/-! ### Two files with known entries -/

/-- The words of a check of two files. -/
def twoFiles : List String := ["check", "rules.yaml", "data.yaml"]

theorem callsCheck_twoFiles : CallsCheck twoFiles { plain := ["rules.yaml", "data.yaml"] } := by
  have houter : readWords globalOptions false twoFiles = .ok { plain := twoFiles } := by
    decide +kernel
  have hinner : readWords checkOptions true ["rules.yaml", "data.yaml"] =
      .ok { plain := ["rules.yaml", "data.yaml"] } := by
    decide +kernel
  exact ⟨_, _, houter, rfl, rfl, hinner, rfl⟩

/-- Whether two values are the same null, whole number or text. Values of every kind cannot be told apart
by a test, since there are numbers that are not equal to themselves. -/
def sameScalar : Value → Value → Bool
  | .null, .null => true
  | .int m, .int n => m = n
  | .text s, .text t => s = t
  | _, _ => false

theorem eq_of_sameScalar {x y : Value} (h : sameScalar x y = true) : x = y := by
  unfold sameScalar at h
  split at h
  · rfl
  · rw [of_decide_eq_true h]
  · rw [of_decide_eq_true h]
  · cases h

/-- Whether a file holds a mapping with these entries, all of nulls, whole numbers and texts. -/
def holdsEntries (folder : Folder) (path : Path) (entries : List (Value × Value)) : Bool :=
  match loadMapping folder path with
  | .ok es => es.all₂ (fun e e' => sameScalar e.1 e'.1 && sameScalar e.2 e'.2) entries
  | .error _ => false

theorem loadMapping_of_holdsEntries {path : Path} {entries : List (Value × Value)}
    (h : holdsEntries folder path entries = true) : loadMapping folder path = .ok entries := by
  unfold holdsEntries at h
  cases hload : loadMapping folder path with
  | error stop => simp [hload] at h
  | ok es =>
      rw [hload] at h
      have hsame : List.Forall₂ (· = ·) es entries := by
        refine ((List.all₂_eq_true es entries).mp h).imp fun e e' he => ?_
        rw [Bool.and_eq_true] at he
        exact Prod.ext (eq_of_sameScalar he.1) (eq_of_sameScalar he.2)
      rw [List.forall₂_eq_eq_eq] at hsame
      rw [hsame]

theorem loads_twoFiles {folder : Folder}
    (hpaths : checkPaths folder { plain := ["rules.yaml", "data.yaml"] } =
      .ok (none, Path.ofText "rules.yaml", Path.ofText "data.yaml"))
    (hrules : holdsEntries folder (Path.ofText "rules.yaml") rules = true)
    (hvalues : holdsEntries folder (Path.ofText "data.yaml") values = true) :
    Loads [] folder { plain := ["rules.yaml", "data.yaml"] } Dictionary.bundled rules values :=
  ⟨none, _, _, hpaths, rfl, loadMapping_of_holdsEntries hrules, loadMapping_of_holdsEntries hvalues⟩

/-! ### The report -/

/-- A check reports exactly the rules that fail. If its files hold mappings and the locale directories
load, then the status is zero exactly if no rule of any field fails on the value that the data file holds
under the field's name; and otherwise each rule that fails has its item, in order, and their number is
told. A rule of an unknown name fails, and so does one that gives up or whose answer comes later and is
not true. -/
theorem run_reports (hcall : CallsCheck words w) (hload : Loads env folder w dictionary rules values) :
    Reports { catalog := Builtin.catalog, dictionary } (localeOf env w) (judged rules values)
      (run env folder words) := by
  rw [run_of_loads hcall hload]
  exact reports_answer _ _ _

/-- A form with a rule whose answer comes later as a fault, an unknown rule, a rule that is not passed,
one that gives up, and a field without rules. -/
def formFolder : Folder :=
  ⟨[(Path.ofText "rules.yaml",
      .file "photo: dimensions:x\nnick: secret|required|min:x\nnote:\n".toUTF8.toList),
    (Path.ofText "data.yaml", .file "photo: none\n".toUTF8.toList)], Yaml.reader⟩

/-- The entries of the rules file of `formFolder`. -/
def formRules : List (Value × Value) :=
  [(.text "photo", .text "dimensions:x"), (.text "nick", .text "secret|required|min:x"),
    (.text "note", .null)]

/-- The entries of the data file of `formFolder`. -/
def formValues : List (Value × Value) := [(.text "photo", .text "none")]

theorem loads_form : Loads [] formFolder { plain := ["rules.yaml", "data.yaml"] } Dictionary.bundled
    formRules formValues := by
  apply loads_twoFiles <;> decide +kernel

theorem run_reports_form :
    CallsCheck twoFiles { plain := ["rules.yaml", "data.yaml"] } ∧
      Loads [] formFolder { plain := ["rules.yaml", "data.yaml"] } Dictionary.bundled formRules
        formValues ∧
      Reports { catalog := Builtin.catalog, dictionary := Dictionary.bundled } (.text "en")
        (judged formRules formValues) (run [] formFolder twoFiles) ∧
      (run [] formFolder twoFiles).lines =
        ["photo: The photo must be x pixels by  pixels.",
          "nick: The nick field uses an unknown rule 'secret'.", "nick: The nick is required.",
          "nick: The nick must be at least x characters.", "", "4 error(s) found"] := by
  refine ⟨callsCheck_twoFiles, loads_form, run_reports callsCheck_twoFiles loads_form, ?_⟩
  rw [run_of_loads callsCheck_twoFiles loads_form]
  decide +kernel

end FieldRules.Command
