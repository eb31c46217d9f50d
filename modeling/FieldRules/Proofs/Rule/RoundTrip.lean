import FieldRules.Proofs.Text.Trim
import FieldRules.Rule

/-!
# Reading and writing rules

A line of rules can be read, and rules can be written as a line. `Canonical` says which rules a
line can stand for. Reading gives such rules only (`canonical_of_mem_readAll`), and writing them and
reading the line again gives the same rules back (`readAll_writeAll`). So the two are inverse to
each other exactly on canonical rules.
-/

namespace FieldRules

open FieldRules.Text

/-! ## Splitting -/

/-- A part between separators holds no separator, and nothing that was not in the text. -/
theorem of_mem_splitOn {a : Char} {s w : List Char} (h : w ∈ s.splitOn a) : a ∉ w ∧ w ⊆ s := by
  induction s generalizing w with
  | nil =>
      rw [List.splitOn_nil, List.mem_singleton] at h
      simp [h]
  | cons x s ih =>
      rw [List.splitOn_cons_eq_if_modifyHead] at h
      by_cases hx : x = a
      · rw [if_pos (by simpa using hx), List.mem_cons] at h
        rcases h with rfl | h
        · simp
        · exact ⟨(ih h).1, List.subset_cons_of_subset x (ih h).2⟩
      · rw [if_neg (by simpa using hx)] at h
        obtain ⟨first, rest, hs⟩ := List.exists_cons_of_ne_nil (List.splitOn_ne_nil a s)
        rw [hs, List.modifyHead_cons, List.mem_cons] at h
        rcases h with rfl | h
        · have hfirst := ih (w := first) (by simp [hs])
          constructor
          · intro hmem
            rcases List.mem_cons.mp hmem with rfl | hmem
            · exact hx rfl
            · exact hfirst.1 hmem
          · exact List.cons_subset_cons x hfirst.2
        · have hrest := ih (w := w) (by simp [hs, h])
          exact ⟨hrest.1, List.subset_cons_of_subset x hrest.2⟩

/-- A text without the separator is one part. -/
theorem splitOn_of_notMem {a : Char} {s : List Char} (h : a ∉ s) : s.splitOn a = [s] := by
  have hfree : ∀ l ∈ [s], a ∉ l := by simpa using h
  have hone := List.splitOn_intercalate a hfree (List.cons_ne_nil _ _)
  rwa [List.intercalate_singleton] at hone

namespace Rule

/-! ## Canonical rules -/

/-- A rule that a line can stand for: its parts are trimmed and free of what would end them, and
the rule is not blank. -/
structure Canonical (r : Rule) : Prop where
  name_trimmed : Trimmed r.name.toList
  name_free : '|' ∉ r.name.toList ∧ ':' ∉ r.name.toList
  params_trimmed : ∀ p ∈ r.params, Trimmed p.toList
  params_free : ∀ p ∈ r.params, '|' ∉ p.toList ∧ ',' ∉ p.toList
  not_blank : r.name ≠ "" ∨ r.params ≠ []

/-! ## Reading -/

theorem ofToken_of_no_colon {token : List Char} (h : (trim token).dropWhile (· != ':') = []) :
    ofToken token =
      { name := String.ofList (trim ((trim token).takeWhile (· != ':'))), params := [] } := by
  simp only [ofToken, h]

theorem ofToken_of_colon {token rest : List Char} {c : Char}
    (h : (trim token).dropWhile (· != ':') = c :: rest) :
    ofToken token =
      { name := String.ofList (trim ((trim token).takeWhile (· != ':')))
        params := (rest.splitOn ',').map fun p => String.ofList (trim p) } := by
  simp only [ofToken, h]

theorem ofToken_name (token : List Char) :
    (ofToken token).name = String.ofList (trim ((trim token).takeWhile (· != ':'))) := by
  cases h : (trim token).dropWhile (· != ':') with
  | nil => rw [ofToken_of_no_colon h]
  | cons c rest => rw [ofToken_of_colon h]

/-- A parameter of a rule is a trimmed part between commas. -/
theorem exists_of_mem_params {token : List Char} {p : String} (hp : p ∈ (ofToken token).params) :
    ∃ part : List Char, ',' ∉ part ∧ part ⊆ trim token ∧ p = String.ofList (trim part) := by
  cases h : (trim token).dropWhile (· != ':') with
  | nil =>
      rw [ofToken_of_no_colon h] at hp
      simp at hp
  | cons c rest =>
      rw [ofToken_of_colon h] at hp
      obtain ⟨part, hpart, rfl⟩ := List.mem_map.mp hp
      obtain ⟨hfree, hsub⟩ := of_mem_splitOn hpart
      have hsuffix := (List.dropWhile_suffix (l := trim token) (· != ':')).subset
      rw [h] at hsuffix
      exact ⟨part, hfree, fun x hx => hsuffix (List.mem_cons_of_mem c (hsub hx)), rfl⟩

/-- A token without a colon is all name. -/
theorem ofToken_name_of_params_nil {token : List Char} (h : (ofToken token).params = []) :
    (ofToken token).name = String.ofList (trim token) := by
  have hcolon : (trim token).dropWhile (· != ':') = [] := by
    cases hrest : (trim token).dropWhile (· != ':') with
    | nil => rfl
    | cons c rest =>
        rw [ofToken_of_colon hrest] at h
        simp at h
  have hall : (trim token).takeWhile (· != ':') = trim token := by
    have := List.takeWhile_append_dropWhile (p := (· != ':')) (l := trim token)
    rwa [hcolon, List.append_nil] at this
  rw [ofToken_name, hall, trim_trim]

theorem canonical_ofToken {token : List Char} (hbar : '|' ∉ token) (hblank : trim token ≠ []) :
    (ofToken token).Canonical where
  name_trimmed := by
    rw [ofToken_name, String.toList_ofList]
    exact trimmed_trim _
  name_free := by
    rw [ofToken_name, String.toList_ofList]
    constructor
    · intro h
      have htake := trim_subset _ h
      exact hbar (trim_subset _ ((List.takeWhile_prefix _).subset htake))
    · intro h
      have := List.mem_takeWhile_imp (trim_subset _ h)
      simp at this
  params_trimmed := by
    intro p hp
    obtain ⟨part, -, -, rfl⟩ := exists_of_mem_params hp
    rw [String.toList_ofList]
    exact trimmed_trim part
  params_free := by
    intro p hp
    obtain ⟨part, hcomma, hsub, rfl⟩ := exists_of_mem_params hp
    rw [String.toList_ofList]
    constructor
    · exact fun h => hbar (trim_subset _ (hsub (trim_subset _ h)))
    · exact fun h => hcomma (trim_subset _ h)
  not_blank := by
    by_cases hparams : (ofToken token).params = []
    · left
      rw [ofToken_name_of_params_nil hparams]
      simpa using hblank
    · exact Or.inr hparams

/-- Reading gives canonical rules only. -/
theorem canonical_of_mem_readAll {line : String} {r : Rule} (h : r ∈ readAll line) :
    r.Canonical := by
  unfold readAll readChars at h
  obtain ⟨token, htoken, rfl⟩ := List.mem_map.mp h
  obtain ⟨hpart, hblank⟩ := List.mem_filter.mp htoken
  exact canonical_ofToken (of_mem_splitOn hpart).1 (by simpa using hblank)

/-! ## Writing -/

theorem toText_toList (r : Rule) :
    r.toText.toList = if r.params = [] then r.name.toList
      else [':'].intercalate [r.name.toList, [','].intercalate (r.params.map String.toList)] := by
  unfold toText
  by_cases h : r.params = []
  · simp [h]
  · simp [h, String.toList_append, String.toList_intercalate, List.intercalate_cons_cons]

namespace Canonical

theorem toText_trimmed {r : Rule} (h : r.Canonical) : Trimmed r.toText.toList := by
  rw [toText_toList]
  split
  · exact h.name_trimmed
  · apply Trimmed.intercalate (by decide)
    intro l hl
    simp only [List.mem_cons, List.not_mem_nil, or_false] at hl
    rcases hl with rfl | rfl
    · exact h.name_trimmed
    · apply Trimmed.intercalate (by decide)
      intro q hq
      obtain ⟨p, hp, rfl⟩ := List.mem_map.mp hq
      exact h.params_trimmed p hp

theorem toText_no_bar {r : Rule} (h : r.Canonical) : '|' ∉ r.toText.toList := by
  rw [toText_toList]
  split
  · exact h.name_free.1
  · intro hbar
    rcases mem_intercalate hbar with hbar | ⟨l, hl, hbar⟩
    · simp at hbar
    · simp only [List.mem_cons, List.not_mem_nil, or_false] at hl
      rcases hl with rfl | rfl
      · exact h.name_free.1 hbar
      · rcases mem_intercalate hbar with hbar | ⟨q, hq, hbar⟩
        · simp at hbar
        · obtain ⟨p, hp, rfl⟩ := List.mem_map.mp hq
          exact (h.params_free p hp).1 hbar

theorem toText_ne_nil {r : Rule} (h : r.Canonical) : r.toText.toList ≠ [] := by
  rw [toText_toList]
  split
  · rename_i hparams
    have hname : r.name ≠ "" := h.not_blank.resolve_right fun hne => hne hparams
    simpa using hname
  · simp [List.intercalate_cons_cons]

end Canonical

/-- A canonical rule is read back from its own text. -/
theorem ofToken_toText {r : Rule} (h : r.Canonical) : ofToken r.toText.toList = r := by
  have htrim : trim r.toText.toList = r.toText.toList := h.toText_trimmed.trim_eq
  have hname : ∀ c ∈ r.name.toList, (c != ':') = true := by
    intro c hc
    simp only [bne_iff_ne, ne_eq]
    rintro rfl
    exact h.name_free.2 hc
  by_cases hparams : r.params = []
  · have htext : r.toText.toList = r.name.toList := by rw [toText_toList, if_pos hparams]
    have hdrop : (trim r.toText.toList).dropWhile (· != ':') = [] := by
      rw [htrim, htext, List.dropWhile_eq_nil_iff]
      exact hname
    have htake : (trim r.toText.toList).takeWhile (· != ':') = r.name.toList := by
      rw [htrim, htext, List.takeWhile_eq_self_iff]
      exact hname
    rw [ofToken_of_no_colon hdrop, htake, h.name_trimmed.trim_eq, String.ofList_toList, ← hparams]
  · have htext : r.toText.toList =
        r.name.toList ++ ':' :: [','].intercalate (r.params.map String.toList) := by
      rw [toText_toList, if_neg hparams]
      simp [List.intercalate_cons_cons]
    have hdrop : (trim r.toText.toList).dropWhile (· != ':') =
        ':' :: [','].intercalate (r.params.map String.toList) := by
      rw [htrim, htext, List.dropWhile_append_of_pos hname]
      simp
    have htake : (trim r.toText.toList).takeWhile (· != ':') = r.name.toList := by
      rw [htrim, htext, List.takeWhile_append_of_pos hname]
      simp
    have hsplit : ([','].intercalate (r.params.map String.toList)).splitOn ',' =
        r.params.map String.toList := by
      apply List.splitOn_intercalate
      · intro l hl
        obtain ⟨p, hp, rfl⟩ := List.mem_map.mp hl
        exact (h.params_free p hp).2
      · simpa using hparams
    -- The parameters hold no comma and are trimmed already, so cutting and trimming undo the joining.
    have hback : (r.params.map String.toList).map (fun p => String.ofList (trim p)) = r.params := by
      rw [List.map_map]
      conv_rhs => rw [← List.map_id r.params]
      apply List.map_congr_left
      intro p hp
      simp [(h.params_trimmed p hp).trim_eq]
    rw [ofToken_of_colon hdrop, htake, hsplit, hback, h.name_trimmed.trim_eq, String.ofList_toList]

/-- Canonical rules are read back from the line they are written as. -/
theorem readAll_writeAll {rules : List Rule} (h : ∀ r ∈ rules, r.Canonical) :
    readAll (writeAll rules) = rules := by
  unfold readAll readChars writeAll
  have hchars : (String.intercalate "|" (rules.map toText)).toList =
      ['|'].intercalate (rules.map fun r => r.toText.toList) := by
    simp [String.toList_intercalate, Function.comp_def]
  have htrimmed : Trimmed (['|'].intercalate (rules.map fun r => r.toText.toList)) := by
    apply Trimmed.intercalate (by decide)
    intro l hl
    obtain ⟨r, hr, rfl⟩ := List.mem_map.mp hl
    exact (h r hr).toText_trimmed
  rw [hchars, htrimmed.trim_eq]
  by_cases hrules : rules = []
  · subst hrules
    decide
  · have hsplit : (['|'].intercalate (rules.map fun r => r.toText.toList)).splitOn '|' =
        rules.map fun r => r.toText.toList := by
      apply List.splitOn_intercalate
      · intro l hl
        obtain ⟨r, hr, rfl⟩ := List.mem_map.mp hl
        exact (h r hr).toText_no_bar
      · simpa using hrules
    -- No canonical rule is written as a blank, so no token is left out.
    have hkept : (rules.map fun r => r.toText.toList).filter (fun token => !(trim token).isEmpty) =
        rules.map fun r => r.toText.toList := by
      rw [List.filter_eq_self]
      intro l hl
      obtain ⟨r, hr, rfl⟩ := List.mem_map.mp hl
      rw [(h r hr).toText_trimmed.trim_eq]
      simpa using (h r hr).toText_ne_nil
    rw [hsplit, hkept, List.map_map]
    conv_rhs => rw [← List.map_id rules]
    apply List.map_congr_left
    intro r hr
    exact ofToken_toText (h r hr)

/-- Reading and writing are inverse to each other exactly on canonical rules: reading gives only
these, these and no others come back from what they are written as, and so what was read once is
read again from what it is written as. -/
theorem canonical_iff_read_back :
    (∀ line : String, ∀ r ∈ readAll line, r.Canonical) ∧
    (∀ rules : List Rule, readAll (writeAll rules) = rules ↔ ∀ r ∈ rules, r.Canonical) ∧
    (∀ line : String, readAll (writeAll (readAll line)) = readAll line) := by
  refine ⟨fun line r hr => canonical_of_mem_readAll hr, fun rules => ⟨?_, readAll_writeAll⟩, ?_⟩
  · intro hback r hr
    rw [← hback] at hr
    exact canonical_of_mem_readAll hr
  · intro line
    exact readAll_writeAll fun r hr => canonical_of_mem_readAll hr

/-- A blank name is kept when there are parameters, and a trailing empty parameter, a colon in a
parameter and a comma in a name are too. -/
example : readAll "a,b : x:y ,| |:," = [⟨"a,b", ["x:y", ""]⟩, ⟨"", ["", ""]⟩] := by decide

end Rule

end FieldRules
