import FieldRules.Proofs.Checks.Passing
import FieldRules.Proofs.Pattern.Alternatives
import Mathlib

/-!
# Web addresses

The rule for web addresses takes more than web addresses: it asks nothing of the second character behind the
scheme but that it does not end the line, it looks before a final line feed, and it takes the long `ſ` for an
`s`. Its pattern goes past the texts that are taken for an address (`mem_webWords_iff`). Every web address is
one of them, and a text that passes is a web address exactly if no white space and no such letter is in it
(`url_exact`).
-/

namespace FieldRules.Checks

open FieldRules.Pattern FieldRules.Text
open scoped Computability

/-! ## Schemes -/

/-- The schemes with what stands between them and a host. -/
def schemes : List (List Char) := ["http://".toList, "https://".toList]

/-- The letter of a scheme that a character is taken for. -/
def schemeLetter (c : Char) : Char := if c = 'ſ' then 's' else c.toLower

/-- Where case is ignored, what is matched by a character of a scheme is what is taken for it. -/
theorem matchesPoint_scheme {w c : Char} (hw : w ∈ "https://".toList) :
    matchesPoint anyCase w.toNat c = true ↔ schemeLetter c = w := by
  have hsmall : ∀ w ∈ "https://".toList,
      w.toNat < 128 ∧ w.toLower = w ∧ w ≠ 'i' ∧ w ≠ 'k' ∧ w ≠ 'ſ' := by simp
  obtain ⟨hascii, hlower, hi, hk, hlong⟩ := hsmall w hw
  rw [matchesPoint_anyCase hascii, sameLetter_iff hascii, hlower, schemeLetter]
  by_cases hc : c = 'ſ'
  · have hother : Char.toLower 'ſ' ≠ w := fun h => hlong (h ▸ by decide)
    simp only [hc, hother, hi, hk, false_and, false_or, and_true, if_true]
    exact eq_comm
  · simp [hc, hi, hk]

/-- The long `ſ` can be taken for a letter at one place only. -/
theorem mem_scheme_iff {scheme : List Char} (h : scheme.map schemeLetter ∈ schemes) :
    'ſ' ∈ scheme ↔ scheme[4]? = some 'ſ' := by
  have hplace : ∀ word ∈ schemes, ∀ i < 8, word[i]? = some 's' → i = 4 := by decide
  have hlength : ∀ word ∈ schemes, word.length ≤ 8 := by decide
  constructor
  · intro hmem
    obtain ⟨i, hi⟩ := List.mem_iff_getElem?.mp hmem
    have hletter : (scheme.map schemeLetter)[i]? = some 's' := by
      rw [List.getElem?_map, hi]
      rfl
    have hbound := (List.getElem?_eq_some_iff.mp hletter).1
    have hfour := hplace _ h i (Nat.lt_of_lt_of_le hbound (hlength _ h)) hletter
    rwa [← hfour]
  · exact List.mem_of_getElem?

/-- The fifth character of a text with a scheme is one of the scheme. -/
theorem getElem?_four_append {scheme : List Char} {p : Char → Char} (h : scheme.map p ∈ schemes)
    (rest : List Char) : (scheme ++ rest)[4]? = scheme[4]? := by
  have hlength : ∀ word ∈ schemes, 4 < word.length := by decide
  have hlong := hlength _ h
  rw [List.length_map] at hlong
  exact List.getElem?_append_left hlong

/-- White space has no case. -/
theorem toLower_of_isBlank {c : Char} (h : isBlank c = true) : c.toLower = c := by
  apply toLower_of_not_capital
  simp only [isBlank, Bool.or_eq_true, Bool.and_eq_true, decide_eq_true_eq, beq_iff_eq] at h
  omega

theorem not_blank_of_mem_scheme {scheme : List Char} (h : scheme.map Char.toLower ∈ schemes) :
    ∀ c ∈ scheme, isBlank c = false := by
  have hnone : ∀ word ∈ schemes, ∀ c ∈ word, isBlank c = false := by simp [schemes, isBlank]
  intro c hc
  have hsmall := hnone _ h _ (List.mem_map_of_mem hc)
  rw [Bool.eq_false_iff]
  intro hblank
  rw [toLower_of_isBlank hblank, hblank] at hsmall
  exact absurd hsmall (by simp)

/-! ## Addresses -/

/-- A web address: a scheme in letters of ASCII of either case, a character that a host can start with, and at
least one more character, all without white space. -/
def WebAddress (s : List Char) : Prop :=
  ∃ scheme c rest, s = scheme ++ c :: rest ∧ scheme.map Char.toLower ∈ schemes ∧
    isBlank c = false ∧ c ∉ ['/', '$', '.', '?', '#'] ∧ rest ≠ [] ∧ ∀ x ∈ rest, isBlank x = false

/-- What is taken for a web address. -/
def TakenForAddress (s : List Char) : Prop :=
  ∃ scheme c d rest, s = scheme ++ c :: d :: rest ∧ scheme.map schemeLetter ∈ schemes ∧
    isBlank c = false ∧ c ∉ ['/', '$', '.', '?', '#'] ∧ d ≠ '\n' ∧ ∀ x ∈ rest, isBlank x = false

/-! ## The pattern -/

/-- White space and some marks. -/
def blankOr (marks : List Char) : List SetItem :=
  .kind .space false :: marks.map fun d => .point d.toNat

/-- What a host cannot start with. -/
def hostItems : List SetItem := blankOr ['/', '$', '.', '?', '#']

/-- White space and marks have no case, so a set of them is asked for characters as they stand. -/
theorem matchesSet_notBlankOr {marks : List Char}
    (hcaseless : (blankOr marks).any (itemIsCased anyCase) = false) {c : Char} :
    matchesSet anyCase true (blankOr marks) c = true ↔ isBlank c = false ∧ c ∉ marks := by
  rw [matchesSet, hcaseless, ← any_inItem_points (f := anyCase)]
  simp [blankOr, inItem, inKind, charOf]

theorem matchesSet_host {c : Char} : matchesSet anyCase true hostItems c = true ↔
    isBlank c = false ∧ c ∉ ['/', '$', '.', '?', '#'] :=
  matchesSet_notBlankOr (by decide)

theorem matchesSet_notBlank {c : Char} :
    matchesSet anyCase true (blankOr []) c = true ↔ isBlank c = false := by
  rw [matchesSet_notBlankOr rfl]
  simp

/-- The parts of the pattern behind a scheme. -/
def hostNodes : List Node := [.set true hostItems, .anyChar, manyOf true (blankOr []) 0]

/-- A word of the pattern. -/
def wordNodes (word : String) : List Node := (word.toList.map .literal).map Part.node

/-- The parts of the pattern between start and end. -/
def webNodes : List Node :=
  wordNodes "http" ++ .loop .greedy 0 (some 1) (wordNodes "s") :: (wordNodes "://" ++ hostNodes)

/-- What the pattern is read as. -/
def webForm : Compiled where
  nodes := .anchor .lineStart :: (webNodes ++ [.anchor .lineEnd])
  flags := anyCase
  groups := 0

theorem read_webPattern : readIgnoringCase webPattern.toList = .ok webForm := by
  cbv

/-- What is matched behind a scheme. -/
def hostWords : Language Char :=
  letters (matchesSet anyCase true hostItems) * (letters (fun c => anyCase.dotAll || c != '\n') *
    manyWords anyCase true (blankOr []) 0)

/-- What is matched by a word. -/
def wordWords (word : String) : Language Char := partWords anyCase (word.toList.map .literal)

/-- What is matched by the pattern. -/
def webWords : Language Char :=
  wordWords "http" * ((1 + wordWords "s") * (wordWords "://" * hostWords))

theorem spells_webNodes {text : List Char} : Spells text (matchList text.toArray anyCase webNodes) webWords :=
  spells_append (spells_parts _) <| spells_cons (spells_optional (spells_parts _)) <|
    spells_append (spells_parts _) <| spells_cons (spells_set true _) <|
      spells_cons spells_anyChar <| spells_singleton (spells_manyOf true _ 0)

theorem wordWords_append (a b : String) : wordWords (a ++ b) = wordWords a * wordWords b := by
  simp [wordWords, partWords]

/-- With the `s` and without it there are two schemes. -/
theorem webWords_eq : webWords = (wordWords "http://" + wordWords "https://") * hostWords := by
  have hplain : wordWords "http://" = wordWords "http" * wordWords "://" := by
    rw [← wordWords_append]
    rfl
  have hsecure : wordWords "https://" = wordWords "http" * wordWords "s" * wordWords "://" := by
    rw [← wordWords_append, ← wordWords_append]
    rfl
  -- The choice of the `s` in the middle becomes one between the two products.
  rw [webWords, hplain, hsecure]
  simp only [add_mul, mul_add, one_mul, mul_assoc]

theorem mem_wordWords_iff {word : String} (hword : ∀ w ∈ word.toList, w ∈ "https://".toList)
    {s : List Char} : s ∈ wordWords word ↔ s.map schemeLetter = word.toList := by
  have hsame := mem_literalWords_iff_map (q := id) fun w hw c (_ : c ∈ s) => matchesPoint_scheme (hword w hw)
  rwa [List.map_id] at hsame

theorem mem_hostWords_iff {s : List Char} : s ∈ hostWords ↔ ∃ c d rest, s = c :: d :: rest ∧
    isBlank c = false ∧ c ∉ ['/', '$', '.', '?', '#'] ∧ d ≠ '\n' ∧ ∀ x ∈ rest, isBlank x = false := by
  simp only [hostWords, mem_letters_mul, mem_manyWords_iff, matchesSet_host, matchesSet_notBlank]
  constructor
  · rintro ⟨c, _, rfl, hc, d, rest, rfl, hd, -, hrest⟩
    exact ⟨c, d, rest, rfl, hc.1, hc.2, by simpa using hd, hrest⟩
  · rintro ⟨c, d, rest, rfl, hblank, hmark, hline, hrest⟩
    exact ⟨c, _, rfl, ⟨hblank, hmark⟩, d, rest, rfl, by simpa using hline, Nat.zero_le _, hrest⟩

/-- What is matched by the pattern is what is taken for a web address. -/
theorem mem_webWords_iff {s : List Char} : s ∈ webWords ↔ TakenForAddress s := by
  have hscheme : ∀ {scheme}, scheme ∈ wordWords "http://" + wordWords "https://" ↔
      scheme.map schemeLetter ∈ schemes := by
    intro scheme
    rw [Language.mem_add, mem_wordWords_iff (by simp), mem_wordWords_iff (by simp), schemes, List.mem_pair]
  rw [webWords_eq, Language.mem_mul]
  constructor
  · rintro ⟨scheme, hs, host, hhost, rfl⟩
    obtain ⟨c, d, rest, rfl, hplain⟩ := mem_hostWords_iff.mp hhost
    exact ⟨scheme, c, d, rest, rfl, hscheme.mp hs, hplain⟩
  · rintro ⟨scheme, c, d, rest, rfl, hs, hplain⟩
    exact ⟨scheme, hscheme.mpr hs, _, mem_hostWords_iff.mpr ⟨c, d, rest, rfl, hplain⟩, rfl⟩

theorem passes_url_iff {v : Value} :
    Passes "url" v ↔ BeforeLineFeed TakenForAddress v.fieldText.toList := by
  have hread : Rule.readAll "url" = [{ name := "url" }] := by decide
  have hname : ("url", url) ∈ Builtin.predicates := by simp [Builtin.predicates]
  rw [passes_iff hread hname, url, saysYes_fits read_webPattern,
    matchesStart_iff (p := webForm) webNodes rfl rfl spells_webNodes, past_atEnd_iff]
  simp only [BeforeLineFeed, mem_webWords_iff]

/-! ## Addresses among what passes -/

theorem WebAddress.not_blank {s : List Char} (h : WebAddress s) : ∀ c ∈ s, isBlank c = false := by
  obtain ⟨scheme, c, rest, rfl, hscheme, hblank, -, -, hplain⟩ := h
  intro x hx
  rw [List.mem_append, List.mem_cons] at hx
  rcases hx with hx | rfl | hx
  · exact not_blank_of_mem_scheme hscheme x hx
  · exact hblank
  · exact hplain x hx

/-- The long `ſ` has no small letter of ASCII. -/
theorem long_s_not_mem {scheme : List Char} (h : scheme.map Char.toLower ∈ schemes) : 'ſ' ∉ scheme := by
  have hnone : ∀ word ∈ schemes, Char.toLower 'ſ' ∉ word := by decide
  exact fun hmem => hnone _ h (List.mem_map_of_mem hmem)

theorem WebAddress.no_long_s {s : List Char} (h : WebAddress s) : s[4]? ≠ some 'ſ' := by
  obtain ⟨scheme, c, rest, rfl, hscheme, -⟩ := h
  rw [getElem?_four_append hscheme]
  exact fun hfour => long_s_not_mem hscheme (List.mem_of_getElem? hfour)

/-- Without the long `ſ` a letter is taken for its small one. -/
theorem map_schemeLetter {scheme : List Char} (h : 'ſ' ∉ scheme) :
    scheme.map schemeLetter = scheme.map Char.toLower := by
  apply List.map_congr_left
  intro c hc
  rw [schemeLetter, if_neg]
  rintro rfl
  exact h hc

theorem WebAddress.taken {s : List Char} (h : WebAddress s) : TakenForAddress s := by
  obtain ⟨scheme, c, rest, rfl, hscheme, hblank, hmark, hne, hplain⟩ := h
  obtain ⟨d, rest, rfl⟩ := List.exists_cons_of_ne_nil hne
  have hline : d ≠ '\n' := by
    rintro rfl
    exact absurd (hplain '\n' List.mem_cons_self) (by decide)
  have hletters : scheme.map schemeLetter ∈ schemes := by
    rwa [map_schemeLetter (long_s_not_mem hscheme)]
  exact ⟨scheme, c, d, rest, rfl, hletters, hblank, hmark, hline,
    fun x hx => hplain x (List.mem_cons_of_mem d hx)⟩

theorem TakenForAddress.webAddress {s : List Char} (h : TakenForAddress s)
    (hblank : ∀ c ∈ s, isBlank c = false) (hlong : s[4]? ≠ some 'ſ') : WebAddress s := by
  obtain ⟨scheme, c, d, rest, rfl, hscheme, hstart, hmark, -, -⟩ := h
  rw [getElem?_four_append hscheme] at hlong
  have hletters : scheme.map Char.toLower ∈ schemes := by
    rwa [← map_schemeLetter (mt (mem_scheme_iff hscheme).mp hlong)]
  exact ⟨scheme, c, d :: rest, rfl, hletters, hstart, hmark, List.cons_ne_nil d rest,
    fun x hx => hblank x (by simp [hx])⟩

/-- What passes is what is taken for an address, up to a final line feed. Every web address is among it, and
of what passes only that is a web address which has no white space in it and no long `ſ` in its scheme. -/
theorem url_exact (v : Value) :
    (Passes "url" v ↔ BeforeLineFeed TakenForAddress v.fieldText.toList) ∧
    (WebAddress v.fieldText.toList → Passes "url" v) ∧
    (Passes "url" v → (WebAddress v.fieldText.toList ↔
      (∀ c ∈ v.fieldText.toList, isBlank c = false) ∧ v.fieldText.toList[4]? ≠ some 'ſ')) := by
  refine ⟨passes_url_iff, ?_, ?_⟩
  · intro haddress
    exact passes_url_iff.mpr (Or.inl haddress.taken)
  · intro hpasses
    constructor
    · intro haddress
      exact ⟨haddress.not_blank, haddress.no_long_s⟩
    · rintro ⟨hblank, hlong⟩
      rcases passes_url_iff.mp hpasses with htaken | ⟨l, -, hends⟩
      · exact htaken.webAddress hblank hlong
      · -- A line feed at the end is white space.
        have hlast := hblank '\n' (by rw [hends]; simp)
        exact absurd hlast (by decide)

theorem passes_and_not_webAddress {t : String} (htaken : BeforeLineFeed TakenForAddress t.toList)
    (hunfit : t.toList.any isBlank = true ∨ t.toList[4]? = some 'ſ') :
    Passes "url" (.text t) ∧ ¬ WebAddress t.toList := by
  refine ⟨passes_url_iff.mpr htaken, fun haddress => ?_⟩
  rcases hunfit with hany | hlong
  · obtain ⟨c, hc, hblank⟩ := List.any_eq_true.mp hany
    rw [haddress.not_blank c hc] at hblank
    exact absurd hblank (by simp)
  · exact haddress.no_long_s hlong

/-- White space behind the start of the host, a final line feed and a long `ſ` are let through. -/
theorem unfit_addresses_pass :
    (Passes "url" (.text "http://a b") ∧ ¬ WebAddress "http://a b".toList) ∧
    (Passes "url" (.text "http://ab\n") ∧ ¬ WebAddress "http://ab\n".toList) ∧
    (Passes "url" (.text "httpſ://ab") ∧ ¬ WebAddress "httpſ://ab".toList) := by
  have hspaced : TakenForAddress "http://a b".toList :=
    ⟨"http://".toList, 'a', ' ', ['b'], by simp [schemes, schemeLetter, isBlank]⟩
  have hplain : TakenForAddress "http://ab".toList :=
    ⟨"http://".toList, 'a', 'b', [], by simp [schemes, schemeLetter, isBlank]⟩
  have hlong : TakenForAddress "httpſ://ab".toList :=
    ⟨"httpſ://".toList, 'a', 'b', [], by simp [schemes, schemeLetter, isBlank]⟩
  exact ⟨passes_and_not_webAddress (Or.inl hspaced) (by decide),
    passes_and_not_webAddress (Or.inr ⟨_, hplain, by decide⟩) (by decide),
    passes_and_not_webAddress (Or.inl hlong) (by decide)⟩

end FieldRules.Checks
