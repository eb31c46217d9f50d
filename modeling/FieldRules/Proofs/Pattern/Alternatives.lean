import FieldRules.Proofs.Pattern.Escape
import FieldRules.Proofs.Pattern.Words
import FieldRules.Proofs.Text.Case

/-!
# What alternatives match

A pattern that was put together from texts, and is read without looking at the case of letters, matches what
the texts stand for: at the start of a line and up to its end what a text with stars stands for
(`matchesStart_iff_standsFor`), and at the end of a line a point and a text in letters of either case
(`search_iff_endsWith`). That the texts are written next to each other in one pattern, and in which order the
search goes through them, makes no difference.
-/

namespace FieldRules.Pattern

open FieldRules.Text
open scoped Computability

/-! ## Words of parts -/

/-- The words of a part. -/
def Part.words (f : Flags) : Part → Language Char
  | literal c => letters (matchesPoint f c.toNat)
  | many =>
    let any := letters fun c => f.dotAll || c != '\n'
    any ^ 1 * any∗

/-- The words of parts in a row. -/
def partWords (f : Flags) (parts : List Part) : Language Char := (parts.map (Part.words f)).prod

section

variable {text : List Char} {f : Flags}

theorem spells_part (part : Part) : Spells text (matchNode text.toArray f part.node) (part.words f) := by
  cases part with
  | literal c => exact spells_point c.toNat
  | many =>
      have hany : [] ∉ letters fun c => f.dotAll || c != '\n' := by simp [mem_letters]
      exact spells_loop (spells_singleton spells_anyChar) hany 1

theorem spells_parts (parts : List Part) :
    Spells text (matchList text.toArray f (parts.map Part.node)) (partWords f parts) := by
  induction parts with
  | nil => exact spells_nil
  | cons part parts ih => exact spells_cons (spells_part part) ih

/-- A group of alternatives goes past the words of each. -/
theorem spells_alternatives (alternatives : List (List Part)) (index : Nat) :
    Spells text (matchNode text.toArray f (.group index (branchNodes (alternatives.map (·.map Part.node)))))
      (alternatives.map (partWords f)).sum := by
  have hchoice : Spells text (matchNode text.toArray f (.choice (alternatives.map (·.map Part.node))))
      (alternatives.map (partWords f)).sum := spells_choice fun parts _ => spells_parts parts
  apply spells_group
  rcases alternatives with _ | ⟨only, _ | ⟨second, others⟩⟩
  · exact spells_singleton hchoice
  · -- A single alternative is no choice.
    have hsum : ([only].map (partWords f)).sum = partWords f only := by simp
    rw [hsum]
    exact spells_parts only
  · exact spells_singleton hchoice

end

/-! ## Whatever the case of letters -/

/-- Letters match in either case. -/
abbrev anyCase : Flags := { ignoreCase := true }

/-- A text of ASCII in one line. -/
def PlainLine (s : List Char) : Prop := ∀ c ∈ s, c.toNat < 128 ∧ c ≠ '\n'

instance (s : List Char) : Decidable (PlainLine s) :=
  List.decidableBAll (fun c : Char => c.toNat < 128 ∧ c ≠ '\n') s

theorem PlainLine.not_mem {s : List Char} (h : PlainLine s) : '\n' ∉ s := fun hs => (h _ hs).2 rfl

theorem PlainLine.suffix {s t : List Char} (h : PlainLine s) (ht : t <:+ s) : PlainLine t :=
  fun c hc => h c (ht.subset hc)

/-- A character of ASCII is matched by what is the same letter, and one that is no letter by itself. -/
theorem matchesPoint_anyCase {w : Char} (hw : w.toNat < 128) (c : Char) :
    matchesPoint anyCase w.toNat c = sameLetter w c := by
  have hcased : ∀ c : Char, c.toNat < 128 → c.toLower = c ∨ isCased c.toLower.toNat = true :=
    forall_ascii (by decide +kernel)
  have hplain : ∀ w : Char, w.toNat < 128 → isCased w.toNat = true ∨
      w.toLower = w ∧ w ≠ 'i' ∧ w ≠ 'k' ∧ w ≠ 's' := forall_ascii (by decide +kernel)
  cases hletter : isCased w.toNat with
  | true => simp [matchesPoint, isCasedUnder, lowerUnder, twinsUnder, sameLetter, hletter]
  | false =>
      obtain ⟨hself, hi, hk, hs⟩ := (hplain w hw).resolve_left (by simp [hletter])
      have hitself : matchesPoint anyCase w.toNat c = (c.toNat == w.toNat) := by
        simp [matchesPoint, isCasedUnder, hletter]
      rw [hitself, Bool.eq_iff_iff, sameLetter_iff hw, hself, beq_iff_eq, Char.toNat_inj]
      simp only [hi, hk, hs, false_and, or_false]
      constructor
      · rintro rfl
        exact hself
      · -- The small form of another character would be a letter.
        intro hform
        rcases Nat.lt_or_ge c.toNat 128 with hc | hc
        · rcases hcased c hc with hsmall | hsmall
          · exact hsmall.symm.trans hform
          · rw [hform, hletter] at hsmall
            exact absurd hsmall (by simp)
        · rwa [toLower_of_not_capital (by omega)] at hform

theorem matchesPoint_anyCase_iff {w c : Char} (hw : w.toNat < 128) (hc : c.toNat < 128) :
    matchesPoint anyCase w.toNat c = true ↔ c.toLower = w.toLower := by
  have hbelow : ∀ d ∈ ['ı', 'İ', '\u212a', 'ſ'], c ≠ d := by
    have habove : ∀ d ∈ ['ı', 'İ', '\u212a', 'ſ'], 128 ≤ d.toNat := by simp
    rintro d hd rfl
    have hlarge := habove c hd
    omega
  simp only [List.forall_mem_cons, List.not_mem_nil, IsEmpty.forall_iff, implies_true,
    and_true] at hbelow
  rw [matchesPoint_anyCase hw, sameLetter_iff hw]
  simp [hbelow]

/-- A text is one that a text with stars stands for: a star stands for one or more characters, every other
character for itself, a letter in either case. -/
inductive StandsFor : List Char → List Char → Prop
  | nil : StandsFor [] []
  | same {w c : Char} {form s : List Char} (hstar : w ≠ '*') (hsame : c.toLower = w.toLower)
      (hrest : StandsFor form s) : StandsFor (w :: form) (c :: s)
  | many {form run s : List Char} (hrun : run ≠ []) (hrest : StandsFor form s) :
      StandsFor ('*' :: form) (run ++ s)

theorem not_standsFor_nil {w : Char} {form : List Char} : ¬ StandsFor (w :: form) [] := by
  intro h
  generalize hend : ([] : List Char) = t at h
  cases h with
  | same => simp at hend
  | many hrun => exact hrun (List.append_eq_nil_iff.mp hend.symm).1

theorem standsFor_cons_iff {w c : Char} {form s : List Char} : StandsFor (w :: form) (c :: s) ↔
    if w = '*' then StandsFor form s ∨ StandsFor (w :: form) s
    else c.toLower = w.toLower ∧ StandsFor form s := by
  constructor
  · intro h
    generalize htext : c :: s = t at h
    cases h with
    | same hstar hsame hrest =>
        obtain ⟨rfl, rfl⟩ := List.cons.inj htext
        rw [if_neg hstar]
        exact ⟨hsame, hrest⟩
    | @many _ run _ hrun hrest =>
        rw [if_pos rfl]
        rcases run with _ | ⟨d, _ | ⟨e, run⟩⟩
        · exact absurd rfl hrun
        · obtain ⟨rfl, rfl⟩ := List.cons.inj htext
          exact Or.inl hrest
        · -- The star goes on behind its first character.
          obtain ⟨rfl, rfl⟩ := List.cons.inj htext
          exact Or.inr (.many (List.cons_ne_nil e run) hrest)
  · intro h
    split at h
    · rename_i hstar
      subst hstar
      rcases h with hrest | hmore
      · have hone : StandsFor ('*' :: form) ([c] ++ s) := .many (List.cons_ne_nil c []) hrest
        exact hone
      · generalize hform : '*' :: form = stars at hmore
        cases hmore with
        | nil => simp at hform
        | same hstar => exact absurd (List.cons.inj hform).1.symm hstar
        | @many _ run t hrun hrest =>
            obtain rfl := (List.cons.inj hform).2
            have hlonger : StandsFor ('*' :: form) ((c :: run) ++ t) :=
              .many (List.cons_ne_nil c run) hrest
            exact hlonger
    · rename_i hstar
      exact .same hstar h.1 h.2

/-- Whether a text is one that a text with stars stands for, decided character by character. -/
def standsFor : (form s : List Char) → Bool
  | form, [] => form.isEmpty
  | [], _ :: _ => false
  | w :: form, c :: s =>
    if w = '*' then standsFor form s || standsFor (w :: form) s
    else c.toLower == w.toLower && standsFor form s

theorem standsFor_iff {form s : List Char} : standsFor form s = true ↔ StandsFor form s := by
  induction s generalizing form with
  | nil =>
      cases form with
      | nil => exact iff_of_true rfl .nil
      | cons w form => exact iff_of_false (by simp [standsFor]) not_standsFor_nil
  | cons c s ih =>
      cases form with
      | nil => exact iff_of_false (by simp [standsFor]) nofun
      | cons w form =>
          rw [standsFor, standsFor_cons_iff]
          split
          · rw [Bool.or_eq_true, ih, ih]
          · rw [Bool.and_eq_true, beq_iff_eq, ih]

instance (form s : List Char) : Decidable (StandsFor form s) := decidable_of_iff _ standsFor_iff

theorem mem_starredWords_iff {form s : List Char} (hform : PlainLine form) (hs : PlainLine s) :
    s ∈ partWords anyCase (form.map Part.ofStarred) ↔ StandsFor form s := by
  induction form generalizing s with
  | nil =>
      rw [List.map_nil, partWords, List.map_nil, List.prod_nil, Language.mem_one]
      constructor
      · rintro rfl
        exact .nil
      · rintro ⟨⟩
        rfl
  | cons w form ih =>
      obtain ⟨hw, hrest⟩ := List.forall_mem_cons.mp hform
      have hwords : partWords anyCase ((w :: form).map Part.ofStarred) =
          (Part.ofStarred w).words anyCase * partWords anyCase (form.map Part.ofStarred) := rfl
      rw [hwords, Part.ofStarred]
      split
      · rename_i hstar
        subst hstar
        rw [Part.words, Language.mem_mul]
        constructor
        · rintro ⟨run, hrun, t, ht, rfl⟩
          obtain ⟨hlength, -⟩ := mem_pow_mul_kstar_letters.mp hrun
          have htail : PlainLine t := fun c hc => hs c (List.mem_append_right _ hc)
          exact .many (List.ne_nil_of_length_pos hlength) ((ih hrest htail).mp ht)
        · rintro (_ | _ | @⟨form, run, t, hrun, ht⟩)
          · rename_i hstar _ _
            exact absurd rfl hstar
          · have htail : PlainLine t := fun c hc => hs c (List.mem_append_right _ hc)
            refine ⟨run, mem_pow_mul_kstar_letters.mpr ⟨List.length_pos_iff.mpr hrun, ?_⟩, t,
              (ih hrest htail).mpr ht, rfl⟩
            intro c hc
            simpa using (hs c (List.mem_append_left _ hc)).2
      · rename_i hstar
        rw [Part.words, mem_letters_mul]
        constructor
        · rintro ⟨c, t, rfl, hc, ht⟩
          obtain ⟨hhead, htail⟩ := List.forall_mem_cons.mp hs
          exact .same hstar ((matchesPoint_anyCase_iff hw.1 hhead.1).mp hc) ((ih hrest htail).mp ht)
        · rintro (_ | @⟨w, c, form, t, -, hsame, ht⟩ | _)
          · obtain ⟨hhead, htail⟩ := List.forall_mem_cons.mp hs
            exact ⟨c, t, rfl, (matchesPoint_anyCase_iff hw.1 hhead.1).mpr hsame,
              (ih hrest htail).mpr ht⟩
          · exact absurd rfl hstar

/-- The words of a text that stands for itself are those that agree with it in a form that characters are
compared by. -/
theorem mem_literalWords_iff_map {f : Flags} {p q : Char → Char} {word s : List Char}
    (h : ∀ w ∈ word, ∀ c ∈ s, matchesPoint f w.toNat c = true ↔ p c = q w) :
    s ∈ partWords f (word.map .literal) ↔ s.map p = word.map q := by
  induction word generalizing s with
  | nil =>
      rw [List.map_nil, partWords, List.map_nil, List.prod_nil, Language.mem_one, List.map_nil,
        List.map_eq_nil_iff]
  | cons w word ih =>
      obtain ⟨hw, hrest⟩ := List.forall_mem_cons.mp h
      have hwords : partWords f ((w :: word).map .literal) =
          letters (matchesPoint f w.toNat) * partWords f (word.map .literal) := rfl
      rw [hwords, mem_letters_mul]
      cases s with
      | nil => simp
      | cons c s =>
          have hrows := ih fun w hw c hc => hrest w hw c (List.mem_cons_of_mem _ hc)
          have hcase := hw c List.mem_cons_self
          simp [hcase, hrows]

theorem mem_literalWords_iff {word s : List Char} (hword : PlainLine word) (hs : PlainLine s) :
    s ∈ partWords anyCase (word.map .literal) ↔ s.map Char.toLower = word.map Char.toLower :=
  mem_literalWords_iff_map fun w hw c hc => matchesPoint_anyCase_iff (hword w hw).1 (hs c hc).1

/-! ## Patterns -/

variable {alternatives : List (List Part)} {text : List Char}

/-- Alternatives for a whole line match it if it is a word of one of them. -/
theorem matchesStart_fromStart (hne : alternatives ≠ []) :
    ∃ p, readIgnoringCase ('^' :: oneOf (alternatives.map partChars) ++ ['$']) = .ok p ∧
      ∀ text, '\n' ∉ text →
        (p.matchesStart text = true ↔ ∃ parts ∈ alternatives, text ∈ partWords anyCase parts) := by
  refine ⟨_, by rw [readIgnoringCase, read_fromStart hne]; rfl, fun text htext => ?_⟩
  rw [matchesStart_iff [.group 1 _] rfl rfl (spells_singleton (spells_alternatives _ 1)),
    past_atEnd htext, mem_sum_map]

/-- A point and alternatives at the end of a line are found if a word of one of them stands there behind a
point. -/
theorem search_afterPoint (hne : alternatives ≠ []) :
    ∃ p, readIgnoringCase ('\\' :: '.' :: oneOf (alternatives.map partChars) ++ ['$']) = .ok p ∧
      ∀ text, '\n' ∉ text → (p.search text = true ↔ ∃ parts ∈ alternatives, ∃ t, t <:+ text ∧
        t ∈ partWords anyCase (.literal '.' :: parts)) := by
  refine ⟨_, by rw [readIgnoringCase, read_afterPoint hne]; rfl, fun text htext => ?_⟩
  have hpoint : Spells text (matchList text.toArray anyCase
      [.point 46 false, .group 1 (branchNodes (alternatives.map (·.map Part.node)))])
      (letters (matchesPoint anyCase 46) * (alternatives.map (partWords anyCase)).sum) :=
    spells_cons (spells_point 46) (spells_singleton (spells_alternatives _ 1))
  rw [search_iff [.point 46 false, .group 1 _] rfl rfl hpoint]
  constructor
  · rintro ⟨t, ht, hpast⟩
    have hline : '\n' ∉ t := fun h => htext (ht.subset h)
    obtain ⟨c, rest, rfl, hc, hrest⟩ := mem_letters_mul.mp ((past_atEnd hline).mp hpast)
    obtain ⟨parts, hparts, hword⟩ := mem_sum_map.mp hrest
    exact ⟨parts, hparts, _, ht, mem_letters_mul.mpr ⟨c, rest, rfl, hc, hword⟩⟩
  · rintro ⟨parts, hparts, t, ht, hword⟩
    have hline : '\n' ∉ t := fun h => htext (ht.subset h)
    obtain ⟨c, rest, rfl, hc, hrest⟩ := mem_letters_mul.mp hword
    exact ⟨_, ht, (past_atEnd hline).mpr
      (mem_letters_mul.mpr ⟨c, rest, rfl, hc, mem_sum_map.mpr ⟨parts, hparts, hrest⟩⟩)⟩

/-- Texts with stars in one pattern for a whole line match what one of them stands for. -/
theorem matchesStart_iff_standsFor (forms : List (List Char)) (hne : forms ≠ [])
    (hforms : ∀ form ∈ forms, PlainLine form) :
    ∃ p, readIgnoringCase ('^' :: oneOf (forms.map fun form => openStars (escape form)) ++ ['$']) = .ok p ∧
      ∀ text, PlainLine text → (p.matchesStart text = true ↔ ∃ form ∈ forms, StandsFor form text) := by
  have hchars : (forms.map fun form => openStars (escape form)) =
      (forms.map (·.map Part.ofStarred)).map partChars := by
    simp [openStars_escape, Function.comp_def]
  have hsome : forms.map (·.map Part.ofStarred) ≠ [] := by simpa using hne
  obtain ⟨p, hread, hmatch⟩ := matchesStart_fromStart hsome
  refine ⟨p, by rw [hchars]; exact hread, fun text htext => ?_⟩
  rw [hmatch text htext.not_mem]
  simp only [List.mem_map, exists_exists_and_eq_and]
  constructor
  · rintro ⟨form, hform, hword⟩
    exact ⟨form, hform, (mem_starredWords_iff (hforms form hform) htext).mp hword⟩
  · rintro ⟨form, hform, hstands⟩
    exact ⟨form, hform, (mem_starredWords_iff (hforms form hform) htext).mpr hstands⟩

/-- A text ends with a word, whatever the case of letters. -/
def EndsWith (word text : List Char) : Prop := word.map Char.toLower <:+ text.map Char.toLower

instance (word text : List Char) : Decidable (EndsWith word text) := inferInstanceAs (Decidable (_ <:+ _))

/-- Texts behind a point at the end of a line are found if the line ends with a point and one of them. -/
theorem search_iff_endsWith (words : List (List Char)) (hne : words ≠ [])
    (hwords : ∀ word ∈ words, PlainLine word) :
    ∃ p, readIgnoringCase ('\\' :: '.' :: oneOf (words.map escape) ++ ['$']) = .ok p ∧
      ∀ text, PlainLine text → (p.search text = true ↔ ∃ word ∈ words, EndsWith ('.' :: word) text) := by
  have hchars : words.map escape = (words.map (·.map .literal)).map partChars := by
    simp [escape_eq, Function.comp_def]
  have hsome : words.map (·.map Part.literal) ≠ [] := by simpa using hne
  obtain ⟨p, hread, hsearch⟩ := search_afterPoint hsome
  refine ⟨p, by rw [hchars]; exact hread, fun text htext => ?_⟩
  rw [hsearch text htext.not_mem]
  simp only [List.mem_map, exists_exists_and_eq_and]
  have hpointed : ∀ word ∈ words, PlainLine ('.' :: word) :=
    fun word hword => List.forall_mem_cons.mpr ⟨by decide, hwords word hword⟩
  constructor
  · rintro ⟨word, hword, t, ht, hmem⟩
    have hsame := (mem_literalWords_iff (hpointed word hword) (htext.suffix ht)).mp hmem
    exact ⟨word, hword, List.suffix_map_iff.mpr ⟨t, ht, hsame.symm⟩⟩
  · rintro ⟨word, hword, hends⟩
    obtain ⟨t, ht, hsame⟩ := List.suffix_map_iff.mp hends
    exact ⟨word, hword, t, ht,
      (mem_literalWords_iff (hpointed word hword) (htext.suffix ht)).mpr hsame.symm⟩

end FieldRules.Pattern
