import FieldRules.Template
import Mathlib.Data.List.Basic
import Mathlib.Data.List.TakeWhile
import Mathlib.Data.Nat.Digits.Defs

/-!
# Places in a template

Where the places of a template are is said here without reading it from left to right: `Occurs` looks at
one position alone. Places never overlap (`Occurs.apart`), so there is one division of a template into
its places and the characters between them (`Divides`), and what is filled in is this division with each
place replaced and every other character kept. What is put in place of a place is not looked at.
-/

namespace FieldRules.Template

open FieldRules.Text

/-! ## Places -/

namespace Piece

/-- A piece as it is written. -/
def text : Piece → List Char
  | .char c => [c]
  | .field => ['{', 'f', 'i', 'e', 'l', 'd', '}']
  | .param digits => '{' :: (digits ++ ['}'])

/-- The piece is a place: the word `field` or a number in braces. -/
def IsPlace : Piece → Prop
  | .char _ => False
  | .field => True
  | .param digits => digits ≠ [] ∧ ∀ c ∈ digits, isDecimal c = true

/-- The number that decimal digits of any script write. -/
def number (digits : List Char) : Nat :=
  Nat.ofDigits 10 (digits.reverse.map fun c => (digitValue? c).getD 0)

/-- What stands for a piece when the template is filled in. -/
def filled (field : String) (params : List Value) : Piece → List Char
  | .char c => [c]
  | .field => field.toList
  | .param digits => match params[number digits]? with
    | some v => v.asText.toList
    | none => []

/-- The number of a place is written with more digits than a limit allows. -/
def tooLong (limit : Option Nat) : Piece → Bool
  | .param digits => limit.any (· < digits.length)
  | _ => false

theorem text_ne_nil (p : Piece) : p.text ≠ [] := by
  cases p with
  | char c => exact List.cons_ne_nil c []
  | field => decide
  | param digits => exact List.cons_ne_nil _ _

theorem length_text_pos (p : Piece) : 0 < p.text.length := List.length_pos_iff.mpr p.text_ne_nil

end Piece

/-- A place stands at a position of a template. -/
def Occurs (t : List Char) (i : Nat) (p : Piece) : Prop := p.IsPlace ∧ p.text <+: t.drop i

/-- Pieces that a template is divided into: put together they are the template, and the places among them
are those that stand in the template, each at its position. -/
structure Divides (ps : List Piece) (t : List Char) : Prop where
  whole : ps.flatMap Piece.text = t
  kinds : ∀ p ∈ ps, p.IsPlace ∨ ∃ c, p = .char c
  places : ∀ i p, Occurs t i p ↔
    ∃ before after, ps = before ++ p :: after ∧ p.IsPlace ∧ (before.flatMap Piece.text).length = i

/-! ## Reading one place -/

theorem isDecimal_brace : isDecimal '}' = false := by decide

/-- What is read behind an opening brace is a place, and nothing else is. -/
theorem place?_eq_some_iff {s rest : List Char} {p : Piece} :
    place? s = some (p, rest) ↔ p.IsPlace ∧ '{' :: s = p.text ++ rest := by
  constructor
  · intro h
    unfold place? at h
    simp only at h
    split at h
    · rename_i hword
      obtain ⟨rest', rfl⟩ := List.isPrefixOf_iff_prefix.mp hword
      simp only [Option.some.injEq, Prod.mk.injEq] at h
      obtain ⟨rfl, rfl⟩ := h
      exact ⟨trivial, rfl⟩
    · split at h
      · simp at h
      · rename_i hdigits
        split at h
        · rename_i rest' hrest
          simp only [Option.some.injEq, Prod.mk.injEq] at h
          obtain ⟨rfl, rfl⟩ := h
          refine ⟨⟨by simpa using hdigits, fun c hc => List.mem_takeWhile_imp hc⟩, ?_⟩
          have hs := List.takeWhile_append_dropWhile (p := isDecimal) (l := s)
          rw [hrest] at hs
          simp [Piece.text, hs]
        · simp at h
  · rintro ⟨hplace, htext⟩
    cases p with
    | char c => exact hplace.elim
    | field =>
        obtain rfl : s = "field\x7d".toList ++ rest := by
          simpa [Piece.text] using htext
        have hword : "field\x7d".toList.isPrefixOf ("field\x7d".toList ++ rest) = true :=
          List.isPrefixOf_iff_prefix.mpr (List.prefix_append _ rest)
        simp only [place?, hword, if_true]
        rfl
    | param digits =>
        obtain ⟨hne, hall⟩ := hplace
        obtain rfl : s = digits ++ '}' :: rest := by
          simpa [Piece.text] using htext
        have htake : (digits ++ '}' :: rest).takeWhile isDecimal = digits := by
          rw [List.takeWhile_append_of_pos hall]
          simp [isDecimal_brace]
        have hdrop : (digits ++ '}' :: rest).dropWhile isDecimal = '}' :: rest := by
          rw [List.dropWhile_append_of_pos hall]
          simp [isDecimal_brace]
        -- The word does not start with a digit.
        have hword : "field\x7d".toList.isPrefixOf (digits ++ '}' :: rest) = false := by
          obtain ⟨d, ds, rfl⟩ := List.exists_cons_of_ne_nil hne
          have hd : isDecimal d = true := hall d List.mem_cons_self
          have hf : 'f' ≠ d := by
            rintro rfl
            exact absurd hd (by decide)
          simp [List.isPrefixOf, hf]
        simp only [place?, htake, hdrop, hword]
        simp [hne]

/-! ## Places do not overlap -/

/-- Only the first character of a place is an opening brace. -/
theorem not_brace_of_mem_tail {p : Piece} (hp : p.IsPlace) : ∀ c ∈ p.text.tail, c ≠ '{' := by
  cases p with
  | char c => exact hp.elim
  | field => simp [Piece.text]
  | param digits =>
      intro c hc
      simp only [Piece.text, List.tail_cons, List.mem_append, List.mem_singleton] at hc
      rcases hc with hc | rfl
      · rintro rfl
        exact absurd (hp.2 _ hc) (by decide)
      · decide

theorem head_text {p : Piece} (hp : p.IsPlace) : ∃ rest, p.text = '{' :: rest := by
  cases p with
  | char c => exact hp.elim
  | field => exact ⟨_, rfl⟩
  | param digits => exact ⟨_, rfl⟩

/-- Where a place stands there is an opening brace. -/
theorem Occurs.brace {t : List Char} {i : Nat} {p : Piece} (h : Occurs t i p) : t[i]? = some '{' := by
  obtain ⟨hp, hprefix⟩ := h
  obtain ⟨rest, hrest⟩ := head_text hp
  obtain ⟨after, hafter⟩ := hprefix
  have hdrop : (t.drop i)[0]? = some '{' := by
    rw [← hafter, hrest]
    rfl
  simpa using hdrop

/-- No place stands inside another. -/
theorem not_occurs_inside {p q : Piece} {rest : List Char} (hp : p.IsPlace) {k : Nat} (hk : 0 < k)
    (hlt : k < p.text.length) : ¬ Occurs (p.text ++ rest) k q := by
  intro h
  have hbrace := h.brace
  rw [List.getElem?_append_left hlt] at hbrace
  obtain ⟨k, rfl⟩ := Nat.exists_eq_succ_of_ne_zero hk.ne'
  rw [← List.getElem?_tail] at hbrace
  exact not_brace_of_mem_tail hp _ (List.mem_of_getElem? hbrace) rfl

theorem occurs_append_iff {l rest : List Char} {k : Nat} {p : Piece} :
    Occurs (l ++ rest) (l.length + k) p ↔ Occurs rest k p := by
  rw [Occurs, Occurs, List.drop_length_add_append]

/-- The place at the start of a text is the one that is read there. -/
theorem occurs_zero_iff {c : Char} {s : List Char} {p : Piece} :
    Occurs (c :: s) 0 p ↔ c = '{' ∧ ∃ rest, place? s = some (p, rest) := by
  constructor
  · intro h
    have hc : c = '{' := by simpa using h.brace
    obtain ⟨hp, rest, hrest⟩ := h
    subst hc
    exact ⟨rfl, rest, place?_eq_some_iff.mpr ⟨hp, hrest.symm⟩⟩
  · rintro ⟨rfl, rest, hplace⟩
    obtain ⟨hp, hrest⟩ := place?_eq_some_iff.mp hplace
    exact ⟨hp, rest, hrest.symm⟩

/-- At one position stands one place at most. -/
theorem Occurs.eq {t : List Char} {i : Nat} {p q : Piece} (hp : Occurs t i p) (hq : Occurs t i q) :
    p = q := by
  have hp' : Occurs (t.drop i) 0 p := hp
  have hq' : Occurs (t.drop i) 0 q := hq
  cases hdrop : t.drop i with
  | nil =>
      rw [hdrop] at hp'
      simpa using hp'.brace
  | cons c s =>
      rw [hdrop, occurs_zero_iff] at hp' hq'
      obtain ⟨-, rest, hread⟩ := hp'
      obtain ⟨-, rest', hread'⟩ := hq'
      rw [hread, Option.some.injEq, Prod.mk.injEq] at hread'
      exact hread'.1

/-- Two places in a template are the same or apart. -/
theorem Occurs.apart {t : List Char} {i j : Nat} {p q : Piece} (hp : Occurs t i p)
    (hq : Occurs t j q) (hij : i ≤ j) : (i = j ∧ p = q) ∨ i + p.text.length ≤ j := by
  obtain ⟨k, rfl⟩ := Nat.exists_eq_add_of_le hij
  rcases Nat.eq_zero_or_pos k with rfl | hk
  · exact .inl ⟨rfl, hp.eq hq⟩
  · right
    by_contra hlt
    obtain ⟨hplace, rest, hrest⟩ := hp
    have hinside : Occurs (p.text ++ rest) k q := by
      rw [hrest]
      exact ⟨hq.1, by rw [List.drop_drop]; exact hq.2⟩
    exact not_occurs_inside hplace hk (by omega) hinside

/-! ## One division -/

/-- A piece in front of pieces that divide the rest of a template, where it stands for what it says. -/
theorem Divides.cons {p : Piece} {ps : List Piece} {t : List Char} (h : Divides ps t)
    (hkind : p.IsPlace ∨ ∃ c, p = .char c)
    (hstart : ∀ q, Occurs (p.text ++ t) 0 q ↔ q = p ∧ p.IsPlace)
    (hinside : ∀ k q, 0 < k → k < p.text.length → ¬ Occurs (p.text ++ t) k q) :
    Divides (p :: ps) (p.text ++ t) where
  whole := by rw [List.flatMap_cons, h.whole]
  kinds := by
    intro q hq
    rcases List.mem_cons.mp hq with rfl | hq
    · exact hkind
    · exact h.kinds q hq
  places := by
    intro i q
    constructor
    · intro hq
      by_cases hlt : i < p.text.length
      · rcases Nat.eq_zero_or_pos i with rfl | hpos
        · obtain ⟨rfl, hplace⟩ := (hstart q).mp hq
          exact ⟨[], ps, rfl, hplace, rfl⟩
        · exact absurd hq (hinside i q hpos hlt)
      · obtain ⟨k, rfl⟩ := Nat.exists_eq_add_of_le (Nat.le_of_not_lt hlt)
        obtain ⟨before, after, rfl, hplace, rfl⟩ := (h.places k q).mp (occurs_append_iff.mp hq)
        exact ⟨p :: before, after, rfl, hplace, by simp⟩
    · rintro ⟨before, after, hsplit, hplace, rfl⟩
      cases before with
      | nil =>
          obtain ⟨rfl, -⟩ := List.cons.inj hsplit
          exact (hstart p).mpr ⟨rfl, hplace⟩
      | cons first before =>
          obtain ⟨rfl, hrest⟩ := List.cons.inj hsplit
          rw [List.flatMap_cons, List.length_append, occurs_append_iff]
          exact (h.places _ q).mpr ⟨before, after, hrest, hplace, rfl⟩

/-- Reading from left to right divides the template. -/
theorem divides_pieces (t : List Char) : Divides (pieces t) t := by
  -- A character that no place starts with stands for itself.
  have hchar : ∀ (c : Char) (ps : List Piece) (s : List Char), Divides ps s →
      (∀ q, ¬ Occurs (c :: s) 0 q) → Divides (.char c :: ps) (c :: s) := by
    intro c ps s hs hnone
    refine hs.cons (p := .char c) (.inr ⟨c, rfl⟩) (fun q => ?_) (fun k q hpos hlt => ?_)
    · exact ⟨fun hq => absurd hq (hnone q), fun hq => hq.2.elim⟩
    · exact absurd hlt (Nat.not_lt.mpr hpos)
  fun_induction pieces t with
  | case1 =>
      refine ⟨rfl, by simp, fun i p => ⟨fun h => ?_, ?_⟩⟩
      · simpa using h.brace
      · rintro ⟨before, after, hsplit, -⟩
        simp at hsplit
  | case2 s p rest hread _ ih =>
      obtain ⟨hplace, htext⟩ := place?_eq_some_iff.mp hread
      rw [htext]
      refine ih.cons (.inl hplace) (fun q => ⟨fun hq => ?_, ?_⟩) (fun k q => not_occurs_inside hplace)
      · exact ⟨hq.eq ⟨hplace, List.prefix_append _ _⟩, hplace⟩
      · rintro ⟨rfl, -⟩
        exact ⟨hplace, List.prefix_append _ _⟩
  | case3 s hread ih =>
      refine hchar _ _ _ ih fun q hq => ?_
      obtain ⟨-, rest, hsome⟩ := occurs_zero_iff.mp hq
      rw [hread] at hsome
      simp at hsome
  | case4 c s hc ih =>
      refine hchar _ _ _ ih fun q hq => ?_
      exact hc (occurs_zero_iff.mp hq).1

/-- The pieces behind the first divide the rest of the template. -/
theorem Divides.tail {p : Piece} {ps : List Piece} {t : List Char} (h : Divides (p :: ps) (p.text ++ t)) :
    Divides ps t where
  whole := by
    have hwhole := h.whole
    rw [List.flatMap_cons] at hwhole
    exact List.append_cancel_left hwhole
  kinds := fun q hq => h.kinds q (List.mem_cons_of_mem p hq)
  places := by
    intro i q
    rw [← occurs_append_iff (l := p.text), h.places]
    constructor
    · rintro ⟨before, after, hsplit, hplace, hlength⟩
      cases before with
      | nil =>
          have hpos := p.length_text_pos
          simp only [List.flatMap_nil, List.length_nil] at hlength
          omega
      | cons first before =>
          obtain ⟨rfl, hrest⟩ := List.cons.inj hsplit
          rw [List.flatMap_cons, List.length_append] at hlength
          exact ⟨before, after, hrest, hplace, by omega⟩
    · rintro ⟨before, after, rfl, hplace, rfl⟩
      exact ⟨p :: before, after, rfl, hplace, by simp⟩

/-- A place that a division starts with is what every division starts with. -/
theorem Divides.head_eq {p q : Piece} {ps qs : List Piece} {t : List Char} (hp : Divides (p :: ps) t)
    (hq : Divides (q :: qs) t) (hplace : p.IsPlace) : p = q := by
  have hfirst : Occurs t 0 p := (hp.places 0 p).mpr ⟨[], ps, rfl, hplace, rfl⟩
  obtain ⟨before, after, hsplit, -, hlength⟩ := (hq.places 0 p).mp hfirst
  cases before with
  | nil => exact (List.cons.inj hsplit).1.symm
  | cons first before =>
      have hpos := first.length_text_pos
      rw [List.flatMap_cons, List.length_append] at hlength
      omega

/-- A template is divided in one way only. -/
theorem Divides.unique {ps qs : List Piece} {t : List Char} (hp : Divides ps t) (hq : Divides qs t) :
    ps = qs := by
  have hempty : ∀ {p : Piece} {rest : List Piece}, ¬ Divides (p :: rest) [] := by
    intro p rest h
    have hwhole := h.whole
    rw [List.flatMap_cons, List.append_eq_nil_iff] at hwhole
    exact p.text_ne_nil hwhole.1
  induction ps generalizing qs t with
  | nil =>
      obtain rfl : [] = t := hp.whole
      cases qs with
      | nil => rfl
      | cons q qs => exact absurd hq hempty
  | cons p ps ih =>
      obtain rfl : p.text ++ ps.flatMap Piece.text = t := hp.whole
      cases qs with
      | nil =>
          have hnil : [] = p.text ++ ps.flatMap Piece.text := hq.whole
          exact absurd (List.append_eq_nil_iff.mp hnil.symm).1 p.text_ne_nil
      | cons q qs =>
          obtain rfl : p = q := by
            rcases hp.kinds p List.mem_cons_self with hplace | ⟨c, rfl⟩
            · exact hp.head_eq hq hplace
            rcases hq.kinds q List.mem_cons_self with hplace | ⟨d, rfl⟩
            · exact (hq.head_eq hp hplace).symm
            -- Both start with a character, which is that of the template.
            have hsame := hq.whole
            simp only [List.flatMap_cons, Piece.text, List.singleton_append, List.cons.injEq] at hsame
            rw [hsame.1]
          rw [ih hp.tail hq.tail]

/-! ## Filling in -/

/-- A digit is worth less than ten. -/
theorem digitValue?_lt {c : Char} {n : Nat} (h : digitValue? c = some n) : n < 10 := by
  unfold digitValue? at h
  split at h
  · split at h
    · rename_i hdigit
      have hnine : c.val.toNat ≤ 57 := by
        simp only [Char.isDigit, Bool.and_eq_true, decide_eq_true_eq] at hdigit
        exact UInt32.le_iff_toNat_le.mp hdigit.2
      obtain rfl := Option.some.inj h
      change c.val.toNat - 48 < 10
      omega
    · simp at h
  · obtain ⟨z, hz, rfl⟩ := Option.map_eq_some_iff.mp h
    have hrange := List.find?_some hz
    simp only [Bool.and_eq_true, decide_eq_true_eq] at hrange
    omega

/-- An ASCII digit is worth what it was written for. -/
theorem toNat_ofNat_digit : ∀ d < 10, (Char.ofNat ('0'.toNat + d)).toNat - '0'.toNat = d := by
  decide

/-- Digits of any script are read as the number that they write. -/
theorem digitsValue_asciiDigits {digits : List Char} (h : ∀ c ∈ digits, isDecimal c = true) :
    Number.digitsValue (Number.asciiDigits digits) = Piece.number digits := by
  rw [Piece.number, Nat.ofDigits_eq_foldr, List.map_reverse, List.foldr_reverse, List.foldl_map,
    Number.digitsValue, Number.asciiDigits, List.foldl_map]
  refine List.foldl_ext _ _ 0 fun n c hc => ?_
  obtain ⟨d, hd⟩ := Option.isSome_iff_exists.mp (h c hc)
  simp only [hd, Option.getD_some, toNat_ofNat_digit d (digitValue?_lt hd), Nat.cast_id]
  omega

/-- A piece that is kept or filled in, unless its number is too long. -/
theorem fill_eq {p : Piece} (hp : p.IsPlace ∨ ∃ c, p = .char c) (limit : Option Nat) (field : String)
    (params : List Value) :
    fill limit field params p =
      if p.tooLong limit then .error .notANumber else .ok (p.filled field params) := by
  cases p with
  | char c => rfl
  | field => rfl
  | param digits =>
      obtain ⟨-, hall⟩ : Piece.IsPlace (.param digits) := by simpa using hp
      rw [fill, paramNumber?, Piece.tooLong, digitsValue_asciiDigits hall]
      by_cases hlong : limit.any (· < digits.length)
      · simp [hlong]
      · simp only [hlong, Bool.false_eq_true, if_false, Piece.filled]
        cases params[Piece.number digits]? with
        | none => rfl
        | some v => rfl

/-- Pieces are filled in each for itself; one number that is too long stops them all. -/
theorem fillAll_eq {ps : List Piece} (hps : ∀ p ∈ ps, p.IsPlace ∨ ∃ c, p = .char c) (limit : Option Nat)
    (field : String) (params : List Value) :
    fillAll limit field params ps =
      if ps.any (Piece.tooLong limit) then .error .notANumber
      else .ok (ps.flatMap (Piece.filled field params)) := by
  induction ps with
  | nil => rfl
  | cons p ps ih =>
      rw [fillAll, fill_eq (hps p List.mem_cons_self), ih fun q hq => hps q (List.mem_cons_of_mem p hq)]
      by_cases hfirst : p.tooLong limit
      · simp [hfirst, bind, Except.bind]
      · by_cases hrest : ps.any (Piece.tooLong limit)
        · simp [hfirst, hrest, bind, Except.bind]
        · simp [hfirst, hrest, bind, Except.bind, pure, Except.pure]

/-- No number is too long where there is no limit. -/
theorem Piece.tooLong_none (p : Piece) : p.tooLong none = false := by
  cases p <;> rfl

/-- What a template becomes, read off a division of it. -/
theorem Divides.render_eq {ps : List Piece} {template : String} (h : Divides ps template.toList)
    (limit : Option Nat) (field : String) (params : List Value) :
    render limit template field params =
      if ps.any (Piece.tooLong limit) then .error .notANumber
      else .ok (String.ofList (ps.flatMap (Piece.filled field params))) := by
  obtain rfl := h.unique (divides_pieces _)
  rw [render, fillAll_eq h.kinds]
  split <;> rfl

/-- The filling in of a template at all its places at once. -/
structure FilledAtOnce (template : String) : Prop where
  /-- Two places are the same or have no character in common. -/
  apart : ∀ {i j : Nat} {p q : Piece}, Occurs template.toList i p → Occurs template.toList j q →
    i ≤ j → (i = j ∧ p = q) ∨ i + p.text.length ≤ j
  /-- The places and the characters between them are given by the template. -/
  divided : ∃! ps, Divides ps template.toList
  /-- Each place is replaced and each other character kept. -/
  filled : ∀ ps, Divides ps template.toList → ∀ (field : String) (params : List Value),
    renderTemplate template field params =
      .ok (String.ofList (ps.flatMap (Piece.filled field params)))
  /-- A limit on digits stops a template with a longer number and is not seen otherwise. -/
  limited : ∀ ps, Divides ps template.toList → ∀ (limit : Option Nat) (field : String)
    (params : List Value), render limit template field params =
      if ps.any (Piece.tooLong limit) then .error .notANumber
      else renderTemplate template field params

/-- A template is filled in by one substitution at all places at once. -/
theorem filled_at_once (template : String) : FilledAtOnce template where
  apart := Occurs.apart
  divided := ⟨pieces template.toList, divides_pieces _, fun _ h => h.unique (divides_pieces _)⟩
  filled := by
    intro ps h field params
    have hshort : ps.any (Piece.tooLong none) = false := by simp [Piece.tooLong_none]
    rw [renderTemplate, h.render_eq, hshort]
    rfl
  limited := by
    intro ps h limit field params
    have hshort : ps.any (Piece.tooLong none) = false := by simp [Piece.tooLong_none]
    rw [renderTemplate, h.render_eq, h.render_eq, hshort]
    rfl

end FieldRules.Template
