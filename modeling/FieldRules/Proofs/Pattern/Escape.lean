import FieldRules.Pattern.Escape
import FieldRules.Proofs.Text.Trim
import Mathlib.Data.Bool.AllAny
import Mathlib.Data.List.Basic

/-!
# Reading patterns made of texts

Escaped texts, and texts with stars that were let through, are read part by part: a character as itself and a
star as a repetition. So a group of alternatives between what stands around it is read as what it was put
together from (`read_fromStart`, `read_afterPoint`), whatever the texts are: none of their characters is taken
for a sign, and reading does not fail.
-/

namespace FieldRules.Pattern

open FieldRules.Text

/-! ## Parts -/

/-- A part of a text that is put into a pattern. -/
inductive Part where
  /-- A character that stands for itself. -/
  | literal (c : Char)
  /-- A star that stands for one or more characters. -/
  | many
deriving DecidableEq, Repr

namespace Part

/-- How a part is written. -/
def chars : Part → List Char
  | literal c => if c ∈ signChars then ['\\', c] else [c]
  | many => ['.', '+']

/-- The signs that a part is cut into. -/
def signs : Part → List Sign
  | literal c => if c ∈ signChars then [.escape c] else [.char c]
  | many => [.char '.', .char '+']

/-- What a part is read as. -/
def node : Part → Node
  | literal c => .point c.toNat false
  | many => .loop .greedy 1 none [.anyChar]

/-- The part that a character of a text with stars stands for. -/
def ofStarred (c : Char) : Part := if c = '*' then many else literal c

end Part

/-- How parts in a row are written. -/
def partChars (parts : List Part) : List Char := parts.flatMap Part.chars

/-- The signs of parts in a row. -/
def partSigns (parts : List Part) : List Sign := parts.flatMap Part.signs

theorem escape_eq (s : List Char) : escape s = partChars (s.map .literal) := by
  rw [escape, partChars, List.flatMap_map]
  rfl

/-- A star is never what a part starts with. -/
theorem head?_partChars_ne_star (parts : List Part) : (partChars parts).head? ≠ some '*' := by
  cases parts with
  | nil => simp [partChars]
  | cons part parts =>
      cases part with
      | many => simp [partChars, Part.chars]
      | literal c =>
          simp only [partChars, List.flatMap_cons, Part.chars]
          split
          · simp
          · rename_i hc
            have hstar : c ≠ '*' := by
              rintro rfl
              exact hc (by decide)
            simpa using hstar

theorem openStars_cons {c : Char} {s : List Char} (h : c ≠ '\\' ∨ s.head? ≠ some '*') :
    openStars (c :: s) = c :: openStars s := by
  rw [openStars]
  rintro rest rfl rfl
  simp at h

/-- Stars are opened where they stand: a backslash before a star is itself escaped, and is left alone. -/
theorem openStars_escape (s : List Char) : openStars (escape s) = partChars (s.map Part.ofStarred) := by
  induction s with
  | nil => rfl
  | cons c s ih =>
      have hplain : (escape s).head? ≠ some '*' := by
        rw [escape_eq]
        exact head?_partChars_ne_star _
      have hcons : escape (c :: s) = (Part.literal c).chars ++ escape s := rfl
      have hparts : partChars ((c :: s).map Part.ofStarred) =
          (Part.ofStarred c).chars ++ partChars (s.map Part.ofStarred) := rfl
      rw [hcons, hparts, ← ih]
      by_cases hstar : c = '*'
      · subst hstar
        have hescaped : (Part.literal '*').chars = ['\\', '*'] := by decide
        rw [hescaped]
        rfl
      · have hsame : Part.ofStarred c = .literal c := if_neg hstar
        rw [hsame, Part.chars]
        split
        · -- The backslash stands before a character that is no star, that before no star either.
          rw [List.cons_append, List.cons_append, openStars_cons (Or.inr (by simpa using hstar)),
            List.nil_append, openStars_cons (Or.inr hplain)]
          rfl
        · rw [List.cons_append, List.nil_append, openStars_cons (Or.inr hplain)]
          rfl

/-! ## Signs -/

theorem signs_cons {c : Char} (h : c ≠ '\\') (s : List Char) : signs (c :: s) = .char c :: signs s := by
  rw [signs]
  · rintro rfl
    exact absurd rfl h
  · rintro d rest rfl
    exact absurd rfl h

theorem signs_partChars_append (parts : List Part) (s : List Char) :
    signs (partChars parts ++ s) = partSigns parts ++ signs s := by
  induction parts with
  | nil => rfl
  | cons part parts ih =>
      have hchars : partChars (part :: parts) ++ s = part.chars ++ (partChars parts ++ s) := by
        rw [partChars, List.flatMap_cons, List.append_assoc]
        rfl
      have hsigns : partSigns (part :: parts) ++ signs s = part.signs ++ (partSigns parts ++ signs s) := by
        rw [partSigns, List.flatMap_cons, List.append_assoc]
        rfl
      rw [hchars, hsigns, ← ih]
      cases part with
      | many =>
          rw [Part.chars, Part.signs, List.cons_append, List.cons_append, signs_cons (by decide),
            signs_cons (by decide)]
          rfl
      | literal c =>
          rw [Part.chars, Part.signs]
          split
          · rfl
          · rename_i hc
            have hback : c ≠ '\\' := by
              rintro rfl
              exact hc (by decide)
            exact signs_cons hback _

/-! ## One step of the reader -/

section

variable {α β : Type} {s s' : ReaderState} {c : Char} {rest : List Sign} {fuel : Nat} {first : Bool}
  {done : List Node}

/-- What is read first is taken off. -/
theorem run_bind_ok {x : Read α} {f : α → Read β} {a : α} (h : x.run s = .ok (a, s')) :
    (x >>= f).run s = (f a).run s' := by
  rw [StateT.run_bind, h]
  rfl

theorem run_peek (s : ReaderState) : peek.run s = .ok (s.rest.head?, s) := rfl

theorem run_next (s : ReaderState) (sign : Sign) (hrest : rest.head? ≠ some .dangling) :
    next.run { s with rest := sign :: rest } = .ok (some sign, { s with rest }) := by
  have hchecked : ∀ s : ReaderState, (liftM (checkNext rest) : Read Unit).run s = .ok ((), s) := by
    intro s
    rw [checkNext, if_neg hrest]
    rfl
  have hsteps : next.run { s with rest := sign :: rest } =
      ((liftM (checkNext rest) : Read Unit) >>= fun _ => do
        set ({ s with rest } : ReaderState)
        return some sign).run { s with rest := sign :: rest } := rfl
  rw [hsteps, run_bind_ok (hchecked _)]
  rfl

theorem run_take (s : ReaderState) (c : Char) (hrest : rest.head? ≠ some .dangling) :
    (take c).run { s with rest := .char c :: rest } = .ok (true, { s with rest }) := by
  rw [take, run_bind_ok (run_peek _), if_pos List.head?_cons,
    run_bind_ok (run_next s (.char c) hrest)]
  rfl

theorem run_take_other (h : s.rest.head? ≠ some (.char c)) : (take c).run s = .ok (false, s) := by
  rw [take, run_bind_ok (run_peek s), if_neg h]
  rfl

/-- A sequence ends where a bar or a closing parenthesis stands, or nothing. -/
theorem readSequence_end (h : s.rest.head? = some (.char '|') ∨ s.rest.head? = some (.char ')') ∨
      s.rest.head? = none) :
    (readSequence (fuel + 1) false first done).run s = .ok (done.reverse, s) := by
  rw [readSequence.eq_2, run_bind_ok (run_peek _)]
  rcases h with h | h | h <;> simp only [h] <;> rfl

theorem readSequence_plain (hc : c ∉ signChars) (hrest : rest.head? ≠ some .dangling) :
    (readSequence (fuel + 1) false first done).run { s with rest := .char c :: rest } =
      (readSequence fuel false first (.point c.toNat false :: done)).run { s with rest } := by
  have hsigns : ∀ d ∈ ['|', ')', '[', '*', '+', '?', '{', '.', '^', '$', '('], d ∈ signChars :=
    List.all_iff_forall_prop.mp (by decide)
  have hother : ∀ d ∈ ['|', ')', '[', '*', '+', '?', '{', '.', '^', '$', '('], c ≠ d :=
    fun d hd h => hc (h ▸ hsigns d hd)
  simp only [List.forall_mem_cons, List.not_mem_nil, IsEmpty.forall_iff, implies_true, and_true] at hother
  rw [readSequence.eq_2, run_bind_ok (run_peek _)]
  simp only [List.head?_cons, hother, decide_false, Bool.or_self, Bool.false_eq_true, if_false]
  rw [run_bind_ok (run_next s (.char c) hrest)]
  simp only [Bool.false_and, Bool.false_eq_true, if_false]

/-- An escaped character stands for itself: of those that are escaped none is a letter or a digit. -/
theorem escapeNode_of_mem (hc : c ∈ signChars) : escapeNode c = pure (.point c.toNat false) := by
  have hall : ∀ c ∈ signChars, anchorOf? c = none ∧ kindOf? c = none ∧
      (controlPoint? c = none ∨ controlPoint? c = some c.toNat) ∧
      ¬ (c = 'x' ∨ c = 'u' ∨ c = 'U' ∨ c = '0' ∨ isAsciiDigit c = true ∨ isLetterSign c = true) :=
    List.all_iff_forall_prop.mp (by decide)
  obtain ⟨hanchor, hkind, hcontrol, hother⟩ := hall c hc
  simp only [not_or] at hother
  rcases hcontrol with hcontrol | hcontrol <;>
    simp only [escapeNode, hanchor, hkind, hcontrol, hother, if_false, Bool.false_eq_true]

theorem readSequence_escape (hc : c ∈ signChars) (hrest : rest.head? ≠ some .dangling) :
    (readSequence (fuel + 1) false first done).run { s with rest := .escape c :: rest } =
      (readSequence fuel false first (.point c.toNat false :: done)).run { s with rest } := by
  rw [readSequence.eq_2, run_bind_ok (run_peek _)]
  simp only [List.head?_cons]
  rw [run_bind_ok (run_next s (.escape c) hrest), escapeNode_of_mem hc]
  rfl

/-- The signs that stand for a node of their own, whatever is around them. -/
def plainSigns : List (Char × Node) :=
  [('.', .anyChar), ('^', .anchor .lineStart), ('$', .anchor .lineEnd)]

theorem readSequence_sign {n : Node} (hc : (c, n) ∈ plainSigns) (hrest : rest.head? ≠ some .dangling) :
    (readSequence (fuel + 1) false first done).run { s with rest := .char c :: rest } =
      (readSequence fuel false first (n :: done)).run { s with rest } := by
  rw [readSequence.eq_2, run_bind_ok (run_peek _)]
  simp only [plainSigns, List.mem_cons, Prod.mk.injEq, List.not_mem_nil, or_false] at hc
  rcases hc with ⟨rfl, rfl⟩ | ⟨rfl, rfl⟩ | ⟨rfl, rfl⟩ <;>
    simp only [List.head?_cons, Char.reduceEq, decide_false, Bool.or_self, Bool.false_eq_true, if_false] <;>
    rw [run_bind_ok (run_next s _ hrest)] <;>
    rfl

/-- A sign of repetition is put around the last part, unless another sign behind it says how. -/
theorem readSequence_plus (hrest : rest.head? ∉ [some .dangling, some (.char '?'), some (.char '+')]) :
    (readSequence (fuel + 1) false first (.anyChar :: done)).run { s with rest := .char '+' :: rest } =
      (readSequence fuel false first (.loop .greedy 1 none [.anyChar] :: done)).run { s with rest } := by
  simp only [List.mem_cons, List.not_mem_nil, or_false, not_or] at hrest
  obtain ⟨hdangling, hlazy, hpossessive⟩ := hrest
  have hmode : modeSign.run { s with rest } = .ok (.greedy, { s with rest }) := by
    rw [modeSign, run_bind_ok (run_take_other hlazy)]
    simp only [Bool.false_eq_true, if_false]
    rw [run_bind_ok (run_take_other hpossessive)]
    rfl
  have hrepeat : (repeatLast (1, none) (.anyChar :: done)).run { s with rest } =
      .ok (.loop .greedy 1 none [.anyChar] :: done, { s with rest }) := by
    have hbody : (repeatable .anyChar).run { s with rest } = .ok ([.anyChar], { s with rest }) := rfl
    rw [repeatLast, run_bind_ok hbody, run_bind_ok hmode]
    rfl
  rw [readSequence.eq_2, run_bind_ok (run_peek _)]
  simp only [List.head?_cons, Char.reduceEq, decide_false, Bool.or_self, Bool.false_eq_true, if_false]
  rw [run_bind_ok (run_next s (.char '+') hdangling)]
  exact run_bind_ok hrepeat

/-- A parenthesis without a question mark behind it opens a group that is remembered. -/
theorem readSequence_open {n : Node} (hrest : rest.head? ∉ [some .dangling, some (.char '?')])
    (hgroup : (readGroup fuel false (.capture none)).run { s with rest } = .ok (n, s')) :
    (readSequence (fuel + 1) false first done).run { s with rest := .char '(' :: rest } =
      (readSequence fuel false first (n :: done)).run s' := by
  simp only [List.mem_cons, List.not_mem_nil, or_false, not_or] at hrest
  obtain ⟨hdangling, hmark⟩ := hrest
  have hopening : readOpening.run { s with rest } = .ok (.capture none, { s with rest }) := by
    rw [readOpening, run_bind_ok (run_take_other hmark)]
    rfl
  rw [readSequence.eq_2, run_bind_ok (run_peek _)]
  simp only [List.head?_cons, Char.reduceEq, decide_false, Bool.or_self, Bool.false_eq_true, if_false]
  rw [run_bind_ok (run_next s (.char '(') hdangling)]
  simp only [Bool.false_and, Bool.false_eq_true, if_false, if_true]
  rw [run_bind_ok hopening]
  exact run_bind_ok hgroup

end

/-! ## Parts in a row and alternatives -/

/-- Behind parts there is something that ends their sequence. -/
def Ends (rest : List Sign) : Prop :=
  rest.head? = some (.char '|') ∨ rest.head? = some (.char ')')

/-- No sign that could change what stands before it is what parts and their ends start with. -/
theorem Ends.head?_not_mem {rest : List Sign} (h : Ends rest) (parts : List Part) :
    (partSigns parts ++ rest).head? ∉ [some .dangling, some (.char '?'), some (.char '+')] := by
  cases parts with
  | nil => rcases h with h | h <;> simp [partSigns, h]
  | cons part parts =>
      cases part with
      | many => simp [partSigns, Part.signs]
      | literal c =>
          simp only [partSigns, List.flatMap_cons, Part.signs]
          split
          · simp
          · rename_i hc
            have hsigns : c ≠ '?' ∧ c ≠ '+' := by
              constructor <;> rintro rfl <;> exact hc (by decide)
            simp [hsigns]

theorem Ends.not_dangling {rest : List Sign} (h : Ends rest) (parts : List Part) :
    (partSigns parts ++ rest).head? ≠ some .dangling :=
  fun heq => h.head?_not_mem parts (by simp [heq])

section

variable {s : ReaderState} {rest : List Sign} {fuel : Nat} {first : Bool} {done : List Node}

/-- Parts in a row are read as what they stand for. -/
theorem readSequence_parts (fuel : Nat) (first : Bool) (done : List Node) (parts : List Part)
    (hrest : Ends rest) (hfuel : (partSigns parts).length < fuel) :
    (readSequence fuel false first done).run { s with rest := partSigns parts ++ rest } =
      .ok (done.reverse ++ parts.map Part.node, { s with rest }) := by
  induction parts generalizing fuel done with
  | nil =>
      obtain ⟨fuel, rfl⟩ : ∃ k, fuel = k + 1 := ⟨fuel - 1, by omega⟩
      have hends : rest.head? = some (.char '|') ∨ rest.head? = some (.char ')') ∨ rest.head? = none :=
        Or.imp_right Or.inl hrest
      rw [List.map_nil, List.append_nil]
      exact readSequence_end hends
  | cons part parts ih =>
      have hnext := hrest.not_dangling parts
      have hsplit : partSigns (part :: parts) ++ rest = part.signs ++ (partSigns parts ++ rest) := by
        rw [partSigns, List.flatMap_cons, List.append_assoc]
        rfl
      have hlength : part.signs.length + (partSigns parts).length < fuel := by
        rw [← List.length_append]
        exact hfuel
      rw [hsplit, List.map_cons]
      cases part with
      | many =>
          -- Two steps: the point is read first, and the plus puts a repetition around it.
          simp only [Part.signs, List.length_cons, List.length_nil] at hlength
          obtain ⟨fuel, rfl⟩ : ∃ k, fuel = k + 2 := ⟨fuel - 2, by omega⟩
          have hplus : (Sign.char '+' :: (partSigns parts ++ rest)).head? ≠ some .dangling := by simp
          rw [Part.signs, List.cons_append, List.cons_append, List.nil_append,
            readSequence_sign (n := .anyChar) (by simp [plainSigns]) hplus,
            readSequence_plus (hrest.head?_not_mem parts), ih fuel _ (by omega)]
          simp [Part.node]
      | literal c =>
          have hone : (Part.literal c).signs.length = 1 := by
            rw [Part.signs]
            split <;> rfl
          obtain ⟨fuel, rfl⟩ : ∃ k, fuel = k + 1 := ⟨fuel - 1, by omega⟩
          have hread : (readSequence (fuel + 1) false first done).run
              { s with rest := (Part.literal c).signs ++ (partSigns parts ++ rest) } =
                (readSequence fuel false first (.point c.toNat false :: done)).run
                  { s with rest := partSigns parts ++ rest } := by
            rw [Part.signs]
            split
            · rename_i hc
              exact readSequence_escape hc hnext
            · rename_i hc
              exact readSequence_plain hc hnext
          rw [hread, ih fuel _ (by omega)]
          simp [Part.node]

/-- What branches are read as: one as it is, several as a choice. -/
def branchNodes : List (List Node) → List Node
  | [only] => only
  | branches => [.choice branches]

/-- The signs of alternatives that come after a first one. -/
def furtherSigns (alternatives : List (List Part)) : List Sign :=
  alternatives.flatMap fun parts => .char '|' :: partSigns parts

/-- Where no bar is left, the choice is between what was read. -/
theorem readChoice_last {s s' : ReaderState} {outermost : Bool} {before : List (List Node)}
    {branch : List Node}
    (hbranch : (readSequence fuel false (outermost && before.isEmpty) []).run s = .ok (branch, s'))
    (hbar : s'.rest.head? ≠ some (.char '|')) :
    (readChoice (fuel + 1) false outermost before).run s =
      .ok (branchNodes (before ++ [branch]), s') := by
  rw [readChoice.eq_2, run_bind_ok hbranch, run_bind_ok (run_take_other hbar)]
  simp only [Bool.false_eq_true, if_false]
  rcases before ++ [branch] with _ | ⟨only, _ | ⟨second, others⟩⟩ <;> rfl

/-- Alternatives are read one after the other, up to the closing parenthesis. -/
theorem readChoice_alternatives (fuel : Nat) (parts : List Part) (more : List (List Part))
    (before : List (List Node)) (hrest : rest.head? = some (.char ')'))
    (hfuel : (partSigns parts ++ furtherSigns more).length + 1 < fuel) :
    (readChoice fuel false false before).run
        { s with rest := partSigns parts ++ (furtherSigns more ++ rest) } =
      .ok (branchNodes (before ++ (parts :: more).map (·.map Part.node)), { s with rest }) := by
  -- On what is left of the alternatives: those that were read are in `before`.
  induction more generalizing fuel parts before with
  | nil =>
      obtain ⟨fuel, rfl⟩ : ∃ k, fuel = k + 1 := ⟨fuel - 1, by omega⟩
      simp only [furtherSigns, List.flatMap_nil, List.append_nil] at hfuel
      have hbar : rest.head? ≠ some (.char '|') := by simp [hrest]
      have hbranch := readSequence_parts (s := s) fuel (false && before.isEmpty) [] parts (Or.inr hrest)
        (by omega)
      simp only [furtherSigns, List.flatMap_nil, List.nil_append]
      exact readChoice_last hbranch hbar
  | cons second more ih =>
      obtain ⟨fuel, rfl⟩ : ∃ k, fuel = k + 1 := ⟨fuel - 1, by omega⟩
      have hsplit : furtherSigns (second :: more) ++ rest =
          .char '|' :: (partSigns second ++ (furtherSigns more ++ rest)) := by
        simp [furtherSigns]
      have hlength : (partSigns parts).length + ((partSigns second ++ furtherSigns more).length + 1) <
          fuel := by
        simp only [furtherSigns, List.flatMap_cons, List.length_append, List.length_cons] at hfuel ⊢
        omega
      rw [hsplit]
      have hbar : Ends (Sign.char '|' :: (partSigns second ++ (furtherSigns more ++ rest))) := Or.inl rfl
      have hends : Ends (furtherSigns more ++ rest) := by
        cases more with
        | nil => exact Or.inr hrest
        | cons third more => exact Or.inl rfl
      have hbranch := readSequence_parts (s := s) fuel (false && before.isEmpty) [] parts hbar
        (by omega)
      have hget : ∀ s : ReaderState, (get : Read ReaderState).run s = .ok (s, s) := fun _ => rfl
      rw [readChoice.eq_2, run_bind_ok hbranch,
        run_bind_ok (run_take s '|' (hends.not_dangling second))]
      simp only [List.reverse_nil, List.nil_append, if_true]
      rw [run_bind_ok (hget _)]
      simp only [Bool.false_eq_true, if_false]
      rw [ih _ second _ (by omega)]
      simp

/-- A group of alternatives is read as a group, with the next number, around what they are read as. -/
theorem readGroup_alternatives (parts : List Part) (more : List (List Part))
    (hrest : rest.head? ≠ some .dangling)
    (hfuel : (partSigns parts ++ furtherSigns more).length + 2 < fuel) :
    ∃ widths : Array (Option Width), widths.size = s.widths.size + 1 ∧
      (readGroup fuel false (.capture none)).run
          { s with rest := partSigns parts ++ (furtherSigns more ++ .char ')' :: rest) } =
        .ok (.group (s.widths.size + 1) (branchNodes ((parts :: more).map (·.map Part.node))),
          { s with rest, widths }) := by
  obtain ⟨fuel, rfl⟩ : ∃ k, fuel = k + 1 := ⟨fuel - 1, by omega⟩
  -- While its body is read the group has its number, and no width yet.
  let body := branchNodes ((parts :: more).map (·.map Part.node))
  let opened : ReaderState := { s with widths := s.widths.push none }
  refine ⟨opened.widths.set! s.widths.size (some (listWidth opened.widths body)), by simp [opened], ?_⟩
  have hopen : ∀ rest, (openGroup none).run { s with rest } =
      .ok (s.widths.size + 1, { opened with rest }) := fun _ => rfl
  have hbody := readChoice_alternatives (s := opened) fuel parts more []
    (show (Sign.char ')' :: rest).head? = some (.char ')') from rfl) (by omega)
  rw [List.nil_append] at hbody
  have hclosing : closing.run { opened with rest := .char ')' :: rest } =
      .ok ((), { opened with rest }) := by
    rw [closing, run_bind_ok (run_take opened ')' hrest)]
    rfl
  have hclose : (closeGroup (s.widths.size + 1) body).run { opened with rest } =
      .ok ((), { s with
        rest, widths := opened.widths.set! s.widths.size (some (listWidth opened.widths body)) }) :=
    rfl
  rw [readGroup.eq_2, run_bind_ok (hopen _), run_bind_ok hbody, run_bind_ok hclosing, run_bind_ok hclose]
  rfl

end

/-! ## Whole patterns -/

/-- Reading does not look behind anything, so what was read stays as it is. -/
theorem fixList_parts (widths : Array (Option Width)) (parts : List Part) :
    fixList widths (parts.map Part.node) = .ok (parts.map Part.node) := by
  have hpart : ∀ part : Part, fixNode widths part.node = .ok part.node := by
    intro part
    cases part with
    | literal c => rfl
    | many => rfl
  induction parts with
  | nil => rfl
  | cons part parts ih =>
      rw [List.map_cons, fixList, hpart, ih]
      rfl

theorem fixBranches_parts (widths : Array (Option Width)) (alternatives : List (List Part)) :
    fixBranches widths (alternatives.map (·.map Part.node)) =
      .ok (alternatives.map (·.map Part.node)) := by
  induction alternatives with
  | nil => rfl
  | cons parts more ih =>
      rw [List.map_cons, fixBranches, fixList_parts, ih]
      rfl

theorem fixList_branchNodes (widths : Array (Option Width)) (alternatives : List (List Part)) :
    fixList widths (branchNodes (alternatives.map (·.map Part.node))) =
      .ok (branchNodes (alternatives.map (·.map Part.node))) := by
  have hchoice : fixList widths [.choice (alternatives.map (·.map Part.node))] =
      .ok [.choice (alternatives.map (·.map Part.node))] := by
    rw [fixList, fixNode, fixBranches_parts]
    rfl
  rcases alternatives with _ | ⟨only, _ | ⟨second, others⟩⟩
  · exact hchoice
  · exact fixList_parts widths only
  · exact hchoice

theorem signs_alternatives (parts : List Part) (more : List (List Part)) (t : List Char) :
    signs (['|'].intercalate ((parts :: more).map partChars) ++ t) =
      partSigns parts ++ (furtherSigns more ++ signs t) := by
  induction more generalizing parts with
  | nil =>
      rw [List.map_singleton, List.intercalate_singleton, signs_partChars_append]
      rfl
  | cons second more ih =>
      have hjoined := intercalate_cons_cons_singleton '|' (partChars parts) (partChars second)
        (more.map partChars)
      have hfurther : furtherSigns (second :: more) ++ signs t =
          .char '|' :: (partSigns second ++ (furtherSigns more ++ signs t)) := by
        simp [furtherSigns]
      rw [List.map_cons, List.map_cons, hjoined, List.append_assoc, List.cons_append,
        signs_partChars_append, signs_cons (by decide), ← List.map_cons, ih, hfurther]

/-- A group of alternatives at the end of a line, behind one other part, is read as what it was put together
from. -/
theorem read_oneOf (front : List Char) {sign : Sign} {node : Node} (hsign : sign ≠ .dangling)
    (hfront : ∀ s, signs (front ++ s) = sign :: signs s)
    (hnode : ∀ (fuel : Nat) (first : Bool) (done : List Node) (s : ReaderState) (rest : List Sign),
      rest.head? ≠ some .dangling →
        (readSequence (fuel + 1) false first done).run { s with rest := sign :: rest } =
          (readSequence fuel false first (node :: done)).run { s with rest })
    (hfixed : ∀ widths, fixNode widths node = .ok node) (parts : List Part) (more : List (List Part)) :
    read (front ++ (oneOf ((parts :: more).map partChars) ++ ['$'])) =
      .ok { nodes := [node, .group 1 (branchNodes ((parts :: more).map (·.map Part.node))),
              .anchor .lineEnd]
            flags := {}
            groups := 1 } := by
  let body := branchNodes ((parts :: more).map (·.map Part.node))
  let group : List Sign := partSigns parts ++ (furtherSigns more ++ [.char ')', .char '$'])
  have hsigns : signs (front ++ (oneOf ((parts :: more).map partChars) ++ ['$'])) =
      sign :: .char '(' :: group := by
    rw [hfront, oneOf, List.cons_append, List.cons_append, signs_cons (by decide), List.append_assoc,
      signs_alternatives]
    rfl
  -- There is more than a step for every sign.
  obtain ⟨fuel, hfuel, hsteps⟩ : ∃ fuel, 2 * (sign :: .char '(' :: group).length + 2 = fuel + 5 ∧
      (partSigns parts ++ furtherSigns more).length + 2 < fuel + 2 := by
    refine ⟨2 * (sign :: .char '(' :: group).length - 3, ?_, ?_⟩ <;>
      simp only [group, List.length_cons, List.length_append, List.length_nil] <;> omega
  let start : ReaderState := { rest := [] }
  have hends : Ends (furtherSigns more ++ [.char ')', .char '$']) := by
    cases more with
    | nil => exact Or.inr rfl
    | cons second more => exact Or.inl rfl
  have hstart : group.head? ∉ [some .dangling, some (.char '?')] :=
    fun h => hends.head?_not_mem parts (by
      rcases List.mem_pair.mp h with h | h <;> simp [group] at h <;> simp [h])
  obtain ⟨widths, hsize, hgroup⟩ := readGroup_alternatives (s := start) parts more
    (show [Sign.char '$'].head? ≠ some .dangling by simp) hsteps
  have hread : (readSequence (fuel + 4) false true []).run { start with rest := sign :: .char '(' :: group } =
      .ok ([node, .group 1 body, .anchor .lineEnd], { start with rest := [], widths }) := by
    rw [hnode _ _ _ start _ (by simp), readSequence_open hstart hgroup,
      readSequence_sign (s := { start with rest := [], widths }) (n := .anchor .lineEnd)
        (by simp [plainSigns]) (by simp)]
    exact readSequence_end (Or.inr (Or.inr rfl))
  have hchoice : (readChoice (2 * (sign :: .char '(' :: group).length + 2) false true []).run
      { start with rest := sign :: .char '(' :: group } =
        .ok ([node, .group 1 body, .anchor .lineEnd], { start with rest := [], widths }) := by
    rw [hfuel]
    exact readChoice_last hread (by simp)
  have hall : fixList widths [node, .group 1 body, .anchor .lineEnd] =
      .ok [node, .group 1 body, .anchor .lineEnd] := by
    have hgroupFixed : fixNode widths (.group 1 body) = .ok (.group 1 body) := by
      rw [fixNode, fixList_branchNodes]
      rfl
    rw [fixList, hfixed, fixList, hgroupFixed]
    rfl
  have hchecked : checkNext (sign :: .char '(' :: group) = .ok () := if_neg (by simpa using hsign)
  rw [read, hsigns]
  simp only [hchecked, bind, Except.bind]
  rw [hchoice]
  simp only [hall, start, List.isEmpty_nil, List.any_nil, Bool.not_true, Bool.or_self, Bool.false_eq_true,
    if_false]
  rw [hsize]
  rfl

variable {alternatives : List (List Part)}

/-- Alternatives for a whole line. -/
theorem read_fromStart (hne : alternatives ≠ []) :
    read ('^' :: oneOf (alternatives.map partChars) ++ ['$']) =
      .ok { nodes := [.anchor .lineStart, .group 1 (branchNodes (alternatives.map (·.map Part.node))),
              .anchor .lineEnd]
            flags := {}
            groups := 1 } := by
  obtain ⟨parts, more, rfl⟩ := List.exists_cons_of_ne_nil hne
  exact read_oneOf ['^'] (by simp) (signs_cons (by decide))
    (fun _ _ _ _ _ hrest => readSequence_sign (by simp [plainSigns]) hrest) (fun _ => rfl) parts more

/-- A point and alternatives at the end of a line. -/
theorem read_afterPoint (hne : alternatives ≠ []) :
    read ('\\' :: '.' :: oneOf (alternatives.map partChars) ++ ['$']) =
      .ok { nodes := [.point 46 false, .group 1 (branchNodes (alternatives.map (·.map Part.node))),
              .anchor .lineEnd]
            flags := {}
            groups := 1 } := by
  obtain ⟨parts, more, rfl⟩ := List.exists_cons_of_ne_nil hne
  exact read_oneOf ['\\', '.'] (by simp) (fun _ => rfl)
    (fun _ _ _ _ _ hrest => readSequence_escape (by decide) hrest) (fun _ => rfl) parts more

end FieldRules.Pattern
