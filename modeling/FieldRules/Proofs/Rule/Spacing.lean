import FieldRules.Proofs.Rule.RoundTrip

/-!
# White space in a line of rules

A line that is joined of two with a bar between stands for the rules of both, one after the other.
White space does not count at the ends of a line and next to the marks that cut it into rules, names
and parameters. `FreePlace` lists these places, and `Loosened` says that a line comes from another by
putting white space there.

A place in a line lies in one rule (`splitOn_around`), and the rules before and behind it do not look
at it. So what has to be shown is that one rule is read the same, with white space at its ends
(`readToken_blanks`) or next to one of its own marks (`readToken_free`).
-/

namespace FieldRules

open FieldRules.Text

/-! ## The part that a place lies in -/

/-- What stands behind the last separator. -/
def openPart (sep : Char) (before : List Char) : List Char := before.rtakeWhile (· != sep)

/-- What stands in front of the first separator. -/
def closePart (sep : Char) (after : List Char) : List Char := after.takeWhile (· != sep)

theorem notMem_openPart (sep : Char) (before : List Char) : sep ∉ openPart sep before := by
  intro h
  have hne := List.mem_rtakeWhile_imp h
  simp at hne

theorem notMem_closePart (sep : Char) (after : List Char) : sep ∉ closePart sep after := by
  intro h
  have hne := List.mem_takeWhile_imp h
  simp at hne

theorem openPart_concat (sep : Char) (before : List Char) (c : Char) :
    openPart sep (before ++ [c]) = if c = sep then [] else openPart sep before ++ [c] := by
  unfold openPart
  rw [List.rtakeWhile_concat]
  by_cases h : c = sep <;> simp [h]

theorem closePart_cons (sep : Char) (c : Char) (after : List Char) :
    closePart sep (c :: after) = if c = sep then [] else c :: closePart sep after := by
  unfold closePart
  rw [List.takeWhile_cons]
  by_cases h : c = sep <;> simp [h]

theorem splitOn_append_cons (sep : Char) (s t : List Char) :
    (s ++ sep :: t).splitOn sep = s.splitOn sep ++ t.splitOn sep :=
  List.splitOnP_append_cons s t (by simp)

/-- What is put into a text lengthens the part where it is put, and leaves the parts before and behind. -/
theorem splitOn_around (sep : Char) (before after : List Char) :
    ∃ front back : List (List Char), ∀ new : List Char, sep ∉ new →
      (before ++ new ++ after).splitOn sep =
        front ++ (openPart sep before ++ new ++ closePart sep after) :: back := by
  -- Up to the last separator the parts are complete, whatever follows.
  have hfront : ∃ front : List (List Char), ∀ rest : List Char,
      (before ++ rest).splitOn sep = front ++ (openPart sep before ++ rest).splitOn sep := by
    induction before using List.reverseRecOn with
    | nil => exact ⟨[], fun rest => rfl⟩
    | append_singleton before c ih =>
        obtain ⟨front, hrest⟩ := ih
        by_cases hc : c = sep
        · refine ⟨before.splitOn sep, fun rest => ?_⟩
          rw [openPart_concat, if_pos hc, hc, List.append_assoc, List.singleton_append,
            splitOn_append_cons, List.nil_append]
        · refine ⟨front, fun rest => ?_⟩
          rw [openPart_concat, if_neg hc, List.append_assoc, List.append_assoc]
          exact hrest ([c] ++ rest)
  -- From the first separator on they are so, whatever comes before.
  have hback : ∃ back : List (List Char), ∀ first : List Char, sep ∉ first →
      (first ++ after).splitOn sep = (first ++ closePart sep after) :: back := by
    have hcut : closePart sep after ++ after.dropWhile (· != sep) = after :=
      List.takeWhile_append_dropWhile
    cases hrest : after.dropWhile (· != sep) with
    | nil =>
        rw [hrest, List.append_nil] at hcut
        refine ⟨[], fun first hfirst => ?_⟩
        rw [hcut, splitOn_of_notMem]
        rw [List.mem_append, not_or, ← hcut]
        exact ⟨hfirst, notMem_closePart sep after⟩
    | cons c rest =>
        have hsep : c = sep := by
          have hnot := List.head?_dropWhile_not (· != sep) after
          rw [hrest] at hnot
          simpa using hnot
        rw [hrest, hsep] at hcut
        refine ⟨rest.splitOn sep, fun first hfirst => ?_⟩
        conv_lhs => rw [← hcut, ← List.append_assoc]
        have hfree : sep ∉ first ++ closePart sep after := by
          rw [List.mem_append, not_or]
          exact ⟨hfirst, notMem_closePart sep after⟩
        rw [splitOn_append_cons, splitOn_of_notMem hfree, List.singleton_append]
  obtain ⟨front, hfront⟩ := hfront
  obtain ⟨back, hback⟩ := hback
  refine ⟨front, back, fun new hnew => ?_⟩
  have hopen : sep ∉ openPart sep before ++ new := by
    rw [List.mem_append, not_or]
    exact ⟨notMem_openPart sep before, hnew⟩
  rw [List.append_assoc, hfront, ← List.append_assoc, hback _ hopen]

/-! ## White space at the ends of parts -/

/-- White space at the ends makes no difference to what a text is read as. -/
def IgnoresBlanks {β : Type} (read : List Char → β) : Prop :=
  ∀ blanks, (∀ c ∈ blanks, isBlank c = true) →
    ∀ s, read (blanks ++ s) = read s ∧ read (s ++ blanks) = read s

/-- What is read off the trimmed text ignores white space at the ends. -/
theorem IgnoresBlanks.of_trim {β : Type} (read : List Char → β) :
    IgnoresBlanks fun s => read (trim s) := by
  intro blanks h s
  exact ⟨congrArg read (trim_blanks_append h s), congrArg read (trim_append_blanks h s)⟩

/-- White space is no separator. -/
theorem notMem_blanks {sep : Char} (hsep : isBlank sep = false) {blanks : List Char}
    (h : ∀ c ∈ blanks, isBlank c = true) : sep ∉ blanks := by
  intro hmem
  rw [h sep hmem] at hsep
  cases hsep

/-- White space next to a separator, or at an end, makes no difference to what the parts are read as. -/
theorem IgnoresBlanks.map_splitOn {β : Type} {read : List Char → β} (hread : IgnoresBlanks read)
    {sep : Char} (hsep : isBlank sep = false) {before blanks after : List Char}
    (h : ∀ c ∈ blanks, isBlank c = true)
    (hend : openPart sep before = [] ∨ closePart sep after = []) :
    ((before ++ blanks ++ after).splitOn sep).map read = ((before ++ after).splitOn sep).map read := by
  obtain ⟨front, back, hsplit⟩ := splitOn_around sep before after
  have hplain := hsplit [] (by simp)
  rw [List.append_nil, List.append_nil] at hplain
  -- The part with the white space is read as the part without it.
  have hpart : read (openPart sep before ++ blanks ++ closePart sep after) =
      read (openPart sep before ++ closePart sep after) := by
    rcases hend with hopen | hclose
    · rw [hopen]
      exact (hread blanks h _).1
    · rw [hclose, List.append_nil, List.append_nil]
      exact (hread blanks h _).2
  rw [hsplit blanks (notMem_blanks hsep h), hplain]
  simp only [List.map_append, List.map_cons, hpart]

namespace Rule

/-! ## One rule -/

/-- The rule between two bars, if there is one. -/
def readToken (token : List Char) : List Rule :=
  if (trim token).isEmpty then [] else [ofToken token]

/-- The parameters that stand behind a colon. -/
def readParams (text : List Char) : List String :=
  (text.splitOn ',').map fun p => String.ofList (trim p)

theorem ignoresBlanks_readToken : IgnoresBlanks readToken := by
  have hsame : readToken =
      fun token => if (trim token).isEmpty then [] else [ofToken (trim token)] := by
    funext token
    have hrule : ofToken (trim token) = ofToken token := by
      simp only [ofToken, trim_trim]
    rw [readToken, hrule]
  rw [hsame]
  exact IgnoresBlanks.of_trim fun s => if s.isEmpty then [] else [ofToken s]

/-- White space next to a comma of the parameters, or around all of them, does not count. -/
theorem readParams_blanks {before blanks after : List Char} (h : ∀ c ∈ blanks, isBlank c = true)
    (hend : openPart ',' before = [] ∨ closePart ',' after = []) :
    readParams (before ++ blanks ++ after) = readParams (before ++ after) :=
  (IgnoresBlanks.of_trim String.ofList).map_splitOn (by decide) h hend

/-- A text with a colon is the rule that has its name in front of the first and its parameters behind. -/
theorem readToken_colon {name : List Char} (hname : ':' ∉ name) (params : List Char) :
    readToken (name ++ ':' :: params) =
      [{ name := String.ofList (trim name), params := readParams params }] := by
  have htrim : trim (name ++ ':' :: params) =
      name.dropWhile isBlank ++ ':' :: params.rdropWhile isBlank := by
    -- The colon is no white space, so what is trimmed away lies in front of it or behind it.
    have hcolon : isBlank ':' = false := by decide
    have hfront : (name ++ ':' :: params).dropWhile isBlank =
        name.dropWhile isBlank ++ ':' :: params := by
      rw [List.dropWhile_append]
      split
      · rename_i hnone
        rw [List.isEmpty_iff.mp hnone, List.dropWhile_cons_of_neg (by simp [hcolon]), List.nil_append]
      · rfl
    have hback : ∀ s : List Char, (s ++ ':' :: params).rdropWhile isBlank =
        s ++ ':' :: params.rdropWhile isBlank := by
      intro s
      rw [List.rdropWhile, List.rdropWhile, List.reverse_append, List.reverse_cons,
        List.append_assoc, List.dropWhile_append]
      split
      · rename_i hnone
        rw [List.isEmpty_iff.mp hnone, List.singleton_append,
          List.dropWhile_cons_of_neg (by simp [hcolon])]
        simp
      · simp
    rw [trim_eq_rdropWhile, hfront, hback]
  have hfree : ∀ c ∈ name.dropWhile isBlank, (c != ':') = true := by
    intro c hc
    have hmem := (List.dropWhile_suffix isBlank).subset hc
    simp only [bne_iff_ne, ne_eq]
    rintro rfl
    exact hname hmem
  have htake : (trim (name ++ ':' :: params)).takeWhile (· != ':') = name.dropWhile isBlank := by
    rw [htrim, List.takeWhile_append_of_pos hfree]
    simp
  have hdrop : (trim (name ++ ':' :: params)).dropWhile (· != ':') =
      ':' :: params.rdropWhile isBlank := by
    rw [htrim, List.dropWhile_append_of_pos hfree]
    simp
  -- The name and the parameters are trimmed again, each for itself.
  have hrest : trim (name.dropWhile isBlank) = trim name := by
    conv_rhs => rw [← List.takeWhile_append_dropWhile (p := isBlank) (l := name)]
    exact (trim_blanks_append (fun c hc => List.mem_takeWhile_imp hc) _).symm
  have hparams : readParams (params.rdropWhile isBlank) = readParams params := by
    have hblanks : ∀ c ∈ params.rtakeWhile isBlank, isBlank c = true :=
      fun c hc => List.mem_rtakeWhile_imp hc
    have hback : readParams (params.rdropWhile isBlank ++ params.rtakeWhile isBlank ++ []) =
        readParams (params.rdropWhile isBlank ++ []) := readParams_blanks hblanks (Or.inr rfl)
    rw [List.append_nil, List.append_nil, List.rdropWhile_append_rtakeWhile] at hback
    exact hback.symm
  have hsome : (trim (name ++ ':' :: params)).isEmpty = false := by
    rw [htrim]
    simp
  rw [readToken, hsome, if_neg (by simp), ofToken_of_colon hdrop, htake, hrest]
  exact congrArg (fun ps => [({ name := String.ofList (trim name), params := ps } : Rule)]) hparams

/-- White space around the first colon of a rule, or around a comma behind it, does not count. -/
theorem readToken_colon_blanks {name blanks params : List Char} (hname : ':' ∉ name)
    (h : ∀ c ∈ blanks, isBlank c = true) :
    readToken (name ++ blanks ++ ':' :: params) = readToken (name ++ ':' :: params) ∧
      readToken (name ++ ':' :: (blanks ++ params)) = readToken (name ++ ':' :: params) := by
  constructor
  · have hboth : ':' ∉ name ++ blanks := by
      rw [List.mem_append, not_or]
      exact ⟨hname, notMem_blanks (by decide) h⟩
    rw [readToken_colon hboth, readToken_colon hname, trim_append_blanks h]
  · rw [readToken_colon hname, readToken_colon hname]
    have hparams : readParams ([] ++ blanks ++ params) = readParams ([] ++ params) :=
      readParams_blanks h (Or.inl rfl)
    rw [List.nil_append, List.nil_append] at hparams
    rw [hparams]

theorem readToken_comma_blanks {before blanks after : List Char} (hcolon : ':' ∈ before)
    (h : ∀ c ∈ blanks, isBlank c = true)
    (hcomma : before.getLast? = some ',' ∨ after.head? = some ',') :
    readToken (before ++ blanks ++ after) = readToken (before ++ after) := by
  obtain ⟨name, params, rfl, hname⟩ := List.eq_append_cons_of_mem hcolon
  have hparams : readParams (params ++ blanks ++ after) = readParams (params ++ after) := by
    apply readParams_blanks h
    rcases hcomma with hlast | hhead
    · left
      rcases List.eq_nil_or_concat' params with rfl | ⟨front, c, rfl⟩
      · rfl
      · have hend : name ++ ':' :: (front ++ [c]) = (name ++ ':' :: front) ++ [c] := by simp
        rw [hend, List.getLast?_concat, Option.some.injEq] at hlast
        rw [openPart_concat, if_pos hlast]
    · right
      cases after with
      | nil => simp at hhead
      | cons c rest =>
          have hc : c = ',' := by simpa using hhead
          rw [closePart_cons, if_pos hc]
  simp only [List.append_assoc, List.cons_append] at hparams ⊢
  rw [readToken_colon hname, readToken_colon hname, hparams]

/-! ## A line of rules -/

/-- A line is read rule by rule; white space at its ends does not count. -/
theorem readChars_eq (line : List Char) : readChars line = ((line.splitOn '|').map readToken).flatten := by
  have htokens : ∀ tokens : List (List Char),
      (tokens.filter fun token => !(trim token).isEmpty).map ofToken =
        (tokens.map readToken).flatten := by
    intro tokens
    induction tokens with
    | nil => rfl
    | cons token tokens ih =>
        rw [List.map_cons, List.flatten_cons, ← ih, List.filter_cons, readToken]
        cases (trim token).isEmpty <;> rfl
  obtain ⟨front, back, hfront, hback, hline⟩ := exists_blanks_around line
  have hstart : (([] ++ front ++ (trim line ++ back)).splitOn '|').map readToken =
      (([] ++ (trim line ++ back)).splitOn '|').map readToken :=
    ignoresBlanks_readToken.map_splitOn (by decide) hfront (Or.inl rfl)
  have hend : ((trim line ++ back ++ []).splitOn '|').map readToken =
      ((trim line ++ []).splitOn '|').map readToken :=
    ignoresBlanks_readToken.map_splitOn (by decide) hback (Or.inr rfl)
  rw [List.nil_append, List.nil_append, ← List.append_assoc, ← hline] at hstart
  rw [List.append_nil, List.append_nil] at hend
  rw [readChars, htokens, hstart, hend]

/-- A line of two with a bar between stands for the rules of the first and then those of the second. -/
theorem readChars_bar (s t : List Char) : readChars (s ++ '|' :: t) = readChars s ++ readChars t := by
  rw [readChars_eq, readChars_eq, readChars_eq, splitOn_append_cons, List.map_append,
    List.flatten_append]

/-- What is put into a line without a bar changes one rule. -/
theorem readChars_around (before after : List Char) :
    ∃ front back : List Rule, ∀ new : List Char, '|' ∉ new →
      readChars (before ++ new ++ after) =
        front ++ readToken (openPart '|' before ++ new ++ closePart '|' after) ++ back := by
  obtain ⟨front, back, hsplit⟩ := splitOn_around '|' before after
  refine ⟨(front.map readToken).flatten, (back.map readToken).flatten, fun new hnew => ?_⟩
  rw [readChars_eq, hsplit new hnew]
  simp

/-! ## Places where white space does not count -/

/-- A place in a line, between what stands before and behind it, where white space does not count. -/
inductive FreePlace : List Char → List Char → Prop
  | atStart (after : List Char) : FreePlace [] after
  | atEnd (before : List Char) : FreePlace before []
  | beforeBar (before after : List Char) : FreePlace before ('|' :: after)
  | afterBar (before after : List Char) : FreePlace (before ++ ['|']) after
  /-- In front of the first colon of a rule. -/
  | beforeColon {before : List Char} (hfirst : ':' ∉ openPart '|' before) (after : List Char) :
      FreePlace before (':' :: after)
  /-- Behind the first colon of a rule. -/
  | afterColon {before : List Char} (hfirst : ':' ∉ openPart '|' before) (after : List Char) :
      FreePlace (before ++ [':']) after
  /-- In front of a comma that comes after the first colon of its rule. -/
  | beforeComma {before : List Char} (hcolon : ':' ∈ openPart '|' before) (after : List Char) :
      FreePlace before (',' :: after)
  /-- Behind a comma that comes after the first colon of its rule. -/
  | afterComma {before : List Char} (hcolon : ':' ∈ openPart '|' before) (after : List Char) :
      FreePlace (before ++ [',']) after

/-- White space at a free place leaves the rule that the place lies in as it is. -/
theorem FreePlace.readToken_eq {before after : List Char} (hplace : FreePlace before after)
    {blanks : List Char} (h : ∀ c ∈ blanks, isBlank c = true) :
    readToken (openPart '|' before ++ blanks ++ closePart '|' after) =
      readToken (openPart '|' before ++ closePart '|' after) := by
  -- A bar ends the rule, every other mark belongs to it.
  cases hplace with
  | atStart after => exact (ignoresBlanks_readToken blanks h _).1
  | atEnd before =>
      have hnone : closePart '|' [] = [] := rfl
      rw [hnone, List.append_nil, List.append_nil]
      exact (ignoresBlanks_readToken blanks h _).2
  | beforeBar before after =>
      rw [closePart_cons, if_pos rfl, List.append_nil, List.append_nil]
      exact (ignoresBlanks_readToken blanks h _).2
  | afterBar before after =>
      rw [openPart_concat, if_pos rfl]
      exact (ignoresBlanks_readToken blanks h _).1
  | beforeColon hfirst after =>
      rw [closePart_cons, if_neg (by decide)]
      exact (readToken_colon_blanks hfirst h).1
  | @afterColon before hfirst after =>
      rw [openPart_concat, if_neg (by decide)]
      simp only [List.append_assoc, List.singleton_append]
      exact (readToken_colon_blanks hfirst h).2
  | beforeComma hcolon after =>
      rw [closePart_cons, if_neg (by decide)]
      exact readToken_comma_blanks hcolon h (Or.inr rfl)
  | @afterComma before hcolon after =>
      rw [openPart_concat, if_neg (by decide)]
      have hbefore : ':' ∈ openPart '|' before ++ [','] := List.mem_append_left _ hcolon
      exact readToken_comma_blanks hbefore h (Or.inl (by simp))

/-- White space at a free place does not change what a line stands for. -/
theorem FreePlace.readChars_eq {before after : List Char} (hplace : FreePlace before after)
    {blanks : List Char} (h : ∀ c ∈ blanks, isBlank c = true) :
    readChars (before ++ blanks ++ after) = readChars (before ++ after) := by
  obtain ⟨front, back, haround⟩ := readChars_around before after
  have hplain := haround [] (by simp)
  rw [List.append_nil, List.append_nil] at hplain
  rw [haround blanks (notMem_blanks (by decide) h), hplain, hplace.readToken_eq h]

/-- The second line is the first with white space put in, time after time, at places where it does not
count. -/
inductive Loosened (line : List Char) : List Char → Prop
  | same : Loosened line line
  | insert {before after : List Char} (hline : Loosened line (before ++ after))
      (hplace : FreePlace before after) {blanks : List Char} (h : ∀ c ∈ blanks, isBlank c = true) :
      Loosened line (before ++ blanks ++ after)

theorem Loosened.readChars_eq {line loose : List Char} (h : Loosened line loose) :
    readChars loose = readChars line := by
  induction h with
  | same => rfl
  | insert hline hplace hblanks ih => rw [hplace.readChars_eq hblanks, ih]

/-- A rule that a line can stand for is what its own text stands for. -/
theorem readAll_toText {r : Rule} (h : r.Canonical) : readAll r.toText = [r] := by
  have hone : writeAll [r] = r.toText := by simp [writeAll]
  rw [← hone]
  exact readAll_writeAll (by simpa using h)

/-- Reading goes rule by rule: the rules of two lines that are joined by a bar are those of the first and
then those of the second. White space at the ends of a line and next to its marks does not count. What is
left then are empty lines, which stand for no rule, and the texts of single rules. -/
theorem read_compositional :
    (∀ first second : String, readAll (first ++ "|" ++ second) = readAll first ++ readAll second) ∧
    (∀ line loose : String, Loosened line.toList loose.toList → readAll loose = readAll line) ∧
    readAll "" = [] ∧ ∀ r : Rule, r.Canonical → readAll r.toText = [r] := by
  refine ⟨?_, ?_, by decide, fun r hr => readAll_toText hr⟩
  · intro first second
    have hchars : (first ++ "|" ++ second).toList = first.toList ++ '|' :: second.toList := by
      simp [String.toList_append]
    rw [readAll, hchars, readChars_bar]
    rfl
  · intro line loose h
    exact h.readChars_eq

/-- White space of another script behind the colon and a line feed in front of the comma. -/
theorem read_compositional_in :
    let r : Rule := ⟨"in", ["a", "b"]⟩
    Loosened "in:a,b".toList "in:\u2003a\n,b".toList ∧ readAll "in:\u2003a\n,b" = readAll "in:a,b" ∧
      r.Canonical ∧ readAll r.toText = [r] := by
  intro r
  have hcolon : FreePlace ("in".toList ++ [':']) "a,b".toList := .afterColon (by decide) _
  have hcomma : FreePlace "in:\u2003a".toList (',' :: "b".toList) := .beforeComma (by decide) _
  have hblank : ∀ c ∈ ['\u2003'], isBlank c = true := by
    simp only [List.mem_singleton, forall_eq]
    decide
  have hlineFeed : ∀ c ∈ ['\n'], isBlank c = true := by
    simp only [List.mem_singleton, forall_eq]
    decide
  have hfirst : Loosened "in:a,b".toList ("in:\u2003a".toList ++ ',' :: "b".toList) :=
    .insert .same hcolon hblank
  have hloose : Loosened "in:a,b".toList "in:\u2003a\n,b".toList := .insert hfirst hcomma hlineFeed
  have hparams : ∀ p ∈ r.params, p = "a" ∨ p = "b" := by simp [r]
  have hcanonical : r.Canonical := by
    refine ⟨trim_eq_self_iff.mp (by decide), by decide, ?_, ?_, Or.inl (by decide)⟩
    · intro p hp
      rcases hparams p hp with rfl | rfl <;> exact trim_eq_self_iff.mp (by decide)
    · intro p hp
      rcases hparams p hp with rfl | rfl <;> decide
  exact ⟨hloose, read_compositional.2.1 _ _ hloose, hcanonical, read_compositional.2.2.2 r hcanonical⟩

end Rule

end FieldRules
