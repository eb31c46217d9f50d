import FieldRules.Pattern.Search
import Mathlib.Computability.Language

/-!
# Words of patterns

A search goes through the ways to match the parts of a pattern in their order and takes back what does not
lead on. Here it is said without that order what is found. A part goes past words: those of a language, and
parts one after the other go past the words of the product of their languages (`Spells`). So a pattern that
asks for the end of the line is found exactly where a word of its language stands at that end
(`matchesStart_iff`, `search_iff`).
-/

namespace FieldRules.Pattern

open scoped Computability

/-! ## Goals and languages -/

/-- A goal is met exactly where the rest of the text has a property. -/
def Wants (text : List Char) (goal : Goal) (P : List Char → Prop) : Prop :=
  ∀ s : Cursor, s.pos ≤ text.length → ((goal s).isSome = true ↔ P (text.drop s.pos))

/-- A word of a language stands in front of something with a property. -/
def Past (L : Language Char) (P : List Char → Prop) (t : List Char) : Prop :=
  ∃ w ∈ L, ∃ rest, t = w ++ rest ∧ P rest

/-- A matcher goes past the words of a language, whatever is to be matched behind them. -/
def Spells (text : List Char) (m : Matcher) (L : Language Char) : Prop :=
  ∀ goal P, Wants text goal P → Wants text (m goal) (Past L P)

/-- The words of one character of a kind. -/
def letters (p : Char → Bool) : Language Char := {w | ∃ c, p c = true ∧ w = [c]}

theorem mem_letters {p : Char → Bool} {w : List Char} :
    w ∈ letters p ↔ ∃ c, p c = true ∧ w = [c] := Iff.rfl

variable {text : List Char} {L K : Language Char} {P : List Char → Prop} {t : List Char}

theorem past_one : Past 1 P t ↔ P t := by
  simp [Past, Language.mem_one]

theorem past_zero : ¬ Past 0 P t := by
  rintro ⟨w, hw, -⟩
  exact Language.notMem_zero w hw

theorem past_add : Past (L + K) P t ↔ Past L P t ∨ Past K P t := by
  constructor
  · rintro ⟨w, hw, hrest⟩
    rcases (Language.mem_add L K w).mp hw with hw | hw
    · exact Or.inl ⟨w, hw, hrest⟩
    · exact Or.inr ⟨w, hw, hrest⟩
  · rintro (⟨w, hw, hrest⟩ | ⟨w, hw, hrest⟩)
    · exact ⟨w, (Language.mem_add L K w).mpr (Or.inl hw), hrest⟩
    · exact ⟨w, (Language.mem_add L K w).mpr (Or.inr hw), hrest⟩

theorem past_mul : Past (L * K) P t ↔ Past L (Past K P) t := by
  constructor
  · rintro ⟨w, hw, rest, rfl, hP⟩
    obtain ⟨u, hu, v, hv, rfl⟩ := Language.mem_mul.mp hw
    exact ⟨u, hu, v ++ rest, by rw [List.append_assoc], v, hv, rest, rfl, hP⟩
  · rintro ⟨u, hu, rest, rfl, v, hv, rest', rfl, hP⟩
    exact ⟨u ++ v, Language.mem_mul.mpr ⟨u, hu, v, hv, rfl⟩, rest', by rw [List.append_assoc], hP⟩

theorem past_letters {p : Char → Bool} :
    Past (letters p) P t ↔ ∃ c rest, t = c :: rest ∧ p c = true ∧ P rest := by
  constructor
  · rintro ⟨w, ⟨c, hc, rfl⟩, rest, rfl, hP⟩
    exact ⟨c, rest, rfl, hc, hP⟩
  · rintro ⟨c, rest, rfl, hc, hP⟩
    exact ⟨[c], ⟨c, hc, rfl⟩, rest, rfl, hP⟩

/-- None or more words: nothing, or a word and then none or more. -/
theorem past_kstar : Past L∗ P t ↔ P t ∨ Past L (Past L∗ P) t := by
  conv_lhs => rw [← Language.one_add_self_mul_kstar_eq_kstar L]
  rw [past_add, past_one, past_mul]

theorem isSome_orElse {a : Option Cursor} {b : Unit → Option Cursor} :
    (a.orElse b).isSome = true ↔ a.isSome = true ∨ (b ()).isSome = true := by
  cases a <;> simp

theorem Wants.congr {goal : Goal} {Q : List Char → Prop} (h : Wants text goal P)
    (hsame : ∀ t, P t ↔ Q t) : Wants text goal Q :=
  fun s hs => (h s hs).trans (hsame _)

/-! ## Parts of a pattern -/

theorem spells_nothing : Spells text (fun goal => goal) 1 :=
  fun _ _ hgoal => hgoal.congr fun _ => past_one.symm

/-- Matchers one inside the other go past words one after the other. -/
theorem Spells.seq {m m' : Matcher} (hm : Spells text m L) (hm' : Spells text m' K) :
    Spells text (fun goal => m (m' goal)) (L * K) :=
  fun _ _ hgoal => (hm _ _ (hm' _ _ hgoal)).congr fun _ => past_mul.symm

theorem spells_oneChar (p : Char → Bool) : Spells text (oneChar text.toArray p) (letters p) := by
  intro goal P hgoal s hs
  rw [past_letters, oneChar, List.getElem?_toArray]
  cases hc : text[s.pos]? with
  | none =>
      have hend : text.drop s.pos = [] := by
        rw [List.drop_eq_nil_iff]
        exact List.getElem?_eq_none_iff.mp hc
      simp [hend]
  | some c =>
      obtain ⟨hlt, hget⟩ := List.getElem?_eq_some_iff.mp hc
      have hnext : text.drop s.pos = c :: text.drop (s.pos + 1) := by
        rw [List.drop_eq_getElem_cons hlt, hget]
      have hbehind := hgoal { s with pos := s.pos + 1 } hlt
      rw [hnext]
      by_cases hp : p c = true
      · simp [hp, hbehind]
      · simp [hp]

theorem spells_times {m : Matcher} (hm : Spells text m L) (n : Nat) :
    Spells text (times m n) (L ^ n) := by
  induction n with
  | zero =>
      rw [pow_zero]
      exact spells_nothing
  | succ n ih =>
      rw [pow_succ']
      exact hm.seq ih

/-- As often as possible is none or more times: every round moves on, so the rounds do not run out. -/
theorem wants_greedily {m : Matcher} (hm : Spells text m L) (hne : [] ∉ L) {goal : Goal}
    (hgoal : Wants text goal P) (rounds : Nat) (s : Cursor) (hs : s.pos ≤ text.length)
    (hrounds : text.length - s.pos < rounds) :
    (greedily m goal rounds none s).isSome = true ↔ Past L∗ P (text.drop s.pos) := by
  induction rounds generalizing s with
  | zero => omega
  | succ rounds ih =>
      have hlength : ∀ {i}, (text.drop i).length = text.length - i := List.length_drop
      -- What is wanted behind a round depends on whether the round has moved on.
      let Q (t : List Char) : Prop := if t.length < text.length - s.pos then Past L∗ P t else P t
      have hfurther : Wants text (fun s' => if s.pos < s'.pos
          then greedily m goal rounds (Limit.less none) s' else goal s') Q := by
        intro s' hs'
        by_cases hmoved : s.pos < s'.pos
        · have hshorter : (text.drop s'.pos).length < text.length - s.pos := by
            rw [hlength]
            omega
          simp only [if_pos hmoved, Q, if_pos hshorter]
          exact ih s' hs' (by omega)
        · have hnot : ¬ (text.drop s'.pos).length < text.length - s.pos := by
            rw [hlength]
            omega
          simp only [if_neg hmoved, Q, if_neg hnot]
          exact hgoal s' hs'
      have hround := hm _ _ hfurther s hs
      have hmoves : Past L Q (text.drop s.pos) ↔ Past L (Past L∗ P) (text.drop s.pos) := by
        have hshorter : ∀ {w rest}, w ∈ L → text.drop s.pos = w ++ rest →
            rest.length < text.length - s.pos := by
          intro w rest hw hrest
          have hsplit := congrArg List.length hrest
          rw [hlength, List.length_append] at hsplit
          have hpos : 0 < w.length := List.length_pos_iff.mpr fun h => hne (h ▸ hw)
          omega
        constructor
        · rintro ⟨w, hw, rest, hrest, hQ⟩
          simp only [Q, if_pos (hshorter hw hrest)] at hQ
          exact ⟨w, hw, rest, hrest, hQ⟩
        · rintro ⟨w, hw, rest, hrest, hP⟩
          refine ⟨w, hw, rest, hrest, ?_⟩
          simp only [Q, if_pos (hshorter hw hrest)]
          exact hP
      rw [past_kstar, ← hmoves, ← hround, ← hgoal s hs, or_comm]
      simp only [greedily, reduceCtorEq, if_false, isSome_orElse]

theorem matchList_append (text : Array Char) (f : Flags) (front back : List Node) (goal : Goal) :
    matchList text f (front ++ back) goal = matchList text f front (matchList text f back goal) := by
  induction front with
  | nil => simp only [List.nil_append, matchList]
  | cons n ns ih => simp only [List.cons_append, matchList, ih]

section

variable {f : Flags} {body : List Node}

theorem spells_nil : Spells text (matchList text.toArray f []) 1 := by
  simp only [matchList]
  exact spells_nothing

theorem spells_cons {n : Node} {ns : List Node} (hn : Spells text (matchNode text.toArray f n) L)
    (hns : Spells text (matchList text.toArray f ns) K) :
    Spells text (matchList text.toArray f (n :: ns)) (L * K) := by
  simp only [matchList]
  exact hn.seq hns

theorem spells_singleton {n : Node} (hn : Spells text (matchNode text.toArray f n) L) :
    Spells text (matchList text.toArray f [n]) L := by
  rw [← mul_one L]
  exact spells_cons hn spells_nil

theorem spells_append {front back : List Node} (hfront : Spells text (matchList text.toArray f front) L)
    (hback : Spells text (matchList text.toArray f back) K) :
    Spells text (matchList text.toArray f (front ++ back)) (L * K) := by
  intro goal P hgoal
  rw [matchList_append]
  exact hfront.seq hback goal P hgoal

theorem spells_point (n : Nat) :
    Spells text (matchNode text.toArray f (.point n false)) (letters (matchesPoint f n)) := by
  simp only [matchNode, Bool.bne_false]
  exact spells_oneChar _

theorem spells_anyChar :
    Spells text (matchNode text.toArray f .anyChar) (letters fun c => f.dotAll || c != '\n') := by
  simp only [matchNode]
  exact spells_oneChar _

theorem spells_set (negated : Bool) (items : List SetItem) :
    Spells text (matchNode text.toArray f (.set negated items)) (letters (matchesSet f negated items)) := by
  simp only [matchNode]
  exact spells_oneChar _

/-- A repetition of something that moves on. -/
theorem spells_loop (hbody : Spells text (matchList text.toArray f body) L) (hne : [] ∉ L)
    (least : Nat) :
    Spells text (matchNode text.toArray f (.loop .greedy least none body)) (L ^ least * L∗) := by
  intro goal P hgoal
  -- The rounds that are allowed are one more than the characters that are left.
  have hmore : Wants text (fun s => greedily (matchList text.toArray f body) goal
      (text.toArray.size - s.pos + 1) none s) (Past L∗ P) := by
    intro s hs
    apply wants_greedily hbody hne hgoal _ s hs
    rw [List.size_toArray]
    omega
  simp only [matchNode]
  exact (spells_times hbody least _ _ hmore).congr fun _ => past_mul.symm

/-- The characters that a set names are those that are in it as they stand. -/
theorem any_inItem_points {f : Flags} {marks : List Char} {c : Char} :
    (marks.map fun d => SetItem.point d.toNat).any (inItem f c.toNat) = true ↔ c ∈ marks := by
  simp [inItem, Char.toNat_inj]

/-- A character of a set, at least so many times. -/
def manyOf (negated : Bool) (items : List SetItem) (least : Nat) : Node :=
  .loop .greedy least none [.set negated items]

/-- The words of a set that are at least so long. -/
def manyWords (f : Flags) (negated : Bool) (items : List SetItem) (least : Nat) : Language Char :=
  letters (matchesSet f negated items) ^ least * (letters (matchesSet f negated items))∗

theorem spells_manyOf (negated : Bool) (items : List SetItem) (least : Nat) :
    Spells text (matchNode text.toArray f (manyOf negated items least)) (manyWords f negated items least) :=
  spells_loop (spells_singleton (spells_set negated items)) (by simp [mem_letters]) least

/-- Where no more rounds are allowed a repetition is over. -/
theorem greedily_over (m : Matcher) (goal : Goal) (rounds : Nat) (s : Cursor) :
    greedily m goal rounds (some 0) s = goal s := by
  cases rounds <;> simp [greedily]

/-- Something that may be left out. -/
theorem spells_optional (hbody : Spells text (matchList text.toArray f body) L) :
    Spells text (matchNode text.toArray f (.loop .greedy 0 (some 1) body)) (1 + L) := by
  intro goal P hgoal s hs
  -- One round uses up what is allowed, so the goal comes next whether the round has moved on or not.
  have honce : matchNode text.toArray f (.loop .greedy 0 (some 1) body) goal s =
      (matchList text.toArray f body goal s).orElse fun _ => goal s := by
    simp [matchNode, repeated, times, greedily, Limit.less, greedily_over]
  rw [honce, isSome_orElse, hbody goal P hgoal s hs, hgoal s hs, past_add, past_one, or_comm]

/-- A group goes past what its body goes past; that it is remembered makes no difference. -/
theorem spells_group (hbody : Spells text (matchList text.toArray f body) L) (index : Nat) :
    Spells text (matchNode text.toArray f (.group index body)) L := by
  intro goal P hgoal s hs
  have hleft : Wants text (fun s => goal (s.leave index)) P := fun s hs => hgoal (s.leave index) hs
  simp only [matchNode]
  exact hbody _ _ hleft (s.enter index) hs

/-- One of some branches. -/
theorem spells_choice {α : Type} {branch : α → List Node} {words : α → Language Char} {xs : List α}
    (h : ∀ x ∈ xs, Spells text (matchList text.toArray f (branch x)) (words x)) :
    Spells text (matchNode text.toArray f (.choice (xs.map branch))) (xs.map words).sum := by
  simp only [matchNode]
  induction xs with
  | nil =>
      intro goal P _ s _
      simp [matchChoice, past_zero]
  | cons x xs ih =>
      obtain ⟨hx, hxs⟩ := List.forall_mem_cons.mp h
      intro goal P hgoal s hs
      rw [List.map_cons, List.map_cons, List.sum_cons, past_add, ← hx goal P hgoal s hs,
        ← ih hxs goal P hgoal s hs]
      simp only [matchChoice, isSome_orElse]

end

/-! ## Words of a language -/

theorem mem_letters_mul {p : Char → Bool} {w : List Char} :
    w ∈ letters p * L ↔ ∃ c rest, w = c :: rest ∧ p c = true ∧ rest ∈ L := by
  constructor
  · intro hw
    obtain ⟨u, ⟨c, hc, rfl⟩, rest, hrest, rfl⟩ := Language.mem_mul.mp hw
    exact ⟨c, rest, rfl, hc, hrest⟩
  · rintro ⟨c, rest, rfl, hc, hrest⟩
    exact Language.mem_mul.mpr ⟨[c], ⟨c, hc, rfl⟩, rest, hrest, rfl⟩

theorem mem_kstar_letters {p : Char → Bool} {w : List Char} :
    w ∈ (letters p)∗ ↔ ∀ c ∈ w, p c = true := by
  induction w with
  | nil => simp [Language.nil_mem_kstar]
  | cons c w ih =>
      rw [← Language.one_add_self_mul_kstar_eq_kstar, Language.mem_add, Language.mem_one,
        mem_letters_mul, List.forall_mem_cons, ← ih]
      simp

/-- At least so many characters of a kind, and no other. -/
theorem mem_pow_mul_kstar_letters {p : Char → Bool} {least : Nat} {w : List Char} :
    w ∈ letters p ^ least * (letters p)∗ ↔ least ≤ w.length ∧ ∀ c ∈ w, p c = true := by
  induction least generalizing w with
  | zero => simp [mem_kstar_letters]
  | succ least ih =>
      rw [pow_succ', mul_assoc, mem_letters_mul]
      constructor
      · rintro ⟨c, rest, rfl, hc, hrest⟩
        obtain ⟨hlength, hall⟩ := ih.mp hrest
        exact ⟨Nat.succ_le_succ hlength, List.forall_mem_cons.mpr ⟨hc, hall⟩⟩
      · rintro ⟨hlength, hall⟩
        cases w with
        | nil => simp at hlength
        | cons c rest =>
            obtain ⟨hc, hrest⟩ := List.forall_mem_cons.mp hall
            exact ⟨c, rest, rfl, hc, ih.mpr ⟨Nat.le_of_succ_le_succ hlength, hrest⟩⟩

theorem mem_manyWords_iff {f : Flags} {negated : Bool} {items : List SetItem} {least : Nat} {w : List Char} :
    w ∈ manyWords f negated items least ↔
      least ≤ w.length ∧ ∀ c ∈ w, matchesSet f negated items c = true :=
  mem_pow_mul_kstar_letters

theorem mem_sum_map {α : Type} {xs : List α} {words : α → Language Char} {w : List Char} :
    w ∈ (xs.map words).sum ↔ ∃ x ∈ xs, w ∈ words x := by
  induction xs with
  | nil => simp [Language.notMem_zero]
  | cons x xs ih => rw [List.map_cons, List.sum_cons, Language.mem_add, ih, List.exists_mem_cons_iff]

/-! ## Whole patterns -/

/-- Nothing is left of the text but, at most, a final line feed. -/
def AtEnd (t : List Char) : Prop := t = [] ∨ t = ['\n']

/-- A property holds of a text, or of the text before a line feed at its end. -/
def BeforeLineFeed (p : List Char → Prop) (s : List Char) : Prop := p s ∨ ∃ l, p l ∧ s = l ++ ['\n']

theorem past_atEnd_iff : Past L AtEnd t ↔ BeforeLineFeed (· ∈ L) t := by
  constructor
  · rintro ⟨w, hw, rest, rfl, rfl | rfl⟩
    · rw [List.append_nil]
      exact Or.inl hw
    · exact Or.inr ⟨w, hw, rfl⟩
  · rintro (ht | ⟨l, hl, rfl⟩)
    · exact ⟨t, ht, [], (List.append_nil t).symm, Or.inl rfl⟩
    · exact ⟨l, hl, ['\n'], rfl, Or.inr rfl⟩

/-- Where no line feed is, the end is the end of the text. -/
theorem past_atEnd (h : '\n' ∉ t) : Past L AtEnd t ↔ t ∈ L := by
  rw [past_atEnd_iff, BeforeLineFeed, or_iff_left]
  rintro ⟨l, -, rfl⟩
  exact h (by simp)

theorem wants_lineEnd {f : Flags} (hlines : f.multiline = false) :
    Wants text (matchList text.toArray f [.anchor .lineEnd] some) AtEnd := by
  intro s hs
  have hheld : holdsAt text.toArray f s.pos .lineEnd = true ↔ AtEnd (text.drop s.pos) := by
    have hempty : s.pos = text.length ↔ text.drop s.pos = [] := by
      rw [List.drop_eq_nil_iff]
      omega
    have hfeed : text[s.pos]? = some '\n' ∧ s.pos + 1 = text.length ↔ text.drop s.pos = ['\n'] := by
      constructor
      · rintro ⟨hc, hlast⟩
        obtain ⟨hlt, hget⟩ := List.getElem?_eq_some_iff.mp hc
        rw [List.drop_eq_getElem_cons hlt, hget, List.drop_eq_nil_iff.mpr (by omega)]
      · intro hdrop
        have hlength := congrArg List.length hdrop
        rw [List.length_drop, List.length_singleton] at hlength
        have hhead := congrArg List.head? hdrop
        rw [List.head?_drop, List.head?_cons] at hhead
        exact ⟨hhead, by omega⟩
    simp [holdsAt, hlines, AtEnd, hempty, hfeed]
  simp only [matchList, matchNode]
  rw [← hheld]
  split <;> simp_all

variable {p : Compiled}

/-- A pattern for the end of the line matches at a place if a word of its language stands there at the
end. -/
theorem matchesAt_iff (front : List Node) (hnodes : p.nodes = front ++ [.anchor .lineEnd])
    (hlines : p.flags.multiline = false)
    (hfront : Spells text (matchList text.toArray p.flags front) L) {pos : Nat}
    (hpos : pos ≤ text.length) :
    p.matchesAt text.toArray pos = true ↔ Past L AtEnd (text.drop pos) := by
  rw [Compiled.matchesAt, hnodes, matchList_append]
  exact hfront _ _ (wants_lineEnd hlines) _ hpos

/-- A pattern for a whole line matches if the text is a word of its language, up to a final line feed. -/
theorem matchesStart_iff (front : List Node)
    (hnodes : p.nodes = .anchor .lineStart :: (front ++ [.anchor .lineEnd]))
    (hlines : p.flags.multiline = false)
    (hfront : Spells text (matchList text.toArray p.flags front) L) :
    p.matchesStart text = true ↔ Past L AtEnd text := by
  have hstart : p.matchesStart text =
      Compiled.matchesAt { p with nodes := front ++ [.anchor .lineEnd] } text.toArray 0 := by
    simp [Compiled.matchesStart, Compiled.matchesAt, hnodes, matchList, matchNode, holdsAt]
  rw [hstart, matchesAt_iff (p := { p with nodes := _ }) front rfl hlines hfront (Nat.zero_le _),
    List.drop_zero]

/-- A pattern for the end of a line is found if a word of its language stands there, up to a final line
feed. -/
theorem search_iff (front : List Node) (hnodes : p.nodes = front ++ [.anchor .lineEnd])
    (hlines : p.flags.multiline = false)
    (hfront : Spells text (matchList text.toArray p.flags front) L) :
    p.search text = true ↔ ∃ t, t <:+ text ∧ Past L AtEnd t := by
  rw [Compiled.search, List.any_eq_true]
  constructor
  · rintro ⟨pos, hpos, hmatch⟩
    have hle : pos ≤ text.length := Nat.lt_succ_iff.mp (List.mem_range.mp hpos)
    exact ⟨_, List.drop_suffix pos text, (matchesAt_iff front hnodes hlines hfront hle).mp hmatch⟩
  · rintro ⟨t, hsuffix, hpast⟩
    have hdrop : text.drop (text.length - t.length) = t := (List.suffix_iff_eq_drop.mp hsuffix).symm
    have hle : text.length - t.length ≤ text.length := Nat.sub_le _ _
    refine ⟨_, List.mem_range.mpr (Nat.lt_succ_iff.mpr hle), ?_⟩
    rw [matchesAt_iff front hnodes hlines hfront hle, hdrop]
    exact hpast

end FieldRules.Pattern
