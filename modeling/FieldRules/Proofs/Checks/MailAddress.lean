import FieldRules.Proofs.Checks.Passing
import FieldRules.Proofs.Pattern.Words
import Mathlib

/-!
# Mail addresses

The pattern for mail addresses has points and letters in two of its parts, so that there are several ways to
try for one text. One way only can succeed: a mail address has one `@`, and what has to be letters stands
behind the last point of its domain (`email_exact`).
-/

namespace FieldRules.Checks

open FieldRules.Pattern
open scoped Computability

/-! ## Addresses -/

/-- A letter of ASCII. -/
def Letter (c : Char) : Prop := 'a' ≤ c ∧ c ≤ 'z' ∨ 'A' ≤ c ∧ c ≤ 'Z'

/-- A letter or a digit of ASCII, or one of some marks. -/
def NameChar (marks : List Char) (c : Char) : Prop := Letter c ∨ '0' ≤ c ∧ c ≤ '9' ∨ c ∈ marks

/-- The marks of a mailbox. -/
def mailboxMarks : List Char := ['.', '_', '%', '+', '-']

/-- The marks of a host. -/
def hostMarks : List Char := ['.', '-']

/-- A domain: behind its last point at least two letters, and before it something. -/
def MailDomain (s : List Char) : Prop :=
  ∃ host top, s = host ++ '.' :: top ∧ '.' ∉ top ∧
    host ≠ [] ∧ (∀ c ∈ host, NameChar hostMarks c) ∧ 2 ≤ top.length ∧ ∀ c ∈ top, Letter c

/-- A mail address: there is one `@`, before it a mailbox and behind it a domain. -/
def MailAddress (s : List Char) : Prop :=
  s.count '@' = 1 ∧ ∃ mailbox domain, s = mailbox ++ '@' :: domain ∧
    mailbox ≠ [] ∧ (∀ c ∈ mailbox, NameChar mailboxMarks c) ∧ MailDomain domain

theorem at_not_mem_of_nameChar {marks s : List Char} (hmarks : '@' ∉ marks)
    (hs : ∀ c ∈ s, NameChar marks c) : '@' ∉ s := by
  intro hmem
  rcases hs '@' hmem with hletter | hdigit | hmark
  · exact absurd hletter (by simp [Letter])
  · exact absurd hdigit (by simp)
  · exact hmarks hmark

/-! ## Sets of the pattern -/

/-- The set of letters. -/
def letterItems : List SetItem := [.range 97 122, .range 65 90]

/-- The set of letters, digits and some marks. -/
def nameItems (marks : List Char) : List SetItem :=
  letterItems ++ .range 48 57 :: marks.map fun d => .point d.toNat

theorem letter_iff {c : Char} :
    Letter c ↔ 97 ≤ c.toNat ∧ c.toNat ≤ 122 ∨ 65 ≤ c.toNat ∧ c.toNat ≤ 90 := by
  simp [Letter, Char.le_def, UInt32.le_iff_toNat_le]

theorem digit_iff {c : Char} : '0' ≤ c ∧ c ≤ '9' ↔ 48 ≤ c.toNat ∧ c.toNat ≤ 57 := by
  simp [Char.le_def, UInt32.le_iff_toNat_le]

theorem matchesSet_letters {c : Char} : matchesSet {} false letterItems c = true ↔ Letter c := by
  rw [letter_iff]
  simp [matchesSet, letterItems, inItem]

theorem matchesSet_names {marks : List Char} {c : Char} :
    matchesSet {} false (nameItems marks) c = true ↔ NameChar marks c := by
  rw [NameChar, letter_iff, digit_iff, ← any_inItem_points (f := {})]
  simp [matchesSet, nameItems, letterItems, inItem, or_assoc]

/-! ## The pattern -/

/-- The parts of the pattern between start and end. -/
def mailNodes : List Node :=
  [manyOf false (nameItems mailboxMarks) 1, .point '@'.toNat false, manyOf false (nameItems hostMarks) 1,
    .point '.'.toNat false, manyOf false letterItems 2]

/-- The words that the parts go past. -/
def mailWords : Language Char :=
  manyWords {} false (nameItems mailboxMarks) 1 * (letters (matchesPoint {} '@'.toNat) *
    (manyWords {} false (nameItems hostMarks) 1 * (letters (matchesPoint {} '.'.toNat) *
      manyWords {} false letterItems 2)))

/-- What the pattern is read as. -/
def mailForm : Compiled where
  nodes := .anchor .lineStart :: (mailNodes ++ [.anchor .lineEnd])
  flags := {}
  groups := 0

theorem read_mailPattern : Pattern.read mailPattern.toList = .ok mailForm := by
  cbv

theorem spells_mailNodes {text : List Char} :
    Spells text (matchList text.toArray {} mailNodes) mailWords :=
  spells_cons (spells_manyOf false _ 1) <| spells_cons (spells_point _) <|
    spells_cons (spells_manyOf false _ 1) <| spells_cons (spells_point _) <|
      spells_singleton (spells_manyOf false _ 2)

theorem mem_point_mul {d : Char} {L : Language Char} {s : List Char} :
    s ∈ letters (matchesPoint {} d.toNat) * L ↔ ∃ rest, s = d :: rest ∧ rest ∈ L := by
  rw [mem_letters_mul]
  simp [matchesPoint, Char.toNat_inj]

/-- The words of the pattern are the mail addresses, however their points and letters could be shared out. -/
theorem mem_mailWords_iff {s : List Char} : s ∈ mailWords ↔ MailAddress s := by
  constructor
  · intro hs
    obtain ⟨mailbox, hmailbox, behind, hbehind, rfl⟩ := Language.mem_mul.mp hs
    obtain ⟨domain, rfl, hdomain⟩ := mem_point_mul.mp hbehind
    obtain ⟨host, hhost, end_, hend, rfl⟩ := Language.mem_mul.mp hdomain
    obtain ⟨top, rfl, htop⟩ := mem_point_mul.mp hend
    simp only [mem_manyWords_iff, matchesSet_names, matchesSet_letters] at hmailbox hhost htop
    -- What stands behind the point is of letters, so the point is the last one; and no part has an `@`.
    have hpoint : '.' ∉ top := fun h => absurd (htop.2 '.' h) (by simp [Letter])
    have hboxed : '@' ∉ mailbox := at_not_mem_of_nameChar (by decide) hmailbox.2
    have hhosted : '@' ∉ host := at_not_mem_of_nameChar (by decide) hhost.2
    have htopped : '@' ∉ top := fun h => absurd (htop.2 '@' h) (by simp [Letter])
    have hone : (mailbox ++ '@' :: (host ++ '.' :: top)).count '@' = 1 := by
      simp [List.count_append, List.count_eq_zero.mpr hboxed, List.count_eq_zero.mpr hhosted,
        List.count_eq_zero.mpr htopped]
    exact ⟨hone, mailbox, _, rfl, List.ne_nil_of_length_pos hmailbox.1, hmailbox.2, host, top, rfl, hpoint,
      List.ne_nil_of_length_pos hhost.1, hhost.2, htop.1, htop.2⟩
  · rintro ⟨-, mailbox, domain, rfl, hne, hmailbox, host, top, rfl, -, hhostNe, hhost, hlength, htop⟩
    have hbox : mailbox ∈ manyWords {} false (nameItems mailboxMarks) 1 :=
      mem_manyWords_iff.mpr ⟨List.length_pos_iff.mpr hne, fun c hc => matchesSet_names.mpr (hmailbox c hc)⟩
    have hhosted : host ∈ manyWords {} false (nameItems hostMarks) 1 :=
      mem_manyWords_iff.mpr ⟨List.length_pos_iff.mpr hhostNe, fun c hc => matchesSet_names.mpr (hhost c hc)⟩
    have htopped : top ∈ manyWords {} false letterItems 2 :=
      mem_manyWords_iff.mpr ⟨hlength, fun c hc => matchesSet_letters.mpr (htop c hc)⟩
    have hdomain : host ++ '.' :: top ∈ manyWords {} false (nameItems hostMarks) 1 *
        (letters (matchesPoint {} '.'.toNat) * manyWords {} false letterItems 2) :=
      Language.append_mem_mul hhosted (mem_point_mul.mpr ⟨top, rfl, htopped⟩)
    exact Language.append_mem_mul hbox (mem_point_mul.mpr ⟨_, rfl, hdomain⟩)

/-! ## The rule -/

theorem passes_email_iff {v : Value} : Passes "email" v ↔ Past mailWords AtEnd v.fieldText.toList := by
  have hread : Rule.readAll "email" = [{ name := "email" }] := by decide
  have hname : ("email", email) ∈ Builtin.predicates := by simp [Builtin.predicates]
  rw [passes_iff hread hname, email, saysYes_fits read_mailPattern]
  exact matchesStart_iff (p := mailForm) mailNodes rfl rfl spells_mailNodes

/-- The text of a value that is one line passes exactly if it is a mail address. -/
theorem email_exact {v : Value} (hline : '\n' ∉ v.fieldText.toList) :
    Passes "email" v ↔ MailAddress v.fieldText.toList := by
  rw [passes_email_iff, past_atEnd hline, mem_mailWords_iff]

/-- An address whose domain has several points, and one that an `@` in its domain spoils. -/
theorem mail_addresses_told_apart :
    let good := Value.text "jo.doe+list@mail.example.org"
    let bad := Value.text "jo@mail@example.org"
    ('\n' ∉ good.fieldText.toList ∧ Passes "email" good) ∧
      '\n' ∉ bad.fieldText.toList ∧ ¬ Passes "email" bad := by
  intro good bad
  have hgood : '\n' ∉ good.fieldText.toList := by decide
  have hbad : '\n' ∉ bad.fieldText.toList := by decide
  have hmailbox : ∀ c ∈ "jo.doe+list".toList, NameChar mailboxMarks c := by
    simp [NameChar, Letter, mailboxMarks]
  have hhost : ∀ c ∈ "mail.example".toList, NameChar hostMarks c := by
    simp [NameChar, Letter, hostMarks]
  have htop : ∀ c ∈ "org".toList, Letter c := by simp [Letter]
  have haddress : MailAddress good.fieldText.toList :=
    ⟨by decide, "jo.doe+list".toList, "mail.example.org".toList, by decide, by decide, hmailbox,
      "mail.example".toList, "org".toList, by decide, by decide, by decide, hhost, by decide, htop⟩
  refine ⟨⟨hgood, (email_exact hgood).mpr haddress⟩, hbad, fun hpasses => ?_⟩
  have hone := ((email_exact hbad).mp hpasses).1
  exact absurd hone (by decide)

end FieldRules.Checks
