import FieldRules.Folder
import FieldRules.Proofs.Table
import FieldRules.Proofs.Text.Sorted

/-!
# What a directory lists

A directory lists each of its names once (`nodup_namesIn`), and it lists a name exactly if something
stands at the path of this entry (`mem_namesIn_iff`). The order in which it lists them is that of the
tree and says nothing: a tree whose items are turned round has the same entries (`sameEntries_of_perm`).

A name has an extension exactly if it goes on with it after at least one character (`suffix_entry_iff`).
-/

namespace FieldRules

namespace Path

/-! ## Extensions -/

/-- A name is left whole, or it is cut behind at least one character. -/
theorem cutName_cases (p : Path) :
    p.cutName = (p.name, []) ∨ ∃ s e, p.cutName = (s, e) ∧ s ≠ [] ∧ p.name = s ++ e := by
  unfold cutName
  simp only []
  split
  · rename_i point c rest hback
    split
    · exact Or.inl rfl
    · right
      refine ⟨_, _, rfl, ?_, (List.take_append_drop _ _).symm⟩
      have hlength : p.name.reverse.length =
          (p.name.reverse.takeWhile (· != '.')).length + (point :: c :: rest).length := by
        rw [← hback, ← List.length_append, List.takeWhile_append_dropWhile]
      simp only [List.length_reverse, List.length_cons] at hlength ⊢
      rw [ne_eq, List.take_eq_nil_iff]
      rintro (hzero | hname)
      · omega
      · rw [hname] at hlength
        simp at hlength
  · exact Or.inl rfl

/-- A name is cut before its last point. -/
theorem cutName_of_name {p : Path} {s e : List Char} (h : p.name = s ++ '.' :: e) (hs : s ≠ [])
    (he : e ≠ []) (hpoint : '.' ∉ e) : p.cutName = (s, '.' :: e) := by
  have hpast : ∀ c ∈ e.reverse, (c != '.') = true := by
    intro c hc
    rw [bne_iff_ne]
    rintro rfl
    exact hpoint (List.mem_reverse.mp hc)
  have hback : p.name.reverse = e.reverse ++ '.' :: s.reverse := by simp [h]
  have hextension : p.name.reverse.takeWhile (· != '.') = e.reverse := by
    rw [hback, List.takeWhile_append_of_pos hpast]
    simp
  have hrest : p.name.reverse.dropWhile (· != '.') = '.' :: s.reverse := by
    rw [hback, List.dropWhile_append_of_pos hpast]
    simp
  have hlength : p.name.reverse.length - e.reverse.length - 1 = s.length := by
    rw [hback]
    simp
  obtain ⟨c, rest, hcons⟩ := List.exists_cons_of_ne_nil (List.reverse_ne_nil_iff.mpr hs)
  unfold cutName
  simp only [hextension, hrest, hcons, hlength]
  rw [if_neg (by simpa using he), h, List.take_left, List.drop_left]

theorem name_entry (p : Path) (n : String) : (p.entry n).name = n.toList := by
  simp [name, entry]

/-- An entry has an extension exactly if its name has something before it. -/
theorem suffix_entry_iff (p : Path) {n : String} {e : List Char} (he : e ≠ []) (hpoint : '.' ∉ e) :
    (p.entry n).suffix = String.ofList ('.' :: e) ↔
      ∃ s : String, s ≠ "" ∧ n = s ++ String.ofList ('.' :: e) := by
  constructor
  · intro h
    have hcut : (p.entry n).cutName.2 = '.' :: e := String.ofList_injective h
    rcases (p.entry n).cutName_cases with hwhole | ⟨s, e', hsplit, hs, hname⟩
    · simp [hwhole] at hcut
    · rw [hsplit] at hcut
      simp only at hcut
      rw [name_entry, hcut] at hname
      refine ⟨String.ofList s, by simpa using hs, ?_⟩
      rw [← String.ofList_append, ← hname, String.ofList_toList]
  · rintro ⟨s, hs, rfl⟩
    have hname : (p.entry (s ++ String.ofList ('.' :: e))).name = s.toList ++ '.' :: e := by
      rw [name_entry, String.toList_append, String.toList_ofList]
    rw [suffix, cutName_of_name hname (by simpa using hs) he hpoint]

end Path

namespace Folder

variable {f f' : Folder} {directory path : Path}

/-! ## Names -/

theorem isAbove_iff : isAbove directory path = true ↔
    ∃ n rest, path = { directory with names := directory.names ++ n :: rest } := by
  unfold isAbove
  rw [Bool.and_eq_true, Bool.and_eq_true, beq_iff_eq, decide_eq_true_eq, List.isPrefixOf_iff_prefix]
  constructor
  · rintro ⟨⟨hstart, hlength⟩, rest, hnames⟩
    cases rest with
    | nil => simp [← hnames] at hlength
    | cons n rest => exact ⟨n, rest, by rw [hstart, hnames]⟩
  · rintro ⟨n, rest, rfl⟩
    exact ⟨⟨rfl, by simp⟩, List.prefix_append _ _⟩

theorem nodup_namesIn (f : Folder) (directory : Path) : (f.namesIn directory).Nodup :=
  nodup_eraseDups _

/-- A directory lists a name exactly if something stands there under this name. -/
theorem mem_namesIn_iff {n : String} :
    n ∈ f.namesIn directory ↔ (f.item? (directory.entry n)).isSome = true := by
  have hlisted : n ∈ f.namesIn directory ↔
      ∃ e ∈ f.items, ∃ rest, e.1 = { directory with names := directory.names ++ n :: rest } := by
    unfold namesIn
    rw [List.mem_eraseDups, List.mem_filterMap]
    apply exists_congr
    intro e
    apply and_congr_right
    intro _
    constructor
    · intro h
      split at h
      · rename_i habove
        obtain ⟨m, rest, he⟩ := isAbove_iff.mp habove
        rw [he] at h
        obtain rfl : m = n := by simpa using h
        exact ⟨rest, he⟩
      · simp at h
    · rintro ⟨rest, he⟩
      rw [if_pos (isAbove_iff.mpr ⟨n, rest, he⟩), he]
      simp
  have hnot : (directory.entry n == {}) = false := by
    simp [Path.entry]
  have hthere : (f.item? (directory.entry n)).isSome = true ↔
      directory.entry n ∈ Table.keys f.items ∨
        ∃ e ∈ f.items, isAbove (directory.entry n) e.1 = true := by
    rw [← Table.get?_isSome_iff]
    unfold item?
    cases Table.get? f.items (directory.entry n) with
    | some item => simp
    | none => simp [hnot]
  rw [hlisted, hthere]
  constructor
  · rintro ⟨e, he, rest, hpath⟩
    cases rest with
    | nil => exact Or.inl (List.mem_map.mpr ⟨e, he, hpath⟩)
    | cons m rest =>
        refine Or.inr ⟨e, he, isAbove_iff.mpr ⟨m, rest, ?_⟩⟩
        rw [hpath]
        simp [Path.entry]
  · rintro (hhere | ⟨e, he, habove⟩)
    · obtain ⟨e, he, hpath⟩ := List.mem_map.mp hhere
      exact ⟨e, he, [], hpath⟩
    · obtain ⟨m, rest, hpath⟩ := isAbove_iff.mp habove
      refine ⟨e, he, m :: rest, ?_⟩
      rw [hpath]
      simp [Path.entry]

/-! ## Two listings of a directory -/

/-- Two trees have the same entries in a directory, which they may list in different orders, and their YAML
is read with the same library. -/
structure SameEntries (f f' : Folder) (directory : Path) : Prop where
  yaml : f'.yaml = f.yaml
  there : f'.isDirectory directory = f.isDirectory directory
  names : (f'.namesIn directory).Perm (f.namesIn directory)
  contents : ∀ n ∈ f.namesIn directory, f'.bytes? (directory.entry n) = f.bytes? (directory.entry n)

/-- Trees in which the same things stand at every path have the same entries. -/
theorem sameEntries_of_item? (hyaml : f'.yaml = f.yaml) (h : ∀ path, f'.item? path = f.item? path)
    (directory : Path) : SameEntries f f' directory where
  yaml := hyaml
  there := by rw [isDirectory, isDirectory, h]
  names := by
    rw [List.perm_ext_iff_of_nodup (nodup_namesIn _ _) (nodup_namesIn _ _)]
    intro n
    rw [mem_namesIn_iff, mem_namesIn_iff, h]
  contents := by
    intro n _
    rw [bytes?, bytes?, h]

/-- Turning the items of a tree round changes nothing but the order in which they are listed. -/
theorem sameEntries_of_perm (hyaml : f'.yaml = f.yaml) (hperm : f'.items.Perm f.items)
    (hnodup : (Table.keys f'.items).Nodup) (directory : Path) : SameEntries f f' directory := by
  apply sameEntries_of_item? hyaml
  intro path
  unfold item?
  rw [Table.get?_eq_of_perm hperm hnodup, hperm.any_eq]

end Folder

end FieldRules
