import FieldRules.Proofs.Checks.Passing
import FieldRules.Proofs.Pattern.Alternatives

/-!
# Media types and extensions

The rules about uploads put their parameters into a pattern. What the pattern accepts is said here without
it: a media type passes if a parameter stands for it, with stars for one or more characters (`mimes_exact`),
and a name passes if it ends with a point and a parameter (`ext_exact`).
-/

namespace FieldRules.Checks

open FieldRules.Pattern

/-! ## Uploads of a value -/

/-- A value holds an upload: it is the upload, or a list or a tuple that has it as a member. -/
inductive Holds : Value → Upload → Prop
  | itself (f : Upload) : Holds (.file f) f
  | inList {vs : List Value} {f : Upload} (h : .file f ∈ vs) : Holds (.list vs) f
  | inTuple {vs : List Value} {f : Upload} (h : .file f ∈ vs) : Holds (.tuple vs) f

theorem mem_uploadsOf_iff {vs : List Value} {f : Upload} : f ∈ uploadsOf vs ↔ .file f ∈ vs := by
  rw [uploadsOf, List.mem_filterMap]
  constructor
  · rintro ⟨v, hv, hf⟩
    split at hf
    · obtain rfl := Option.some.inj hf
      exact hv
    · simp at hf
  · exact fun h => ⟨.file f, h, rfl⟩

theorem mem_uploads_iff {v : Value} {f : Upload} : f ∈ uploads v ↔ Holds v f := by
  constructor
  · intro hf
    unfold uploads at hf
    split at hf
    · obtain rfl := List.mem_singleton.mp hf
      exact .itself f
    · exact .inList (mem_uploadsOf_iff.mp hf)
    · exact .inTuple (mem_uploadsOf_iff.mp hf)
    · simp at hf
  · rintro (_ | hmem | hmem)
    · exact List.mem_singleton_self f
    · exact mem_uploadsOf_iff.mpr hmem
    · exact mem_uploadsOf_iff.mpr hmem

theorem forall_holds_iff {v : Value} {P : Upload → Prop} :
    (∀ f, Holds v f → P f) ↔ ∀ f ∈ uploads v, P f := by
  simp only [mem_uploads_iff]

/-- Every upload of a value passes a test exactly if every upload that the value holds has the property that
the test decides. -/
theorem all_uploads_iff {v : Value} {test : Upload → Bool} {P : Upload → Prop}
    (h : ∀ f, Holds v f → (test f = true ↔ P f)) :
    (uploads v).all test = true ↔ ∀ f, Holds v f → P f := by
  rw [List.all_eq_true, ← forall_holds_iff]
  constructor
  · exact fun hall f hf => (h f hf).mp (hall f hf)
  · exact fun hall f hf => (h f hf).mpr (hall f hf)

/-- A rule whose pattern is read says what the pattern does. -/
theorem saysYes_of_read {pattern : List Char} {p : Compiled} {test : Compiled → Bool}
    (hread : readIgnoringCase pattern = .ok p) :
    saysYes (do
      let p ← (readIgnoringCase pattern).mapError patternFault
      return test p) = test p := by
  rw [hread]
  rfl

/-! ## Media types -/

variable {v : Value} {params : List Value}

theorem saysYes_mimes_iff (hne : params ≠ []) (hparams : ∀ p ∈ params, PlainLine p.asText.toList)
    (htypes : ∀ f, Holds v f → PlainLine f.mimeType.toList) :
    saysYes (mimes v params) = true ↔
      ∀ f, Holds v f → ∃ p ∈ params, StandsFor p.asText.toList f.mimeType.toList := by
  let forms := params.map fun p => p.asText.toList
  obtain ⟨p, hread, hmatch⟩ := matchesStart_iff_standsFor forms (by simpa [forms] using hne)
    (by simpa [forms] using hparams)
  have hpattern : '^' :: oneOf (forms.map fun form => openStars (escape form)) ++ ['$'] =
      mimePattern params := by
    simp [mimePattern, forms, Function.comp_def]
  rw [mimes, saysYes_of_read (hpattern ▸ hread), all_uploads_iff fun f hf => hmatch _ (htypes f hf)]
  simp [forms]

/-- For parameters and media types of ASCII in one line, a value passes exactly if a parameter stands for the
media type of every upload that it holds. -/
theorem mimes_exact {rule : Rule} {extra : List Value} (hname : rule.name = "mimes")
    (hne : callParams rule extra ≠ [])
    (hparams : ∀ p ∈ callParams rule extra, PlainLine p.asText.toList)
    (htypes : ∀ f, Holds v f → PlainLine f.mimeType.toList) :
    PassesRule rule extra v ↔
      ∀ f, Holds v f → ∃ p ∈ callParams rule extra, StandsFor p.asText.toList f.mimeType.toList := by
  have hmem : (rule.name, mimes) ∈ Builtin.predicates := by simp [hname, Builtin.predicates]
  rw [passesRule_iff hmem, saysYes_mimes_iff hne hparams htypes]

/-- Two stars in a row ask for two characters, and a point is only a point. -/
theorem starred_types_pass :
    let v := Value.list [.file { name := "a", mimeType := "IMAGE/x-icon" }, .text "b",
      .file { name := "c", mimeType := "application/vnd.ms" }]
    let rule : Rule := { name := "mimes", params := ["image/**", "application/vnd.*"] }
    callParams rule [] ≠ [] ∧ (∀ p ∈ callParams rule [], PlainLine p.asText.toList) ∧
      (∀ f, Holds v f → PlainLine f.mimeType.toList) ∧ PassesRule rule [] v ∧
      ¬ PassesRule { rule with params := ["image/*", "application.vnd.*"] } [] v := by
  intro v rule
  have hne : callParams rule [] ≠ [] := by decide
  have hparams : ∀ p ∈ callParams rule [], PlainLine p.asText.toList := by decide
  have htypes : ∀ f, Holds v f → PlainLine f.mimeType.toList := forall_holds_iff.mpr (by decide)
  have hpasses : PassesRule rule [] v :=
    (mimes_exact rfl hne hparams htypes).mpr (forall_holds_iff.mpr (by decide))
  refine ⟨hne, hparams, htypes, hpasses, ?_⟩
  rw [mimes_exact rfl (by decide) (by decide) htypes, forall_holds_iff]
  decide

/-! ## Extensions -/

/-- The extensions of images. -/
def imageExtensions : List String := ["jpg", "svg", "jpeg", "png", "bmp", "gif"]

theorem saysYes_ext_iff (hne : params ≠ []) (hparams : ∀ p ∈ params, PlainLine p.asText.toList)
    (hnames : ∀ f, Holds v f → PlainLine f.name.toList) :
    saysYes (ext v params) = true ↔
      ∀ f, Holds v f → ∃ p ∈ params, EndsWith ('.' :: p.asText.toList) f.name.toList := by
  let words := params.map fun p => p.asText.toList
  obtain ⟨p, hread, hsearch⟩ := search_iff_endsWith words (by simpa [words] using hne)
    (by simpa [words] using hparams)
  have hpattern : '\\' :: '.' :: oneOf (words.map escape) ++ ['$'] = extensionPattern params := by
    simp [extensionPattern, words, Function.comp_def]
  rw [ext, saysYes_of_read (hpattern ▸ hread), all_uploads_iff fun f hf => hsearch _ (hnames f hf)]
  simp [words]

/-- The pattern for the names of images is that of their extensions. -/
theorem read_imagePattern :
    extensionPattern (imageExtensions.map .text) = imagePattern.toList ∧
      ∃ p, readIgnoringCase imagePattern.toList = .ok p ∧ (isImageName = fun f => p.search f.name.toList) ∧
        ∀ text, PlainLine text →
          (p.search text = true ↔ ∃ word ∈ imageExtensions, EndsWith ('.' :: word.toList) text) := by
  obtain ⟨p, hread, hsearch⟩ := search_iff_endsWith (imageExtensions.map String.toList) (by decide)
    (by decide)
  have hpattern : '\\' :: '.' :: oneOf ((imageExtensions.map String.toList).map escape) ++ ['$'] =
      imagePattern.toList := by decide
  rw [hpattern] at hread
  refine ⟨by decide, p, hread, ?_, fun text htext => ?_⟩
  · funext f
    rw [isImageName, hread]
    rfl
  · rw [hsearch text htext]
    simp only [List.mem_map, exists_exists_and_eq_and]

/-- What is asked of images is what is asked with their extensions, of all values alike. -/
theorem saysYes_image (v : Value) (params : List Value) :
    saysYes (image v params) = saysYes (ext v (imageExtensions.map .text)) := by
  obtain ⟨hpattern, p, hread, hsame, -⟩ := read_imagePattern
  rw [ext, hpattern, saysYes_of_read hread, image, hsame]
  rfl

/-- For parameters and names of ASCII in one line, a value passes exactly if the name of every upload that it
holds ends with a point and a parameter, letters in either case. Images are what passes with their
extensions. -/
theorem ext_exact (v : Value) :
    (∀ {rule : Rule} {extra : List Value}, rule.name = "ext" → callParams rule extra ≠ [] →
      (∀ p ∈ callParams rule extra, PlainLine p.asText.toList) →
      (∀ f, Holds v f → PlainLine f.name.toList) →
      (PassesRule rule extra v ↔ ∀ f, Holds v f →
        ∃ p ∈ callParams rule extra, EndsWith ('.' :: p.asText.toList) f.name.toList)) ∧
    ∀ {rule : Rule} {extra : List Value}, rule.name = "image" →
      (PassesRule rule extra v ↔ Passes "ext:jpg,svg,jpeg,png,bmp,gif" v) := by
  constructor
  · intro rule extra hname hne hparams hnames
    have hmem : (rule.name, ext) ∈ Builtin.predicates := by simp [hname, Builtin.predicates]
    rw [passesRule_iff hmem, saysYes_ext_iff hne hparams hnames]
  · intro rule extra hname
    have hread : Rule.readAll "ext:jpg,svg,jpeg,png,bmp,gif" =
        [{ name := "ext", params := imageExtensions }] := by decide
    have himage : (rule.name, image) ∈ Builtin.predicates := by simp [hname, Builtin.predicates]
    have hext : ("ext", ext) ∈ Builtin.predicates := by simp [Builtin.predicates]
    rw [passes_iff_passesRule hread, passesRule_iff himage, passesRule_iff hext, saysYes_image]
    rfl

/-- A name with several points passes with a parameter that has a point, and not as an image. -/
theorem pointed_extension_passes :
    let v := Value.tuple [.file { name := "backup.TAR.gz" }, .int 7]
    let rule : Rule := { name := "ext", params := ["zip", "tar.gz"] }
    callParams rule [] ≠ [] ∧ (∀ p ∈ callParams rule [], PlainLine p.asText.toList) ∧
      (∀ f, Holds v f → PlainLine f.name.toList) ∧ PassesRule rule [] v ∧
      ¬ PassesRule { rule with name := "image" } [] v := by
  intro v rule
  have hne : callParams rule [] ≠ [] := by decide
  have hparams : ∀ p ∈ callParams rule [], PlainLine p.asText.toList := by decide
  have hnames : ∀ f, Holds v f → PlainLine f.name.toList := forall_holds_iff.mpr (by decide)
  have hpasses : PassesRule rule [] v :=
    ((ext_exact v).1 rfl hne hparams hnames).mpr (forall_holds_iff.mpr (by decide))
  have hread : Rule.readAll "ext:jpg,svg,jpeg,png,bmp,gif" =
      [{ name := "ext", params := imageExtensions }] := by decide
  refine ⟨hne, hparams, hnames, hpasses, ?_⟩
  rw [(ext_exact v).2 rfl, passes_iff_passesRule hread,
    (ext_exact v).1 rfl (by decide) (by decide) hnames, forall_holds_iff]
  decide

end FieldRules.Checks
