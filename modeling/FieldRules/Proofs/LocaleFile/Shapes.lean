import FieldRules.Proofs.Dictionary.Merge
import FieldRules.Proofs.LocaleFile
import FieldRules.Yaml.Reader

/-!
# The documents that locale files may hold

A locale file is to hold nothing, or a mapping in one of two shapes: locales with names and texts, or
names and texts alone. Mappings are accepted in exactly these shapes, and then exactly their texts are
merged (`treated_document`). What is no mapping is refused, but only if it is true: zero, the empty text,
the empty list and whatever else counts as false pass for an empty file (`no_mapping_accepted`).
-/

namespace FieldRules

namespace LocaleFile

/-! ## Shapes -/

/-- A mapping of locales to mappings of names to texts. -/
def ByLocale (es : List (Value × Value)) : Prop :=
  ∀ e ∈ es, ∃ names, e.2 = .dict names ∧ ∀ x ∈ names, ∃ t, x.2 = .text t

/-- A mapping of names to texts, for the locale that the file is called after. -/
def ByName (es : List (Value × Value)) : Prop := ∀ e ∈ es, ∃ t, e.2 = .text t

/-- What a locale file is meant to hold. -/
inductive Documented : Value → Prop
  | empty : Documented .null
  | byLocale {es : List (Value × Value)} (h : ByLocale es) : Documented (.dict es)
  | byName {es : List (Value × Value)} (h : ByName es) : Documented (.dict es)

/-- A mapping has a template for a locale and a name: under them, or under the name alone in a file that is
called after the locale. -/
inductive HasTemplate (stem : String) (es : List (Value × Value)) (l n : Key) (t : String) : Prop
  | underLocale {k j : Value} {names : List (Value × Value)} (hlocale : (k, .dict names) ∈ es)
      (hl : k.key? = some l) (hname : (j, .text t) ∈ names) (hn : j.key? = some n)
  | ofFile {j : Value} (hl : l = .text stem) (hname : (j, .text t) ∈ es) (hn : j.key? = some n)

/-- A mapping has a locale, perhaps without names. -/
inductive OpensLocale (stem : String) (es : List (Value × Value)) (l : Key) : Prop
  | atTop {k : Value} {names : List (Value × Value)} (hlocale : (k, .dict names) ∈ es)
      (hl : k.key? = some l)
  | ofFile {j : Value} {t : String} (hl : l = .text stem) (hname : (j, .text t) ∈ es)

/-- Exactly the templates of a mapping have been merged. -/
structure MergesTemplates (d d' : Dictionary) (stem : String) (es : List (Value × Value)) : Prop where
  given : ∀ l n t, HasTemplate stem es l n t → d'.get? l n = some (templateMessage t)
  kept : ∀ l n, (∀ t, ¬ HasTemplate stem es l n t) → d'.get? l n = d.get? l n
  locales : ∀ l, d'.hasLocale l = true ↔ d.hasLocale l = true ∨ OpensLocale stem es l

/-! ## A mapping as what is merged -/

variable {stem : String} {es : List (Value × Value)}

theorem entries?_eq_some_iff {v : Value} {names : List (Value × Value)} :
    entries? v = some names ↔ v = .dict names := by
  cases v <;> simp [entries?]

theorem mem_leaves {n : Key} {m : Message} :
    (n, m) ∈ leaves es ↔ ∃ e ∈ es, e.1.key? = some n ∧ m = .plain e.2 := by
  unfold leaves
  rw [List.mem_filterMap]
  simp only [Option.map_eq_some_iff, Prod.mk.injEq]
  constructor
  · rintro ⟨e, he, k, hk, rfl, rfl⟩
    exact ⟨e, he, hk, rfl⟩
  · rintro ⟨e, he, hk, rfl⟩
    exact ⟨e, he, n, hk, rfl, rfl⟩

/-- Every value of a mapping is a mapping. -/
def AllMappings (es : List (Value × Value)) : Prop := ∀ e ∈ es, ∃ names, e.2 = .dict names

theorem isSome_mapM_entries?_iff : (es.mapM fun e => entries? e.2).isSome = true ↔ AllMappings es := by
  rw [isSome_mapM_iff]
  apply forall₂_congr
  intro e _
  simp only [Option.isSome_iff_exists, entries?_eq_some_iff]

theorem messages_of_allMappings (stem : String) (h : AllMappings es) :
    messages stem es =
      es.filterMap fun e => e.1.key?.map fun k => (k, ofLocale e) := by
  obtain ⟨names, hnames⟩ := Option.isSome_iff_exists.mp (isSome_mapM_entries?_iff.mpr h)
  rw [messages, hnames]

theorem messages_of_not_allMappings (stem : String) (h : ¬ AllMappings es) :
    messages stem es = [(.text stem, .ok (leaves es))] := by
  rw [← isSome_mapM_entries?_iff, Option.not_isSome_iff_eq_none] at h
  rw [messages, h]

theorem mem_messages_of_allMappings (h : AllMappings es) {l : Key}
    {names : Except String (List (Key × Message))} : (l, names) ∈ messages stem es ↔
      ∃ k entries, (k, .dict entries) ∈ es ∧ k.key? = some l ∧ names = .ok (leaves entries) := by
  rw [messages_of_allMappings stem h, List.mem_filterMap]
  simp only [Option.map_eq_some_iff, Prod.mk.injEq]
  constructor
  · rintro ⟨e, he, k, hk, rfl, rfl⟩
    obtain ⟨entries, hentries⟩ := h e he
    refine ⟨e.1, entries, ?_, hk, ?_⟩
    · rw [← hentries]
      exact he
    · rw [ofLocale, hentries]
      rfl
  · rintro ⟨k, entries, hmem, hk, rfl⟩
    exact ⟨(k, .dict entries), hmem, l, hk, rfl, rfl⟩

/-- A mapping of either shape has the first if all its values are mappings. -/
theorem byLocale_of_allMappings (h : AllMappings es) (hshape : ByLocale es ∨ ByName es) : ByLocale es := by
  rcases hshape with hlocale | hname
  · exact hlocale
  · intro e he
    -- No value is both, so there is none.
    obtain ⟨names, hnames⟩ := h e he
    obtain ⟨t, ht⟩ := hname e he
    rw [hnames] at ht
    simp at ht

/-- A mapping of either shape has the second if not all its values are mappings. -/
theorem byName_of_not_allMappings (h : ¬ AllMappings es) (hshape : ByLocale es ∨ ByName es) :
    ByName es := by
  refine hshape.resolve_left fun hlocale => h fun e he => ?_
  obtain ⟨names, hnames, -⟩ := hlocale e he
  exact ⟨names, hnames⟩

/-- What is merged of a mapping of either shape are its templates. -/
theorem hasLeaf_messages_iff (hshape : ByLocale es ∨ ByName es) {l n : Key} {m : Message} :
    Dictionary.Partial.HasLeaf (messages stem es) l n m ↔
      ∃ t, HasTemplate stem es l n t ∧ m = .template t := by
  by_cases hall : AllMappings es
  · have hlocale := byLocale_of_allMappings hall hshape
    constructor
    · rintro ⟨names, hmem, hleaf⟩
      obtain ⟨k, entries, hentries, hk, hnames⟩ := (mem_messages_of_allMappings hall).mp hmem
      obtain rfl := Except.ok.inj hnames
      obtain ⟨x, hx, hn, rfl⟩ := mem_leaves.mp hleaf
      obtain ⟨entries', hsame, htexts⟩ := hlocale _ hentries
      obtain rfl := Value.dict.inj hsame
      obtain ⟨t, ht⟩ := htexts x hx
      refine ⟨t, .underLocale (j := x.1) hentries hk ?_ hn, by rw [ht]; rfl⟩
      rw [← ht]
      exact hx
    · rintro ⟨t, htemplate, rfl⟩
      cases htemplate with
      | underLocale hentries hk hname hn =>
          exact ⟨_, (mem_messages_of_allMappings hall).mpr ⟨_, _, hentries, hk, rfl⟩,
            mem_leaves.mpr ⟨_, hname, hn, rfl⟩⟩
      | ofFile _ hname _ =>
          obtain ⟨names, hnames⟩ := hall _ hname
          simp at hnames
  · have hname := byName_of_not_allMappings hall hshape
    rw [messages_of_not_allMappings stem hall]
    constructor
    · rintro ⟨names, hmem, hleaf⟩
      obtain ⟨rfl, hnames⟩ := Prod.mk.inj (List.mem_singleton.mp hmem)
      obtain rfl := Except.ok.inj hnames
      obtain ⟨x, hx, hn, rfl⟩ := mem_leaves.mp hleaf
      obtain ⟨t, ht⟩ := hname x hx
      refine ⟨t, .ofFile (j := x.1) rfl ?_ hn, by rw [ht]; rfl⟩
      rw [← ht]
      exact hx
    · rintro ⟨t, htemplate, rfl⟩
      cases htemplate with
      | underLocale hentries _ _ _ =>
          obtain ⟨t', ht'⟩ := hname _ hentries
          simp at ht'
      | ofFile hl hj hn =>
          rw [hl]
          exact ⟨_, List.mem_singleton_self _, mem_leaves.mpr ⟨_, hj, hn, rfl⟩⟩

/-- The locales that are merged of a mapping of either shape are its own. -/
theorem mem_keys_messages_iff (hshape : ByLocale es ∨ ByName es) {l : Key} :
    l ∈ Table.keys (messages stem es) ↔ OpensLocale stem es l := by
  rw [Table.keys, List.mem_map]
  by_cases hall : AllMappings es
  · constructor
    · rintro ⟨⟨l', names⟩, hmem, rfl⟩
      obtain ⟨k, entries, hentries, hk, -⟩ := (mem_messages_of_allMappings hall).mp hmem
      exact .atTop hentries hk
    · intro hopens
      cases hopens with
      | atTop hentries hk =>
          exact ⟨_, (mem_messages_of_allMappings hall).mpr ⟨_, _, hentries, hk, rfl⟩, rfl⟩
      | ofFile _ hname =>
          obtain ⟨names, hnames⟩ := hall _ hname
          simp at hnames
  · have hname := byName_of_not_allMappings hall hshape
    rw [messages_of_not_allMappings stem hall]
    constructor
    · rintro ⟨e, hmem, rfl⟩
      rw [List.mem_singleton.mp hmem]
      -- A mapping whose values are not all mappings has a value.
      obtain ⟨e, he, -⟩ : ∃ e ∈ es, ¬ ∃ names, e.2 = .dict names := by
        rw [AllMappings] at hall
        push Not at hall
        simpa using hall
      obtain ⟨t, ht⟩ := hname e he
      refine .ofFile (j := e.1) (t := t) rfl ?_
      rw [← ht]
      exact he
    · intro hopens
      cases hopens with
      | atTop hentries _ =>
          obtain ⟨t, ht⟩ := hname _ hentries
          simp at ht
      | ofFile hl _ => exact ⟨_, List.mem_singleton_self _, hl.symm⟩

/-! ### Documents that were read -/

theorem nodup_keys_leaves {ks : List Key} (h : Value.HasKeys es ks) :
    (Table.keys (leaves es)).Nodup := by
  have hkeys : Table.keys (leaves es) = es.filterMap (·.1.key?) := by
    rw [Table.keys, leaves, List.map_filterMap]
    congr 1
    funext e
    cases e.1.key? <;> rfl
  rw [hkeys, h.filterMap_key?]
  exact h.2

/-- What is merged of a mapping that was read is a mapping again. -/
theorem isMapping_messages (stem : String) (h : Value.Keyed (.dict es)) :
    Dictionary.Partial.IsMapping (messages stem es) := by
  cases h with
  | other hother => exact absurd rfl (hother es)
  | dict hkeys hvalues =>
      constructor
      · rcases keys_messages stem es with hall | hone
        · rw [hall, hkeys.filterMap_key?]
          exact hkeys.2
        · rw [hone]
          exact List.nodup_singleton _
      · intro l names hmem
        by_cases hall : AllMappings es
        · obtain ⟨k, entries, hentries, -, hnames⟩ := (mem_messages_of_allMappings hall).mp hmem
          obtain rfl := Except.ok.inj hnames
          cases hvalues _ hentries with
          | other hother => exact absurd rfl (hother entries)
          | dict hkeys _ => exact nodup_keys_leaves hkeys
        · rw [messages_of_not_allMappings stem hall, List.mem_singleton] at hmem
          obtain rfl := Except.ok.inj (Prod.mk.inj hmem).2
          exact nodup_keys_leaves hkeys

theorem usable_plain_iff {v : Value} : (Message.plain v).Usable ↔ ∃ t, v = .text t := by
  constructor
  · rintro ⟨f, hf⟩
    cases hf with
    | template t => exact ⟨t, rfl⟩
  · rintro ⟨t, rfl⟩
    exact ⟨_, .template t⟩

/-- The names of a mapping that was read can all be merged exactly if they stand for texts. -/
theorem usable_leaves_iff {ks : List Key} (h : Value.HasKeys es ks) :
    (∀ x ∈ leaves es, x.2.Usable) ↔ ByName es := by
  constructor
  · intro husable e he
    obtain ⟨j, hj⟩ := h.exists_key? he
    exact usable_plain_iff.mp (husable (j, .plain e.2) (mem_leaves.mpr ⟨e, he, hj, rfl⟩))
  · rintro hname ⟨n, m⟩ hx
    obtain ⟨e, he, -, rfl⟩ := mem_leaves.mp hx
    exact usable_plain_iff.mpr (hname e he)

/-- A mapping that was read can be merged exactly if it has one of the two shapes. -/
theorem wellFormed_messages_iff (stem : String) (h : Value.Keyed (.dict es)) :
    Dictionary.Partial.WellFormed (messages stem es) ↔ ByLocale es ∨ ByName es := by
  cases h with
  | other hother => exact absurd rfl (hother es)
  | dict hkeys hvalues =>
      by_cases hall : AllMappings es
      · have hshape : ByLocale es ∨ ByName es ↔ ByLocale es :=
          ⟨byLocale_of_allMappings hall, Or.inl⟩
        rw [hshape]
        constructor
        · intro hwell e he
          obtain ⟨entries, hentries⟩ := hall e he
          obtain ⟨j, hj⟩ := hkeys.exists_key? he
          have hmem : (j, .ok (leaves entries)) ∈ messages stem es := by
            refine (mem_messages_of_allMappings hall).mpr ⟨e.1, entries, ?_, hj, rfl⟩
            rw [← hentries]
            exact he
          obtain ⟨names, hnames, husable⟩ := hwell _ hmem
          obtain rfl := Except.ok.inj hnames
          have hkeyed := hvalues e he
          rw [hentries] at hkeyed
          cases hkeyed with
          | other hother => exact absurd rfl (hother entries)
          | dict hkeys _ => exact ⟨entries, hentries, (usable_leaves_iff hkeys).mp husable⟩
        · rintro hlocale ⟨l, names⟩ hmem
          obtain ⟨k, entries, hentries, -, rfl⟩ := (mem_messages_of_allMappings hall).mp hmem
          obtain ⟨entries', hsame, htexts⟩ := hlocale _ hentries
          obtain rfl := Value.dict.inj hsame
          cases hvalues _ hentries with
          | other hother => exact absurd rfl (hother entries)
          | dict hkeys _ => exact ⟨_, rfl, (usable_leaves_iff hkeys).mpr htexts⟩
      · have hshape : ByLocale es ∨ ByName es ↔ ByName es :=
          ⟨byName_of_not_allMappings hall, Or.inr⟩
        rw [hshape, messages_of_not_allMappings stem hall, ← usable_leaves_iff hkeys]
        simp [Dictionary.Partial.WellFormed]

/-- Merging a mapping that was read and has one of the two shapes merges its templates. -/
theorem mergesTemplates (d : Dictionary) (stem : String) (h : Value.Keyed (.dict es))
    (hshape : ByLocale es ∨ ByName es) :
    MergesTemplates d (d.update (messages stem es)).1 stem es := by
  obtain ⟨hgiven, hkept, hlocales⟩ := Dictionary.merged_update d (isMapping_messages stem h)
    ((wellFormed_messages_iff stem h).mpr hshape)
  constructor
  · intro l n t ht
    exact hgiven l n _ _ ((hasLeaf_messages_iff hshape).mpr ⟨t, ht, rfl⟩) (.template t)
  · intro l n hnone
    apply hkept
    intro m hleaf
    obtain ⟨t, ht, -⟩ := (hasLeaf_messages_iff hshape).mp hleaf
    exact hnone t ht
  · intro l
    rw [hlocales, mem_keys_messages_iff hshape]

/-! ## Loading a document -/

variable {d : Dictionary} {folder : Folder} {path : Path} {bytes : Bytes} {v : Value}

theorem loadFile_of_document (d : Dictionary) (hbytes : folder.bytes? path = some bytes)
    (hread : document folder.yaml path bytes = .ok v) :
    d.loadFile folder path = match documentEntries? v with
      | none => (d, .error (flawed (.notMapping path.toText)))
      | some es => ((d.update (messages path.stem es)).1,
          (d.update (messages path.stem es)).2.mapError flawed) := by
  unfold Dictionary.loadFile read
  rw [hbytes]
  simp only [hread, bind, Except.bind]
  cases documentEntries? v <;> rfl

theorem keyed_of_document {yaml : YamlReader} (h : document yaml path bytes = .ok v) : v.Keyed :=
  yaml.keyed bytes v (mapError_eq_ok_iff.mp h)

/-- What is false is loaded like an empty file. -/
theorem loadFile_of_not_truthy (hbytes : folder.bytes? path = some bytes)
    (hread : document folder.yaml path bytes = .ok v) (hfalse : v.truthy = false) :
    d.loadFile folder path = (d, .ok ()) := by
  rw [loadFile_of_document d hbytes hread, documentEntries?, hfalse]
  rfl

theorem loadFile_of_not_mapping (hbytes : folder.bytes? path = some bytes)
    (hread : document folder.yaml path bytes = .ok v) (htrue : v.truthy = true)
    (hother : ∀ es, v ≠ .dict es) :
    d.loadFile folder path = (d, .error (flawed (.notMapping path.toText))) := by
  have hnone : documentEntries? v = none := by
    rw [documentEntries?, if_pos htrue, Option.eq_none_iff_forall_ne_some]
    intro es hes
    exact hother es (entries?_eq_some_iff.mp hes)
  rw [loadFile_of_document d hbytes hread, hnone]

theorem loadFile_of_mapping (hbytes : folder.bytes? path = some bytes)
    (hread : document folder.yaml path bytes = .ok (.dict es)) :
    d.loadFile folder path = ((d.update (messages path.stem es)).1,
      (d.update (messages path.stem es)).2.mapError flawed) := by
  have hentries : documentEntries? (.dict es) = some es := by
    rw [documentEntries?]
    cases es <;> rfl
  rw [loadFile_of_document d hbytes hread, hentries]

/-- Nothing is merged of a document that is no mapping. -/
theorem loadFile_unchanged (d : Dictionary) (hbytes : folder.bytes? path = some bytes)
    (hread : document folder.yaml path bytes = .ok v) (hother : ∀ es, v ≠ .dict es) :
    (d.loadFile folder path).1 = d := by
  cases htruth : v.truthy with
  | false => rw [loadFile_of_not_truthy hbytes hread htruth]
  | true => rw [loadFile_of_not_mapping hbytes hread htruth hother]

/-- What becomes of a document in a locale file. -/
structure Treated (d : Dictionary) (folder : Folder) (path : Path) (v : Value) : Prop where
  /-- A document is accepted if a locale file is meant to hold it, or if it is false. -/
  accepted_iff : (d.loadFile folder path).2 = .ok () ↔ Documented v ∨ v.truthy = false
  /-- So what is accepted is what a locale file is meant to hold, unless the document is false but neither
  nothing nor a mapping. -/
  documented_iff : ((d.loadFile folder path).2 = .ok () ↔ Documented v) ↔
    v = .null ∨ (∃ es, v = .dict es) ∨ v.truthy = true
  /-- Of a mapping that is accepted exactly the templates are merged. -/
  merged : ∀ es, v = .dict es → Documented v →
    MergesTemplates d (d.loadFile folder path).1 path.stem es
  /-- Nothing is merged of a document that is no mapping. -/
  unchanged : (∀ es, v ≠ .dict es) → (d.loadFile folder path).1 = d
  /-- What is not accepted is refused as a flaw of the file: a mapping for a value that is no text where
  one should be, everything else for not being a mapping. -/
  refused : ∀ f, (d.loadFile folder path).2 = .error f →
    (∃ es kind, v = .dict es ∧ f = flawed (.badMessage kind)) ∨
      (∀ es, v ≠ .dict es) ∧ f = flawed (.notMapping path.toText)

theorem documented_dict_iff : Documented (.dict es) ↔ ByLocale es ∨ ByName es := by
  constructor
  · rintro (_ | hlocale | hname)
    · exact Or.inl hlocale
    · exact Or.inr hname
  · rintro (hlocale | hname)
    · exact .byLocale hlocale
    · exact .byName hname

/-- Only a mapping that is empty is false. -/
theorem documented_of_dict_false (h : (Value.dict es).truthy = false) : Documented (.dict es) := by
  cases es with
  | nil => exact .byLocale (by simp [ByLocale])
  | cons e es => simp [Value.truthy] at h

/-- A mapping that cannot be merged has a value that is no text where one should be. -/
theorem exists_badMessage (d : Dictionary) (h : ¬ Dictionary.Partial.WellFormed (messages stem es)) :
    ∃ kind, (d.update (messages stem es)).2 = .error (.badMessage kind) := by
  obtain ⟨q, flaw, hq⟩ := Dictionary.Partial.exists_breaksOff h
  rw [Dictionary.update_breaksOff d hq]
  generalize hp : messages stem es = p at hq
  cases hq with
  | atLocale _ l text after =>
      -- Every locale of a file has a mapping.
      have hmem : (l, .error text) ∈ messages stem es := by simp [hp]
      by_cases hall : AllMappings es
      · obtain ⟨k, entries, -, -, hnames⟩ := (mem_messages_of_allMappings hall).mp hmem
        simp at hnames
      · rw [messages_of_not_allMappings stem hall] at hmem
        simp at hmem
  | atMessage => exact ⟨_, rfl⟩

theorem accepted_iff (d : Dictionary) (hbytes : folder.bytes? path = some bytes)
    (hread : document folder.yaml path bytes = .ok v) :
    (d.loadFile folder path).2 = .ok () ↔ Documented v ∨ v.truthy = false := by
  cases htruth : v.truthy with
  | false => simp [loadFile_of_not_truthy hbytes hread htruth]
  | true =>
      by_cases hdict : ∃ es, v = .dict es
      · obtain ⟨es, rfl⟩ := hdict
        rw [loadFile_of_mapping hbytes hread, mapError_eq_ok_iff, Dictionary.update_ok_iff,
          wellFormed_messages_iff _ (keyed_of_document hread), documented_dict_iff]
        simp
      · have hother : ∀ es, v ≠ .dict es := fun es h => hdict ⟨es, h⟩
        rw [loadFile_of_not_mapping hbytes hread htruth hother]
        constructor
        · intro hok
          simp at hok
        · rintro ((_ | _ | _) | hfalse)
          · simp [Value.truthy] at htruth
          · exact absurd rfl (hother _)
          · exact absurd rfl (hother _)
          · simp at hfalse

/-- A locale file whose document can be read is accepted if it holds nothing, or a mapping in one of the
two shapes, whose texts are then merged, or else if its document counts as false. All other documents are
refused. -/
theorem treated_document (d : Dictionary) (hbytes : folder.bytes? path = some bytes)
    (hread : document folder.yaml path bytes = .ok v) : Treated d folder path v where
  accepted_iff := accepted_iff d hbytes hread
  documented_iff := by
    rw [accepted_iff d hbytes hread]
    constructor
    · intro h
      cases htruth : v.truthy with
      | true => exact Or.inr (Or.inr rfl)
      | false =>
          cases h.mp (Or.inr htruth) with
          | empty => exact Or.inl rfl
          | byLocale => exact Or.inr (Or.inl ⟨_, rfl⟩)
          | byName => exact Or.inr (Or.inl ⟨_, rfl⟩)
    · intro h
      refine ⟨?_, Or.inl⟩
      rintro (hdocumented | hfalse)
      · exact hdocumented
      · rcases h with rfl | ⟨es, rfl⟩ | htrue
        · exact .empty
        · exact documented_of_dict_false hfalse
        · rw [hfalse] at htrue
          simp at htrue
  merged := by
    rintro es rfl hdocumented
    rw [loadFile_of_mapping hbytes hread]
    exact mergesTemplates d path.stem (keyed_of_document hread) (documented_dict_iff.mp hdocumented)
  unchanged := by
    intro hother
    exact loadFile_unchanged d hbytes hread hother
  refused := by
    intro f hf
    by_cases hdict : ∃ es, v = .dict es
    · obtain ⟨es, rfl⟩ := hdict
      left
      rw [loadFile_of_mapping hbytes hread, mapError_eq_error_iff] at hf
      obtain ⟨flaw, hflaw, rfl⟩ := hf
      have hwell : ¬ Dictionary.Partial.WellFormed (messages path.stem es) := by
        rw [← Dictionary.update_ok_iff d, hflaw]
        simp
      obtain ⟨kind, hkind⟩ := exists_badMessage d hwell
      rw [hflaw, Except.error.injEq] at hkind
      exact ⟨es, kind, rfl, by rw [hkind]⟩
    · right
      have hother : ∀ es, v ≠ .dict es := fun es h => hdict ⟨es, h⟩
      refine ⟨hother, ?_⟩
      cases htruth : v.truthy with
      | false => simp [loadFile_of_not_truthy hbytes hread htruth] at hf
      | true =>
          rw [loadFile_of_not_mapping hbytes hread htruth hother, Except.error.injEq] at hf
          exact hf.symm

/-- A file with an Arabic message. -/
def arabicFolder : Folder := ⟨[(.ofText "ar.yaml", .file "alpha: x\n".toUTF8.toList)], Yaml.reader⟩

/-- The mapping in the file has the second shape, and is merged for the locale of the file's name. -/
theorem treated_document_arabic :
    ∃ bytes v, arabicFolder.bytes? (.ofText "ar.yaml") = some bytes ∧
      document Yaml.reader (.ofText "ar.yaml") bytes = .ok v ∧ v.truthy = true ∧
      Treated Dictionary.bundled arabicFolder (.ofText "ar.yaml") v ∧
      (Dictionary.bundled.loadFile arabicFolder (.ofText "ar.yaml")).2 = .ok () ∧
      ((Dictionary.bundled.loadFile arabicFolder (.ofText "ar.yaml")).1.get? (.text "ar")
        (.text "alpha")).isSome = true := by
  have hbytes : arabicFolder.bytes? (.ofText "ar.yaml") = some "alpha: x\n".toUTF8.toList := by
    decide +kernel
  have htrue : (document Yaml.reader (.ofText "ar.yaml") "alpha: x\n".toUTF8.toList).toOption.any
      Value.truthy = true := by
    decide +kernel
  obtain ⟨v, hv, htruth⟩ := (Option.any_eq_true _ _).mp htrue
  have hread := toOption_eq_some_iff.mp hv
  refine ⟨_, v, hbytes, hread, htruth, treated_document _ hbytes hread, ?_, ?_⟩
  · decide +kernel
  · decide +kernel

/-- A file that holds the truth value false. -/
def falseFolder : Folder := ⟨[(.ofText "fr.yaml", .file "false\n".toUTF8.toList)], Yaml.reader⟩

/-- The file is accepted, although no locale file is meant to hold a truth value, and true is refused. -/
theorem no_mapping_accepted :
    ∃ bytes, falseFolder.bytes? (.ofText "fr.yaml") = some bytes ∧
      document Yaml.reader (.ofText "fr.yaml") bytes = .ok (.bool false) ∧ ¬ Documented (.bool false) ∧
      (Dictionary.bundled.loadFile falseFolder (.ofText "fr.yaml")).2 = .ok () := by
  have hbytes : falseFolder.bytes? (.ofText "fr.yaml") = some "false\n".toUTF8.toList := by
    decide +kernel
  have hfalse : (document Yaml.reader (.ofText "fr.yaml") "false\n".toUTF8.toList).toOption.any
      (fun v => match v with | .bool b => !b | _ => false) = true := by
    decide +kernel
  have hread : document Yaml.reader (.ofText "fr.yaml") "false\n".toUTF8.toList = .ok (.bool false) := by
    obtain ⟨v, hv, htruth⟩ := (Option.any_eq_true _ _).mp hfalse
    cases v with
    | bool b =>
      cases b with
      | false => exact toOption_eq_some_iff.mp hv
      | true => simp at htruth
    | _ => simp at htruth
  refine ⟨_, hbytes, hread, ?_, ?_⟩
  · rintro (_ | _)
  · exact (accepted_iff Dictionary.bundled hbytes hread).mpr (Or.inr rfl)

end LocaleFile

end FieldRules
