import FieldRules.Yaml.Content

/-!
# How the value of a document is built

A node is built in one of six ways (`builtFrom_valueOf`). What is built of several parts is made of what
they are built to (`exists_of_foldr_both_eq_ok`).
-/

namespace FieldRules.Yaml

/-! ## Parts put together -/

section

variable {α β γ : Type} {f : α → β → γ} {x : Built α} {y : Built β}

theorem both_eq_ok_iff {c : γ} : both f x y = .ok c ↔ ∃ a b, x = .ok a ∧ y = .ok b ∧ f a b = c := by
  cases x <;> cases y <;> simp [both]

variable {build : α → Built β} {as : List α}

theorem exists_of_foldr_both_eq_ok {bs : List β}
    (h : as.foldr (fun a rest => both List.cons (build a) rest) (.ok []) = .ok bs) :
    ∀ b ∈ bs, ∃ a ∈ as, build a = .ok b := by
  induction as generalizing bs with
  | nil =>
      obtain rfl := Except.ok.inj h
      simp
  | cons a as ih =>
      rw [List.foldr_cons, both_eq_ok_iff] at h
      obtain ⟨b, bs', hb, hbs', rfl⟩ := h
      rw [List.forall_mem_cons]
      refine ⟨⟨a, List.mem_cons_self, hb⟩, ?_⟩
      intro b' hb'
      obtain ⟨a', hmem, ha'⟩ := ih hbs' b' hb'
      exact ⟨a', List.mem_cons_of_mem a hmem, ha'⟩

end

/-! ## Nodes -/

/-- The ways in which a node is built. -/
inductive BuiltFrom (rounds depth : Nat) : Node → Built Value → Prop
  | list (items : List Node) :
      BuiltFrom rounds depth (.sequence .seq items)
        ((itemValues rounds (depth + 1) items).map .list)
  | dict (entries : List (Node × Node)) :
      BuiltFrom rounds depth (.mapping .map entries)
        ((entryValues rounds (depth + 1) entries).map Value.dictOf)
  | set (entries : List (Node × Node)) :
      BuiltFrom rounds depth (.mapping .set entries)
        ((entryValues rounds (depth + 1) entries).map fun es => .set (Value.setMembers (es.map (·.1))))
  /-- Pairs are told by either of two tags. -/
  | pairs {tag : Tag} (htag : tag = .omap ∨ tag = .pairs) (items : List Node) :
      BuiltFrom rounds depth (.sequence tag items) ((pairValues rounds (depth + 1) items).map .list)
  /-- The tag is that of a collection of another kind. -/
  | otherKind {n : Node} (hn : n.tag.isCollection = true) :
      BuiltFrom rounds depth n (misfit (depth + 1) .malformed)
  | scalar {n : Node} (hn : n.tag.isCollection = false) :
      BuiltFrom rounds depth n (atDepth depth (soleValue n))

theorem builtFrom_valueOf (rounds depth : Nat) (n : Node) :
    BuiltFrom rounds depth n (valueOf (rounds + 1) depth n) := by
  unfold valueOf
  split
  · rename_i items htag
    obtain rfl : _ = Tag.seq := htag
    exact .list items
  · rename_i entries htag
    obtain rfl : _ = Tag.map := htag
    exact .dict entries
  · rename_i entries htag
    obtain rfl : _ = Tag.set := htag
    exact .set entries
  · rename_i items htag
    obtain rfl : _ = Tag.omap := htag
    exact .pairs (Or.inl rfl) items
  · rename_i items htag
    obtain rfl : _ = Tag.pairs := htag
    exact .pairs (Or.inr rfl) items
  · rename_i m _ _ _ _ _ _ _
    cases hcollection : m.tag.isCollection with
    | true => exact .otherKind hcollection
    | false =>
        rw [if_neg (by simp)]
        exact .scalar hcollection

/-- The key of an entry is built like any node, but must not be a collection. -/
def keyValue (rounds depth : Nat) (k : Node) : Built Value :=
  if k.tag.isCollection then misfit depth .malformed else valueOf rounds depth k

theorem entryValues_succ (rounds depth : Nat) (entries : List (Node × Node)) :
    entryValues (rounds + 1) depth entries = match mergedEntries entries with
      | .error f => misfit depth f
      | .ok (merged, own) => (merged ++ own).foldr (fun e rest => both List.cons
          (both Prod.mk (keyValue rounds depth e.1) (valueOf rounds depth e.2)) rest) (.ok []) := by
  rw [entryValues]
  rfl

theorem keyValue_eq_ok_iff {rounds depth : Nat} {k : Node} {v : Value} :
    keyValue rounds depth k = .ok v ↔
      k.tag.isCollection = false ∧ valueOf rounds depth k = .ok v := by
  unfold keyValue
  cases k.tag.isCollection <;> simp [misfit]

/-- An entry that is built comes from one of the mapping or of those merged into it. -/
theorem of_entryValues_eq_ok {rounds depth : Nat} {entries : List (Node × Node)}
    {es : List (Value × Value)} (h : entryValues (rounds + 1) depth entries = .ok es) :
    ∀ v ∈ es, ∃ e : Node × Node, e.1.tag.isCollection = false ∧
      valueOf rounds depth e.1 = .ok v.1 ∧ valueOf rounds depth e.2 = .ok v.2 := by
  rw [entryValues_succ] at h
  cases hmerged : mergedEntries entries with
  | error f => simp [hmerged, misfit] at h
  | ok parts =>
      obtain ⟨merged, own⟩ := parts
      simp only [hmerged] at h
      intro v hv
      obtain ⟨e, -, he⟩ := exists_of_foldr_both_eq_ok h v hv
      obtain ⟨key, value, hkey, hvalue, rfl⟩ := both_eq_ok_iff.mp he
      obtain ⟨hcollection, hkey⟩ := keyValue_eq_ok_iff.mp hkey
      exact ⟨e, hcollection, hkey, hvalue⟩

end FieldRules.Yaml
