import FieldRules.Proofs.Host.Frame
import FieldRules.Proofs.Table

/-!
# A host without one of its engines

One engine of a host, given by its number, is left out with its names, its jobs and its owners; engines
and jobs that come later move up (`slot`, `handle?`). What is then done to another engine, or to the
jobs of others, is done as before; what was done to the engine or to its jobs cannot be seen
(`without_startEach`, `without_settle`).
-/

namespace FieldRules

variable {a : Nat}

/-! ## Numbers of engines -/

/-- The number of another engine once an engine is left out. -/
def slot (a n : Nat) : Nat := if n < a then n else n - 1

theorem slot_inj {n m : Nat} (hn : n ≠ a) (hm : m ≠ a) (h : slot a n = slot a m) : n = m := by
  unfold slot at h
  split at h <;> split at h <;> omega

section Lists

variable {α β : Type} {l : List α}

theorem getElem?_eraseIdx_slot (l : List α) {n : Nat} (hn : n ≠ a) :
    (l.eraseIdx a)[slot a n]? = l[n]? := by
  rw [List.getElem?_eraseIdx, slot]
  by_cases hlt : n < a
  · simp [hlt]
  · have hge : ¬ n - 1 < a := by omega
    have hsucc : n - 1 + 1 = n := by omega
    simp [hlt, hge, hsucc]

theorem eraseIdx_set_slot (l : List α) {n : Nat} (hn : n ≠ a) (x : α) :
    (l.set n x).eraseIdx a = (l.eraseIdx a).set (slot a n) x := by
  rcases Nat.lt_or_gt_of_ne hn with hlt | hgt
  · rw [slot, if_pos hlt, List.eraseIdx_set_gt hlt]
  · rw [slot, if_neg (by omega), List.eraseIdx_set_lt hgt]

theorem eraseIdx_set_self (l : List α) (x : α) : (l.set a x).eraseIdx a = l.eraseIdx a := by
  apply List.ext_getElem?
  intro i
  rw [List.getElem?_eraseIdx, List.getElem?_eraseIdx]
  split
  · rw [List.getElem?_set_ne (by omega)]
  · rw [List.getElem?_set_ne (by omega)]

theorem eraseIdx_modify_slot (l : List α) {n : Nat} (hn : n ≠ a) (f : α → α) :
    (l.modify n f).eraseIdx a = (l.eraseIdx a).modify (slot a n) f := by
  rw [List.modify_eq_set_getElem?, List.modify_eq_set_getElem?, getElem?_eraseIdx_slot l hn]
  cases l[n]? with
  | none => rfl
  | some x => exact eraseIdx_set_slot l hn (f x)

theorem eraseIdx_modify_self (l : List α) (f : α → α) :
    (l.modify a f).eraseIdx a = l.eraseIdx a := by
  rw [List.modify_eq_set_getElem?]
  cases l[a]? with
  | none => rfl
  | some x => exact eraseIdx_set_self l (f x)

/-- The number of an engine that is added is that which it has without the other. -/
theorem slot_length (hlength : l.length ≠ a) : slot a l.length = (l.eraseIdx a).length := by
  rw [List.length_eraseIdx, slot]
  split <;> split <;> omega

theorem eraseIdx_append_other (hlength : l.length ≠ a) (x : α) :
    (l ++ [x]).eraseIdx a = l.eraseIdx a ++ [x] := by
  rcases Nat.lt_or_gt_of_ne hlength with hlt | hgt
  · rw [List.eraseIdx_of_length_le (Nat.le_of_lt hlt), List.eraseIdx_of_length_le]
    rw [List.length_append, List.length_singleton]
    omega
  · rw [List.eraseIdx_append_of_lt_length hgt]

theorem eraseIdx_append_self (hlength : l.length = a) (x : α) :
    (l ++ [x]).eraseIdx a = l.eraseIdx a := by
  rw [List.eraseIdx_of_length_le (Nat.le_of_eq hlength), List.eraseIdx_append_of_length_le
    (Nat.le_of_eq hlength), hlength, Nat.sub_self]
  simp

end Lists

/-! ## Tables of engines -/

/-- The table without the entries of an engine. -/
def Table.without (a : Nat) (t : Table String Nat) : Table String Nat :=
  t.filterMap fun e => if e.2 = a then none else some (e.1, slot a e.2)

namespace Table

variable {t : Table String Nat} {k : String} {n : Nat}

theorem without_cons (e : String × Nat) (t : Table String Nat) :
    without a (e :: t) = if e.2 = a then without a t else (e.1, slot a e.2) :: without a t := by
  unfold without
  rw [List.filterMap_cons]
  split <;> rename_i h <;> split at h <;> simp_all

theorem get?_without (h : get? t k ≠ some a) :
    get? (without a t) k = (get? t k).map (slot a) := by
  induction t with
  | nil => rfl
  | cons e t ih =>
      rw [get?_cons] at h ⊢
      rw [without_cons]
      by_cases hk : e.1 = k
      · rw [if_pos hk, ne_eq, Option.some.injEq] at h
        rw [if_neg h, get?_cons, if_pos hk, if_pos hk, Option.map_some]
      · rw [if_neg hk] at h ⊢
        split
        · exact ih h
        · rw [get?_cons, if_neg hk]
          exact ih h

/-- A name that is given to another engine and was not that of the engine. -/
theorem without_put (h : get? t k ≠ some a) (hn : n ≠ a) :
    without a (put t k n) = put (without a t) k (slot a n) := by
  induction t with
  | nil => simp [put, hn, without]
  | cons e t ih =>
      rw [get?_cons] at h
      rw [put, without_cons]
      by_cases hk : e.1 = k
      · rw [if_pos hk, ne_eq, Option.some.injEq] at h
        rw [if_pos hk, if_neg h, put, if_pos hk, without_cons, if_neg hn]
      · rw [if_neg hk] at h
        rw [if_neg hk, without_cons, ih h]
        split
        · rfl
        · rw [put, if_neg hk]

/-- A name that is given to the engine and was not that of another. -/
theorem without_put_self (h : ∀ n, get? t k = some n → n = a) :
    without a (put t k a) = without a t := by
  induction t with
  | nil => simp [put, without_cons]
  | cons e t ih =>
      rw [put, without_cons]
      by_cases hk : e.1 = k
      · have he : e.2 = a := h e.2 (by rw [get?_cons, if_pos hk])
        rw [if_pos hk, if_pos he, without_cons, if_pos rfl]
      · have hrest : ∀ n, get? t k = some n → n = a := by
          intro n hn
          exact h n (by rw [get?_cons, if_neg hk, hn])
        rw [if_neg hk, without_cons, ih hrest]

theorem without_remove (t : Table String Nat) (k : String) :
    without a (remove t k) = remove (without a t) k := by
  induction t with
  | nil => rfl
  | cons e t ih =>
      rw [remove_cons, without_cons]
      by_cases hk : e.1 = k
      · rw [if_pos hk, ih]
        split
        · rfl
        · rw [remove_cons, if_pos hk]
      · rw [if_neg hk, without_cons, ih]
        split
        · rfl
        · rw [remove_cons, if_neg hk]

theorem find?_without (t : Table String Nat) {b : Nat} (hb : b ≠ a) :
    (without a t).find? (fun e => e.2 == slot a b) =
      (t.find? fun e => e.2 == b).map fun e => (e.1, slot a e.2) := by
  induction t with
  | nil => rfl
  | cons e t ih =>
      rw [without_cons, List.find?_cons]
      by_cases heb : e.2 = b
      · simp [heb, hb]
      · have hne : (e.2 == b) = false := by simpa using heb
        rw [hne]
        split
        · exact ih
        · rename_i hea
          have hslot : slot a e.2 ≠ slot a b := fun h => heb (slot_inj hea hb h)
          simp [hslot, ih]

/-- Taking the engine's own entry out makes no difference. -/
theorem without_remove_self {t : Table String Nat} {k : String} (hnodup : (keys t).Nodup)
    (h : get? t k = some a) : without a (remove t k) = without a t := by
  induction t with
  | nil => rfl
  | cons e t ih =>
      have hkeys : (keys t).Nodup := (List.nodup_cons.mp hnodup).2
      rw [get?_cons] at h
      rw [remove_cons, without_cons]
      by_cases hk : e.1 = k
      · rw [if_pos hk, Option.some.injEq] at h
        have hnot : k ∉ keys t := hk ▸ (List.nodup_cons.mp hnodup).1
        have hsame : remove t k = t := by
          apply List.filter_eq_self.mpr
          intro x hx
          have hne : x.1 ≠ k := fun hxk => hnot (hxk ▸ List.mem_map.mpr ⟨x, hx, rfl⟩)
          simp [hne]
        rw [if_pos hk, if_pos h, hsame]
      · rw [if_neg hk] at h
        rw [if_neg hk, without_cons, ih hkeys h]

end Table

/-! ## Numbers of jobs -/

/-- A job without an engine: none if it is a job of that engine. -/
def Awaited.without? (a : Nat) (w : Awaited) : Option Awaited :=
  if w.engine = a then none else some { w with engine := slot a w.engine }

/-- The number of a job without the jobs of an engine; none if it is one of them. The jobs are given by
their engines. -/
def handle? (a : Nat) (engines : List Nat) (n : Nat) : Option Nat :=
  if engines[n]? = some a then none else some ((engines.take n).countP (· ≠ a))

/-- The engines of jobs. -/
def enginesOf (jobs : List Awaited) : List Nat := jobs.map (·.engine)

section Numbers

variable {engines : List Nat} {n m k : Nat}

theorem countP_take_lt {b : Nat} (hn : engines[n]? = some b) (hb : b ≠ a) (hlt : n < m) :
    (engines.take n).countP (· ≠ a) < (engines.take m).countP (· ≠ a) := by
  induction engines generalizing n m with
  | nil => simp at hn
  | cons x engines ih =>
      cases m with
      | zero => omega
      | succ m =>
          rw [List.take_succ_cons, List.countP_cons]
          cases n with
          | zero =>
              rw [List.getElem?_cons_zero, Option.some.injEq] at hn
              simp [hn, hb]
          | succ n =>
              rw [List.getElem?_cons_succ] at hn
              rw [List.take_succ_cons, List.countP_cons]
              have := ih hn (by omega : n < m)
              omega

/-- Two numbers of jobs stay apart, if there is such a job. -/
theorem handle?_inj (hlt : n < engines.length) (hn : handle? a engines n = some k)
    (hm : handle? a engines m = some k) : m = n := by
  unfold handle? at hn hm
  split at hn
  · simp at hn
  · split at hm
    · simp at hm
    · rename_i hna hma
      rw [Option.some.injEq] at hn hm
      have hget : engines[n]? = some engines[n] := List.getElem?_eq_getElem hlt
      have hne : engines[n] ≠ a := fun h => hna (by rw [hget, h])
      rcases Nat.lt_trichotomy m n with hmn | rfl | hnm
      · have hget' : engines[m]? = some engines[m] := List.getElem?_eq_getElem (by omega)
        have hne' : engines[m] ≠ a := fun h => hma (by rw [hget', h])
        have := countP_take_lt hget' hne' hmn
        omega
      · rfl
      · have := countP_take_lt hget hne hnm
        omega

theorem handle?_append (hlt : n < engines.length) (more : List Nat) :
    handle? a (engines ++ more) n = handle? a engines n := by
  unfold handle?
  rw [List.getElem?_append_left hlt, List.take_append_of_le_length (Nat.le_of_lt hlt)]

/-- A number that is given to no job stands for no job afterwards. -/
theorem handle?_of_length_le (hle : engines.length ≤ n) :
    handle? a engines n = some (engines.countP (· ≠ a)) := by
  unfold handle?
  rw [List.getElem?_eq_none hle, List.take_of_length_le hle]
  simp

theorem filterMap_handle?_range (engines : List Nat) :
    (List.range engines.length).filterMap (handle? a engines) =
      List.range (engines.countP (· ≠ a)) := by
  induction engines using List.reverseRecOn with
  | nil => rfl
  | append_singleton engines b ih =>
      have hbefore : (List.range engines.length).filterMap (handle? a (engines ++ [b])) =
          (List.range engines.length).filterMap (handle? a engines) := by
        apply List.filterMap_congr
        intro n hn
        exact handle?_append (List.mem_range.mp hn) [b]
      rw [List.length_append, List.length_singleton, List.range_succ, List.filterMap_append, hbefore,
        ih, List.countP_append]
      by_cases hb : b = a
      · simp [handle?, hb]
      · simp [handle?, hb, List.range_succ]

end Numbers

/-! ## Jobs -/

section Jobs

variable {jobs : List Awaited} {n k : Nat} {w w' : Awaited}

theorem length_filterMap_without? (jobs : List Awaited) :
    (jobs.filterMap (Awaited.without? a)).length = (enginesOf jobs).countP (· ≠ a) := by
  induction jobs with
  | nil => rfl
  | cons w jobs ih =>
      have hcons : enginesOf (w :: jobs) = w.engine :: enginesOf jobs := rfl
      rw [List.filterMap_cons, hcons, List.countP_cons]
      by_cases hw : w.engine = a
      · simpa [Awaited.without?, hw] using ih
      · simpa [Awaited.without?, hw] using ih

theorem exists_split {α : Type} {l : List α} {n : Nat} {x : α} (hn : l[n]? = some x) :
    ∃ before after, l = before ++ x :: after ∧ before.length = n := by
  obtain ⟨hlt, rfl⟩ := List.getElem?_eq_some_iff.mp hn
  refine ⟨l.take n, l.drop (n + 1), ?_, List.length_take_of_le (Nat.le_of_lt hlt)⟩
  rw [← List.drop_eq_getElem_cons hlt, List.take_append_drop]

theorem enginesOf_set (hn : jobs[n]? = some w) (hw' : w'.engine = w.engine) :
    enginesOf (jobs.set n w') = enginesOf jobs := by
  obtain ⟨before, after, rfl, rfl⟩ := exists_split hn
  simp [enginesOf, hw']

/-- A job of the engine, or no job: what has no number is a job of the engine. -/
theorem engine_of_handle?_none (h : handle? a (enginesOf jobs) n = none) :
    ∃ w, jobs[n]? = some w ∧ w.engine = a := by
  unfold handle? at h
  split at h
  · rename_i hn
    rw [enginesOf, List.getElem?_map, Option.map_eq_some_iff] at hn
    exact hn
  · simp at h

theorem engine_ne_of_handle? (hk : handle? a (enginesOf jobs) n = some k) (hn : jobs[n]? = some w) :
    w.engine ≠ a := by
  intro hw
  have hnone : handle? a (enginesOf jobs) n = none := by simp [handle?, enginesOf, hn, hw]
  rw [hnone] at hk
  simp at hk

theorem handle?_before {before after : List Awaited} (hw : w.engine ≠ a) :
    handle? a (enginesOf (before ++ w :: after)) before.length =
      some (before.filterMap (Awaited.without? a)).length := by
  rw [length_filterMap_without?]
  simp [handle?, enginesOf, hw]

/-- A job of another engine stands where its number says. -/
theorem getElem?_filterMap_without? (hk : handle? a (enginesOf jobs) n = some k)
    (hn : jobs[n]? = some w) :
    (jobs.filterMap (Awaited.without? a))[k]? = some { w with engine := slot a w.engine } := by
  have hw := engine_ne_of_handle? hk hn
  obtain ⟨before, after, rfl, rfl⟩ := exists_split hn
  rw [handle?_before hw, Option.some.injEq] at hk
  rw [List.filterMap_append, ← hk, List.filterMap_cons]
  simp [Awaited.without?, hw]

theorem getElem?_filterMap_without?_none (hk : handle? a (enginesOf jobs) n = some k)
    (hn : jobs[n]? = none) : (jobs.filterMap (Awaited.without? a))[k]? = none := by
  have hle : (enginesOf jobs).length ≤ n := by
    rw [enginesOf, List.length_map]
    exact List.getElem?_eq_none_iff.mp hn
  rw [handle?_of_length_le hle, Option.some.injEq] at hk
  rw [List.getElem?_eq_none_iff, length_filterMap_without?, hk]

theorem filterMap_without?_set (hk : handle? a (enginesOf jobs) n = some k)
    (hn : jobs[n]? = some w) (hw' : w'.engine = w.engine) :
    (jobs.set n w').filterMap (Awaited.without? a) =
      (jobs.filterMap (Awaited.without? a)).set k { w' with engine := slot a w.engine } := by
  have hw := engine_ne_of_handle? hk hn
  obtain ⟨before, after, rfl, rfl⟩ := exists_split hn
  rw [handle?_before hw, Option.some.injEq] at hk
  rw [← hk, List.set_append_right _ _ (Nat.le_refl _), Nat.sub_self, List.set_cons_zero]
  simp [Awaited.without?, hw, hw']

theorem filterMap_without?_set_self (hn : jobs[n]? = some w) (hw : w.engine = a)
    (hw' : w'.engine = a) :
    (jobs.set n w').filterMap (Awaited.without? a) = jobs.filterMap (Awaited.without? a) := by
  obtain ⟨before, after, rfl, rfl⟩ := exists_split hn
  simp [Awaited.without?, hw, hw']

end Jobs

/-! ## Hosts -/

/-- The registry without the owner of an engine. -/
def Registry.without (a : Nat) (r : Registry) : Registry :=
  { r with owners := ⟨Table.without a r.owners.engines⟩ }

namespace Host

variable {h : Host} {n k : Nat}

/-- The number of a job without the jobs of an engine. -/
def handle? (h : Host) (a n : Nat) : Option Nat := FieldRules.handle? a (enginesOf h.jobs) n

/-- The host without an engine. -/
def without (a : Nat) (h : Host) : Host :=
  { h with
    engines := h.engines.eraseIdx a
    names := Table.without a h.names
    jobs := h.jobs.filterMap (Awaited.without? a)
    started := h.started.filterMap (h.handle? a)
    registries := h.registries.map (Registry.without a) }

/-! ## Single changes -/

/-- Puts another job in the place of one. -/
def setJob (h : Host) (n : Nat) (w : Awaited) : Host := { h with jobs := h.jobs.set n w }

/-- Notes that a job was started. -/
def noteStarted (h : Host) (n : Nat) : Host := { h with started := h.started ++ [n] }

variable {w w' : Awaited}

theorem length_jobs_of_engines {h' : Host} (hsame : enginesOf h'.jobs = enginesOf h.jobs) :
    h'.jobs.length = h.jobs.length := by
  simpa [enginesOf] using congrArg List.length hsame

theorem handle?_of_engines {h' : Host} (hsame : enginesOf h'.jobs = enginesOf h.jobs) :
    h'.handle? a = h.handle? a := by
  funext m
  rw [handle?, handle?, hsame]

theorem handle?_setJob (hn : h.jobs[n]? = some w) (hw' : w'.engine = w.engine) :
    (h.setJob n w').handle? a = h.handle? a :=
  handle?_of_engines (enginesOf_set hn hw')

theorem without_setJob_self (hn : h.jobs[n]? = some w) (hw : w.engine = a) (hw' : w'.engine = a) :
    (h.setJob n w').without a = h.without a := by
  have hhandle := handle?_setJob (a := a) hn (hw'.trans hw.symm)
  have hjobs := filterMap_without?_set_self hn hw hw'
  rw [without, hhandle]
  simp only [setJob, hjobs]
  rfl

theorem without_setJob (hk : h.handle? a n = some k) (hn : h.jobs[n]? = some w)
    (hw' : w'.engine = w.engine) :
    (h.setJob n w').without a =
      (h.without a).setJob k { w' with engine := slot a w.engine } := by
  have hhandle := handle?_setJob (a := a) hn hw'
  have hjobs := filterMap_without?_set hk hn hw'
  rw [without, hhandle]
  simp only [setJob, hjobs]
  rfl

theorem without_noteStarted (h : Host) (n : Nat) :
    (h.noteStarted n).without a =
      { h.without a with started := (h.without a).started ++ (h.handle? a n).toList } := by
  have hstarted : (h.noteStarted n).started.filterMap ((h.noteStarted n).handle? a) =
      h.started.filterMap (h.handle? a) ++ (h.handle? a n).toList := by
    show (h.started ++ [n]).filterMap (h.handle? a) = _
    rw [List.filterMap_append]
    cases hn : h.handle? a n <;> simp [hn]
  rw [without, hstarted]
  rfl

theorem without_setEngine_self (h : Host) (e : Engine) :
    (h.setEngine a e).without a = h.without a := by
  simp only [without, setEngine, eraseIdx_set_self]
  rfl

theorem without_setEngine (h : Host) {b : Nat} (hb : b ≠ a) (e : Engine) :
    (h.setEngine b e).without a = (h.without a).setEngine (slot a b) e := by
  simp only [without, setEngine, eraseIdx_set_slot h.engines hb]
  rfl

/-! ## Jobs that are started -/

theorem enginesOf_startJob (h : Host) (n : Nat) :
    enginesOf (h.startJob n).result.jobs = enginesOf h.jobs := by
  simp only [startJob]
  split
  · rfl
  · rename_i w hn
    split
    · rfl
    · exact enginesOf_set hn rfl

theorem enginesOf_startEach (h : Host) (numbers : List Nat) :
    enginesOf (h.startEach numbers).1.jobs = enginesOf h.jobs := by
  induction numbers generalizing h with
  | nil => rfl
  | cons n ns ih =>
      rw [startEach_cons_fst]
      exact (ih _).trans (h.enginesOf_startJob n)

theorem handle?_startJob (h : Host) (n : Nat) : (h.startJob n).result.handle? a = h.handle? a :=
  handle?_of_engines (h.enginesOf_startJob n)

theorem without_startJob_self (hn : h.handle? a n = none) :
    (h.startJob n).result.without a = h.without a := by
  obtain ⟨w, hget, hw⟩ := engine_of_handle?_none hn
  simp only [startJob, hget]
  split
  · rfl
  · let started : Awaited := { w with job := (w.job.start h.probe).result }
    have hset : (h.setJob n started).without a = h.without a := without_setJob_self hget hw hw
    have hhandle : (h.setJob n started).handle? a = h.handle? a := handle?_setJob hget rfl
    have hnoted := without_noteStarted (a := a) (h.setJob n started) n
    rw [hhandle, hn, hset, Option.toList_none, List.append_nil] at hnoted
    exact hnoted

theorem without_startJob (hk : h.handle? a n = some k) :
    (h.without a).startJob k = ⟨(h.startJob n).result.without a, (h.startJob n).notes⟩ := by
  cases hn : h.jobs[n]? with
  | none =>
      have hn' : (h.without a).jobs[k]? = none := getElem?_filterMap_without?_none hk hn
      simp only [startJob, hn, hn']
  | some w =>
      have hn' : (h.without a).jobs[k]? = some { w with engine := slot a w.engine } :=
        getElem?_filterMap_without? hk hn
      cases hstarted : w.job.started with
      | true => simp only [startJob, hn, hn', hstarted, if_true]
      | false =>
          let started : Awaited := { w with job := (w.job.start h.probe).result }
          have hset : (h.setJob n started).without a =
              (h.without a).setJob k { started with engine := slot a w.engine } :=
            without_setJob hk hn rfl
          have hhandle : (h.setJob n started).handle? a = h.handle? a := handle?_setJob hn rfl
          have hnoted := without_noteStarted (a := a) (h.setJob n started) n
          rw [hhandle, hk, hset] at hnoted
          simp only [startJob, hn, hn', hstarted, Bool.false_eq_true, if_false]
          congr 1
          exact hnoted.symm

/-- The notes that the jobs of other engines leave while jobs are started; those of jobs of single
fields and of jobs of all fields apart. -/
def othersNotes (a : Nat) (h : Host) : List Nat → List CallNote × List CallNote
  | [] => ([], [])
  | n :: ns =>
    let here := h.startJob n
    let (single, whole) := othersNotes a here.result ns
    if h.handle? a n = none then (single, whole)
    else if (h.jobs[n]?).any (·.job.whole) then (single, here.notes ++ whole)
    else (here.notes ++ single, whole)

theorem whole_without (hk : h.handle? a n = some k) :
    ((h.without a).jobs[k]?).any (·.job.whole) = (h.jobs[n]?).any (·.job.whole) := by
  cases hn : h.jobs[n]? with
  | none =>
      have hn' : (h.without a).jobs[k]? = none := getElem?_filterMap_without?_none hk hn
      rw [hn', Option.any_none]
  | some w =>
      have hn' : (h.without a).jobs[k]? = some { w with engine := slot a w.engine } :=
        getElem?_filterMap_without? hk hn
      rw [hn']
      rfl

/-- Starting jobs without those of the engine does to the others what it does with them. -/
theorem without_startEach (h : Host) (numbers : List Nat) :
    (h.without a).startEach (numbers.filterMap (h.handle? a)) =
      ((h.startEach numbers).1.without a, h.othersNotes a numbers) := by
  induction numbers generalizing h with
  | nil => rfl
  | cons n ns ih =>
      have hrest := ih (h.startJob n).result
      rw [handle?_startJob] at hrest
      rw [List.filterMap_cons, startEach_cons_fst]
      cases hk : h.handle? a n with
      | none =>
          rw [without_startJob_self hk] at hrest
          simp only [hrest, othersNotes, hk, if_true]
      | some k =>
          have hfirst := without_startJob hk
          simp only [startEach, hfirst, hrest, othersNotes, hk, whole_without hk]
          split <;> rfl

/-! ## Jobs that go on -/

theorem enginesOf_advanceJob (h : Host) (n : Nat) :
    enginesOf (h.advanceJob n).jobs = enginesOf h.jobs := by
  simp only [advanceJob]
  split
  · rfl
  · rename_i w hn
    split
    · rfl
    · exact enginesOf_set hn rfl

theorem enginesOf_advance (h : Host) (numbers : List Nat) :
    enginesOf (numbers.foldl advanceJob h).jobs = enginesOf h.jobs := by
  induction numbers generalizing h with
  | nil => rfl
  | cons n ns ih => exact (ih _).trans (h.enginesOf_advanceJob n)

theorem without_advanceJob_self (hn : h.handle? a n = none) :
    (h.advanceJob n).without a = h.without a := by
  obtain ⟨w, hget, hw⟩ := engine_of_handle?_none hn
  simp only [advanceJob, hget]
  split
  · rfl
  · rename_i e he
    let r := w.job.advance h.gates h.shared e
    have hplace : (h.setEngine a r.1).jobs[n]? = some w := hget
    let next : Awaited := { w with job := r.2 }
    have hnext : next.engine = a := hw
    have hset : ((h.setEngine a r.1).setJob n next).without a = h.without a :=
      (without_setJob_self hplace hw hnext).trans (without_setEngine_self h r.1)
    rw [← hset, ← hw]
    rfl

theorem without_advanceJob (hk : h.handle? a n = some k) :
    (h.without a).advanceJob k = (h.advanceJob n).without a := by
  cases hn : h.jobs[n]? with
  | none =>
      have hn' : (h.without a).jobs[k]? = none := getElem?_filterMap_without?_none hk hn
      simp only [advanceJob, hn, hn']
  | some w =>
      have hw : w.engine ≠ a := engine_ne_of_handle? hk hn
      have hn' : (h.without a).jobs[k]? = some { w with engine := slot a w.engine } :=
        getElem?_filterMap_without? hk hn
      have hengine : (h.without a).engines[slot a w.engine]? = h.engines[w.engine]? :=
        getElem?_eraseIdx_slot h.engines hw
      cases he : h.engines[w.engine]? with
      | none =>
          rw [he] at hengine
          simp only [advanceJob, hn, hn', he, hengine]
      | some e =>
          rw [he] at hengine
          let r := w.job.advance h.gates h.shared e
          have hplace : (h.setEngine w.engine r.1).jobs[n]? = some w := hn
          have hnumber : (h.setEngine w.engine r.1).handle? a n = some k := hk
          have hset : ((h.setEngine w.engine r.1).setJob n { w with job := r.2 }).without a =
              ((h.setEngine w.engine r.1).without a).setJob k
                { engine := slot a w.engine, job := r.2, closed := w.closed } :=
            without_setJob hnumber hplace rfl
          rw [without_setEngine h hw] at hset
          simp only [advanceJob, hn, hn', he, hengine]
          exact hset.symm

theorem without_advance (h : Host) (numbers : List Nat) :
    (numbers.filterMap (h.handle? a)).foldl advanceJob (h.without a) =
      (numbers.foldl advanceJob h).without a := by
  induction numbers generalizing h with
  | nil => rfl
  | cons n ns ih =>
      have hrest := ih (h.advanceJob n)
      rw [handle?_of_engines (h.enginesOf_advanceJob n)] at hrest
      rw [List.filterMap_cons, List.foldl_cons]
      cases hk : h.handle? a n with
      | none =>
          rw [without_advanceJob_self hk] at hrest
          exact hrest
      | some k =>
          rw [List.foldl_cons, without_advanceJob hk]
          exact hrest

/-! ## Jobs that are closed -/

/-- Results of jobs without those of an engine. -/
def resultsWithout (a : Nat) (h : Host) (results : List (Nat × Bool)) : List (Nat × Bool) :=
  results.filterMap fun r => (h.handle? a r.1).map fun k => (k, r.2)

theorem resultsWithout_of_engines {h' : Host} (hsame : enginesOf h'.jobs = enginesOf h.jobs)
    (results : List (Nat × Bool)) : h'.resultsWithout a results = h.resultsWithout a results := by
  rw [resultsWithout, resultsWithout, handle?_of_engines hsame]

theorem enginesOf_closeJob (h : Host) (n : Nat) :
    enginesOf (h.closeJob n).1.jobs = enginesOf h.jobs := by
  simp only [closeJob]
  split
  · rfl
  · rename_i w hn
    split
    · rfl
    · split
      · rfl
      · exact enginesOf_set hn rfl

theorem enginesOf_closeJobs (h : Host) (numbers : List Nat) :
    enginesOf (h.closeJobs numbers).1.jobs = enginesOf h.jobs := by
  induction numbers generalizing h with
  | nil => rfl
  | cons n ns ih => exact (ih _).trans (h.enginesOf_closeJob n)

/-- Letting jobs go on makes no job and takes none away. -/
theorem enginesOf_settle (h : Host) : enginesOf h.settle.1.jobs = enginesOf h.jobs :=
  (enginesOf_closeJobs _ _).trans (h.enginesOf_advance h.started)

/-- The bag of an engine is put in order if a job of all its fields is closed. -/
def sortEngine (h : Host) (whole : Bool) (b : Nat) : Host :=
  { h with engines := if whole then h.engines.modify b Engine.sortBag else h.engines }

theorem without_sortEngine_self (h : Host) (whole : Bool) :
    (h.sortEngine whole a).without a = h.without a := by
  cases whole with
  | false => rfl
  | true =>
      simp only [without, sortEngine, if_true, eraseIdx_modify_self]
      rfl

theorem without_sortEngine (h : Host) (whole : Bool) {b : Nat} (hb : b ≠ a) :
    (h.sortEngine whole b).without a = (h.without a).sortEngine whole (slot a b) := by
  cases whole with
  | false => rfl
  | true =>
      simp only [without, sortEngine, if_true, eraseIdx_modify_slot h.engines hb]
      rfl

theorem without_closeJob_self (hn : h.handle? a n = none) :
    (h.closeJob n).1.without a = h.without a := by
  obtain ⟨w, hget, hw⟩ := engine_of_handle?_none hn
  simp only [closeJob, hget]
  split
  · rfl
  · split
    · rfl
    · let next : Awaited := { w with closed := true }
      have hplace : (h.sortEngine w.job.whole a).jobs[n]? = some w := hget
      have hnext : next.engine = a := hw
      have hset : ((h.sortEngine w.job.whole a).setJob n next).without a = h.without a :=
        (without_setJob_self hplace hw hnext).trans (without_sortEngine_self h _)
      rw [← hset, ← hw]
      rfl

theorem without_closeJob (hk : h.handle? a n = some k) :
    (h.without a).closeJob k = ((h.closeJob n).1.without a, (h.closeJob n).2) := by
  cases hn : h.jobs[n]? with
  | none =>
      have hn' : (h.without a).jobs[k]? = none := getElem?_filterMap_without?_none hk hn
      simp only [closeJob, hn, hn']
  | some w =>
      have hw : w.engine ≠ a := engine_ne_of_handle? hk hn
      have hn' : (h.without a).jobs[k]? = some { w with engine := slot a w.engine } :=
        getElem?_filterMap_without? hk hn
      cases hclosed : w.closed with
      | true => simp only [closeJob, hn, hn', hclosed, if_true]
      | false =>
          cases hresult : w.job.result? with
          | none => simp only [closeJob, hn, hn', hclosed, hresult, Bool.false_eq_true, if_false]
          | some passed =>
              have hplace : (h.sortEngine w.job.whole w.engine).jobs[n]? = some w := hn
              have hnumber : (h.sortEngine w.job.whole w.engine).handle? a n = some k := hk
              have hset : ((h.sortEngine w.job.whole w.engine).setJob n
                    { w with closed := true }).without a =
                  ((h.sortEngine w.job.whole w.engine).without a).setJob k
                    { engine := slot a w.engine, job := w.job, closed := true } :=
                without_setJob hnumber hplace rfl
              rw [without_sortEngine h _ hw] at hset
              simp only [closeJob, hn, hn', hclosed, hresult, Bool.false_eq_true, if_false]
              congr 1
              exact hset.symm

theorem without_closeJobs (h : Host) (numbers : List Nat) :
    (h.without a).closeJobs (numbers.filterMap (h.handle? a)) =
      ((h.closeJobs numbers).1.without a, h.resultsWithout a (h.closeJobs numbers).2) := by
  induction numbers generalizing h with
  | nil => rfl
  | cons n ns ih =>
      have hsame : (h.closeJob n).1.handle? a = h.handle? a :=
        handle?_of_engines (h.enginesOf_closeJob n)
      have hrest := ih (h.closeJob n).1
      rw [hsame] at hrest
      rw [List.filterMap_cons]
      cases hk : h.handle? a n with
      | none =>
          rw [without_closeJob_self hk] at hrest
          simp only [hrest, closeJobs, resultsWithout, hsame, List.filterMap_append]
          congr 1
          cases (h.closeJob n).2 <;> simp [hk]
      | some k =>
          simp only [closeJobs, without_closeJob hk, hrest, resultsWithout, hsame,
            List.filterMap_append]
          congr 1
          cases (h.closeJob n).2 <;> simp [hk]

/-- Letting jobs go on without those of the engine does to the others what it does with them. -/
theorem without_settle (h : Host) :
    (h.without a).settle = (h.settle.1.without a, h.resultsWithout a h.settle.2) := by
  have hadvanced := without_advance (a := a) h h.started
  have hsame : (h.started.foldl advanceJob h).handle? a = h.handle? a :=
    handle?_of_engines (h.enginesOf_advance h.started)
  have hsettle : (h.without a).settle =
      ((h.started.foldl advanceJob h).without a).closeJobs
        ((h.started.foldl advanceJob h).without a).started := by
    rw [← hadvanced]
    rfl
  have hclosed := without_closeJobs (a := a) (h.started.foldl advanceJob h)
    (h.started.foldl advanceJob h).started
  rw [resultsWithout, hsame] at hclosed
  rw [hsettle]
  show Host.closeJobs _ (List.filterMap _ _) = _
  rw [hsame]
  exact hclosed

/-! ## Results in the order of numbers -/

/-- The results of other jobs keep their order. -/
theorem inOrder_without (h : Host) (numbers : List Nat) {results : List (Nat × Bool)}
    (hin : ∀ r ∈ results, r.1 < h.jobs.length) :
    inOrder (numbers.filterMap (h.handle? a)) (h.resultsWithout a results) =
      h.resultsWithout a (inOrder numbers results) := by
  have hfind : ∀ n k, h.handle? a n = some k →
      (h.resultsWithout a results).find? (fun r => r.1 == k) =
        (results.find? fun r => r.1 == n).map fun r => (k, r.2) := by
    intro n k hk
    induction results with
    | nil => rfl
    | cons r results ih =>
        obtain ⟨hr, hrest⟩ := List.forall_mem_cons.mp hin
        have hlt : r.1 < (enginesOf h.jobs).length := by rwa [enginesOf, List.length_map]
        have ih := ih hrest
        rw [resultsWithout] at ih ⊢
        rw [List.filterMap_cons, List.find?_cons]
        by_cases hrn : r.1 = n
        · simp [hrn, hk]
        · have hne : (r.1 == n) = false := by simpa using hrn
          rw [hne]
          cases hrk : h.handle? a r.1 with
          | none => simpa using ih
          | some m =>
              have hmk : m ≠ k := by
                rintro rfl
                exact hrn (handle?_inj hlt hrk hk).symm
              simpa [hmk] using ih
  have hresults : h.resultsWithout a (inOrder numbers results) =
      (inOrder numbers results).filterMap fun r => (h.handle? a r.1).map fun k => (k, r.2) := rfl
  rw [hresults, inOrder, inOrder, List.filterMap_filterMap, List.filterMap_filterMap]
  apply List.filterMap_congr
  intro n _
  cases hfound : results.find? (fun r => r.1 == n) with
  | none =>
      cases hk : h.handle? a n with
      | none => rfl
      | some k => rw [Option.bind_some, hfind n k hk, hfound]; rfl
  | some r =>
      have hr : r.1 = n := by simpa using List.find?_some hfound
      cases hk : h.handle? a n with
      | none => simp [hr, hk]
      | some k => rw [Option.bind_some, hfind n k hk, hfound]; simp [hr, hk]

end Host

end FieldRules
