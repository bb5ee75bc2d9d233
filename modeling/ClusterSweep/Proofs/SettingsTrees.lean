import Mathlib
import ClusterSweep.Settings.Value

/-!
# Layered settings trees

A settings tree is looked at through its nodes at key paths (`Value.find?`).  Layering trees
is described here without merging: the node a stack of layers gives a path is the node of the
highest layer that has one, unless a layer above it hides the path below a value that is not a
table (`topAt`).  The main result, `KeyWiseMerge.agree_foldl`, says that a merge of the layers
has exactly these nodes: the same node where it is not a table, and a table where the stack gives
a table, whose entries are in turn the nodes of the longer paths.  It holds of every merge that
keeps the laws of a key-wise merge (`KeyWiseMerge`): the upper tree's node wins at every path,
tables merging key by key and anything else replacing what lies below.  `Value.merge` is one
(`keyWiseMerge_merge`).

This needs the tables of every layer to keep their entries sorted by key (`Keyed`); tables built
by `Value.ofEntries` (`keyed_ofEntries`) and merged tables (`Keyed.merge`) do.
-/

namespace ClusterSweep.Settings

open Value

/-- Entries strictly sorted by key, so that each key appears once. -/
def Ordered (es : List (String × Value)) : Prop := es.Pairwise fun a b => a.1 < b.1

/-- A tree whose tables all keep their entries strictly sorted by key.  A list is a leaf for
layering, which never looks into it, so its items may be anything. -/
inductive Keyed : Value → Prop
  | scalar (o : Option Origin) (s : Scalar) : Keyed (.scalar o s)
  | list (o : Option Origin) (xs : List Value) : Keyed (.list o xs)
  | table (o : Option Origin) (es : List (String × Value)) :
      Ordered es → (∀ e ∈ es, Keyed e.2) → Keyed (.table o es)

namespace Value

/-- Whether a node is a table. -/
def isTable : Value → Bool
  | .table _ _ => true
  | _ => false

/-- The node at a key path: the tree itself at the empty path, and below that the node at the
rest of the path under the entry of the first key, which only a table has. -/
def find? : Value → List String → Option Value
  | v, [] => some v
  | .table _ es, k :: p => (es.lookup k).bind fun v => v.find? p
  | _, _ :: _ => none

/-- Whether a node other than a table stands on a key path before its end.  The tree then has no
node at the path, and layered over another tree it hides the other tree's node there. -/
def hides : Value → List String → Bool
  | _, [] => false
  | .table _ es, k :: p =>
    match es.lookup k with
    | some v => v.hides p
    | none => false
  | _, _ :: _ => true

@[simp] theorem find?_nil (v : Value) : v.find? [] = some v := by
  cases v <;> rfl

@[simp] theorem find?_table_cons (o : Option Origin) (es : List (String × Value)) (k : String)
    (p : List String) : (table o es).find? (k :: p) = (es.lookup k).bind fun v => v.find? p :=
  rfl

@[simp] theorem hides_nil (v : Value) : v.hides [] = false := by
  cases v <;> rfl

theorem hides_table_cons (o : Option Origin) (es : List (String × Value)) (k : String)
    (p : List String) :
    (table o es).hides (k :: p) = match es.lookup k with
      | some v => v.hides p
      | none => false :=
  rfl

@[simp] theorem merge_table_table (o o' : Option Origin) (a b : List (String × Value)) :
    merge (table o a) (table o' b) = table o' (mergeEntries a b) := by
  rw [merge]

/-- An upper layer that is not a table replaces the lower one. -/
theorem merge_of_isTable_false (a : Value) {b : Value} (h : b.isTable = false) : merge a b = b := by
  rw [merge.eq_2]
  rintro _ _ _ _ - rfl
  simp [isTable] at h

/-- A lower layer that is not a table is replaced by the upper one. -/
theorem merge_of_isTable_false_left {a : Value} (h : a.isTable = false) (b : Value) :
    merge a b = b := by
  rw [merge.eq_2]
  rintro _ _ _ _ rfl -
  simp [isTable] at h

@[simp] theorem isTable_merge (a b : Value) : (merge a b).isTable = b.isTable := by
  cases a with
  | table o es =>
    cases b with
    | table o' es' => simp [isTable]
    | scalar o' s => rw [merge_of_isTable_false _ rfl]
    | list o' xs => rw [merge_of_isTable_false _ rfl]
  | scalar o s => rw [merge_of_isTable_false_left rfl]
  | list o xs => rw [merge_of_isTable_false_left rfl]

@[simp] theorem mergeEntries_nil_left (b : List (String × Value)) : mergeEntries [] b = b := by
  rw [mergeEntries]

end Value

/-! ## Sorted entry lists -/

section Lookup

variable {k k' : String} {v : Value} {es : List (String × Value)}

@[simp] theorem lookup_cons_eq_ite :
    ((k, v) :: es).lookup k' = if k' = k then some v else es.lookup k' := by
  by_cases h : k' = k
  · simp [h]
  · have hb : (k' == k) = false := beq_false_of_ne h
    simp [List.lookup_cons, hb, h]

theorem mem_of_lookup_eq_some (h : es.lookup k = some v) : (k, v) ∈ es := by
  obtain ⟨l₁, l₂, rfl, -⟩ := List.lookup_eq_some_iff.1 h
  simp

theorem Ordered.lt_of_mem (h : Ordered ((k', v) :: es)) : ∀ e ∈ es, k' < e.1 :=
  fun _ he => List.rel_of_pairwise_cons h he

/-- A key below the first key of a sorted list has no entry. -/
theorem Ordered.lookup_eq_none_of_lt (h : Ordered ((k', v) :: es)) (hk : k < k') :
    ((k', v) :: es).lookup k = none := by
  refine List.lookup_eq_none_iff.2 fun e he => ?_
  have hlt : k < e.1 := by
    rcases List.mem_cons.1 he with rfl | he
    · exact hk
    · exact hk.trans (h.lt_of_mem _ he)
  simpa using hlt.ne

end Lookup

section Insert

variable {k k' : String} {v : Value} {es : List (String × Value)}

theorem mem_insertEntry {e : String × Value} (h : e ∈ insertEntry k v es) :
    e = (k, v) ∨ e ∈ es := by
  induction es with
  | nil => simpa [insertEntry] using h
  | cons hd tl ih =>
    obtain ⟨k'', v''⟩ := hd
    rw [insertEntry] at h
    split_ifs at h <;> grind

/-- Inserting an entry sets its key and leaves every other key's entry alone; this needs no
sorting, since `insertEntry` replaces the first entry of its key. -/
theorem lookup_insertEntry :
    (insertEntry k v es).lookup k' = if k' = k then some v else es.lookup k' := by
  induction es with
  | nil => simp [insertEntry]
  | cons hd tl ih =>
    obtain ⟨k'', v''⟩ := hd
    rw [insertEntry]
    by_cases hlt : k < k''
    · rw [if_pos hlt]
      by_cases h : k' = k <;> simp [h]
    · rw [if_neg hlt]
      by_cases heq : k = k''
      · rw [if_pos heq]
        subst heq
        by_cases h : k' = k <;> simp [h]
      · rw [if_neg heq]
        by_cases h : k' = k''
        · subst h
          simp [Ne.symm heq]
        · simp [h, ih]

theorem Ordered.insertEntry (h : Ordered es) : Ordered (insertEntry k v es) := by
  induction es with
  | nil => simp [Value.insertEntry, Ordered]
  | cons hd tl ih =>
    obtain ⟨k'', v''⟩ := hd
    have htl : Ordered tl := h.of_cons
    rw [Ordered, Value.insertEntry]
    split_ifs with hlt heq
    · refine h.cons fun e he => ?_
      rcases List.mem_cons.1 he with rfl | he
      · exact hlt
      · exact hlt.trans (List.rel_of_pairwise_cons h he)
    · subst heq
      exact htl.cons fun e he => List.rel_of_pairwise_cons h he
    · refine (ih htl).cons fun e he => ?_
      rcases mem_insertEntry he with rfl | he
      · exact lt_of_le_of_ne (not_lt.1 hlt) (Ne.symm heq)
      · exact List.rel_of_pairwise_cons h he

section Fold

variable {f : List (String × Value) → String × Value → List (String × Value)}

/-- Folding entries into a list by `insertEntry`, as `sortEntries` does, looks like the entries,
latest first, in front of the list. -/
theorem lookup_foldl_insertEntry (hf : ∀ acc e, f acc e = insertEntry e.1 e.2 acc)
    (acc : List (String × Value)) : (es.foldl f acc).lookup k = (es.reverse ++ acc).lookup k := by
  induction es generalizing acc with
  | nil => simp
  | cons e es ih =>
    obtain ⟨k', v'⟩ := e
    rw [List.foldl_cons, ih, hf, List.reverse_cons, List.append_assoc, List.lookup_append,
      List.lookup_append, lookup_insertEntry]
    by_cases hk : k = k' <;> simp [hk]

theorem ordered_foldl_insertEntry (hf : ∀ acc e, f acc e = insertEntry e.1 e.2 acc)
    {acc : List (String × Value)} (h : Ordered acc) : Ordered (es.foldl f acc) := by
  induction es generalizing acc with
  | nil => exact h
  | cons e es ih =>
    rw [List.foldl_cons, hf]
    exact ih h.insertEntry

theorem mem_foldl_insertEntry (hf : ∀ acc e, f acc e = insertEntry e.1 e.2 acc)
    {acc : List (String × Value)} {e : String × Value} (h : e ∈ es.foldl f acc) :
    e ∈ es ∨ e ∈ acc := by
  induction es generalizing acc with
  | nil => exact .inr h
  | cons x es ih =>
    rw [List.foldl_cons, hf] at h
    rcases ih h with he | he
    · exact .inl (List.mem_cons_of_mem _ he)
    · rcases mem_insertEntry he with rfl | he
      · exact .inl List.mem_cons_self
      · exact .inr he

end Fold

theorem lookup_sortEntries : (sortEntries es).lookup k = es.reverse.lookup k := by
  have h : sortEntries es = es.foldl (fun acc e => insertEntry e.1 e.2 acc) [] := rfl
  rw [h, lookup_foldl_insertEntry (fun _ _ => rfl), List.append_nil]

theorem ordered_sortEntries (es : List (String × Value)) : Ordered (sortEntries es) :=
  ordered_foldl_insertEntry (fun _ ⟨_, _⟩ => rfl) List.Pairwise.nil

theorem mem_sortEntries {e : String × Value} (h : e ∈ sortEntries es) : e ∈ es := by
  simpa using mem_foldl_insertEntry (fun _ ⟨_, _⟩ => rfl) h

/-- A table built from entries whose values keep their tables sorted keeps all of them sorted. -/
theorem keyed_ofEntries (o : Option Origin) (h : ∀ e ∈ es, Keyed e.2) : Keyed (ofEntries o es) :=
  .table o _ (ordered_sortEntries es) fun _ he => h _ (mem_sortEntries he)

/-- Below a table built from entries, a key finds its last entry. -/
theorem find?_ofEntries (o : Option Origin) (p : List String) :
    (ofEntries o es).find? (k :: p) = (es.reverse.lookup k).bind (·.find? p) := by
  rw [ofEntries, find?_table_cons, lookup_sortEntries]

end Insert

/-! ## Merging sorted entry lists -/

section Merge

variable {a b : List (String × Value)}

/-- Induction along the merge of two entry lists, one case per branch of the merge; the nested
merge of the values under a shared key needs no hypothesis here. -/
theorem mergeEntries_induct {motive : List (String × Value) → List (String × Value) → Prop}
    (nil_left : ∀ b, motive [] b) (nil_right : ∀ a, a ≠ [] → motive a [])
    (lt : ∀ ka va ra kb vb rb, ka < kb → motive ra ((kb, vb) :: rb) →
      motive ((ka, va) :: ra) ((kb, vb) :: rb))
    (gt : ∀ ka va ra kb vb rb, ¬ka < kb → kb < ka → motive ((ka, va) :: ra) rb →
      motive ((ka, va) :: ra) ((kb, vb) :: rb))
    (eq : ∀ ka va ra kb vb rb, ¬ka < kb → ¬kb < ka → motive ra rb →
      motive ((ka, va) :: ra) ((kb, vb) :: rb))
    (a b : List (String × Value)) : motive a b :=
  mergeEntries.induct (fun _ _ => True) motive (fun _ _ _ _ _ => trivial) (fun _ _ _ => trivial)
    nil_left nil_right lt gt (fun ka va ra kb vb rb h h' _ ih => eq ka va ra kb vb rb h h' ih) a b

/-- A property of keys that holds of both lists holds of their merge. -/
theorem forall_mergeEntries {P : String → Prop} (ha : ∀ e ∈ a, P e.1) (hb : ∀ e ∈ b, P e.1) :
    ∀ e ∈ mergeEntries a b, P e.1 := by
  induction a, b using mergeEntries_induct with
  | nil_left b => simpa using hb
  | nil_right a hne => simpa [mergeEntries.eq_2 a hne] using ha
  | lt ka va ra kb vb rb hlt ih =>
    rw [mergeEntries.eq_3, if_pos hlt]
    simp only [List.forall_mem_cons] at ha ⊢
    exact ⟨ha.1, ih ha.2 hb⟩
  | gt ka va ra kb vb rb hnlt hlt ih =>
    rw [mergeEntries.eq_3, if_neg hnlt, if_pos hlt]
    simp only [List.forall_mem_cons] at hb ⊢
    exact ⟨hb.1, ih ha hb.2⟩
  | eq ka va ra kb vb rb hnlt hnlt' ih =>
    rw [mergeEntries.eq_3, if_neg hnlt, if_neg hnlt']
    simp only [List.forall_mem_cons] at ha hb ⊢
    exact ⟨ha.1, ih ha.2 hb.2⟩

theorem Ordered.mergeEntries (ha : Ordered a) (hb : Ordered b) : Ordered (mergeEntries a b) := by
  induction a, b using mergeEntries_induct with
  | nil_left b => simpa using hb
  | nil_right a hne => simpa [mergeEntries.eq_2 a hne] using ha
  | lt ka va ra kb vb rb hlt ih =>
    rw [mergeEntries.eq_3, if_pos hlt]
    refine (ih ha.of_cons hb).cons (forall_mergeEntries ha.lt_of_mem ?_)
    simp only [List.forall_mem_cons]
    exact ⟨hlt, fun e he => hlt.trans (hb.lt_of_mem _ he)⟩
  | gt ka va ra kb vb rb hnlt hlt ih =>
    rw [mergeEntries.eq_3, if_neg hnlt, if_pos hlt]
    refine (ih ha hb.of_cons).cons (forall_mergeEntries ?_ hb.lt_of_mem)
    simp only [List.forall_mem_cons]
    exact ⟨hlt, fun e he => hlt.trans (ha.lt_of_mem _ he)⟩
  | eq ka va ra kb vb rb hnlt hnlt' ih =>
    rw [mergeEntries.eq_3, if_neg hnlt, if_neg hnlt']
    have hk : kb = ka := le_antisymm (not_lt.1 hnlt) (not_lt.1 hnlt')
    refine (ih ha.of_cons hb.of_cons).cons
      (forall_mergeEntries ha.lt_of_mem fun e he => ?_)
    exact hk ▸ hb.lt_of_mem _ he

/-- An entry of a merge comes from one of the lists, or merges a value of each under one key. -/
theorem mem_mergeEntries {e : String × Value} (h : e ∈ mergeEntries a b) :
    e ∈ a ∨ e ∈ b ∨ ∃ va vb, (e.1, va) ∈ a ∧ (e.1, vb) ∈ b ∧ e.2 = merge va vb := by
  induction a, b using mergeEntries_induct with
  | nil_left b => simp_all
  | nil_right a hne => simp_all [mergeEntries.eq_2 a hne]
  | lt ka va ra kb vb rb hlt ih =>
    rw [mergeEntries.eq_3, if_pos hlt] at h
    rcases List.mem_cons.1 h with rfl | h
    · simp
    · grind
  | gt ka va ra kb vb rb hnlt hlt ih =>
    rw [mergeEntries.eq_3, if_neg hnlt, if_pos hlt] at h
    rcases List.mem_cons.1 h with rfl | h
    · simp
    · grind
  | eq ka va ra kb vb rb hnlt hnlt' ih =>
    rw [mergeEntries.eq_3, if_neg hnlt, if_neg hnlt'] at h
    have hk : kb = ka := le_antisymm (not_lt.1 hnlt) (not_lt.1 hnlt')
    subst hk
    rcases List.mem_cons.1 h with rfl | h
    · exact .inr (.inr ⟨va, vb, by simp, by simp, rfl⟩)
    · grind

/-- The entry of a key in a merge of sorted lists layers the upper list's entry over the lower
one's. -/
theorem lookup_mergeEntries (ha : Ordered a) (hb : Ordered b) (k : String) :
    (mergeEntries a b).lookup k = Option.merge merge (a.lookup k) (b.lookup k) := by
  induction a, b using mergeEntries_induct with
  | nil_left b => cases h : b.lookup k <;> simp [h, Option.merge]
  | nil_right a hne => cases h : a.lookup k <;> simp [h, mergeEntries.eq_2 a hne, Option.merge]
  | lt ka va ra kb vb rb hlt ih =>
    rw [mergeEntries.eq_3, if_pos hlt]
    by_cases hk : k = ka
    · subst hk
      simp [hb.lookup_eq_none_of_lt hlt, Option.merge]
    · simp [hk, ih ha.of_cons hb]
  | gt ka va ra kb vb rb hnlt hlt ih =>
    rw [mergeEntries.eq_3, if_neg hnlt, if_pos hlt]
    by_cases hk : k = kb
    · subst hk
      simp [ha.lookup_eq_none_of_lt hlt, Option.merge]
    · simp [hk, ih ha hb.of_cons]
  | eq ka va ra kb vb rb hnlt hnlt' ih =>
    rw [mergeEntries.eq_3, if_neg hnlt, if_neg hnlt']
    have hk : kb = ka := le_antisymm (not_lt.1 hnlt) (not_lt.1 hnlt')
    subst hk
    by_cases hk : k = kb
    · subst hk
      simp [Option.merge]
    · simp [hk, ih ha.of_cons hb.of_cons]

end Merge

/-! ## Keyed trees -/

namespace Keyed

/-- An empty table is sorted. -/
theorem empty (o : Option Origin) : Keyed (.table o []) :=
  .table o [] List.Pairwise.nil (by simp)

theorem lookup {o : Option Origin} {es : List (String × Value)} {k : String} {v : Value}
    (h : Keyed (.table o es)) (hv : es.lookup k = some v) : Keyed v := by
  cases h with
  | table _ _ _ hes => exact hes _ (mem_of_lookup_eq_some hv)

theorem table_iff {o : Option Origin} {es : List (String × Value)} :
    Keyed (.table o es) ↔ Ordered es ∧ ∀ e ∈ es, Keyed e.2 := by
  constructor
  · rintro (_ | _ | ⟨_, _, hord, hes⟩)
    exact ⟨hord, hes⟩
  · rintro ⟨hord, hes⟩
    exact .table o es hord hes

theorem ordered {o : Option Origin} {es : List (String × Value)} (h : Keyed (.table o es)) :
    Ordered es :=
  (table_iff.1 h).1

/-- Merging keeps tables sorted; the induction is on the lower tree, whose entries' values are
merged with the upper tree's values under the same keys. -/
theorem merge {a : Value} (ha : Keyed a) {b : Value} (hb : Keyed b) : Keyed (a.merge b) := by
  induction ha generalizing b with
  | scalar o s => rwa [merge_of_isTable_false_left rfl]
  | list o xs => rwa [merge_of_isTable_false_left rfl]
  | table o es hord hes ih =>
    cases hb with
    | scalar o' s =>
      rw [merge_of_isTable_false _ rfl]
      exact .scalar o' s
    | list o' xs =>
      rw [merge_of_isTable_false _ rfl]
      exact .list o' xs
    | table o' eb hord' heb =>
      rw [merge_table_table]
      refine .table o' _ (hord.mergeEntries hord') fun e he => ?_
      rcases mem_mergeEntries he with he | he | ⟨va, vb, hva, hvb, he⟩
      · exact hes e he
      · exact heb e he
      · rw [he]
        exact ih _ hva (heb _ hvb)

/-- A fold whose every step keeps tables sorted keeps them sorted. -/
theorem foldl {α : Type} {f : Value → α → Value} (hf : ∀ acc x, Keyed acc → Keyed (f acc x))
    (l : List α) {acc : Value} (h : Keyed acc) : Keyed (l.foldl f acc) := by
  induction l generalizing acc with
  | nil => exact h
  | cons x l ih => exact ih (hf acc x h)

end Keyed

/-! ## Nodes of merged trees -/

namespace Value

/-- The node of a merge at a path: the upper tree's node layered over the lower tree's, where the
upper tree has one; otherwise the lower tree's, unless the upper tree hides the path. -/
theorem find?_merge {a b : Value} (ha : Keyed a) (hb : Keyed b) (p : List String) :
    (a.merge b).find? p =
      match b.find? p with
      | some vb => some ((a.find? p).elim vb fun va => va.merge vb)
      | none => if b.hides p then none else a.find? p := by
  induction p generalizing a b with
  | nil => simp
  | cons k p ih =>
    cases hb with
    | scalar o s =>
      rw [merge_of_isTable_false _ rfl]
      simp [find?, hides]
    | list o xs =>
      rw [merge_of_isTable_false _ rfl]
      simp [find?, hides]
    | table o' eb hord' heb =>
      cases ha with
      | scalar o s =>
        rw [merge_of_isTable_false_left rfl]
        cases (table o' eb).find? (k :: p) <;> simp [find?]
      | list o xs =>
        rw [merge_of_isTable_false_left rfl]
        cases (table o' eb).find? (k :: p) <;> simp [find?]
      | table o ea hord hea =>
        rw [merge_table_table, find?_table_cons, lookup_mergeEntries hord hord', hides_table_cons]
        simp only [find?_table_cons]
        cases hva : ea.lookup k with
        | none =>
          cases hvb : eb.lookup k with
          | none => simp [Option.merge]
          | some vb => cases h : vb.find? p <;> simp [h, Option.merge]
        | some va =>
          cases hvb : eb.lookup k with
          | none => simp [Option.merge]
          | some vb =>
            have hka : Keyed va := hea _ (mem_of_lookup_eq_some hva)
            have hkb : Keyed vb := heb _ (mem_of_lookup_eq_some hvb)
            simpa [Option.merge] using ih hka hkb

end Value

/-- The node that a stack of layers, the highest first, gives a key path: that of the highest
layer with a node there, unless a layer above it hides the path. -/
def topAt : List Value → List String → Option Value
  | [], _ => none
  | l :: ls, p =>
    match l.find? p with
    | some v => some v
    | none => if l.hides p then none else topAt ls p

theorem topAt_cons (l : Value) (ls : List Value) (p : List String) :
    topAt (l :: ls) p = match l.find? p with
      | some v => some v
      | none => if l.hides p then none else topAt ls p :=
  rfl

/-- A layer with no node at a path, that does not hide it, leaves the path to the layers below. -/
theorem topAt_cons_of_find?_none {l : Value} (hf : l.find? p = none) (hh : l.hides p = false)
    (ls : List Value) : topAt (l :: ls) p = topAt ls p := by
  simp [topAt_cons, hf, hh]

theorem topAt_singleton (l : Value) (p : List String) : topAt [l] p = l.find? p := by
  cases h : l.find? p <;> cases l.hides p <;> simp [topAt, h]

/-- Two answers for the node at a path agree when both are absent, both are tables, or both are
the same node other than a table. -/
structure Agree (x y : Option Value) : Prop where
  none_iff : x = none ↔ y = none
  some_iff : ∀ v, v.isTable = false → (x = some v ↔ y = some v)

theorem Agree.refl (x : Option Value) : Agree x x := ⟨Iff.rfl, fun _ _ => Iff.rfl⟩

/-! ## Key-wise merges -/

/-- The laws of a merge that layers the upper tree over the lower one key by key. -/
structure KeyWiseMerge (merge : Value → Value → Value) : Prop where
  /-- Merging keeps tables sorted. -/
  keyed_merge : ∀ {a b : Value}, Keyed a → Keyed b → Keyed (merge a b)
  /-- At every path the upper tree's node is layered over the lower tree's; where the upper tree
  has none, the lower tree's stays unless the upper tree hides the path. -/
  find?_merge : ∀ {a b : Value}, Keyed a → Keyed b → ∀ p, (merge a b).find? p =
    match b.find? p with
    | some vb => some ((a.find? p).elim vb fun va => merge va vb)
    | none => if b.hides p then none else a.find? p
  /-- An upper tree that is not a table replaces the lower one. -/
  merge_leaf : ∀ (a : Value) {b : Value}, b.isTable = false → merge a b = b
  /-- A merge is a table exactly when the upper tree is one. -/
  isTable_merge : ∀ a b, (merge a b).isTable = b.isTable

/-- `Value.merge` is a key-wise merge. -/
theorem keyWiseMerge_merge : KeyWiseMerge Value.merge :=
  ⟨fun ha hb => ha.merge hb, find?_merge, merge_of_isTable_false, isTable_merge⟩

namespace KeyWiseMerge

variable {merge : Value → Value → Value} (hM : KeyWiseMerge merge)
include hM

theorem keyed_foldl {base : Value} (hbase : Keyed base) {ls : List Value}
    (hls : ∀ l ∈ ls, Keyed l) : Keyed (ls.foldl merge base) := by
  induction ls generalizing base with
  | nil => exact hbase
  | cons l ls ih =>
    simp only [List.forall_mem_cons] at hls
    exact ih (hM.keyed_merge hbase hls.1) hls.2

/-- Layering one more tree over a merge keeps it in agreement with the stack: the step of
`KeyWiseMerge.agree_foldl`. -/
theorem agree {m l : Value} {ls : List Value} {p : List String} (hm : Keyed m)
    (hl : Keyed l) (h : Agree (m.find? p) (topAt ls p)) :
    Agree ((merge m l).find? p) (topAt (l :: ls) p) := by
  rw [hM.find?_merge hm hl, topAt_cons]
  cases hlp : l.find? p with
  | none =>
    cases l.hides p
    · exact h
    · exact Agree.refl none
  | some vl =>
    -- the merged node is a table exactly when `vl` is one, and is `vl` when it is not
    have hmerge : ∀ v, v.isTable = false →
        (((m.find? p).elim vl fun va => merge va vl) = v ↔ vl = v) := by
      intro v hv
      cases hvl : vl.isTable
      · cases m.find? p <;> simp [hM.merge_leaf _ hvl]
      · constructor
        · rintro rfl
          cases hf : m.find? p <;> simp_all [hM.isTable_merge]
        · rintro rfl
          simp_all
    exact ⟨by simp, fun v hv => by simpa using hmerge v hv⟩

/-- The nodes of a merge of layers are those the stack of layers gives, highest first. -/
theorem agree_foldl {base : Value} (hbase : Keyed base) {ls : List Value}
    (hls : ∀ l ∈ ls, Keyed l) (p : List String) :
    Agree ((ls.foldl merge base).find? p) (topAt (ls.reverse ++ [base]) p) := by
  induction ls using List.reverseRecOn with
  | nil => simpa [topAt_singleton] using Agree.refl (base.find? p)
  | append_singleton ls l ih =>
    simp only [List.mem_append, List.mem_singleton] at hls
    have hls' : ∀ x ∈ ls, Keyed x := fun x hx => hls x (.inl hx)
    rw [List.foldl_append, List.foldl_cons, List.foldl_nil, List.reverse_append,
      List.reverse_singleton, List.singleton_append, List.cons_append]
    exact hM.agree (hM.keyed_foldl hbase hls') (hls l (.inr rfl)) (ih hls')

end KeyWiseMerge

end ClusterSweep.Settings
