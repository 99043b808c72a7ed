import UnitCompiler.IndexedTable
import UnitCompiler.Proofs.Blocks
import Mathlib.Data.List.Induction

namespace UnitCompiler

inductive TableOp where
  | insert (r : Record)
  | layOut (word : UInt32)
deriving DecidableEq, Repr

namespace Table

def step (t : Table) : TableOp → Table
  | .insert r => match t.insert r with
    | .ok (_, t') => t'
    | .error _ => t
  | .layOut word => t.layOut word

def after (ops : List TableOp) : Table := ops.foldl step empty

theorem contains_eq_isSome (t : Table) (name : String) : t.contains name = (t.get? name).isSome := by
  rw [get?, List.isSome_find?, contains]

theorem contains_iff_mem {t : Table} {name : String} : t.contains name = true ↔ name ∈ t.names := by
  simp [contains, names]

/-- With distinct names, the record under a name is the only one. -/
theorem get?_eq_some_iff {t : Table} (h : t.names.Nodup) {name : String} {r : Record} :
    t.get? name = some r ↔ t.records.filter (fun x => x.name == name) = [r] := by
  rw [get?, ← List.head?_filter]
  refine ⟨fun hhead => ?_, fun hone => by rw [hone]; rfl⟩
  obtain ⟨rest, hrest⟩ := List.head?_eq_some_iff.mp hhead
  have hname : ∀ x ∈ r :: rest, x.name = name := by
    intro x hx
    rw [← hrest] at hx
    exact eq_of_beq (List.mem_filter.mp hx).2
  have hdistinct : ((r :: rest).map Record.name).Nodup := hrest ▸ h.sublist (List.filter_sublist.map _)
  cases rest with
  | nil => exact hrest
  | cons x rest =>
    have hne := (List.nodup_cons.mp hdistinct).1
    rw [hname r List.mem_cons_self, List.map_cons, hname x (List.mem_cons_of_mem _ List.mem_cons_self)] at hne
    exact absurd List.mem_cons_self hne

end Table

namespace IndexedTable

variable {t : IndexedTable}

def step (t : IndexedTable) : TableOp → IndexedTable
  | .insert r => (t.insert r).2
  | .layOut word => t.layOut word

def after (ops : List TableOp) : IndexedTable := ops.foldl step empty

theorem after_append (ops later : List TableOp) : after (ops ++ later) = later.foldl step (after ops) :=
  List.foldl_append

def Agrees (t : IndexedTable) : Prop :=
  ∀ name i, t.positions.lookup name = some i ↔ t.names[i]? = some name

theorem agrees_empty : empty.Agrees := by
  intro name i
  simp [empty, Table.names]

theorem insert_of_contains {r : Record} (h : t.contains r.name = true) : t.insert r = (.error ⟨r.name⟩, t) :=
  if_pos h

theorem insert_of_new {r : Record} (h : t.contains r.name = false) :
    t.insert r = (.ok t.size, { records := t.records ++ [r], positions := (r.name, t.size) :: t.positions }) :=
  if_neg (Bool.not_eq_true _ ▸ h)

/-- A name goes into both parts at once. -/
theorem Agrees.concat (h : t.Agrees) {r : Record} (hnew : t.contains r.name = false) :
    Agrees { records := t.records ++ [r], positions := (r.name, t.size) :: t.positions } := by
  intro name i
  have hnames : (t.records ++ [r]).map Record.name = t.names ++ [r.name] := List.map_append
  have hsize : t.names.length = t.size := List.length_map _
  change List.lookup name _ = some i ↔ ((t.records ++ [r]).map Record.name)[i]? = some name
  rw [hnames, getElem?_concat_eq_some, hsize, List.lookup_cons]
  by_cases hname : name = r.name
  · have habsent : t.names[i]? ≠ some r.name := by
      intro hi
      rw [contains, (h r.name i).mpr hi] at hnew
      cases hnew
    simp [hname, habsent, eq_comm]
  · rw [beq_eq_false_iff_ne.mpr hname]
    simp [hname, h name i]

theorem Agrees.step (h : t.Agrees) (op : TableOp) : (t.step op).Agrees := by
  cases op with
  | insert r =>
    change (t.insert r).2.Agrees
    cases hnew : t.contains r.name with
    | true => rw [insert_of_contains hnew]; exact h
    | false => rw [insert_of_new hnew]; exact h.concat hnew
  | layOut word =>
    have hnames : (t.step (.layOut word)).names = t.names := Table.map_layOut (fun _ _ => rfl) t.toTable word
    intro name i
    rw [hnames]
    exact h name i

theorem agrees_after (ops : List TableOp) : (after ops).Agrees := by
  induction ops using List.reverseRecOn with
  | nil => exact agrees_empty
  | append_singleton ops op ih =>
    rw [after_append]
    exact ih.step op

theorem Agrees.nodup (h : t.Agrees) : t.names.Nodup := by
  refine List.pairwise_iff_getElem.mpr fun i j hi hj hlt heq => ?_
  have hfound := (h _ i).mpr (List.getElem?_eq_getElem hi)
  have hfound' := (h _ j).mpr (List.getElem?_eq_getElem hj)
  rw [heq] at hfound
  exact Nat.ne_of_lt hlt (Option.some.inj (hfound.symm.trans hfound'))

/-- A position leads to a record under the name. -/
theorem Agrees.exists_at? (h : t.Agrees) {name : String} {i : Nat} (hi : t.positions.lookup name = some i) :
    ∃ r, t.at? i = some r ∧ r.name = name := by
  have hname := (h name i).mp hi
  rw [Table.names, List.getElem?_map] at hname
  exact Option.map_eq_some_iff.mp hname

/-- Through the index one finds what a walk over the records finds. -/
theorem Agrees.get?_eq (h : t.Agrees) (name : String) : t.get? name = t.toTable.get? name := by
  unfold get?
  cases hfound : t.positions.lookup name with
  | some i =>
    obtain ⟨r, hr, rfl⟩ := h.exists_at? hfound
    exact hr.trans (Table.get?_of_nodup h.nodup (List.mem_of_getElem? hr)).symm
  | none =>
    refine (List.find?_eq_none.mpr fun r hr hname => ?_).symm
    have hmem : name ∈ t.names := List.mem_map.mpr ⟨r, hr, eq_of_beq hname⟩
    obtain ⟨i, hi⟩ := List.getElem?_of_mem hmem
    cases hfound.symm.trans ((h name i).mpr hi)

theorem Agrees.contains_eq (h : t.Agrees) (name : String) : t.contains name = (t.get? name).isSome := by
  unfold contains get?
  cases hfound : t.positions.lookup name with
  | none => rfl
  | some i =>
    obtain ⟨r, hr, -⟩ := h.exists_at? hfound
    simp [hr]

theorem Agrees.contains_toTable (h : t.Agrees) (name : String) : t.contains name = t.toTable.contains name := by
  rw [h.contains_eq, h.get?_eq, Table.contains_eq_isSome]

/-- A record is refused for its name and nothing else, or comes in behind the others. -/
theorem Agrees.insert_cases (h : t.Agrees) (r : Record) :
    (r.name ∈ t.names ∧ t.insert r = (.error ⟨r.name⟩, t)) ∨
      (r.name ∉ t.names ∧ ∃ t', t.insert r = (.ok t.size, t') ∧ t'.at? t.size = some r) := by
  rw [← Table.contains_iff_mem, ← h.contains_toTable]
  cases hnew : t.contains r.name with
  | true => exact Or.inl ⟨rfl, insert_of_contains hnew⟩
  | false => exact Or.inr ⟨Bool.false_ne_true, _, insert_of_new hnew, List.getElem?_concat_length⟩

theorem Agrees.insert_toTable (h : t.Agrees) (r : Record) :
    t.toTable.insert r = (t.insert r).1.map fun i => (i, (t.insert r).2.toTable) := by
  unfold Table.insert
  rw [← h.contains_toTable]
  cases hnew : t.contains r.name with
  | true => rw [insert_of_contains hnew]; rfl
  | false => rw [insert_of_new hnew]; rfl

theorem Agrees.step_toTable (h : t.Agrees) (op : TableOp) : (t.step op).toTable = t.toTable.step op := by
  cases op with
  | layOut word => rfl
  | insert r =>
    change (t.insert r).2.toTable = t.toTable.step (.insert r)
    rw [Table.step, h.insert_toTable]
    cases hnew : t.contains r.name with
    | true => rw [insert_of_contains hnew]; rfl
    | false => rw [insert_of_new hnew]; rfl

theorem toTable_after (ops : List TableOp) : (after ops).toTable = Table.after ops := by
  induction ops using List.reverseRecOn with
  | nil => rfl
  | append_singleton ops op ih =>
    have hstep := (agrees_after ops).step_toTable op
    rw [ih] at hstep
    rw [after_append, Table.after, List.foldl_append]
    exact hstep

/-- An operation only adds records and gives places. -/
theorem unplaced_step (t : IndexedTable) (op : TableOp) :
    t.records.map Record.unplaced <+: (t.step op).records.map Record.unplaced := by
  cases op with
  | layOut word =>
    have hsame : (t.step (.layOut word)).records.map Record.unplaced = t.records.map Record.unplaced :=
      Table.map_layOut (fun _ _ => rfl) t.toTable word
    exact hsame ▸ List.prefix_refl _
  | insert r =>
    change _ <+: (t.insert r).2.records.map Record.unplaced
    cases hnew : t.contains r.name with
    | true => exact insert_of_contains hnew ▸ List.prefix_refl _
    | false =>
      rw [insert_of_new hnew, List.map_append]
      exact List.prefix_append ..

theorem unplaced_run (t : IndexedTable) (later : List TableOp) :
    t.records.map Record.unplaced <+: (later.foldl step t).records.map Record.unplaced := by
  induction later generalizing t with
  | nil => exact List.prefix_refl _
  | cons op later ih => exact (t.unplaced_step op).trans (ih (t.step op))

end IndexedTable

/-- The two parts of a table never drift apart, whatever is done to it. No two records have one name, and the index
holds the position of each name, so that a name leads to the one record under it. A record is refused if and only if
its name is taken, and then the table stays as it is; else it gets the next position, and keeps it and all but its
offset whatever follows. A table without an index gives the same answers. -/
theorem table_index_consistent (ops : List TableOp) :
    let t := IndexedTable.after ops
    t.names.Nodup ∧
    (∀ name i, t.positions.lookup name = some i ↔ t.names[i]? = some name) ∧
    (∀ name r, t.get? name = some r ↔ t.records.filter (fun x => x.name == name) = [r]) ∧
    (∀ name, t.contains name = (t.get? name).isSome) ∧
    (∀ r, (r.name ∈ t.names ∧ t.insert r = (.error ⟨r.name⟩, t)) ∨
      (r.name ∉ t.names ∧ ∃ t', t.insert r = (.ok t.size, t') ∧ t'.at? t.size = some r)) ∧
    (∀ later, t.records.map Record.unplaced <+:
      (IndexedTable.after (ops ++ later)).records.map Record.unplaced) ∧
    t.toTable = Table.after ops ∧
    (∀ name, t.toTable.get? name = t.get? name ∧ t.toTable.contains name = t.contains name) ∧
    ∀ r, t.toTable.insert r = (t.insert r).1.map fun i => (i, (t.insert r).2.toTable) := by
  intro t
  have ht : t.Agrees := IndexedTable.agrees_after ops
  refine ⟨ht.nodup, ht, fun name r => ?_, ht.contains_eq, ht.insert_cases, fun later => ?_,
    IndexedTable.toTable_after ops, fun name => ⟨(ht.get?_eq name).symm, (ht.contains_toTable name).symm⟩,
    ht.insert_toTable⟩
  · rw [ht.get?_eq]
    exact Table.get?_eq_some_iff ht.nodup
  · rw [IndexedTable.after_append]
    exact t.unplaced_run later

end UnitCompiler
