import UnitCompiler.Proofs.FieldTables
import UnitCompiler.Proofs.StoredConstants

namespace UnitCompiler

/-- What a declaration leaves in the table it is registered in: its name and its kind. Data leave nothing. -/
def Decl.entry? : Decl → Option (String × Kind)
  | .var _ v => some (v.ident, v.kind)
  | .function _ head _ _ => some (head.ident, .func)
  | .struct _ head _ => some (head.ident, .struct)
  | .data _ _ => none
  | .array _ v => some (v.ident, v.kind)

def Record.entry (r : Record) : String × Kind := (r.name, r.kind)

structure Table.Admits (t : Table) (rs : List Record) : Prop where
  nodup : (rs.map Record.name).Nodup
  absent : ∀ r ∈ rs, t.contains r.name = false

theorem Table.admits_nil (t : Table) : t.Admits [] := ⟨List.nodup_nil, List.forall_mem_nil _⟩

@[simp] theorem Table.contains_concat (t : Table) (r : Record) (name : String) :
    (⟨t.records ++ [r]⟩ : Table).contains name = (t.contains name || r.name == name) := by
  simp [Table.contains]

theorem Table.Admits.cons {t : Table} {r : Record} {rs : List Record} (hr : t.contains r.name = false)
    (h : (⟨t.records ++ [r]⟩ : Table).Admits rs) : t.Admits (r :: rs) := by
  have hrs : ∀ r' ∈ rs, t.contains r'.name = false ∧ r.name ≠ r'.name := by
    intro r' hr'
    have habsent := h.absent r' hr'
    rwa [Table.contains_concat, Bool.or_eq_false_iff, beq_eq_false_iff_ne] at habsent
  refine ⟨?_, List.forall_mem_cons.mpr ⟨hr, fun r' hr' => (hrs r' hr').1⟩⟩
  rw [List.map_cons, List.nodup_cons]
  refine ⟨fun hmem => ?_, h.nodup⟩
  obtain ⟨r', hr', heq⟩ := List.mem_map.mp hmem
  exact (hrs r' hr').2 heq.symm

namespace Context

variable {c c' : Context} {target other : Target} {t : Table}

theorem table?_addType (ht : c.table? target = some t) (env : ScopeId) (ty : Ty) :
    (c.addType env ty).2.table? target = some t := by
  cases target with
  | scope e =>
    rw [← ht]
    simp [table?]
  | fields id =>
    obtain ⟨name, hget⟩ := table?_fields ht
    simp only [table?, (get?_addType_of_lt (lt_size_of_get? hget) env ty).trans hget]
  | params id =>
    obtain ⟨result, hget⟩ := table?_params ht
    simp only [table?, (get?_addType_of_lt (lt_size_of_get? hget) env ty).trans hget]

/-- To change one table leaves the others alone. -/
theorem table?_setTable_of_ne (hne : other ≠ target) (ht : c.table? other = some t) (t' : Table) :
    (c.setTable target t').table? other = some t := by
  cases other with
  | scope e =>
    rw [← ht]
    cases target with
    | scope e' =>
      have he : e' ≠ e := fun h => hne (congrArg _ h.symm)
      simp [table?, he]
    | fields id | params id => simp [table?]
  | fields id =>
    obtain ⟨name, hget⟩ := table?_fields ht
    by_cases hp : target = .params id
    · -- a struct has no parameters to change
      subst hp
      simp only [setTable, hget]
      exact ht
    · have havoids : target.Avoids id := ⟨fun h => hne h.symm, hp⟩
      simp only [table?, get?_setTable_of_avoids havoids, hget]
  | params id =>
    obtain ⟨result, hget⟩ := table?_params ht
    by_cases hf : target = .fields id
    · subst hf
      simp only [setTable, hget]
      exact ht
    · have havoids : target.Avoids id := ⟨hf, fun h => hne h.symm⟩
      simp only [table?, get?_setTable_of_avoids havoids, hget]

theorem table?_insert_of_ne {r : Record} {what : String} {i : Nat} (hne : other ≠ target)
    (ht : c.table? other = some t) (h : c.insert target r what = .ok (i, c')) : c'.table? other = some t := by
  obtain ⟨_, -, -, rfl⟩ := insert_eq_ok h
  exact table?_setTable_of_ne hne ht _

/-- The table that a record is inserted into has it at its end, under a name that is new. -/
theorem table?_insert {r : Record} {what : String} {i : Nat} (htarget : c.HasTarget target)
    (ht : c.table? target = some t) (h : c.insert target r what = .ok (i, c')) :
    c'.table? target = some ⟨t.records ++ [r]⟩ ∧ t.contains r.name = false := by
  obtain ⟨t', ht', hnew, rfl⟩ := insert_eq_ok h
  obtain rfl : t = t' := Option.some.inj (ht.symm.trans ht')
  exact ⟨table?_setTable ht htarget, hnew⟩

theorem HasTarget.extends (h : c.HasTarget target) (hext : Extends c c') : c'.HasTarget target :=
  fun env he => Nat.lt_of_lt_of_le (h env he) hext.length

/-- The parameters of a type that is still to come are no table yet. -/
theorem ne_params_of_table? (ht : c.table? other = some t) : other ≠ .params c.types.size := by
  rintro rfl
  obtain ⟨result, hget⟩ := table?_params ht
  exact Nat.lt_irrefl _ (lt_size_of_get? hget)

end Context

open Context

section Entered

variable {env : ScopeId} {target other : Target} {c c' : Context} {t : Table}

theorem Variable.Recorded.table? {v : Variable} {declared : TypeId} {c₁ : Context} {r : Record}
    {kept : Option Value} (h : v.Recorded env declared c c₁ r kept) (ht : c.table? other = some t) :
    c₁.table? other = some t := by
  cases h with
  | plain | computed => exact ht
  | defaulted | constant => exact table?_addType ht env _

theorem Variable.Recorded.entry {v : Variable} {declared : TypeId} {c₁ : Context} {r : Record}
    {kept : Option Value} (h : v.Recorded env declared c c₁ r kept) : r.entry = (v.ident, v.kind) := by
  cases h <;> rfl

theorem Variable.register_table?_of_ne {v v' : Variable} (h : v.register env target c = .ok v' c')
    (hne : other ≠ target) (ht : c.table? other = some t) : c'.table? other = some t := by
  cases hnew : v.registration with
  | none =>
    obtain ⟨declared, c₁, r, kept, i, -, hrec, hins, -⟩ := Variable.register_eq_ok hnew h
    exact table?_insert_of_ne hne (hrec.table? ht) hins
  | some _ =>
    obtain ⟨rfl, rfl⟩ := Variable.register_of_registered hnew h
    exact ht

/-- Registration changes no table but the one that it fills. -/
theorem Decl.Entered.table?_of_ne {ds ds' : List Decl} (h : Decl.Entered env target c ds c' ds')
    (hne : other ≠ target) (ht : c.table? other = some t) : c'.table? other = some t := by
  induction h with
  | nil => exact ht
  | var hd _ ih => exact ih hne (Variable.register_table?_of_ne hd hne ht)
  | @array _ c _ _ _ _ _ _ _ hd _ ih =>
    obtain ⟨element, sizes, i, -, -, hins, -⟩ := ArrayDecl.register_eq_ok hd
    exact ih hne (table?_insert_of_ne hne (table?_addType (c := c.freshLabel.2) ht _ _) hins)
  | data hd _ ih =>
    obtain ⟨text, rfl, -⟩ | ⟨lit, -, -, rfl, -⟩ := DataItem.register_eq_ok hd <;> exact ih hne ht
  | struct hd _ ih =>
    obtain ⟨i, hins, -⟩ := StructHead.register_eq_ok hd
    exact ih hne (table?_insert_of_ne hne (table?_addType ht _ _) hins)
  | function _ _ hins _ ihparams ih =>
    -- the parameters go into a table that is new
    have hparams := ihparams (ne_params_of_table? ht) (table?_addType ht _ _)
    exact ih hne (table?_insert_of_ne hne hparams hins)

structure Context.Filled (c : Context) (target : Target) (t : Table) (rs : List Record) : Prop where
  table : c.table? target = some ⟨t.records ++ rs⟩
  admits : t.Admits rs

/-- One record is inserted, and then others. -/
theorem Context.Filled.cons {c₁ : Context} {r : Record} {what : String} {i : Nat} {entries : List (String × Kind)}
    (htarget : c.HasTarget target) (ht : c.table? target = some t) (hins : c.insert target r what = .ok (i, c₁))
    (hrest : ∀ t₁, c₁.table? target = some t₁ → ∃ rs, c'.Filled target t₁ rs ∧ rs.map Record.entry = entries) :
    ∃ rs, c'.Filled target t rs ∧ rs.map Record.entry = r.entry :: entries := by
  obtain ⟨ht₁, hname⟩ := table?_insert htarget ht hins
  obtain ⟨rs, hfilled, hrs⟩ := hrest _ ht₁
  have htable := hfilled.table
  rw [List.append_assoc] at htable
  exact ⟨r :: rs, ⟨htable, hfilled.admits.cons hname⟩, congrArg (r.entry :: ·) hrs⟩

/-- Registration fills its table: one record for each declaration with a name, in their order. -/
theorem Decl.Entered.filled {ds ds' : List Decl} (h : Decl.Entered env target c ds c' ds')
    (htarget : c.HasTarget target) (hfresh : ∀ site v, Decl.var site v ∈ ds → v.registration = none)
    (ht : c.table? target = some t) :
    ∃ rs, c'.Filled target t rs ∧ rs.map Record.entry = ds.filterMap Decl.entry? := by
  induction h generalizing t with
  | nil => exact ⟨[], ⟨by rw [List.append_nil]; exact ht, t.admits_nil⟩, rfl⟩
  | var hd _ ih =>
    have htarget₁ := htarget.extends (Variable.register_grows hd).extends
    obtain ⟨declared, c₁, r, kept, i, -, hrec, hins, -⟩ := Variable.register_eq_ok (hfresh _ _ List.mem_cons_self) hd
    simp only [List.filterMap_cons, Decl.entry?, ← hrec.entry]
    exact Filled.cons (htarget.extends hrec.grows.extends) (hrec.table? ht) hins fun _ =>
      ih htarget₁ fun site v hmem => hfresh site v (List.mem_cons_of_mem _ hmem)
  | @array _ c _ _ _ _ _ _ _ hd _ ih =>
    have htarget₁ := htarget.extends (ArrayDecl.register_grows hd).extends
    obtain ⟨element, sizes, i, -, -, hins, -⟩ := ArrayDecl.register_eq_ok hd
    have hadd := extends_addType c.freshLabel.2 env (.array c.freshLabel.1 element sizes)
    simp only [List.filterMap_cons, Decl.entry?]
    exact Filled.cons (htarget.extends ((extends_freshLabel c).trans hadd))
      (table?_addType (c := c.freshLabel.2) ht _ _) hins fun _ =>
        ih htarget₁ fun site v hmem => hfresh site v (List.mem_cons_of_mem _ hmem)
  | data hd _ ih =>
    simp only [List.filterMap_cons, Decl.entry?]
    obtain ⟨text, rfl, -⟩ | ⟨lit, -, -, rfl, -⟩ := DataItem.register_eq_ok hd <;>
      exact ih htarget (fun site v hmem => hfresh site v (List.mem_cons_of_mem _ hmem)) ht
  | struct hd _ ih =>
    have htarget₁ := htarget.extends (StructHead.register_grows hd).extends
    obtain ⟨i, hins, -⟩ := StructHead.register_eq_ok hd
    simp only [List.filterMap_cons, Decl.entry?]
    exact Filled.cons (htarget.extends (extends_addType _ _ _)) (table?_addType ht _ _) hins fun _ =>
      ih htarget₁ fun site v hmem => hfresh site v (List.mem_cons_of_mem _ hmem)
  | function _ hparams hins _ _ ih =>
    have hext := (extends_addType _ _ _).trans hparams.extends
    -- the parameters go into a table that is new
    have htable := hparams.table?_of_ne (ne_params_of_table? ht) (table?_addType ht _ _)
    simp only [List.filterMap_cons, Decl.entry?]
    exact Filled.cons (htarget.extends hext) htable hins fun _ =>
      ih (htarget.extends (hext.trans (extends_insert hins))) fun site v hmem =>
        hfresh site v (List.mem_cons_of_mem _ hmem)

/-- Of the types that are there, registration changes none but the one whose table it fills, and of that nothing but
the table. -/
theorem Decl.Entered.get?_setTable {ds ds' : List Decl} (h : Decl.Entered env target c ds c' ds')
    (ht : c.table? target = some t) {t' : Table} (ht' : c'.table? target = some t') {id : TypeId}
    (hid : id < c.types.size) : c'.types.get? id = (c.setTable target t').types.get? id := by
  by_cases havoids : target.Avoids id
  · rw [h.get?_types hid havoids, get?_setTable_of_avoids havoids]
  rw [Target.Avoids, not_and_or, not_ne_iff, not_ne_iff] at havoids
  obtain rfl | rfl := havoids
  · obtain ⟨name, hget⟩ := table?_fields ht
    obtain ⟨name', hget'⟩ := table?_fields ht'
    obtain ⟨_, hafter, fields, rfl⟩ := h.extends.types hget
    cases hafter.symm.trans hget'
    rw [setTable_fields _ hget, hget', get?_set, if_pos rfl, hget, Option.map_some]
  · obtain ⟨result, hget⟩ := table?_params ht
    obtain ⟨result', hget'⟩ := table?_params ht'
    obtain ⟨_, hafter, params, rfl⟩ := h.extends.types hget
    cases hafter.symm.trans hget'
    rw [setTable_params _ hget, hget', get?_set, if_pos rfl, hget, Option.map_some]

end Entered

/-- Registration is complete and in order. If it succeeds, the table has its old records in place, then one for each
struct and then one for each other declaration with a name, both in the order of the text. Of all that was there
before nothing else has changed, neither a type nor a table. The names are then new to the table and differ, so
that a name that is there already, or comes twice, makes registration fail. -/
theorem registration_complete {s : Session} {target : Target} {table : Table} (htarget : s.context.HasTarget target)
    (htable : s.context.table? target = some table) (env : ScopeId) {seq : DeclList}
    (hfresh : ∀ site v, Decl.var site v ∈ seq.filterMap id → v.registration = none) :
    let r := seq.register env target s
    let entries := seq.inOrder.filterMap Decl.entry?
    (r.1.outcome = .ok () → ∃ new : List Record, new.map Record.entry = entries ∧
      r.2.context.table? target = some ⟨table.records ++ new⟩ ∧
      (∀ id < s.context.types.size, r.2.context.types.get? id =
        (s.context.setTable target ⟨table.records ++ new⟩).types.get? id) ∧
      (∀ other t, other ≠ target → s.context.table? other = some t → r.2.context.table? other = some t) ∧
      (entries.map Prod.fst).Nodup ∧ ∀ name ∈ entries.map Prod.fst, table.contains name = false) ∧
    (¬ (entries.map Prod.fst).Nodup ∨ (∃ name ∈ entries.map Prod.fst, table.contains name = true) →
      ∃ e, r.1.outcome = .error e) := by
  intro r entries
  have hok : r.1.outcome = .ok () → ∃ new : List Record, new.map Record.entry = entries ∧
      Decl.Entered env target s.context seq.inOrder r.2.context r.1.node.inOrder ∧
      r.2.context.Filled target table new := by
    intro ho
    -- a pass that succeeds has entered every declaration, structs first
    have hentered : Decl.Entered env target s.context seq.inOrder r.2.context r.1.node.inOrder := by
      refine DeclList.register_entered ?_
      rw [← ho]
      rfl
    obtain ⟨new, hfilled, hnew⟩ := hentered.filled htarget
      (fun site v hmem => hfresh site v ((DeclList.inOrder_perm seq).mem_iff.mp hmem)) htable
    exact ⟨new, hnew, hentered, hfilled⟩
  -- a name that is entered was neither in the table nor entered before
  have hnames : r.1.outcome = .ok () → (entries.map Prod.fst).Nodup ∧
      ∀ name ∈ entries.map Prod.fst, table.contains name = false := by
    intro ho
    obtain ⟨new, hnew, -, hfilled⟩ := hok ho
    rw [← hnew, List.map_map]
    refine ⟨hfilled.admits.nodup, fun name hname => ?_⟩
    obtain ⟨r', hr', rfl⟩ := List.mem_map.mp hname
    exact hfilled.admits.absent r' hr'
  refine ⟨fun ho => ?_, fun hclash => ?_⟩
  · obtain ⟨new, hnew, hentered, hfilled⟩ := hok ho
    exact ⟨new, hnew, hfilled.table, fun id hid => hentered.get?_setTable htable hfilled.table hid,
      fun other t hne ht => hentered.table?_of_ne hne ht, hnames ho⟩
  -- a clash of names refutes success
  · cases ho : r.1.outcome with
    | error e => exact ⟨e, rfl⟩
    | ok u =>
      obtain ⟨hnodup, habsent⟩ := hnames ho
      obtain hclash | ⟨name, hname, hcontains⟩ := hclash
      · exact absurd hnodup hclash
      · rw [habsent name hname] at hcontains
        cases hcontains

def mixedDeclarations : DeclList :=
  [some (.function {} { ident := "push", tag := .default }
      [some (.var {} { ident := "q", tag := .named "Queue", kind := .param })] []),
    none,
    some (.data {} { expr := .literal (.int 7) {} }),
    some (.array {} { ident := "cells", tag := .float, dims := [.literal (.int 3) {}], kind := .global }),
    some (.struct {} { ident := "Queue" } []),
    some (.var {} { ident := "size", tag := .default, kind := .const, init := some (.literal (.int 4) {}) })]

def titledSession : Session :=
  (DeclList.register root (.scope root) [some (.var {} { ident := "title", tag := .string, kind := .global })] {}).2

/-- The declarations go in after the name that is there, and a second time they are refused. -/
theorem registration_complete_mixedDeclarations :
    let r := mixedDeclarations.register root (.scope root) titledSession
    let again := mixedDeclarations.register root (.scope root) r.2
    r.1.outcome = .ok () ∧
    (∃ new : List Record, new.map Record.entry =
        [("Queue", .struct), ("push", .func), ("cells", .global), ("size", .const)] ∧
      r.2.context.table? (.scope root) = some ⟨⟨"title", .string, .global, none, none⟩ :: new⟩) ∧
    ∃ e, again.1.outcome = .error e := by
  have hfresh : ∀ site v, Decl.var site v ∈ mixedDeclarations.filterMap id → v.registration = none := by
    intro site v hv
    simp only [mixedDeclarations, List.filterMap_cons, id, List.filterMap_nil, List.mem_cons, reduceCtorEq,
      Decl.var.injEq, List.not_mem_nil, or_false, false_or] at hv
    rw [hv.2]
  have htarget : ∀ c : Context, 0 < c.scopes.length → c.HasTarget (.scope root) := by
    intro c hc env he
    cases he
    exact hc
  intro r again
  have hok : r.1.outcome = .ok () := by decide +kernel
  have htable : titledSession.context.table? (.scope root) = some ⟨[⟨"title", .string, .global, none, none⟩]⟩ := by
    decide +kernel
  obtain ⟨new, hnew, hafter, -⟩ := (registration_complete (htarget _ (by decide +kernel)) htable root hfresh).1 hok
  refine ⟨hok, ⟨new, hnew, hafter⟩, ?_⟩
  refine (registration_complete (htarget _ (by decide +kernel)) hafter root hfresh).2 (.inr ⟨"push", ?_, ?_⟩)
  · decide +kernel
  · have hname : "push" ∈ new.map (Prod.fst ∘ Record.entry) := by
      rw [← List.map_map, hnew]
      decide +kernel
    obtain ⟨p, hp, hpush⟩ := List.mem_map.mp hname
    exact List.any_eq_true.mpr ⟨p, List.mem_append_right _ hp, beq_iff_eq.mpr hpush⟩

end UnitCompiler
