import UnitCompiler.Proofs.Blocks
import UnitCompiler.Proofs.Tape

namespace UnitCompiler

def Arena.Holds (a : Arena) (id : TypeId) : Prop :=
  id < TypeId.null ∨ TypeId.null < id ∧ ∃ name fields, a.get? id = some (.struct name fields)

def Arena.Describes (a : Arena) (id : TypeId) : Prop :=
  a.Holds id ∨ ∃ label element sizes, a.get? id = some (.array label element sizes)

def Ty.Covered (owed : String → Prop) (a : Arena) (id : TypeId) : Ty → Prop
  | .array label element sizes => owed label ∧ a.Holds element ∧ ∀ n ∈ sizes, n ≠ 0
  | .struct name fields => TypeId.null < id →
      owed (Symbol.struct name) ∧ ∀ r ∈ fields.records, a.Describes r.ty
  | .function _ params => ∀ r ∈ params.records, r.kind = .param ∧ r.ty < a.size
  | _ => True

inductive Record.Covered (owed : String → Prop) (env : ScopeId) (r : Record) : Prop
  | global (hkind : r.kind ∈ [.global, Kind.union .global .const]) (henv : env = Context.root)
      (howed : owed (Symbol.global r.name))
  | inner (hkind : r.kind ∈ [.localVar, Kind.union .localVar .const, .param])
      (henv : env ≠ Context.root)
  | function (hkind : r.kind = .func)
  | struct (hkind : r.kind = .struct) (hty : TypeId.null < r.ty)
      (howed : owed (Symbol.struct r.name))

def Target.Admits (owed : String → Prop) (a : Arena) (r : Record) : Target → Prop
  | .scope env => r.Covered owed env ∧ r.ty < a.size
  | .fields _ => a.Describes r.ty
  | .params _ => r.kind = .param ∧ r.ty < a.size

namespace Context

/-- Everything that the output can refer to through the context is owed. -/
structure Covered (owed : String → Prop) (c : Context) : Prop where
  int : c.types.get? .int = some .int
  float : c.types.get? .float = some .float
  string : c.types.get? .string = some .string
  size : TypeId.null < c.types.size
  types : ∀ {id : TypeId} {t : Ty}, c.types.get? id = some t → t.Covered owed c.types id
  records : ∀ {env : ScopeId} {s : Scope}, c.scopes[env]? = some s →
    ∀ r ∈ s.decls.records, r.Covered owed env ∧ r.ty < c.types.size
  rooted : Rooted c

variable {owed : String → Prop} {c c' : Context}

theorem covered_initial : Covered owed .initial := by
  refine ⟨rfl, rfl, rfl, by decide, ?_, ?_, rooted_initial⟩
  · intro id t h
    obtain ⟨hlt, rfl⟩ := List.getElem?_eq_some_iff.mp h
    match id, hlt with
    | 0, _ => trivial
    | 1, _ => trivial
    | 2, _ => trivial
    -- the type of null is a struct that no one has declared
    | 3, _ => intro h; exact absurd h (Nat.lt_irrefl _)
  · intro env s hs r hr
    obtain ⟨hlt, rfl⟩ := List.getElem?_eq_some_iff.mp hs
    match env, hlt with
    | 0, _ => cases hr

theorem Extends.size (h : Extends c c') : c.types.size ≤ c'.types.size := by
  by_contra hlt
  rw [Nat.not_le] at hlt
  obtain ⟨t', ht', -⟩ := h.types (List.getElem?_eq_getElem hlt)
  exact Nat.lt_irrefl _ (lt_size_of_get? ht')

theorem Extends.isConst (h : Extends c c') {id : TypeId} (hid : id < c.types.size) :
    c'.types.isConst id = c.types.isConst id := by
  have hget : c.types.get? id = some (c.types.types.get ⟨id, hid⟩) := List.getElem?_eq_getElem hid
  obtain ⟨t', hget', hbecomes⟩ := h.types hget
  unfold Arena.isConst
  rw [hget, hget']
  exact hbecomes.isConst

theorem Extends.holds (h : Extends c c') {id : TypeId} (hid : c.types.Holds id) :
    c'.types.Holds id := by
  obtain hid | ⟨hlt, name, fields, hget⟩ := hid
  · exact Or.inl hid
  · obtain ⟨_, hget', fields', rfl⟩ := h.types hget
    exact Or.inr ⟨hlt, name, fields', hget'⟩

theorem Extends.describes (h : Extends c c') {id : TypeId} (hid : c.types.Describes id) :
    c'.types.Describes id := by
  obtain hid | ⟨label, element, sizes, hget⟩ := hid
  · exact Or.inl (h.holds hid)
  · obtain ⟨_, hget', rfl⟩ := h.types hget
    exact Or.inr ⟨label, element, sizes, hget'⟩

theorem Extends.tyCovered (h : Extends c c') {id : TypeId} {t : Ty} (ht : t.Covered owed c.types id) :
    t.Covered owed c'.types id := by
  cases t with
  | array label element sizes => exact ⟨ht.1, h.holds ht.2.1, ht.2.2⟩
  | struct name fields => exact fun hid => ⟨(ht hid).1, fun r hr => h.describes ((ht hid).2 r hr)⟩
  | function result params =>
    exact fun r hr => ⟨(ht r hr).1, Nat.lt_of_lt_of_le (ht r hr).2 h.size⟩
  | int | float | string | const => trivial

/-- A context stays covered where its new types and its new records are. -/
theorem Covered.extends (hc : Covered owed c) (h : Extends c c')
    (htypes : ∀ (id : TypeId) (t : Ty), c'.types.get? id = some t →
      c.types.get? id = some t ∨ t.Covered owed c'.types id)
    (hrecords : ∀ (env : ScopeId) (s : Scope), c'.scopes[env]? = some s → ∀ r ∈ s.decls.records,
      (∃ s₀, c.scopes[env]? = some s₀ ∧ r ∈ s₀.decls.records) ∨
        r.Covered owed env ∧ r.ty < c'.types.size) : Covered owed c' := by
  refine ⟨?_, ?_, ?_, Nat.lt_of_lt_of_le hc.size h.size, ?_, ?_, hc.rooted.extends h⟩
  · obtain ⟨_, ht, rfl⟩ := h.types hc.int
    exact ht
  · obtain ⟨_, ht, rfl⟩ := h.types hc.float
    exact ht
  · obtain ⟨_, ht, rfl⟩ := h.types hc.string
    exact ht
  · intro id t ht
    obtain hold | hnew := htypes id t ht
    · exact h.tyCovered (hc.types hold)
    · exact hnew
  · intro env s hs r hr
    obtain ⟨s₀, hs₀, hr₀⟩ | hnew := hrecords env s hs r hr
    · obtain ⟨hcov, hlt⟩ := hc.records hs₀ r hr₀
      exact ⟨hcov, Nat.lt_of_lt_of_le hlt h.size⟩
    · exact hnew

theorem Covered.freshLabel (hc : Covered owed c) : Covered owed c.freshLabel.2 :=
  hc.extends (extends_freshLabel c) (fun _ _ h => Or.inl h) fun _ s hs _ hr => Or.inl ⟨s, hs, hr⟩

/-- A change of scopes that leaves their declarations alone. -/
theorem mem_decls_modify {scopes : List Scope} {env e : ScopeId} {f : Scope → Scope} {s : Scope}
    {r : Record} (hs : (scopes.modify env f)[e]? = some s) (hr : r ∈ s.decls.records)
    (hf : ∀ s, (f s).decls = s.decls) : ∃ s₀, scopes[e]? = some s₀ ∧ r ∈ s₀.decls.records := by
  rw [List.getElem?_modify] at hs
  obtain ⟨s₀, hs₀, rfl⟩ := Option.map_eq_some_iff.mp hs
  refine ⟨s₀, hs₀, ?_⟩
  split at hr
  · rwa [hf] at hr
  · exact hr

theorem get?_addType {id : TypeId} {t u : Ty} {env : ScopeId}
    (h : (c.addType env t).2.types.get? id = some u) :
    c.types.get? id = some u ∨ id = c.types.size ∧ u = t :=
  getElem?_concat_eq_some.mp h

theorem Covered.addType (hc : Covered owed c) (env : ScopeId) {t : Ty}
    (ht : t.Covered owed (c.addType env t).2.types c.types.size) :
    Covered owed (c.addType env t).2 := by
  refine hc.extends (extends_addType c env t) ?_ ?_
  · intro id u hu
    obtain hold | ⟨rfl, rfl⟩ := get?_addType hu
    · exact Or.inl hold
    · exact Or.inr ht
  · intro e s hs r hr
    exact Or.inl (mem_decls_modify hs hr fun _ => rfl)

theorem Covered.modifyLabel (hc : Covered owed c) (env : ScopeId) (name : String)
    (f : JumpLabel → JumpLabel) : Covered owed (c.modifyLabel env name f) :=
  hc.extends (extends_modifyLabel c env name f) (fun _ _ h => Or.inl h) fun _ _ hs _ hr =>
    Or.inl (mem_decls_modify hs hr fun _ => rfl)

/-- A new scope declares nothing. -/
theorem mem_decls_concat {s s' : Scope} {e : ScopeId} {r : Record} (hempty : s.decls = .empty)
    (hs : (c.scopes ++ [s])[e]? = some s') (hr : r ∈ s'.decls.records) :
    ∃ s₀, c.scopes[e]? = some s₀ ∧ r ∈ s₀.decls.records := by
  obtain hold | ⟨-, rfl⟩ := getElem?_concat_eq_some.mp hs
  · exact ⟨s', hold, hr⟩
  · rw [hempty] at hr
    cases hr

theorem Covered.openFunction (hc : Covered owed c) (parent : ScopeId) (result : TypeId) :
    Covered owed (c.openFunction parent result).2 :=
  hc.extends (extends_openFunction c parent result) (fun _ _ h => Or.inl h) fun _ _ hs _ hr =>
    Or.inl (mem_decls_concat rfl hs hr)

theorem Covered.openBlock (hc : Covered owed c) (parent : ScopeId) :
    Covered owed (c.openBlock parent).2 := by
  refine hc.extends (extends_openBlock c parent) (fun _ _ h => Or.inl h) ?_
  intro e s hs r hr
  obtain ⟨s₀, hs₀, hr₀⟩ := mem_decls_modify hs hr fun _ => rfl
  exact Or.inl (mem_decls_concat rfl hs₀ hr₀)

/-- A type may change where it stands, as long as it stays covered. -/
theorem Covered.setType (hc : Covered owed c) {ty : TypeId} {t u : Ty} (ht : c.types.get? ty = some t)
    (hbecomes : t.Becomes u) (hu : u.Covered owed (c.types.set ty u) ty) :
    Covered owed { c with types := c.types.set ty u } := by
  refine hc.extends (extends_setType ht hbecomes) ?_ fun _ s hs _ hr => Or.inl ⟨s, hs, hr⟩
  intro id v hv
  simp only [get?_set, ht, Option.map_some] at hv
  split at hv
  · rename_i hid
    subst hid
    cases hv
    exact Or.inr hu
  · exact Or.inl hv

theorem Covered.setFields (hc : Covered owed c) {ty : TypeId} {t t' : Table}
    (ht : c.table? (.fields ty) = some t)
    (hr : ∀ r ∈ t'.records, c.types.Describes r.ty ∨ ∃ r₀ ∈ t.records, r.ty = r₀.ty) :
    Covered owed (c.setTable (.fields ty) t') := by
  have hext : Extends c (c.setTable (.fields ty) t') := extends_setTable ht fun _ he => by cases he
  simp only [table?] at ht
  split at ht
  · rename_i name fields hty
    cases ht
    simp only [setTable, hty] at hext ⊢
    refine hc.setType hty ⟨t', rfl⟩ fun hlt => ?_
    obtain ⟨howed, hfields⟩ := hc.types hty hlt
    refine ⟨howed, fun r hmem => hext.describes ?_⟩
    obtain hnew | ⟨r₀, hr₀, heq⟩ := hr r hmem
    · exact hnew
    · rw [heq]
      exact hfields r₀ hr₀
  · cases ht

theorem Covered.insertParam (hc : Covered owed c) {ty : TypeId} {t : Table} {r : Record}
    (ht : c.table? (.params ty) = some t) (hr : r.kind = .param ∧ r.ty < c.types.size) :
    Covered owed (c.setTable (.params ty) ⟨t.records ++ [r]⟩) := by
  have hsize := setTable_types_size c (.params ty) ⟨t.records ++ [r]⟩
  simp only [table?] at ht
  split at ht
  · rename_i result params hty
    cases ht
    simp only [setTable, hty] at hsize ⊢
    refine hc.setType hty ⟨_, rfl⟩ fun r' hr' => ?_
    rw [hsize]
    obtain hold | hnew := List.mem_append.mp hr'
    · exact hc.types hty r' hold
    · obtain rfl := List.mem_singleton.mp hnew
      exact hr
  · cases ht

/-- A scope takes a record that is covered. -/
theorem Covered.insertDecl (hc : Covered owed c) {env : ScopeId} {r : Record} {what : String} {i : Nat}
    (h : c.insert (.scope env) r what = .ok (i, c')) (hr : r.Covered owed env ∧ r.ty < c.types.size) :
    Covered owed c' := by
  have hext := extends_insert h
  obtain ⟨t, ht, -, rfl⟩ := insert_eq_ok h
  refine hc.extends hext (fun _ _ h => Or.inl h) ?_
  intro e s hs r' hr'
  obtain ⟨s₀, hs₀, rfl⟩ := getElem?_modifyScope_eq_some.mp hs
  split at hr'
  · rename_i he
    subst he
    obtain rfl : (c.scope env).decls = t := Option.some.inj ht
    rw [scope_eq hs₀] at hr'
    obtain hold | hnew := List.mem_append.mp hr'
    · exact Or.inl ⟨s₀, hs₀, hold⟩
    · obtain rfl := List.mem_singleton.mp hnew
      exact Or.inr hr
  · exact Or.inl ⟨s₀, hs₀, hr'⟩

theorem Covered.insert (hc : Covered owed c) {target : Target} {r : Record} {what : String} {i : Nat}
    (h : c.insert target r what = .ok (i, c')) (hr : target.Admits owed c.types r) :
    Covered owed c' := by
  cases target with
  | scope env => exact hc.insertDecl h hr
  | fields ty =>
    obtain ⟨t, ht, -, rfl⟩ := insert_eq_ok h
    refine hc.setFields ht fun r' hr' => ?_
    obtain hold | hnew := List.mem_append.mp hr'
    · exact Or.inr ⟨r', hold, rfl⟩
    · obtain rfl := List.mem_singleton.mp hnew
      exact Or.inl hr
  | params ty =>
    obtain ⟨t, ht, -, rfl⟩ := insert_eq_ok h
    exact hc.insertParam ht hr

theorem Covered.layOutFields (hc : Covered owed c) {ty : TypeId} {word : UInt32}
    (h : c.layOutFields ty word = .ok c') : Covered owed c' := by
  obtain ⟨t, ht, rfl⟩ := layOutFields_eq_ok h
  refine hc.setFields ht fun r hr => Or.inr ?_
  obtain ⟨k, hk, rfl⟩ := List.mem_mapIdx.mp hr
  exact ⟨_, List.getElem_mem hk, rfl⟩

theorem Covered.placeLabel (hc : Covered owed c) {env : ScopeId} {name : String} {pos : Span}
    (h : c.placeLabel env name pos = .ok c') : Covered owed c' := by
  unfold Context.placeLabel at h
  split at h
  · cases h
  · cases h
    exact hc.modifyLabel _ _ _

theorem get?_decls {e : ScopeId} {name : String} {r : Record}
    (h : (c.scope e).decls.get? name = some r) :
    ∃ s, c.scopes[e]? = some s ∧ s.decls.get? name = some r := by
  cases hs : c.scopes[e]? with
  | none =>
    unfold scope at h
    rw [hs] at h
    cases h
  | some s =>
    rw [scope_eq hs] at h
    exact ⟨s, rfl, h⟩

/-- A scope that has the name goes on to answer with the same record. -/
theorem Extends.decls (h : Extends c c') {env : ScopeId} {name : String} {r : Record}
    (hget : (c.scope env).decls.get? name = some r) : (c'.scope env).decls.get? name = some r := by
  obtain ⟨s, hs, hget⟩ := get?_decls hget
  obtain ⟨s', hs', hbecomes⟩ := h.scopes hs
  rw [scope_eq hs']
  exact Table.get?_of_prefix hbecomes.decls hget

end Context

theorem Arena.exists_of_isStruct {a : Arena} {id : TypeId} (h : a.isStruct id = true) :
    ∃ name fields, a.get? id = some (.struct name fields) := by
  unfold Arena.isStruct at h
  cases ht : a.get? id with
  | none => rw [ht] at h; cases h
  | some t =>
    rw [ht] at h
    cases t with
    | struct name fields => exact ⟨name, fields, rfl⟩
    | int | float | string | array | function | const => cases h

/-- Only a struct has the flag of structs. -/
theorem Record.Covered.of_struct {owed : String → Prop} {env : ScopeId} {r : Record}
    (hr : r.Covered owed env) (h : r.kind.has .struct = true) :
    TypeId.null < r.ty ∧ owed (Symbol.struct r.name) := by
  have hglobal : ∀ k ∈ [Kind.global, Kind.union .global .const], k.has .struct = false := by decide
  have hinner : ∀ k ∈ [Kind.localVar, Kind.union .localVar .const, .param],
      k.has .struct = false := by decide
  cases hr with
  | global hkind => rw [hglobal _ hkind] at h; cases h
  | inner hkind => rw [hinner _ hkind] at h; cases h
  | function hkind => rw [hkind] at h; cases h
  | struct _ hty howed => exact ⟨hty, howed⟩

namespace Context

variable {owed : String → Prop} {c c' : Context} {env : ScopeId}

theorem Extends.isStruct (h : Extends c c') {ty : TypeId} (hty : c.types.isStruct ty = true) :
    c'.types.isStruct ty = true := by
  obtain ⟨name, fields, hget⟩ := Arena.exists_of_isStruct hty
  obtain ⟨t, ht, fields', rfl⟩ := h.types hget
  rw [Arena.isStruct, ht]
  rfl

theorem structNamed?_eq_some {name : String} {ty : TypeId} (h : c.structNamed? env name = some ty) :
    ∃ owner r, c.lookup env name = some (owner, r) ∧ r.ty = ty ∧ r.kind.has .struct = true ∧
      c.types.isStruct ty = true := by
  unfold structNamed? at h
  split at h
  · rename_i owner r hlookup
    split at h
    · rename_i hkind
      obtain ⟨hkind, hstruct⟩ := Bool.and_eq_true_iff.mp hkind
      cases h
      exact ⟨owner, r, hlookup, rfl, hkind, hstruct⟩
    · cases h
  · cases h

inductive Denotes (c : Context) (env : ScopeId) : TypeTag → TypeId → Prop
  | default : Denotes c env .default .int
  | int : Denotes c env .int .int
  | float : Denotes c env .float .float
  | string : Denotes c env .string .string
  | named {name : String} {ty : TypeId} (h : c.structNamed? env name = some ty) : Denotes c env (.named name) ty

theorem denotes_of_declaredType {tag : TypeTag} {ty : TypeId} (h : c.declaredType tag env = .ok ty) :
    Denotes c env tag ty := by
  unfold Context.declaredType typeOfTag at h
  cases tag with
  | default => cases h; exact .default
  | int => cases h; exact .int
  | float => cases h; exact .float
  | string => cases h; exact .string
  | named name =>
    cases hn : c.structNamed? env name with
    | none => simp only [hn] at h; cases h
    | some id =>
      simp only [hn] at h
      cases h
      exact .named hn

/-- A name that denotes a struct leads to a declared struct, and its descriptor is owed. -/
theorem Covered.structNamed (hc : Covered owed c) {name : String} {ty : TypeId}
    (h : c.structNamed? env name = some ty) :
    owed (Symbol.struct name) ∧ TypeId.null < ty ∧
      ∃ name fields, c.types.get? ty = some (.struct name fields) := by
  obtain ⟨owner, r, hlookup, rfl, hkind, hstruct⟩ := structNamed?_eq_some h
  obtain ⟨s, hs, hget⟩ := get?_decls (lookup_eq_some hlookup).2
  obtain ⟨hmem, rfl⟩ := Table.mem_of_get? hget
  obtain ⟨hlt, howed⟩ := (hc.records hs r hmem).1.of_struct hkind
  exact ⟨howed, hlt, Arena.exists_of_isStruct hstruct⟩

/-- The type that a declaration names is a type of variables. -/
theorem Covered.declaredType (hc : Covered owed c) {tag : TypeTag} {ty : TypeId}
    (h : c.declaredType tag env = .ok ty) : c.types.Holds ty ∧ ty < c.types.size := by
  have hbasic : ∀ id : TypeId, id < TypeId.null → c.types.Holds id ∧ id < c.types.size :=
    fun id hid => ⟨Or.inl hid, Nat.lt_trans hid hc.size⟩
  cases denotes_of_declaredType h with
  | default | int | float | string => exact hbasic _ (by decide)
  | named hn =>
    obtain ⟨-, hlt, hstruct⟩ := hc.structNamed hn
    refine ⟨Or.inr ⟨hlt, hstruct⟩, ?_⟩
    obtain ⟨_, _, hget⟩ := hstruct
    exact lt_size_of_get? hget

end Context

theorem Arena.Holds.isConst {owed : String → Prop} {c : Context} (hc : Context.Covered owed c)
    {id : TypeId} (h : c.types.Holds id) : c.types.isConst id = false := by
  unfold Arena.isConst
  obtain h | ⟨-, name, fields, hget⟩ := h
  · match id, h with
    | 0, _ => rw [show c.types.get? 0 = _ from hc.int]; rfl
    | 1, _ => rw [show c.types.get? 1 = _ from hc.float]; rfl
    | 2, _ => rw [show c.types.get? 2 = _ from hc.string]; rfl
  · rw [hget]
    rfl

/-- Every type of variables or fields has a descriptor, which is owed or part of the runtime. -/
theorem Arena.Describes.descriptor {owed : String → Prop} {c : Context} (hc : Context.Covered owed c)
    {id : TypeId} (h : c.types.Describes id) :
    ∃ label, Symbol.descriptor c.types id = .ok label ∧
      (owed label ∨ label ∈ Symbol.provided) := by
  unfold Symbol.descriptor
  obtain (h | ⟨hlt, name, fields, hget⟩) | ⟨label, element, sizes, hget⟩ := h
  · match id, h with
    | 0, _ => exact ⟨_, by rw [show c.types.get? 0 = _ from hc.int], Or.inr (by decide)⟩
    | 1, _ => exact ⟨_, by rw [show c.types.get? 1 = _ from hc.float], Or.inr (by decide)⟩
    | 2, _ => exact ⟨_, by rw [show c.types.get? 2 = _ from hc.string], Or.inr (by decide)⟩
  · exact ⟨_, by rw [hget], Or.inl (hc.types hget hlt).1⟩
  · exact ⟨_, by rw [hget], Or.inl (hc.types hget).1⟩

end UnitCompiler
