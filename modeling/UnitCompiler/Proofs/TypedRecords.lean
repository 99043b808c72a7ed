import UnitCompiler.Proofs.Arranged
import UnitCompiler.Proofs.Casts
import UnitCompiler.Proofs.Moves

namespace UnitCompiler

/-- The flags of a constant that is neither a parameter nor a field. -/
def Kind.isConstant (k : Kind) : Bool :=
  k.has .const && !k.has .param && !k.has .field

@[simp] theorem Kind.isConstant_struct : Kind.struct.isConstant = false := by decide

@[simp] theorem Kind.isConstant_func : Kind.func.isConstant = false := by decide

/-- The type of a record is not that of null, its default is a constant of that type, and a constant has
the type of its literal unless it is an array. -/
structure Record.Typed (types : Arena) (r : Record) : Prop where
  ty : r.ty ≠ .null
  default : ∀ {d : TypeId}, r.default = some d →
    ∃ lit, types.get? d = some (.const lit) ∧ lit.Suits types r.ty
  constant : r.kind.isConstant = true → (∃ lit, types.get? r.ty = some (.const lit)) ∨
    ∃ label element sizes, types.get? r.ty = some (.array label element sizes)

theorem Record.typed_of_plain {types : Arena} {r : Record} (hty : r.ty ≠ .null) (hdefault : r.default = none)
    (hkind : r.kind.isConstant = false) : r.Typed types := by
  refine ⟨hty, fun hd => ?_, fun hc => ?_⟩
  · rw [hdefault] at hd
    cases hd
  · rw [hkind] at hc
    cases hc

def Ty.records : Ty → List Record
  | .struct _ t | .function _ t => t.records
  | _ => []

inductive Context.HasRecord (c : Context) (r : Record) : Prop
  | scope {env : ScopeId} {s : Scope} (hs : c.scopes[env]? = some s) (hr : r ∈ s.decls.records)
  | type {ty : TypeId} {t : Ty} (ht : c.types.get? ty = some t) (hr : r ∈ t.records)

structure Context.Typed (c : Context) : Prop where
  types : c.types.Standard
  records : ∀ {r : Record}, c.HasRecord r → r.Typed c.types

theorem Ty.Becomes.isPrimitive {t u : Ty} (h : t.Becomes u) : u.isPrimitive = t.isPrimitive := by
  cases t with
  | struct name fields =>
    obtain ⟨fields', rfl⟩ := h
    rfl
  | function result params =>
    obtain ⟨params', rfl⟩ := h
    rfl
  | int | float | string | array | const =>
    cases h
    rfl

namespace Context

variable {c c' : Context}

theorem Extends.suits (h : Extends c c') {ty : TypeId} {lit : Literal} (hlit : lit.Suits c.types ty) :
    lit.Suits c'.types ty := by
  cases lit with
  | int | float | string =>
    obtain ⟨t, ht, rfl⟩ := h.types hlit
    exact ht
  | null => exact h.isStruct hlit

theorem Extends.const (h : Extends c c') {ty : TypeId} {lit : Literal}
    (hty : c.types.get? ty = some (.const lit)) : c'.types.get? ty = some (.const lit) := by
  obtain ⟨t, ht, rfl⟩ := h.types hty
  exact ht

theorem Extends.record (h : Extends c c') {r : Record} (hr : r.Typed c.types) : r.Typed c'.types := by
  refine ⟨hr.ty, fun hd => ?_, fun hkind => ?_⟩
  · obtain ⟨lit, hget, hlit⟩ := hr.default hd
    exact ⟨lit, h.const hget, h.suits hlit⟩
  · obtain ⟨lit, hget⟩ | ⟨label, element, sizes, hget⟩ := hr.constant hkind
    · exact Or.inl ⟨lit, h.const hget⟩
    · obtain ⟨t, ht, rfl⟩ := h.types hget
      exact Or.inr ⟨label, element, sizes, ht⟩

/-- The types stay standard if no type of a number or a text comes in. -/
theorem Extends.standard (h : Extends c c') (hc : c.types.Standard)
    (hnew : ∀ {ty : TypeId} {t : Ty}, c'.types.get? ty = some t → c.types.size ≤ ty →
      t.isPrimitive = false) : c'.types.Standard := by
  refine ⟨?_, ?_, ?_, h.isStruct hc.null, fun {ty} hty => ?_⟩
  · obtain ⟨t, ht, rfl⟩ := h.types hc.int
    exact ht
  · obtain ⟨t, ht, rfl⟩ := h.types hc.float
    exact ht
  · obtain ⟨t, ht, rfl⟩ := h.types hc.string
    exact ht
  · unfold Arena.isPrimitive at hty
    cases hget : c'.types.get? ty with
    | none => rw [hget] at hty; cases hty
    | some t =>
      rw [hget] at hty
      obtain hlt | hle := Nat.lt_or_ge ty c.types.size
      · obtain ⟨t', ht', hbecomes⟩ := h.types (List.getElem?_eq_getElem hlt)
        obtain rfl : t' = t := Option.some.inj (ht'.symm.trans hget)
        refine hc.basic ?_
        rw [Arena.isPrimitive, Arena.get?, List.getElem?_eq_getElem hlt]
        exact hbecomes.isPrimitive.symm.trans hty
      · exact absurd hty (by rw [Option.any_some, hnew hget hle]; exact Bool.false_ne_true)

theorem exists_scope_of_mem {env : ScopeId} {r : Record} (hr : r ∈ (c.scope env).decls.records) :
    ∃ s, c.scopes[env]? = some s ∧ r ∈ s.decls.records := by
  cases hs : c.scopes[env]? with
  | none =>
    rw [scope, hs] at hr
    cases hr
  | some s =>
    rw [scope_eq hs] at hr
    exact ⟨s, rfl, hr⟩

theorem hasRecord_of_table {target : Target} {t : Table} {r : Record} (h : c.table? target = some t)
    (hr : r ∈ t.records) : c.HasRecord r := by
  cases target with
  | scope env =>
    cases h
    obtain ⟨s, hs, hr⟩ := exists_scope_of_mem hr
    exact .scope hs hr
  | fields ty =>
    obtain ⟨name, hget⟩ := table?_fields h
    exact .type hget hr
  | params ty =>
    obtain ⟨result, hget⟩ := table?_params h
    exact .type hget hr

theorem hasRecord_addType {env : ScopeId} {t : Ty} {r : Record} (h : (c.addType env t).2.HasRecord r) :
    c.HasRecord r ∨ r ∈ t.records := by
  cases h with
  | scope hs hr =>
    obtain ⟨s₀, hs₀, hr₀⟩ := mem_decls_modify hs hr fun _ => rfl
    exact Or.inl (.scope hs₀ hr₀)
  | type ht hr =>
    obtain ht | ⟨-, rfl⟩ := get?_addType ht
    · exact Or.inl (.type ht hr)
    · exact Or.inr hr

/-- A change of one table brings in the records of that table only. -/
theorem hasRecord_setTable {target : Target} {t : Table} {r : Record}
    (h : (c.setTable target t).HasRecord r) : c.HasRecord r ∨ r ∈ t.records := by
  -- the records of a type are those of its table
  have hset : ∀ {ty : TypeId} {u v : Ty}, c.types.get? ty = some u → v.records = t.records →
      ({ c with types := c.types.set ty v } : Context).HasRecord r → c.HasRecord r ∨ r ∈ t.records := by
    intro ty u v hu hv h
    cases h with
    | scope hs hr => exact Or.inl (.scope hs hr)
    | @type id w hw hr =>
      simp only [get?_set, hu, Option.map_some] at hw
      split at hw
      · cases hw
        exact Or.inr (hv ▸ hr)
      · exact Or.inl (.type hw hr)
  cases target with
  | scope env =>
    cases h with
    | @scope e s hs hr =>
      obtain ⟨s₀, hs₀, rfl⟩ := getElem?_modifyScope_eq_some.mp hs
      split at hr
      · exact Or.inr hr
      · exact Or.inl (.scope hs₀ hr)
    | type ht hr => exact Or.inl (.type ht hr)
  | fields ty =>
    simp only [setTable] at h
    split at h
    · rename_i hget
      exact hset hget rfl h
    · exact Or.inl h
  | params ty =>
    simp only [setTable] at h
    split at h
    · rename_i hget
      exact hset hget rfl h
    · exact Or.inl h

theorem Typed.extends (hc : Typed c) (h : Extends c c')
    (htypes : ∀ {ty : TypeId} {t : Ty}, c'.types.get? ty = some t → c.types.size ≤ ty →
      t.isPrimitive = false)
    (hrecords : ∀ {r : Record}, c'.HasRecord r → r.Typed c.types ∨ r.Typed c'.types) : Typed c' := by
  refine ⟨h.standard hc.types htypes, fun hr => ?_⟩
  obtain hr | hr := hrecords hr
  · exact h.record hr
  · exact hr

/-- Nothing comes in with a new scope, and jumps have no records. -/
theorem Typed.of_types (hc : Typed c) (h : Extends c c') (htypes : c'.types = c.types)
    (hrecords : ∀ {r : Record}, c'.HasRecord r → c.HasRecord r) : Typed c' := by
  refine hc.extends h (fun hget hle => ?_) fun hr => Or.inl (hc.records (hrecords hr))
  rw [htypes] at hget
  exact absurd (lt_size_of_get? hget) (Nat.not_lt.mpr hle)

theorem Typed.freshLabel (hc : Typed c) : Typed c.freshLabel.2 := by
  refine hc.of_types (extends_freshLabel c) rfl fun hr => ?_
  cases hr with
  | scope hs hr => exact .scope hs hr
  | type ht hr => exact .type ht hr

theorem Typed.openFunction (hc : Typed c) (parent : ScopeId) (result : TypeId) :
    Typed (c.openFunction parent result).2 := by
  refine hc.of_types (extends_openFunction c parent result) rfl fun hr => ?_
  cases hr with
  | scope hs hr =>
    obtain ⟨s₀, hs₀, hr₀⟩ := mem_decls_concat rfl hs hr
    exact .scope hs₀ hr₀
  | type ht hr => exact .type ht hr

theorem Typed.openBlock (hc : Typed c) (parent : ScopeId) : Typed (c.openBlock parent).2 := by
  refine hc.of_types (extends_openBlock c parent) rfl fun hr => ?_
  cases hr with
  | scope hs hr =>
    obtain ⟨s₀, hs₀, hr₀⟩ := mem_decls_modify hs hr fun _ => rfl
    obtain ⟨s₁, hs₁, hr₁⟩ := mem_decls_concat rfl hs₀ hr₀
    exact .scope hs₁ hr₁
  | type ht hr => exact .type ht hr

theorem Typed.modifyLabel (hc : Typed c) (env : ScopeId) (name : String) (f : JumpLabel → JumpLabel) :
    Typed (c.modifyLabel env name f) := by
  refine hc.of_types (extends_modifyLabel c env name f) rfl fun hr => ?_
  cases hr with
  | scope hs hr =>
    obtain ⟨s₀, hs₀, hr₀⟩ := mem_decls_modify hs hr fun _ => rfl
    exact .scope hs₀ hr₀
  | type ht hr => exact .type ht hr

theorem Typed.addType (hc : Typed c) (env : ScopeId) {t : Ty} (hbasic : t.isPrimitive = false)
    (hempty : t.records = []) : Typed (c.addType env t).2 := by
  refine hc.extends (extends_addType c env t) (fun hget hle => ?_) fun hr => ?_
  · obtain hget | ⟨-, rfl⟩ := get?_addType hget
    · exact absurd (lt_size_of_get? hget) (Nat.not_lt.mpr hle)
    · exact hbasic
  · obtain hr | hr := hasRecord_addType hr
    · exact Or.inl (hc.records hr)
    · rw [hempty] at hr
      cases hr

theorem Typed.setTable (hc : Typed c) {target : Target} {t : Table} (h : Extends c (c.setTable target t))
    (ht : ∀ r ∈ t.records, r.Typed c.types) : Typed (c.setTable target t) := by
  refine hc.extends h (fun hget hle => ?_) fun hr => ?_
  · have hlt := lt_size_of_get? hget
    rw [setTable_types_size] at hlt
    exact absurd hlt (Nat.not_lt.mpr hle)
  · obtain hr | hr := hasRecord_setTable hr
    · exact Or.inl (hc.records hr)
    · exact Or.inl (ht _ hr)

theorem Typed.insert (hc : Typed c) {target : Target} {r : Record} {what : String} {i : Nat}
    (hr : r.Typed c.types) (h : c.insert target r what = .ok (i, c')) : Typed c' := by
  have hextends := extends_insert h
  obtain ⟨t, ht, -, rfl⟩ := insert_eq_ok h
  refine hc.setTable hextends fun r' hr' => ?_
  obtain hr' | hr' := List.mem_append.mp hr'
  · exact hc.records (hasRecord_of_table ht hr')
  · rw [List.mem_singleton.mp hr']
    exact hr

theorem Typed.layOutFields (hc : Typed c) {ty : TypeId} {word : UInt32}
    (h : c.layOutFields ty word = .ok c') : Typed c' := by
  have hextends := extends_layOutFields h
  obtain ⟨t, ht, rfl⟩ := layOutFields_eq_ok h
  refine hc.setTable hextends fun r hr => ?_
  obtain ⟨k, hk, rfl⟩ := List.mem_mapIdx.mp hr
  have hold := hc.records (hasRecord_of_table ht (List.getElem_mem hk))
  exact ⟨hold.ty, hold.default, hold.constant⟩

theorem Typed.lookup (hc : Typed c) {env owner : ScopeId} {name : String} {r : Record}
    (h : c.lookup env name = some (owner, r)) : r.Typed c.types := by
  obtain ⟨s, hs, hget⟩ := get?_decls (lookup_eq_some h).2
  exact hc.records (.scope hs (Table.mem_of_get? hget).1)

theorem Typed.structNamed (hc : Typed c) {env : ScopeId} {name : String} {ty : TypeId}
    (h : c.structNamed? env name = some ty) : c.types.isStruct ty = true ∧ ty ≠ .null := by
  obtain ⟨owner, r, hlookup, rfl, -, hstruct⟩ := structNamed?_eq_some h
  exact ⟨hstruct, (hc.lookup hlookup).ty⟩

theorem Typed.declaredType (hc : Typed c) {tag : TypeTag} {env : ScopeId} {ty : TypeId}
    (h : c.declaredType tag env = .ok ty) : c.types.Declarable ty := by
  cases denotes_of_declaredType h with
  | default | int => exact .int
  | float => exact .float
  | string => exact .string
  | named hn =>
    obtain ⟨hstruct, hnull⟩ := hc.structNamed hn
    exact .struct hstruct hnull

end Context

open Context

theorem Expr.check_settled {c : Context} (hc : c.Typed) {e : Expr} {env : ScopeId} {v : Value}
    (h : e.check c env = .ok v) : v.Settled c.types := by
  cases Expr.check_eq_ok h with
  | literal | constant => exact .const _
  | stored hlookup hconst => exact .computed rfl hconst (hc.lookup hlookup).ty
  | new hnamed =>
    obtain ⟨hstruct, hnull⟩ := hc.structNamed hnamed
    exact .computed rfl ((Arena.Declarable.struct hstruct hnull).isConst hc.types) hnull

/-- Only null is a literal of a struct. -/
theorem Literal.Suits.eq_null {types : Arena} {ty : TypeId} {lit : Literal} (h : lit.Suits types ty)
    (hstruct : types.isStruct ty = true) : lit = .null := by
  obtain ⟨name, fields, hget⟩ := Arena.exists_of_isStruct hstruct
  cases lit with
  | int | float | string => cases hget.symm.trans h
  | null => rfl

namespace Variable

theorem fieldLiteral_suits {types : Arena} {declared : TypeId} {value : Value} {lit : Literal}
    (h : fieldLiteral types declared value = .ok lit) : lit.Suits types declared := by
  unfold fieldLiteral at h
  split at h
  · cases h
  · split at h
    · cases h; assumption
    · cases h; assumption
    · cases h; assumption
    · rename_i hget
      split at h
      · cases h
        simp only [Literal.Suits, Arena.isStruct, hget]
        rfl
      · cases h
    · cases h

/-- A value that came out of a cast to the declared type gives its own literal, which is one of that type. -/
theorem constLiteral_eq_ok {types : Arena} (htypes : types.Standard) {declared : TypeId}
    (hdeclared : types.Declarable declared) {v w : Value} (hv : v.Settled types)
    (hcast : v.cast types declared = .ok w) {lit : Literal}
    (h : constLiteral types declared w = .ok lit) : w.fold? = some lit ∧ lit.Suits types declared := by
  unfold constLiteral at h
  split at h
  · cases h
  · rename_i folded hfold
    have hsuits := hv.cast_suits htypes hdeclared hcast hfold
    cases h
    split
    · rename_i hstruct
      obtain rfl := hsuits.eq_null hstruct
      exact ⟨hfold, hsuits⟩
    · exact ⟨hfold, hsuits⟩

/-- The literal of a constant, or of the default of a parameter, is the value of the initializer. -/
theorem InitialValue.literal {v : Variable} {env : ScopeId} {declared : TypeId} {c : Context} {value : Value}
    (h : v.InitialValue env declared c value) (hc : c.Typed) (hdeclared : c.declaredType v.tag env = .ok declared)
    {lit : Literal} (hlit : constLiteral c.types declared value = .ok lit) :
    value.fold? = some lit ∧ lit.Suits c.types declared := by
  obtain ⟨init, checked, -, hcheck, hcast⟩ := h
  exact constLiteral_eq_ok hc.types (hc.declaredType hdeclared) (Expr.check_settled hc hcheck) hcast hlit

theorem Recorded.typed {v : Variable} {env : ScopeId} {declared : TypeId} {c c₁ : Context} {r : Record}
    {kept : Option Value} (h : v.Recorded env declared c c₁ r kept) (hc : c.Typed)
    (hdeclared : c.declaredType v.tag env = .ok declared) : c₁.Typed ∧ r.Typed c₁.types := by
  have hnull : declared ≠ .null := (hc.declaredType hdeclared).ne_null
  have hadd (lit : Literal) := get?_addType_self c env (.const lit)
  cases h with
  | plain _ hconst | computed _ hconst =>
    exact ⟨hc, Record.typed_of_plain hnull rfl (by simp [Kind.isConstant, hconst])⟩
  | @defaulted value lit hvalue hlit =>
    obtain ⟨hsuits, hkind⟩ : lit.Suits c.types declared ∧ v.kind.isConstant = false := by
      cases hlit with
      | field hfield hlit => exact ⟨fieldLiteral_suits hlit, by simp [Kind.isConstant, hfield]⟩
      | param _ hparam hlit => exact ⟨(hvalue.literal hc hdeclared hlit).2, by simp [Kind.isConstant, hparam]⟩
    refine ⟨hc.addType env rfl rfl, hnull, fun hd => ?_, fun hconstant => ?_⟩
    · cases hd
      exact ⟨lit, hadd lit, (extends_addType c env _).suits hsuits⟩
    · cases hkind.symm.trans hconstant
  | @constant _ lit =>
    exact ⟨hc.addType env rfl rfl, hc.types.size_ne_null, fun hd => (by cases hd),
      fun _ => Or.inl ⟨lit, hadd lit⟩⟩

end Variable

namespace Context

variable {old : ScopeId} {c c' : Context}

theorem Advance.typed (h : Advance old c c') (hc : Typed c) : Typed c' := by
  cases h with
  | label => exact hc.freshLabel
  | @var _ v _ env target h =>
    cases hnew : v.registration with
    | some _ =>
      obtain ⟨rfl, rfl⟩ := Variable.register_of_registered hnew h
      exact hc
    | none =>
      obtain ⟨declared, c₁, r, kept, i, hdeclared, hrec, hins, -⟩ := Variable.register_eq_ok hnew h
      obtain ⟨hc₁, hr⟩ := hrec.typed hc hdeclared
      exact hc₁.insert hr hins
  | array h =>
    obtain ⟨element, sizes, i, -, -, hins, -⟩ := ArrayDecl.register_eq_ok h
    refine (hc.freshLabel.addType _ rfl rfl).insert ⟨hc.types.size_ne_null, fun hd => (by cases hd), ?_⟩ hins
    exact fun _ => Or.inr ⟨_, _, _, List.getElem?_concat_length⟩
  | struct h =>
    obtain ⟨i, hins, -⟩ := StructHead.register_eq_ok h
    exact (hc.addType _ rfl rfl).insert (Record.typed_of_plain hc.types.size_ne_null rfl Kind.isConstant_struct) hins
  | functionType env result => exact hc.addType env rfl rfl
  | function hty h =>
    refine hc.insert (Record.typed_of_plain ?_ rfl Kind.isConstant_func) h
    -- the type of a function is not that of null, which is a struct
    rintro rfl
    obtain ⟨name, fields, hget⟩ := Arena.exists_of_isStruct hc.types.null
    cases hty.symm.trans hget
  | openFunction _ result => exact hc.openFunction _ result
  | param hty hp h =>
    -- a parameter is declared in its scope with the type of its record in the table, which was typed already
    have hold := hc.records (.type hty hp)
    refine hc.insert ⟨?_, fun hd => (by cases hd), ?_⟩ h
    · exact hold.ty
    · exact hold.constant
  | openBlock => exact hc.openBlock _
  | modifyLabel _ name f => exact hc.modifyLabel _ name f
  | layOut h => exact hc.layOutFields h

theorem Advances.typed (h : Advances old c c') (hc : Typed c) : Typed c' := by
  induction h with
  | refl => exact hc
  | tail _ hstep ih => exact hstep.typed ih

theorem typed_initial : Typed .initial := by
  have hget : ∀ {ty : TypeId} {t : Ty}, Arena.initial.get? ty = some t →
      t.records = [] ∧ (t.isPrimitive = true → ty ∈ TypeId.basic) := by
    intro ty t h
    rcases ty with _ | _ | _ | _ | n
    · cases h; exact ⟨rfl, fun _ => by decide⟩
    · cases h; exact ⟨rfl, fun _ => by decide⟩
    · cases h; exact ⟨rfl, fun _ => by decide⟩
    · cases h; exact ⟨rfl, fun h => by cases h⟩
    · cases h
  refine ⟨⟨rfl, rfl, rfl, rfl, fun {ty} hty => ?_⟩, fun {r} hr => ?_⟩
  · change (Arena.initial.get? ty).any Ty.isPrimitive = true at hty
    cases ht : Arena.initial.get? ty with
    | none => rw [ht] at hty; cases hty
    | some t =>
      rw [ht] at hty
      exact (hget ht).2 hty
  · cases hr with
    | @scope env s hs hr =>
      obtain rfl : s = .unit := List.mem_singleton.mp (List.mem_of_getElem? hs)
      cases hr
    | type ht hr =>
      rw [(hget ht).1] at hr
      cases hr

theorem Moves.typed (h : Moves .initial c) : Typed c :=
  (h.advances owned_initial).typed typed_initial

end Context

end UnitCompiler
