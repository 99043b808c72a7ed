import UnitCompiler.Proofs.Extension
import UnitCompiler.Proofs.Arranged
import UnitCompiler.Proofs.Lists

namespace UnitCompiler

open Context

def Target.Avoids (target : Target) (ty : TypeId) : Prop :=
  target ≠ .fields ty ∧ target ≠ .params ty

theorem Target.avoids_scope (env : ScopeId) (ty : TypeId) : (Target.scope env).Avoids ty := by
  constructor <;> intro h <;> cases h

theorem Target.avoids_fields {ty id : TypeId} (h : id ≠ ty) : (Target.fields id).Avoids ty := by
  constructor
  · rintro ⟨⟩
    exact h rfl
  · intro h
    cases h

theorem Target.avoids_params {ty id : TypeId} (h : id ≠ ty) : (Target.params id).Avoids ty := by
  constructor
  · intro h
    cases h
  · rintro ⟨⟩
    exact h rfl

section Kept

variable {env : ScopeId} {target : Target} {c c' : Context} {ty : TypeId}

namespace Context

theorem get?_setTable_of_avoids (h : target.Avoids ty) (t : Table) :
    (c.setTable target t).types.get? ty = c.types.get? ty := by
  cases target with
  | scope => rfl
  | fields id =>
    have hne : id ≠ ty := fun he => h.1 (congrArg _ he)
    simp only [setTable]
    split
    · exact List.getElem?_set_ne hne
    · rfl
  | params id =>
    have hne : id ≠ ty := fun he => h.2 (congrArg _ he)
    simp only [setTable]
    split
    · exact List.getElem?_set_ne hne
    · rfl

theorem get?_insert_of_avoids {r : Record} {what : String} {i : Nat}
    (hins : c.insert target r what = .ok (i, c')) (h : target.Avoids ty) :
    c'.types.get? ty = c.types.get? ty := by
  obtain ⟨t, -, -, rfl⟩ := insert_eq_ok hins
  exact get?_setTable_of_avoids h _

theorem get?_layOutFields_of_avoids {id : TypeId} {word : UInt32} (hlayout : c.layOutFields id word = .ok c')
    (h : (Target.fields id).Avoids ty) : c'.types.get? ty = c.types.get? ty := by
  obtain ⟨t, -, rfl⟩ := layOutFields_eq_ok hlayout
  exact get?_setTable_of_avoids h _

end Context

theorem Variable.register_get? {v v' : Variable} (h : v.register env target c = .ok v' c')
    (hlt : ty < c.types.size) (havoids : target.Avoids ty) : c'.types.get? ty = c.types.get? ty := by
  cases hnew : v.registration with
  | none =>
    obtain ⟨declared, c₁, r, kept, i, -, hrec, hins, -⟩ := Variable.register_eq_ok hnew h
    rw [get?_insert_of_avoids hins havoids]
    cases hrec with
    | plain | computed => rfl
    | defaulted | constant => exact get?_addType_of_lt hlt env _
  | some _ =>
    obtain ⟨rfl, rfl⟩ := Variable.register_of_registered hnew h
    rfl

theorem ArrayDecl.register_get? {v v' : ArrayDecl} (h : v.register env target c = .ok v' c')
    (hlt : ty < c.types.size) (havoids : target.Avoids ty) : c'.types.get? ty = c.types.get? ty := by
  obtain ⟨element, sizes, i, -, -, hins, -⟩ := ArrayDecl.register_eq_ok h
  rw [get?_insert_of_avoids hins havoids]
  exact get?_add_of_lt hlt _

theorem StructHead.register_get? {s s' : StructHead} (h : s.register env target c = .ok s' c')
    (hlt : ty < c.types.size) (havoids : target.Avoids ty) : c'.types.get? ty = c.types.get? ty := by
  obtain ⟨i, hins, -⟩ := StructHead.register_eq_ok h
  rw [get?_insert_of_avoids hins havoids, get?_addType_of_lt hlt]

theorem DataItem.register_types {d d' : DataItem} (h : d.register env c = .ok d' c') : c'.types = c.types := by
  obtain ⟨text, rfl, -⟩ | ⟨lit, -, -, rfl, -⟩ := DataItem.register_eq_ok h <;> rfl

/-- A struct that is registered has a new type, without fields as yet. -/
theorem StructHead.register_new {s s' : StructHead} {e : ScopeId} (h : s.register env (.scope e) c = .ok s' c') :
    s' = { s with ty := some c.types.size } ∧ c'.types.get? c.types.size = some (.struct s.ident .empty) := by
  obtain ⟨i, hins, rfl⟩ := StructHead.register_eq_ok h
  refine ⟨rfl, ?_⟩
  rw [get?_insert_of_avoids hins (Target.avoids_scope e _), get?_addType_self]

/-- Registration changes no type that is there, unless it is told to fill its table. -/
theorem Decl.Entered.get?_types {ds ds' : List Decl} (h : Decl.Entered env target c ds c' ds')
    (hlt : ty < c.types.size) (havoids : target.Avoids ty) : c'.types.get? ty = c.types.get? ty := by
  induction h with
  | nil => rfl
  | var h _ ih =>
    rw [ih (Nat.lt_of_lt_of_le hlt (Variable.register_grows h).extends.size) havoids,
      Variable.register_get? h hlt havoids]
  | array h _ ih =>
    rw [ih (Nat.lt_of_lt_of_le hlt (ArrayDecl.register_grows h).extends.size) havoids,
      ArrayDecl.register_get? h hlt havoids]
  | data h _ ih =>
    rw [ih (Nat.lt_of_lt_of_le hlt (DataItem.register_grows h).extends.size) havoids, DataItem.register_types h]
  | struct h _ ih =>
    rw [ih (Nat.lt_of_lt_of_le hlt (StructHead.register_grows h).extends.size) havoids,
      StructHead.register_get? h hlt havoids]
  | @function _ c _ _ _ _ _ _ _ _ _ _ result _ _ hparams hins _ ihparams ih =>
    -- the parameters go into a type that is new
    have hin := Nat.lt_of_lt_of_le hlt (extends_addType c env (.function result .empty)).size
    have hout := Nat.lt_of_lt_of_le hin (hparams.extends.trans (extends_insert hins)).size
    rw [ih hout havoids, get?_insert_of_avoids hins havoids, ihparams hin (Target.avoids_params (Nat.ne_of_gt hlt)),
      get?_addType_of_lt hlt]

theorem Context.Declared.types {rs : List Record} (h : Declared env c rs c') : c'.types = c.types := by
  induction h with
  | nil => rfl
  | cons hins _ ih =>
    obtain ⟨t, -, -, rfl⟩ := insert_eq_ok hins
    exact ih

theorem FunctionHead.enter_types {f : FunctionHead} {scope : ScopeId} (h : f.enter env c = .ok scope c') :
    c'.types = c.types := by
  obtain ⟨id, result, params, -, -, -, hdeclared⟩ := FunctionHead.enter_eq_ok h
  exact hdeclared.types

theorem Decl.Entered.struct_ty {site : Site} {head head' : StructHead} {fields : List (Option Decl)}
    (h : Decl.Entered env target c [.struct site head fields] c' [.struct site head' fields])
    (hty : head'.ty = some ty) : ty = c.types.size := by
  cases h with
  | struct hd _ =>
    obtain ⟨i, -, rfl⟩ := StructHead.register_eq_ok hd
    cases hty
    rfl

/-- The statements of a function change no type that is there before. -/
theorem Stmt.Accepted.get?_types {body body' : List Stmt} (h : Stmt.Accepted env c body c' body')
    (hlt : ty < c.types.size) : c'.types.get? ty = c.types.get? ty := by
  induction h with
  | nil => rfl
  | leaf _ hd _ ih =>
    rw [ih (Nat.lt_of_lt_of_le hlt hd.extends.size), hd.get?_types hlt (Target.avoids_scope _ _)]
  | struct hd hty hfields hlayout _ ih =>
    -- the fields go into the type of the struct, which is new
    have hnew := Target.avoids_fields (hd.struct_ty hty ▸ Nat.ne_of_gt hlt)
    have hext := hd.extends.trans (hfields.extends.trans (extends_layOutFields hlayout))
    rw [ih (Nat.lt_of_lt_of_le hlt hext.size), get?_layOutFields_of_avoids hlayout hnew,
      hfields.get?_types (Nat.lt_of_lt_of_le hlt hd.extends.size) hnew, hd.get?_types hlt (Target.avoids_scope _ _)]
  | function hd henter hbody _ ihbody ih =>
    have hopen := Nat.lt_of_lt_of_le hlt (hd.extends.trans (FunctionHead.enter_extends henter)).size
    rw [ih (Nat.lt_of_lt_of_le hopen hbody.extends.size), ihbody hopen, FunctionHead.enter_types henter,
      hd.get?_types hlt (Target.avoids_scope _ _)]
  | block hbody _ ihbody ih =>
    rw [ih (Nat.lt_of_lt_of_le hlt hbody.extends.size), ihbody hlt]
    rfl
  | goto _ ih => exact ih hlt
  | label hplace _ ih =>
    obtain ⟨-, rfl⟩ := placeLabel_eq_ok hplace
    exact ih hlt
  | eval _ _ ih => exact ih hlt

end Kept

namespace Context

structure SameNames (c c' : Context) : Prop where
  length : c'.scopes.length = c.scopes.length
  parent : ∀ e : ScopeId, c'.scopes[e]?.bind Scope.parent = c.scopes[e]?.bind Scope.parent
  decls : ∀ e, (c'.scope e).decls = (c.scope e).decls
  isStruct : ∀ id, c'.types.isStruct id = c.types.isStruct id

variable {c c₁ c' : Context}

theorem SameNames.trans (h : SameNames c c₁) (h' : SameNames c₁ c') : SameNames c c' :=
  ⟨h'.length.trans h.length, fun e => (h'.parent e).trans (h.parent e), fun e => (h'.decls e).trans (h.decls e),
    fun id => (h'.isStruct id).trans (h.isStruct id)⟩

theorem SameNames.lookup (h : SameNames c c') (env : ScopeId) (name : String) :
    c'.lookup env name = c.lookup env name := by
  have houtward : ∀ (fuel : Nat) (e : ScopeId), outward c'.scopes fuel e = outward c.scopes fuel e := by
    intro fuel
    induction fuel with
    | zero => intro e; rfl
    | succ fuel ih =>
      intro e
      rw [outward, outward, h.parent e]
      cases c.scopes[e]?.bind Scope.parent with
      | none => rfl
      | some parent => simp only [ih]
  unfold Context.lookup enclosing
  rw [h.length, houtward]
  simp only [h.decls]

theorem SameNames.declaredType (h : SameNames c c') (tag : TypeTag) (env : ScopeId) :
    c'.declaredType tag env = c.declaredType tag env := by
  unfold Context.declaredType typeOfTag structNamed?
  simp only [h.lookup, h.isStruct]

theorem sameNames_freshLabel (c : Context) : SameNames c c.freshLabel.2 :=
  ⟨rfl, fun _ => rfl, fun _ => rfl, fun _ => rfl⟩

theorem sameNames_addType (c : Context) (env : ScopeId) {t : Ty} (ht : t.isStruct = false) :
    SameNames c (c.addType env t).2 := by
  refine ⟨length_addType c env t, fun e => ?_, decls_addType c env t, fun id => ?_⟩
  · rw [getElem?_addType]
    cases c.scopes[e]? with
    | none => rfl
    | some s => by_cases he : env = e <;> simp [he]
  · change ((c.types.types ++ [t])[id]?).any Ty.isStruct = _
    obtain hlt | rfl | hgt := Nat.lt_trichotomy id c.types.types.length
    · rw [List.getElem?_append_left hlt]
      rfl
    · simp [ht, Arena.isStruct, Arena.get?]
    · have hout : (c.types.types ++ [t]).length ≤ id := by
        rw [List.length_append]
        exact hgt
      rw [List.getElem?_eq_none hout, Arena.isStruct, Arena.get?, List.getElem?_eq_none (Nat.le_of_lt hgt)]

/-- A field that is entered goes behind those that are there. -/
theorem get?_insert_fields {ty : TypeId} {name : String} {t : Table} {r : Record} {what : String} {i : Nat}
    (hget : c.types.get? ty = some (.struct name t)) (hins : c.insert (.fields ty) r what = .ok (i, c')) :
    c'.types.get? ty = some (.struct name ⟨t.records ++ [r]⟩) ∧ SameNames c c' := by
  obtain ⟨t', ht', -, rfl⟩ := insert_eq_ok hins
  obtain rfl : t = t' := by simpa [table?, hget] using ht'
  rw [setTable_fields _ hget]
  refine ⟨?_, rfl, fun _ => rfl, fun _ => rfl, fun id => ?_⟩
  · rw [get?_set, hget, Option.map_some, if_pos rfl]
  · unfold Arena.isStruct
    rw [get?_set, hget, Option.map_some]
    split
    · rename_i heq
      rw [← heq, hget]
      rfl
    · rfl

theorem get?_layOutFields {ty : TypeId} {name : String} {t : Table} {word : UInt32}
    (hget : c.types.get? ty = some (.struct name t)) (hlayout : c.layOutFields ty word = .ok c') :
    c'.types.get? ty = some (.struct name (t.layOut word)) := by
  obtain ⟨t', ht', rfl⟩ := layOutFields_eq_ok hlayout
  obtain rfl : t = t' := by simpa [table?, hget] using ht'
  rw [setTable_fields _ hget, get?_set, hget, Option.map_some, if_pos rfl]

end Context

structure Context.Names (c : Context) (env : ScopeId) (name : String) (ty : TypeId) : Prop where
  record : ∃ r, (c.scope env).decls.get? name = some r ∧ r.kind = .struct ∧ r.ty = ty
  isStruct : c.types.isStruct ty = true

section Names

variable {env : ScopeId} {c c' : Context} {ty : TypeId} {name : String}

theorem Context.Names.extends (h : Names c env name ty) (hext : Extends c c') : Names c' env name ty := by
  obtain ⟨r, hr, hkind, hty⟩ := h.record
  exact ⟨⟨r, hext.decls hr, hkind, hty⟩, hext.isStruct h.isStruct⟩

theorem Context.Names.structNamed? (h : Names c env name ty) : c.structNamed? env name = some ty := by
  obtain ⟨r, hget, hkind, rfl⟩ := h.record
  obtain ⟨s, hs, hr⟩ := get?_decls hget
  unfold Context.structNamed?
  rw [lookup_own hs hr]
  simp only [hkind, h.isStruct]
  rfl

theorem StructHead.register_named {s s' : StructHead} (h : s.register env (.scope env) c = .ok s' c')
    (henv : env < c.scopes.length) : Names c' env s.ident c.types.size := by
  obtain ⟨-, hget⟩ := StructHead.register_new h
  refine ⟨?_, by rw [Arena.isStruct, hget]; rfl⟩
  obtain ⟨i, hins, -⟩ := StructHead.register_eq_ok h
  obtain ⟨t, ht, hnew, rfl⟩ := insert_eq_ok hins
  refine ⟨{ name := s.ident, ty := c.types.size, kind := .struct }, ?_, rfl, rfl⟩
  simpa [henv] using Table.get?_concat hnew

end Names

/-- The record of a field as it is written: its name, its kind, and the type that its tag denotes or, for an
array, a type of its own with such elements. -/
def Decl.Declares (types : Arena) (c : Context) (env : ScopeId) : Decl → Record → Prop
  | .var _ v, r => r.name = v.ident ∧ r.kind = v.kind ∧ c.declaredType v.tag env = .ok r.ty
  | .array _ v, r => r.name = v.ident ∧ r.kind = v.kind ∧ ∃ label element sizes,
      types.get? r.ty = some (.array label element sizes) ∧ c.declaredType v.tag env = .ok element
  | .function _ _ _ _, _ | .struct _ _ _, _ | .data _ _, _ => False

def Decl.StandsFor : Decl → Record → Prop
  | .var _ v, _ => v.kind = .field ∧ ∃ e, v.registration = some ⟨e, none⟩
  | .array _ v, r => v.kind = .field ∧ v.ty = some r.ty
  | .function _ _ _ _, _ | .struct _ _ _, _ | .data _ _, _ => False

section Fields

variable {env : ScopeId} {c c' : Context} {ty : TypeId} {name : String} {t : Table}

theorem Variable.register_field {v v' : Variable} (hnew : v.registration = none) (hkind : v.kind = .field)
    (hget : c.types.get? ty = some (.struct name t)) (h : v.register env (.fields ty) c = .ok v' c') :
    SameNames c c' ∧ v' = { v with registration := some ⟨env, none⟩ } ∧
      ∃ r, c'.types.get? ty = some (.struct name ⟨t.records ++ [r]⟩) ∧
        r.name = v.ident ∧ r.kind = v.kind ∧ c.declaredType v.tag env = .ok r.ty := by
  obtain ⟨declared, c₁, r, kept, i, hdeclared, hrec, hins, rfl⟩ := Variable.register_eq_ok hnew h
  cases hrec with
  | plain =>
    obtain ⟨hget', hsame⟩ := get?_insert_fields hget hins
    exact ⟨hsame, rfl, _, hget', rfl, rfl, hdeclared⟩
  | @defaulted _ lit =>
    have hget₁ := (get?_addType_of_lt (lt_size_of_get? hget) env (.const lit)).trans hget
    obtain ⟨hget', hsame⟩ := get?_insert_fields hget₁ hins
    exact ⟨(sameNames_addType c env rfl).trans hsame, rfl, _, hget', rfl, rfl, hdeclared⟩
  | computed _ _ hfield | constant _ _ hfield =>
    rw [hkind] at hfield
    cases hfield

theorem ArrayDecl.register_field {v v' : ArrayDecl} (hget : c.types.get? ty = some (.struct name t))
    (h : v.register env (.fields ty) c = .ok v' c') :
    SameNames c c' ∧ ∃ r label element sizes, v' = { v with ty := some r.ty } ∧
      c'.types.get? ty = some (.struct name ⟨t.records ++ [r]⟩) ∧ r.name = v.ident ∧ r.kind = v.kind ∧
      c'.types.get? r.ty = some (.array label element sizes) ∧ c.declaredType v.tag env = .ok element := by
  obtain ⟨element, sizes, i, helement, -, hins, rfl⟩ := ArrayDecl.register_eq_ok h
  have hlt := lt_size_of_get? hget
  have hget₁ := (get?_addType_of_lt (c := c.freshLabel.2) hlt env (.array c.freshLabel.1 element sizes)).trans hget
  obtain ⟨hget', hsame⟩ := get?_insert_fields hget₁ hins
  have hsame₁ := (sameNames_freshLabel c).trans
    (sameNames_addType c.freshLabel.2 env (t := .array c.freshLabel.1 element sizes) rfl)
  refine ⟨hsame₁.trans hsame, _, c.freshLabel.1, element, sizes, rfl, hget', rfl, rfl, ?_, helement⟩
  rw [get?_insert_of_avoids hins (Target.avoids_fields (Nat.ne_of_lt hlt))]
  exact get?_addType_self c.freshLabel.2 env _

theorem Decl.Declares.extends {c₀ : Context} {d : Decl} {r : Record} (h : d.Declares c.types c₀ env r)
    (hext : Extends c c') : d.Declares c'.types c₀ env r := by
  cases d with
  | var => exact h
  | array =>
    obtain ⟨hname, hkind, label, element, sizes, hty, helement⟩ := h
    obtain ⟨_, hty', rfl⟩ := hext.types hty
    exact ⟨hname, hkind, label, element, sizes, hty', helement⟩
  | function | struct | data => exact h

theorem Decl.Declares.sameNames {c₀ : Context} {types : Arena} {d : Decl} {r : Record}
    (h : d.Declares types c env r) (hsame : SameNames c₀ c) : d.Declares types c₀ env r := by
  cases d with
  | var | array => simpa only [Decl.Declares, hsame.declaredType] using h
  | function | struct | data => exact h

theorem Decl.isField_var {site : Site} {v : Variable} (h : (Decl.var site v).isField = true) :
    v.kind = .field ∧ v.registration = none := by
  simpa [isField, isVarOf, isArrayOf] using h

theorem Decl.isField_array {site : Site} {v : ArrayDecl} (h : (Decl.array site v).isField = true) :
    v.kind = .field := by
  simpa [isField, isVarOf, isArrayOf] using h

/-- The fields of a struct are entered in their order, each with the type that it has where the struct is
checked. -/
theorem Decl.Entered.fields {ds ds' : List Decl} (h : Decl.Entered env (.fields ty) c ds c' ds')
    (hds : ∀ d ∈ ds, d.isField = true) (hget : c.types.get? ty = some (.struct name t)) :
    ∃ rs, c'.types.get? ty = some (.struct name ⟨t.records ++ rs⟩) ∧
      List.Forall₂ (Decl.Declares c'.types c env) ds rs ∧ List.Forall₂ (Decl.Declares c'.types c env) ds' rs ∧
      List.Forall₂ Decl.StandsFor ds' rs := by
  generalize htarget : Target.fields ty = target at h
  induction h generalizing t with
  | nil => exact ⟨[], by rw [List.append_nil]; exact hget, .nil, .nil, .nil⟩
  | var hd hrest ih =>
    subst htarget
    obtain ⟨hfield, hds⟩ := List.forall_mem_cons.mp hds
    obtain ⟨hkind, hnew⟩ := Decl.isField_var hfield
    obtain ⟨hsame, rfl, r, hget₁, hr⟩ := Variable.register_field hnew hkind hget hd
    obtain ⟨rs, hget', hwritten, hchecked, hstands⟩ := ih hds hget₁ rfl
    rw [List.append_assoc] at hget'
    exact ⟨r :: rs, hget', .cons hr (hwritten.imp fun _ _ h => h.sameNames hsame),
      .cons hr (hchecked.imp fun _ _ h => h.sameNames hsame), .cons ⟨hkind, env, rfl⟩ hstands⟩
  | array hd hrest ih =>
    subst htarget
    obtain ⟨hfield, hds⟩ := List.forall_mem_cons.mp hds
    have hfield := Decl.isField_array hfield
    obtain ⟨hsame, r, label, element, sizes, rfl, hget₁, hname, hkind, hty, helement⟩ :=
      ArrayDecl.register_field hget hd
    obtain ⟨rs, hget', hwritten, hchecked, hstands⟩ := ih hds hget₁ rfl
    rw [List.append_assoc] at hget'
    -- the fields after it do not change the type of the array
    obtain ⟨_, hty', rfl⟩ := hrest.extends.types hty
    exact ⟨r :: rs, hget',
      .cons ⟨hname, hkind, label, element, sizes, hty', helement⟩ (hwritten.imp fun _ _ h => h.sameNames hsame),
      .cons ⟨hname, hkind, label, element, sizes, hty', helement⟩ (hchecked.imp fun _ _ h => h.sameNames hsame),
      .cons ⟨hfield, rfl⟩ hstands⟩
  | data _ _ _ | struct _ _ _ | function _ _ _ _ _ _ =>
    cases (List.forall_mem_cons.mp hds).1

/-- A struct with these fields as they are written has been checked: its table has a record for each of them,
one word behind the other. -/
structure Context.LaidOut (c : Context) (ty : TypeId) (name : String) (written checked : List Decl)
    (table : Table) : Prop where
  get : c.types.get? ty = some (.struct name table)
  declared : ∃ c₀ env, Extends c₀ c ∧ c₀.structNamed? env name = some ty ∧
    List.Forall₂ (Decl.Declares c.types c₀ env) written table.records ∧
    List.Forall₂ (Decl.Declares c.types c₀ env) checked table.records
  stands : List.Forall₂ Decl.StandsFor checked table.records
  offset : ∀ i r, table.records[i]? = some r → r.offset = some (UInt32.ofNat i * UInt32.ofNat wordSize)

theorem Context.LaidOut.later {written checked : List Decl} {table : Table}
    (h : LaidOut c ty name written checked table) (hext : Extends c c')
    (hkeep : c'.types.get? ty = c.types.get? ty) : LaidOut c' ty name written checked table := by
  obtain ⟨c₀, env, hext₀, hnamed, hwritten, hchecked⟩ := h.declared
  exact ⟨hkeep.trans h.get, ⟨c₀, env, hext₀.trans hext, hnamed, hwritten.imp fun _ _ hd => hd.extends hext,
    hchecked.imp fun _ _ hd => hd.extends hext⟩, h.stands, h.offset⟩

theorem DeclList.inOrder_of_not_isStruct {seq : DeclList} (h : ∀ d ∈ seq.filterMap id, d.isStruct = false) :
    seq.inOrder = seq.filterMap id := by
  rw [DeclList.inOrder_eq, List.filter_eq_nil_iff.mpr, List.nil_append, List.filter_eq_self]
  · intro d hd
    simpa using h d hd
  · intro d hd
    simp [h d hd]

theorem Decl.isStruct_of_isField {d : Decl} (h : d.isField = true) : d.isStruct = false := by
  cases d with
  | struct => cases h
  | var | array | data | function => rfl

/-- The check of a struct lays out its fields in the order of the text. -/
theorem Decl.Entered.laidOut {fields fields' : DeclList} {c₁ : Context}
    (h : Decl.Entered env (.fields ty) c fields.inOrder c₁ fields'.inOrder)
    (hlayout : c₁.layOutFields ty (UInt32.ofNat wordSize) = .ok c')
    (hget : c.types.get? ty = some (.struct name .empty)) (hnamed : c.structNamed? env name = some ty)
    (hfields : ∀ d ∈ fields.filterMap id, d.isField = true) :
    ∃ table, LaidOut c' ty name (fields.filterMap id) (fields'.filterMap id) table := by
  have hstruct : ∀ d ∈ fields.inOrder, d.isStruct = false :=
    DeclList.forall_mem_inOrder.mpr fun d hd => Decl.isStruct_of_isField (hfields d hd)
  have hstruct' : ∀ d ∈ fields'.inOrder, d.isStruct = false := by
    intro d hd
    have hmem : d.isStruct ∈ fields.inOrder.map Decl.isStruct := h.isStruct ▸ List.mem_map_of_mem hd
    obtain ⟨d₀, hd₀, heq⟩ := List.mem_map.mp hmem
    exact heq.symm.trans (hstruct d₀ hd₀)
  rw [DeclList.inOrder_of_not_isStruct (DeclList.forall_mem_inOrder.mp hstruct),
    DeclList.inOrder_of_not_isStruct (DeclList.forall_mem_inOrder.mp hstruct')] at h
  obtain ⟨rs, hget', hwritten, hchecked, hstands⟩ := h.fields hfields hget
  have hext := extends_layOutFields hlayout
  -- a record says of its field the same with an offset as without
  have hplaced : ∀ (o : Option UInt32) (d : Decl) (r : Record), d.Declares c₁.types c env r →
      d.Declares c'.types c env { r with offset := o } := by
    intro o d r hd
    cases d <;> exact hd.extends hext
  refine ⟨_, get?_layOutFields hget' hlayout, ⟨c, env, h.extends.trans hext, hnamed, ?_, ?_⟩, ?_, ?_⟩
  · exact forall₂_mapIdx hwritten fun k => hplaced _
  · exact forall₂_mapIdx hchecked fun k => hplaced _
  · exact forall₂_mapIdx hstands fun k d r hd => by cases d <;> exact hd
  · intro i r hr
    rw [Table.layOut, List.getElem?_mapIdx] at hr
    obtain ⟨r₀, -, rfl⟩ := Option.map_eq_some_iff.mp hr
    rfl

end Fields

end UnitCompiler
