import UnitCompiler.Proofs.Atomicity
import UnitCompiler.Proofs.Covered
import UnitCompiler.Proofs.Lists

namespace UnitCompiler

def Record.typeIds (r : Record) : List TypeId :=
  r.ty :: r.default.toList

def Table.typeIds (t : Table) : List TypeId :=
  t.records.flatMap Record.typeIds

def Ty.typeIds : Ty → List TypeId
  | .struct _ fields => fields.typeIds
  | .array _ element _ => [element]
  | .function result params => result :: params.typeIds
  | .int | .float | .string | .const _ => []

def Scope.typeIds (s : Scope) : List TypeId :=
  s.result.toList ++ s.decls.typeIds

/-- Every type id that the context stores, inside a type or inside a scope. -/
def Context.typeIds (c : Context) : List TypeId :=
  c.types.types.flatMap Ty.typeIds ++ c.scopes.flatMap Scope.typeIds

@[simp] theorem Table.typeIds_concat (t : Table) (r : Record) :
    Table.typeIds ⟨t.records ++ [r]⟩ = t.typeIds ++ r.typeIds := by
  simp [Table.typeIds]

@[simp] theorem Table.typeIds_layOut (t : Table) (word : UInt32) : (t.layOut word).typeIds = t.typeIds := by
  simp only [Table.typeIds, List.flatMap_def, Table.map_layOut (f := Record.typeIds) fun _ _ => rfl]

def Target.SparesBuiltin (target : Target) : Prop :=
  ∀ ty, target = .fields ty → Arena.builtin.length ≤ ty

namespace Context

/-- The built-in types are in place, every other type is listed by one scope, once, and no stored id
leads out of the arena. -/
structure Sound (c : Context) : Prop where
  builtin : Arena.builtin <+: c.types.types
  listed : (c.scopes.flatMap Scope.types).Perm
    (List.range' Arena.builtin.length (c.types.size - Arena.builtin.length))
  types : ∀ t ∈ c.types.types, ∀ id ∈ t.typeIds, id < c.types.size
  scopes : ∀ s ∈ c.scopes, ∀ id ∈ s.typeIds, id < c.types.size

variable {c c' : Context} {env : ScopeId} {target : Target}

theorem sound_initial : Sound .initial := by
  refine ⟨List.prefix_refl _, List.Perm.refl _, ?_, ?_⟩
  · decide
  · decide

theorem Sound.builtin_le (hc : Sound c) : Arena.builtin.length ≤ c.types.size :=
  hc.builtin.length_le

theorem Sound.owned (hc : Sound c) : Owned c := by
  refine ⟨hc.builtin_le, ?_⟩
  intro s hs id hid
  have hmem := hc.listed.subset (List.mem_flatMap.mpr ⟨s, hs, hid⟩)
  obtain ⟨-, hlt⟩ := List.mem_range'_1.mp hmem
  rwa [Nat.add_sub_cancel' hc.builtin_le] at hlt

theorem Sound.relabels (hc : Sound c) (h : Relabels c c') : Sound c' := by
  refine ⟨?_, ?_, ?_, ?_⟩
  · rw [h.types]
    exact hc.builtin
  · rw [h.types, h.scopes]
    exact hc.listed
  · rw [h.types]
    exact hc.types
  · rw [h.types, h.scopes]
    exact hc.scopes

theorem Sound.modifyScope (hc : Sound c) {f : Scope → Scope} (htypes : ∀ s, (f s).types = s.types)
    (hids : ∀ s, c.scopes[env]? = some s → ∀ id ∈ (f s).typeIds, id < c.types.size) :
    Sound (c.modifyScope env f) := by
  refine ⟨hc.builtin, ?_, hc.types, ?_⟩
  · have h := flatMap_modify_eq (f := f) (g := Scope.types) htypes c.scopes env
    simp only [Context.modifyScope, h]
    exact hc.listed
  · intro s hs id hid
    obtain ⟨e, he⟩ := List.mem_iff_getElem?.mp hs
    obtain ⟨s₀, hs₀, rfl⟩ := getElem?_modifyScope_eq_some.mp he
    split at hid
    · rename_i heq
      subst heq
      exact hids s₀ hs₀ id hid
    · exact hc.scopes s₀ (List.mem_of_getElem? hs₀) id hid

/-- A type behind the built-in ones may be replaced where it stands. -/
theorem Sound.setType (hc : Sound c) {ty : TypeId} {t : Ty} (hty : Arena.builtin.length ≤ ty)
    (ht : ∀ id ∈ t.typeIds, id < c.types.size) : Sound { c with types := c.types.set ty t } := by
  have hsize : (c.types.set ty t).size = c.types.size := List.length_set
  refine ⟨?_, ?_, ?_, ?_⟩
  · obtain ⟨rest, hrest⟩ := hc.builtin
    change Arena.builtin <+: c.types.types.set ty t
    rw [← hrest, List.set_append_right _ _ hty]
    exact List.prefix_append _ _
  · rw [hsize]
    exact hc.listed
  · intro u hu id hid
    rw [hsize]
    obtain hold | rfl := List.mem_or_eq_of_mem_set hu
    · exact hc.types u hold id hid
    · exact ht id hid
  · rw [hsize]
    exact hc.scopes

theorem Sound.addType (hc : Sound c) (henv : env < c.scopes.length) {t : Ty}
    (ht : ∀ id ∈ t.typeIds, id < c.types.size) : Sound (c.addType env t).2 := by
  have hsize := size_addType c env t
  have hle := hc.builtin_le
  refine ⟨?_, ?_, ?_, ?_⟩
  · exact hc.builtin.trans (List.prefix_append _ _)
  · have hperm : ((c.addType env t).2.scopes.flatMap Scope.types).Perm
        (c.scopes.flatMap Scope.types ++ [c.types.size]) := flatMap_modify_perm (fun _ => rfl) henv
    have hcount : c.types.size + 1 - Arena.builtin.length =
        c.types.size - Arena.builtin.length + 1 := by omega
    have hlast : Arena.builtin.length + (c.types.size - Arena.builtin.length) = c.types.size := by
      omega
    rw [hsize, hcount, List.range'_1_concat, hlast]
    exact hperm.trans (hc.listed.append_right _)
  · intro u hu id hid
    rw [hsize]
    obtain hold | hnew := List.mem_append.mp hu
    · exact Nat.lt_succ_of_lt (hc.types u hold id hid)
    · rw [List.mem_singleton.mp hnew] at hid
      exact Nat.lt_succ_of_lt (ht id hid)
  · intro s hs id hid
    rw [hsize]
    obtain h | ⟨s₀, h, rfl⟩ := mem_modify hs
    · exact Nat.lt_succ_of_lt (hc.scopes s h id hid)
    · exact Nat.lt_succ_of_lt (hc.scopes s₀ h id hid)

theorem Sound.addScope (hc : Sound c) {s : Scope} {n : Nat} (htypes : s.types = [])
    (hids : ∀ id ∈ s.typeIds, id < c.types.size) :
    Sound { c with scopes := c.scopes ++ [s], labels := n } := by
  refine ⟨hc.builtin, ?_, hc.types, ?_⟩
  · simp only [List.flatMap_append, List.flatMap_singleton, htypes, List.append_nil]
    exact hc.listed
  · intro s' hs'
    obtain hold | hnew := List.mem_append.mp hs'
    · exact hc.scopes s' hold
    · rw [List.mem_singleton.mp hnew]
      exact hids

theorem Sound.mem_types (hc : Sound c) {id : TypeId} {t : Ty} (h : c.types.get? id = some t) :
    ∀ i ∈ t.typeIds, i < c.types.size :=
  hc.types t (List.mem_of_getElem? h)

/-- The built-in types are no functions. -/
theorem Sound.builtin_le_of_function (hc : Sound c) {ty result : TypeId} {params : Table}
    (h : c.types.get? ty = some (.function result params)) : Arena.builtin.length ≤ ty := by
  by_contra hlt
  obtain ⟨rest, hrest⟩ := hc.builtin
  have hget : Arena.builtin[ty]? = some (.function result params) := by
    rw [← h]
    change _ = c.types.types[ty]?
    rw [← hrest, List.getElem?_append_left (Nat.lt_of_not_le hlt)]
  have hmem : Ty.function result params ∈ Arena.builtin := List.mem_of_getElem? hget
  simp [Arena.builtin] at hmem

theorem Sound.scope (hc : Sound c) (env : ScopeId) : ∀ id ∈ (c.scope env).typeIds, id < c.types.size := by
  intro id hid
  unfold Context.scope at hid
  cases hs : c.scopes[env]? with
  | none =>
    rw [hs] at hid
    cases hid
  | some s =>
    rw [hs] at hid
    exact hc.scopes s (List.mem_of_getElem? hs) id hid

theorem Sound.table (hc : Sound c) {t : Table} (ht : c.table? target = some t) :
    ∀ id ∈ t.typeIds, id < c.types.size := by
  intro id hid
  cases target with
  | scope env =>
    cases ht
    exact hc.scope env id (List.mem_append_right _ hid)
  | fields ty =>
    simp only [table?] at ht
    split at ht
    · rename_i hty
      cases ht
      exact hc.mem_types hty id hid
    · cases ht
  | params ty =>
    simp only [table?] at ht
    split at ht
    · rename_i hty
      cases ht
      exact hc.mem_types hty id (List.mem_cons_of_mem _ hid)
    · cases ht

theorem Sound.setTable (hc : Sound c) {t t' : Table} (htarget : target.SparesBuiltin)
    (ht : c.table? target = some t) (ht' : ∀ id ∈ t'.typeIds, id < c.types.size) :
    Sound (c.setTable target t') := by
  cases target with
  | scope env =>
    refine hc.modifyScope (fun _ => rfl) ?_
    intro s hs id hid
    obtain hresult | hdecls := List.mem_append.mp hid
    · exact hc.scopes s (List.mem_of_getElem? hs) id (List.mem_append_left _ hresult)
    · exact ht' id hdecls
  | fields ty =>
    simp only [Context.setTable]
    split
    · exact hc.setType (htarget ty rfl) ht'
    · exact hc
  | params ty =>
    simp only [Context.setTable]
    split
    · rename_i result params hty
      refine hc.setType (hc.builtin_le_of_function hty) ?_
      intro id hid
      obtain rfl | hparams := List.mem_cons.mp hid
      · exact hc.mem_types hty id List.mem_cons_self
      · exact ht' id hparams
    · exact hc

theorem Sound.insert (hc : Sound c) (htarget : target.SparesBuiltin) {r : Record} {what : String}
    {i : Nat} (hr : ∀ id ∈ r.typeIds, id < c.types.size)
    (h : c.insert target r what = .ok (i, c')) : Sound c' := by
  obtain ⟨t, ht, -, rfl⟩ := insert_eq_ok h
  refine hc.setTable htarget ht ?_
  intro id hid
  rw [Table.typeIds_concat] at hid
  obtain hold | hnew := List.mem_append.mp hid
  · exact hc.table ht id hold
  · exact hr id hnew

theorem Sound.layOutFields (hc : Sound c) {ty : TypeId} {word : UInt32}
    (hty : Arena.builtin.length ≤ ty) (h : c.layOutFields ty word = .ok c') : Sound c' := by
  obtain ⟨t, ht, rfl⟩ := layOutFields_eq_ok h
  refine hc.setTable ?_ ht ?_
  · intro ty' hty'
    cases hty'
    exact hty
  · simpa using hc.table ht

theorem Sound.openFunction (hc : Sound c) {result : TypeId} (hresult : result < c.types.size)
    (parent : ScopeId) : Sound (c.openFunction parent result).2 := by
  refine hc.addScope rfl ?_
  intro id hid
  rw [List.mem_singleton.mp hid]
  exact hresult

/-- A block returns what its parent does. -/
theorem Sound.result (hc : Sound c) (parent : ScopeId) :
    ∀ id ∈ (c.scope parent).result, id < c.types.size := by
  intro id hid
  exact hc.scope parent id (List.mem_append_left _ (Option.mem_toList.mpr hid))

theorem Sound.openBlock (hc : Sound c) (parent : ScopeId) : Sound (c.openBlock parent).2 := by
  have hadd : Sound { c with scopes := c.scopes ++ [c.blockScope parent] } := by
    refine hc.addScope (n := c.labels) rfl ?_
    intro id hid
    refine hc.result parent id (Option.mem_toList.mp ?_)
    simpa [blockScope, Scope.typeIds, Table.typeIds, Table.empty] using hid
  exact hadd.modifyScope (fun _ => rfl) fun s hs => hadd.scopes s (List.mem_of_getElem? hs)

theorem Sound.modifyLabel (hc : Sound c) (env : ScopeId) (name : String)
    (f : JumpLabel → JumpLabel) : Sound (c.modifyLabel env name f) :=
  hc.modifyScope (fun _ => rfl) fun s hs => hc.scopes s (List.mem_of_getElem? hs)

theorem Sound.declaredType_lt (hc : Sound c) {tag : TypeTag} {ty : TypeId}
    (h : c.declaredType tag env = .ok ty) : ty < c.types.size := by
  have hbuiltin : ∀ id : TypeId, id < Arena.builtin.length → id < c.types.size :=
    fun id hid => Nat.lt_of_lt_of_le hid hc.builtin_le
  cases denotes_of_declaredType h with
  | default | int | float | string => exact hbuiltin _ (by decide)
  | named hn =>
    obtain ⟨-, -, -, -, -, hstruct⟩ := structNamed?_eq_some hn
    obtain ⟨_, _, hget⟩ := Arena.exists_of_isStruct hstruct
    exact lt_size_of_get? hget

end Context

open Context

section Register

variable {c c₁ c' : Context} {env : ScopeId} {target : Target}

theorem Variable.Recorded.sound {v : Variable} {declared : TypeId} {r : Record} {kept : Option Value}
    (h : v.Recorded env declared c c₁ r kept) (hc : Sound c) (henv : env < c.scopes.length)
    (hdeclared : declared < c.types.size) :
    Sound c₁ ∧ ∀ id ∈ r.typeIds, id < c₁.types.size := by
  cases h with
  | plain | computed =>
    refine ⟨hc, ?_⟩
    intro id hid
    rw [List.mem_singleton.mp hid]
    exact hdeclared
  | defaulted =>
    refine ⟨hc.addType henv (by nofun), ?_⟩
    simp only [Record.typeIds, Option.toList_some, List.mem_cons, List.not_mem_nil, or_false,
      size_addType]
    rintro id (rfl | rfl)
    · exact Nat.lt_succ_of_lt hdeclared
    · exact Nat.lt_succ_self _
  | constant =>
    refine ⟨hc.addType henv (by nofun), ?_⟩
    intro id hid
    simp [List.mem_singleton.mp hid]

theorem Variable.register_sound {v v' : Variable} (h : v.register env target c = .ok v' c')
    (hc : Sound c) (henv : env < c.scopes.length) (htarget : target.SparesBuiltin) : Sound c' := by
  cases hnew : v.registration with
  | none =>
    obtain ⟨declared, c₁, r, kept, i, hdeclared, hrec, hins, -⟩ := Variable.register_eq_ok hnew h
    obtain ⟨hc₁, hr⟩ := hrec.sound hc henv (hc.declaredType_lt hdeclared)
    exact hc₁.insert htarget hr hins
  | some _ =>
    obtain ⟨rfl, rfl⟩ := Variable.register_of_registered hnew h
    exact hc

/-- A type is added and then declared under a name. -/
theorem Context.Sound.insertNew (hc : Sound c) (henv : env < c.scopes.length)
    (htarget : target.SparesBuiltin) {t : Ty} (ht : ∀ id ∈ t.typeIds, id < c.types.size)
    {name what : String} {kind : Kind} {i : Nat}
    (h : (c.addType env t).2.insert target { name := name, ty := c.types.size, kind := kind } what =
      .ok (i, c')) : Sound c' := by
  refine (hc.addType henv ht).insert htarget ?_ h
  intro id hid
  simp [List.mem_singleton.mp hid]

theorem Decl.Entered.sound {ds ds' : List Decl} (h : Decl.Entered env target c ds c' ds') :
    Sound c → env < c.scopes.length → target.SparesBuiltin → Sound c' := by
  induction h with
  | nil => exact fun hc _ _ => hc
  | var h _ ih =>
    intro hc henv htarget
    have hlength := (Variable.register_grows h).extends.length
    exact ih (Variable.register_sound h hc henv htarget) (Nat.lt_of_lt_of_le henv hlength) htarget
  | array h _ ih =>
    intro hc henv htarget
    have hlength := (ArrayDecl.register_grows h).extends.length
    obtain ⟨element, sizes, i, helement, -, hins, -⟩ := ArrayDecl.register_eq_ok h
    have hlabel := hc.relabels (relabels_freshLabel _)
    refine ih (hlabel.insertNew henv htarget ?_ hins) (Nat.lt_of_lt_of_le henv hlength) htarget
    intro id hid
    rw [List.mem_singleton.mp hid]
    exact hc.declaredType_lt helement
  | data h _ ih =>
    intro hc henv htarget
    obtain ⟨text, rfl, -⟩ | ⟨lit, -, -, rfl, -⟩ := DataItem.register_eq_ok h
    · exact ih (hc.relabels (relabels_freshLabel _)) henv htarget
    · exact ih hc henv htarget
  | struct h _ ih =>
    intro hc henv htarget
    obtain ⟨i, hins, -⟩ := StructHead.register_eq_ok h
    have hlength := ((extends_addType _ _ _).trans (extends_insert hins)).length
    exact ih (hc.insertNew henv htarget (by nofun) hins) (Nat.lt_of_lt_of_le henv hlength) htarget
  | @function target c c₁ c₂ c' _ _ _ _ _ _ _ result i hresult hparams hins _ ihparams ih =>
    intro hc henv htarget
    have hadd : Sound (c.addType env (.function result .empty)).2 := by
      refine hc.addType henv ?_
      intro id hid
      rw [List.mem_singleton.mp hid]
      exact hc.declaredType_lt hresult
    have henv₀ := Nat.lt_of_lt_of_le henv (extends_addType c env (.function result .empty)).length
    have hc₁ := ihparams hadd henv₀ fun _ h => Target.noConfusion h
    have henv₁ := Nat.lt_of_lt_of_le henv₀ hparams.extends.length
    -- the type of the function was added before those of its parameters
    have hty : c.types.size < c₁.types.size := by
      have hle := hparams.extends.size
      rw [size_addType] at hle
      exact hle
    refine ih (hc₁.insert htarget ?_ hins) (Nat.lt_of_lt_of_le henv₁ (extends_insert hins).length) htarget
    intro id hid
    rw [List.mem_singleton.mp hid]
    exact hty

theorem Decl.register_sound (d : Decl) {s : Session} (hs : Sound s.context)
    (henv : env < s.context.scopes.length) (htarget : target.SparesBuiltin) :
    Sound (d.register env target s).2.context := by
  cases ho : (d.register env target s).1.outcome with
  | error e => exact hs.relabels (Decl.register_error hs.owned ho)
  | ok u =>
    rcases h : d.register env target s with ⟨⟨d', o⟩, t⟩
    rw [h] at ho
    obtain rfl : o = .ok () := ho
    exact (Decl.register_entered env d target s t d' h).sound hs henv htarget

theorem Decl.registerEach_sound (ds : List Decl) {s : Session} (hs : Sound s.context)
    (henv : env < s.context.scopes.length) (htarget : target.SparesBuiltin) :
    Sound (Decl.registerEach env target ds s).2.context := by
  induction ds generalizing s with
  | nil => exact hs
  | cons d ds ih =>
    have h := d.register_sound hs henv htarget
    have hlength := (Decl.register_checkSteps env target d s).length_le
    rcases hd : d.register env target s with ⟨here, t⟩
    rw [hd] at h hlength
    rw [Decl.registerEach, SessionM.bind_of_eq _ hd]
    cases here.outcome with
    | error e => exact h
    | ok u => exact ih h (Nat.lt_of_lt_of_le henv hlength)

theorem DeclList.register_sound (seq : DeclList) {s : Session} (hs : Sound s.context)
    (henv : env < s.context.scopes.length) (htarget : target.SparesBuiltin) :
    Sound (seq.register env target s).2.context := by
  rw [(seq.register_eq_registerEach env target s).2]
  exact Decl.registerEach_sound seq.inOrder hs henv htarget

end Register

end UnitCompiler
