import UnitCompiler.Proofs.JumpLabels
import UnitCompiler.Proofs.Layout
import UnitCompiler.Proofs.Promises

namespace UnitCompiler

def Record.bare (r : Record) : Record :=
  { name := r.name, ty := r.ty, kind := r.kind }

def Scope.params (s : Scope) : List Record :=
  s.decls.records.filter fun r => r.kind.has .param

namespace Context

/-- Parameters have types of variables, and only functions have parameters: the scopes inside are blocks,
and blocks have none. -/
structure Arranged (c : Context) : Prop where
  types : ∀ {id result : TypeId} {ps : Table}, c.types.get? id = some (.function result ps) →
    ∀ r ∈ ps.records, c.types.Holds r.ty
  blocks : ∀ {env : ScopeId} {s : Scope}, c.scopes[env]? = some s → s.kind = .block →
    ∀ r ∈ s.decls.records, r.kind.has .param = false
  children : ∀ {env : ScopeId} {s : Scope}, c.scopes[env]? = some s → ∀ e ∈ s.children,
    ∃ s', c.scopes[e]? = some s' ∧ s'.kind = .block

structure KeepsParams (c c' : Context) : Prop where
  types : ∀ {id result : TypeId} {ps : Table}, c.types.get? id = some (.function result ps) →
    c'.types.get? id = some (.function result ps)
  scopes : ∀ {env : ScopeId} {s : Scope}, c.scopes[env]? = some s →
    ∃ s', c'.scopes[env]? = some s' ∧ s'.params = s.params

variable {c c₁ c' : Context} {env : ScopeId} {target : Target}

theorem arranged_initial : Arranged .initial := by
  refine ⟨?_, ?_, ?_⟩
  · intro id result ps h
    have hmem : Ty.function result ps ∈ Arena.builtin := List.mem_of_getElem? h
    simp [Arena.builtin] at hmem
  · intro env s hs
    obtain rfl := List.mem_singleton.mp (List.mem_of_getElem? hs)
    nofun
  · intro env s hs
    obtain rfl := List.mem_singleton.mp (List.mem_of_getElem? hs)
    nofun

/-- A context stays arranged where its new parameters, records and children are. -/
theorem Arranged.extends (hc : Arranged c) (h : Extends c c')
    (htypes : ∀ (id result : TypeId) (ps : Table), c'.types.get? id = some (.function result ps) →
      ∀ r ∈ ps.records,
        (∃ ps₀, c.types.get? id = some (.function result ps₀) ∧ r ∈ ps₀.records) ∨ c'.types.Holds r.ty)
    (hrecords : ∀ (env : ScopeId) (s : Scope), c'.scopes[env]? = some s → ∀ r ∈ s.decls.records,
      (∃ s₀, c.scopes[env]? = some s₀ ∧ r ∈ s₀.decls.records) ∨ s.kind ≠ .block ∨
        r.kind.has .param = false)
    (hchildren : ∀ (env : ScopeId) (s : Scope), c'.scopes[env]? = some s → ∀ e ∈ s.children,
      (∃ s₀, c.scopes[env]? = some s₀ ∧ e ∈ s₀.children) ∨
        ∃ s', c'.scopes[e]? = some s' ∧ s'.kind = .block) : Arranged c' := by
  refine ⟨?_, ?_, ?_⟩
  · intro id result ps hget r hr
    obtain ⟨ps₀, hget₀, hr₀⟩ | hnew := htypes id result ps hget r hr
    · exact h.holds (hc.types hget₀ r hr₀)
    · exact hnew
  · intro env s hs hkind r hr
    obtain ⟨s₀, hs₀, hr₀⟩ | hnot | hnew := hrecords env s hs r hr
    · obtain ⟨s', hs', hbecomes⟩ := h.scopes hs₀
      obtain rfl : s' = s := Option.some.inj (hs'.symm.trans hs)
      exact hc.blocks hs₀ (hbecomes.kind.symm.trans hkind) r hr₀
    · exact absurd hkind hnot
    · exact hnew
  · intro env s hs e he
    obtain ⟨s₀, hs₀, he₀⟩ | hnew := hchildren env s hs e he
    · obtain ⟨s₁, hs₁, hkind⟩ := hc.children hs₀ e he₀
      obtain ⟨s', hs', hbecomes⟩ := h.scopes hs₁
      exact ⟨s', hs', hbecomes.kind.trans hkind⟩
    · exact hnew

theorem KeepsParams.refl (c : Context) : KeepsParams c c :=
  ⟨fun h => h, fun {_ s} h => ⟨s, h, rfl⟩⟩

theorem KeepsParams.trans (h : KeepsParams c c₁) (h' : KeepsParams c₁ c') : KeepsParams c c' := by
  refine ⟨fun hget => h'.types (h.types hget), ?_⟩
  intro env s hs
  obtain ⟨s₁, hs₁, hparams⟩ := h.scopes hs
  obtain ⟨s', hs', hparams'⟩ := h'.scopes hs₁
  exact ⟨s', hs', hparams'.trans hparams⟩

/-- A change of one scope that leaves its declarations and its children alone. -/
theorem Arranged.modifyScope (hc : Arranged c) {f : Scope → Scope} (hkind : ∀ s, (f s).kind = s.kind)
    (hdecls : ∀ s, (f s).decls = s.decls) (hchildren : ∀ s, (f s).children = s.children) :
    Arranged (c.modifyScope env f) := by
  have hold : ∀ {e : ScopeId} {s : Scope}, (c.modifyScope env f).scopes[e]? = some s →
      ∃ s₀, c.scopes[e]? = some s₀ ∧ s.kind = s₀.kind ∧ s.decls = s₀.decls ∧
        s.children = s₀.children := by
    intro e s hs
    obtain ⟨s₀, hs₀, rfl⟩ := getElem?_modifyScope_eq_some.mp hs
    refine ⟨s₀, hs₀, ?_⟩
    split
    · exact ⟨hkind s₀, hdecls s₀, hchildren s₀⟩
    · exact ⟨rfl, rfl, rfl⟩
  refine ⟨hc.types, ?_, ?_⟩
  · intro e s hs hblock r hr
    obtain ⟨s₀, hs₀, hk, hd, -⟩ := hold hs
    exact hc.blocks hs₀ (hk.symm.trans hblock) r (hd ▸ hr)
  · intro e s hs k hk
    obtain ⟨s₀, hs₀, -, -, hch⟩ := hold hs
    obtain ⟨s₁, hs₁, hkind₁⟩ := hc.children hs₀ k (hch ▸ hk)
    refine ⟨if env = k then f s₁ else s₁, ?_, ?_⟩
    · simp [hs₁]
    · split
      · exact (hkind s₁).trans hkind₁
      · exact hkind₁

theorem keepsParams_modifyScope {f : Scope → Scope}
    (hf : ∀ s, c.scopes[env]? = some s → (f s).params = s.params) :
    KeepsParams c (c.modifyScope env f) := by
  refine ⟨fun h => h, ?_⟩
  intro e s hs
  rw [getElem?_modifyScope, hs]
  refine ⟨_, rfl, ?_⟩
  split
  · rename_i he
    exact hf s (he ▸ hs)
  · rfl

theorem Arranged.addType (hc : Arranged c) (env : ScopeId) {t : Ty}
    (ht : ∀ result ps, t = .function result ps → ps = .empty) : Arranged (c.addType env t).2 := by
  have hext := extends_addType c env t
  have hscopes : Arranged (c.modifyScope env fun s => { s with types := s.types ++ [c.types.size] }) :=
    hc.modifyScope (fun _ => rfl) (fun _ => rfl) fun _ => rfl
  refine ⟨?_, hscopes.blocks, hscopes.children⟩
  intro id result ps hget r hr
  obtain hold | ⟨-, rfl⟩ := get?_addType hget
  · exact hext.holds (hc.types hold r hr)
  · rw [ht result ps rfl] at hr
    cases hr

theorem keepsParams_addType (c : Context) (env : ScopeId) (t : Ty) :
    KeepsParams c (c.addType env t).2 := by
  have hscopes : KeepsParams c (c.modifyScope env fun s => { s with types := s.types ++ [c.types.size] }) :=
    keepsParams_modifyScope fun _ _ => rfl
  refine ⟨?_, hscopes.scopes⟩
  intro id result ps hget
  exact (get?_add_of_lt (lt_size_of_get? hget) t).trans hget

/-- A type that is no function may change where it stands. -/
theorem Arranged.setStruct (hc : Arranged c) {ty : TypeId} {name : String} {fields fields' : Table}
    (hty : c.types.get? ty = some (.struct name fields)) :
    Arranged { c with types := c.types.set ty (.struct name fields') } := by
  have hext := extends_setType hty (u := .struct name fields') ⟨fields', rfl⟩
  refine hc.extends hext ?_ (fun _ s hs r hr => Or.inl ⟨s, hs, hr⟩)
    fun _ s hs e he => Or.inl ⟨s, hs, he⟩
  intro id result ps hget r hr
  simp only [get?_set, hty, Option.map_some] at hget
  split at hget
  · cases hget
  · exact Or.inl ⟨ps, hget, hr⟩

theorem keepsParams_setStruct {ty : TypeId} {name : String} {fields fields' : Table}
    (hty : c.types.get? ty = some (.struct name fields)) :
    KeepsParams c { c with types := c.types.set ty (.struct name fields') } := by
  refine ⟨?_, fun {_ s} hs => ⟨s, hs, rfl⟩⟩
  intro id result ps hget
  simp only [get?_set, hty, Option.map_some]
  split
  · rename_i heq
    subst heq
    cases hty.symm.trans hget
  · exact hget

theorem table?_fields {ty : TypeId} {t : Table} (h : c.table? (.fields ty) = some t) :
    ∃ name, c.types.get? ty = some (.struct name t) := by
  simp only [table?] at h
  split at h
  · rename_i name fields hty
    cases h
    exact ⟨name, hty⟩
  · cases h

theorem table?_params {ty : TypeId} {t : Table} (h : c.table? (.params ty) = some t) :
    ∃ result, c.types.get? ty = some (.function result t) := by
  simp only [table?] at h
  split at h
  · rename_i result params hty
    cases h
    exact ⟨result, hty⟩
  · cases h

theorem setTable_fields {ty : TypeId} {name : String} {t : Table} (t' : Table)
    (h : c.types.get? ty = some (.struct name t)) :
    c.setTable (.fields ty) t' = { c with types := c.types.set ty (.struct name t') } := by
  simp only [setTable, h]

theorem setTable_params {ty result : TypeId} {t : Table} (t' : Table)
    (h : c.types.get? ty = some (.function result t)) :
    c.setTable (.params ty) t' = { c with types := c.types.set ty (.function result t') } := by
  simp only [setTable, h]

/-- A scope takes a record that is no parameter, or is not a block. -/
theorem Arranged.insertDecl (hc : Arranged c) {r : Record} {what : String} {i : Nat}
    (hr : ∀ s, c.scopes[env]? = some s → s.kind = .block → r.kind.has .param = false)
    (h : c.insert (.scope env) r what = .ok (i, c')) : Arranged c' := by
  have hext := extends_insert h
  obtain ⟨t, ht, -, rfl⟩ := insert_eq_ok h
  refine hc.extends hext (fun _ _ ps hget r hr => Or.inl ⟨ps, hget, hr⟩) ?_ ?_
  · intro e s hs x hx
    obtain ⟨s₀, hs₀, rfl⟩ := getElem?_modifyScope_eq_some.mp hs
    split at hx
    · rename_i he
      subst he
      obtain rfl : (c.scope env).decls = t := Option.some.inj ht
      rw [scope_eq hs₀] at hx
      obtain hold | hnew := List.mem_append.mp hx
      · exact Or.inl ⟨s₀, hs₀, hold⟩
      · obtain rfl := List.mem_singleton.mp hnew
        rw [if_pos rfl]
        by_cases hkind : s₀.kind = .block
        · exact Or.inr (Or.inr (hr s₀ hs₀ hkind))
        · exact Or.inr (Or.inl hkind)
    · exact Or.inl ⟨s₀, hs₀, hx⟩
  · intro e s hs k hk
    obtain ⟨s₀, hs₀, rfl⟩ := getElem?_modifyScope_eq_some.mp hs
    refine Or.inl ⟨s₀, hs₀, ?_⟩
    split at hk <;> exact hk

theorem keepsParams_insertDecl {r : Record} {what : String} {i : Nat} (hr : r.kind.has .param = false)
    (h : c.insert (.scope env) r what = .ok (i, c')) : KeepsParams c c' := by
  obtain ⟨t, ht, -, rfl⟩ := insert_eq_ok h
  refine keepsParams_modifyScope fun s hs => ?_
  obtain rfl : (c.scope env).decls = t := Option.some.inj ht
  rw [scope_eq hs]
  simp [Scope.params, hr]

theorem Arranged.insertParam (hc : Arranged c) {ty : TypeId} {r : Record} {what : String} {i : Nat}
    (hr : c.types.Holds r.ty) (h : c.insert (.params ty) r what = .ok (i, c')) : Arranged c' := by
  have hext := extends_insert h
  obtain ⟨t, ht, -, rfl⟩ := insert_eq_ok h
  obtain ⟨result, hty⟩ := table?_params ht
  rw [setTable_params _ hty] at hext ⊢
  refine hc.extends hext ?_ (fun _ s hs r hr => Or.inl ⟨s, hs, hr⟩)
    fun _ s hs e he => Or.inl ⟨s, hs, he⟩
  intro id result' ps hget x hx
  simp only [get?_set, hty, Option.map_some] at hget
  split at hget
  · rename_i heq
    subst heq
    cases hget
    obtain hold | hnew := List.mem_append.mp hx
    · exact Or.inl ⟨t, hty, hold⟩
    · obtain rfl := List.mem_singleton.mp hnew
      exact Or.inr (hext.holds hr)
  · exact Or.inl ⟨ps, hget, hx⟩

/-- What changes the fields of a struct leaves the parameters alone. -/
theorem Arranged.setFields (hc : Arranged c) {ty : TypeId} {t : Table}
    (ht : c.table? (.fields ty) = some t) (t' : Table) :
    Arranged (c.setTable (.fields ty) t') ∧ KeepsParams c (c.setTable (.fields ty) t') := by
  obtain ⟨name, hty⟩ := table?_fields ht
  rw [setTable_fields _ hty]
  exact ⟨hc.setStruct hty, keepsParams_setStruct hty⟩

/-- A new scope is empty. -/
theorem Arranged.addScope (hc : Arranged c) {s : Scope} (hdecls : s.decls = .empty)
    (hchildren : s.children = []) {n : Nat} (hn : c.labels ≤ n) :
    Arranged { c with scopes := c.scopes ++ [s], labels := n } := by
  refine hc.extends (extends_addScope c s hn) (fun _ _ ps hget r hr => Or.inl ⟨ps, hget, hr⟩) ?_ ?_
  · intro e s' hs' r hr
    obtain hold | ⟨-, rfl⟩ := getElem?_concat_eq_some.mp hs'
    · exact Or.inl ⟨s', hold, hr⟩
    · rw [hdecls] at hr
      cases hr
  · intro e s' hs' k hk
    obtain hold | ⟨-, rfl⟩ := getElem?_concat_eq_some.mp hs'
    · exact Or.inl ⟨s', hold, hk⟩
    · rw [hchildren] at hk
      cases hk

theorem keepsParams_addScope (c : Context) (s : Scope) (n : Nat) :
    KeepsParams c { c with scopes := c.scopes ++ [s], labels := n } := by
  refine ⟨fun h => h, ?_⟩
  intro e s' hs'
  have hlt : e < c.scopes.length := (List.getElem?_eq_some_iff.mp hs').1
  exact ⟨s', (List.getElem?_append_left hlt).trans hs', rfl⟩

theorem Arranged.openBlock (hc : Arranged c) (parent : ScopeId) : Arranged (c.openBlock parent).2 := by
  have hadd : Arranged { c with scopes := c.scopes ++ [c.blockScope parent] } :=
    hc.addScope (n := c.labels) rfl rfl (Nat.le_refl _)
  refine hadd.extends ?_ (fun _ _ ps hget r hr => Or.inl ⟨ps, hget, hr⟩) ?_ ?_
  · exact extends_modifyScope fun _ _ =>
      ⟨rfl, rfl, rfl, List.prefix_refl _, List.prefix_append _ _⟩
  · intro e s hs r hr
    exact Or.inl (mem_decls_modify hs hr fun _ => rfl)
  · intro e s hs k hk
    unfold Context.openBlock at hs ⊢
    obtain ⟨s₀, hs₀, rfl⟩ := getElem?_modifyScope_eq_some.mp hs
    split at hk
    · obtain hold | hnew := List.mem_append.mp hk
      · exact Or.inl ⟨s₀, hs₀, hold⟩
      · -- the new child is the block itself
        right
        rw [List.mem_singleton.mp hnew, getElem?_modifyScope, List.getElem?_concat_length]
        refine ⟨_, rfl, ?_⟩
        split <;> rfl
    · exact Or.inl ⟨s₀, hs₀, hk⟩

theorem keepsParams_openBlock (c : Context) (parent : ScopeId) :
    KeepsParams c (c.openBlock parent).2 :=
  (keepsParams_addScope c _ c.labels).trans (keepsParams_modifyScope fun _ _ => rfl)

theorem Arranged.modifyLabel (hc : Arranged c) (env : ScopeId) (name : String)
    (f : JumpLabel → JumpLabel) : Arranged (c.modifyLabel env name f) :=
  hc.modifyScope (fun _ => rfl) (fun _ => rfl) fun _ => rfl

theorem keepsParams_modifyLabel (c : Context) (env : ScopeId) (name : String)
    (f : JumpLabel → JumpLabel) : KeepsParams c (c.modifyLabel env name f) :=
  keepsParams_modifyScope fun _ _ => rfl

inductive LeafStep (env : ScopeId) (target : Target) : Context → Context → Prop
  | label (c : Context) : LeafStep env target c c.freshLabel.2
  | addType (c : Context) (t : Ty) (ht : ∀ result ps, t ≠ .function result ps) :
      LeafStep env target c (c.addType env t).2
  | insert {c c' : Context} {r : Record} {what : String} {i : Nat}
      (htakes : target.Takes env r.kind) (hparam : r.kind.has .param = true → c.types.Holds r.ty)
      (h : c.insert target r what = .ok (i, c')) : LeafStep env target c c'

abbrev LeafSteps (env : ScopeId) (target : Target) : Context → Context → Prop :=
  Relation.ReflTransGen (LeafStep env target)

theorem Takes.not_param {env e : ScopeId} {k : Kind} (h : (Target.scope e).Takes env k) :
    k.has .param = false := by
  have hkinds : ∀ k ∈ [Kind.global, Kind.union .global .const, .localVar,
      Kind.union .localVar .const], k.has .param = false := by decide
  obtain ⟨-, ⟨-, hk⟩ | ⟨-, hk⟩⟩ := h
  · exact hkinds k (List.mem_append_left [Kind.localVar, Kind.union .localVar .const] hk)
  · exact hkinds k (List.mem_append_right [Kind.global, Kind.union .global .const] hk)

theorem LeafStep.arranged (h : LeafStep env target c c') (hc : Arranged c) : Arranged c' := by
  cases h with
  | label => exact ⟨hc.types, hc.blocks, hc.children⟩
  | addType t ht => exact hc.addType env fun result ps h => absurd h (ht result ps)
  | insert htakes hparam h =>
    cases target with
    | scope e => exact hc.insertDecl (fun _ _ _ => Takes.not_param htakes) h
    | fields ty =>
      obtain ⟨t, ht, -, rfl⟩ := insert_eq_ok h
      exact (hc.setFields ht _).1
    | params ty =>
      refine hc.insertParam (hparam ?_) h
      rw [htakes]
      decide

theorem LeafStep.keepsParams (h : LeafStep env target c c') (hc : Arranged c)
    (htarget : ∀ ty, target ≠ .params ty) : KeepsParams c c' := by
  cases h with
  | label => exact ⟨fun h => h, fun {_ s} hs => ⟨s, hs, rfl⟩⟩
  | addType t ht => exact keepsParams_addType c env t
  | insert htakes hparam h =>
    cases target with
    | scope e => exact keepsParams_insertDecl (Takes.not_param htakes) h
    | fields ty =>
      obtain ⟨t, ht, -, rfl⟩ := insert_eq_ok h
      exact (hc.setFields ht _).2
    | params ty => exact absurd rfl (htarget ty)

theorem LeafSteps.arranged (h : LeafSteps env target c c') (hc : Arranged c) : Arranged c' := by
  induction h with
  | refl => exact hc
  | tail _ hstep ih => exact hstep.arranged ih

theorem LeafSteps.keepsParams (h : LeafSteps env target c c') (hc : Arranged c)
    (htarget : ∀ ty, target ≠ .params ty) : KeepsParams c c' := by
  induction h with
  | refl => exact .refl c
  | tail hsteps hstep ih => exact ih.trans (hstep.keepsParams (LeafSteps.arranged hsteps hc) htarget)

end Context

open Context

variable {c c₁ c' final : Context} {env : ScopeId} {target : Target}

abbrev Context.Shaped (c : Context) : Prop := Covered (fun _ => True) c

theorem Variable.register_leafSteps (hc : Shaped c) {v v' : Variable} (hnew : v.registration = none)
    (htakes : target.Takes env v.kind) (h : v.register env target c = .ok v' c') :
    LeafSteps env target c c' := by
  obtain ⟨declared, c₁, r, kept, i, hdeclared, hrec, hins, -⟩ := Variable.register_eq_ok hnew h
  obtain ⟨hholds, -⟩ := hc.declaredType hdeclared
  cases hrec with
  | plain => exact .single (.insert htakes (fun _ => hholds) hins)
  | computed => exact .single (.insert htakes (fun _ => hholds) hins)
  | @defaulted _ lit =>
    have hadd := extends_addType c env (.const lit)
    exact .tail (.single (.addType c (.const lit) (by nofun)))
      (.insert htakes (fun _ => hadd.holds hholds) hins)
  | @constant _ lit _ hconst =>
    refine .tail (.single (.addType c (.const lit) (by nofun))) (.insert htakes ?_ hins)
    -- a kind with the flag of constants is not that of a parameter
    intro hparam
    cases target with
    | scope e =>
      rw [Takes.not_param htakes] at hparam
      cases hparam
    | fields ty =>
      rw [show v.kind = .field from htakes] at hconst
      cases hconst
    | params ty =>
      rw [show v.kind = .param from htakes] at hconst
      cases hconst

theorem ArrayDecl.register_leafSteps {v v' : ArrayDecl} (htakes : target.Takes env v.kind)
    (hparam : v.kind.has .param = false) (h : v.register env target c = .ok v' c') :
    LeafSteps env target c c' := by
  obtain ⟨element, sizes, i, -, -, hins, -⟩ := ArrayDecl.register_eq_ok h
  have hadd : LeafSteps env target c
      (c.freshLabel.2.addType env (.array c.freshLabel.1 element sizes)).2 :=
    .tail (.single (.label c)) (.addType _ _ (by nofun))
  refine hadd.tail (.insert htakes ?_ hins)
  intro h
  rw [show v.kind.has .param = true from h] at hparam
  cases hparam

def Context.Homed (c : Context) (env : ScopeId) : Prop :=
  env ≠ root → ∃ func, Inside c func env

theorem Context.Homed.extends (h : Homed c env) (hext : Extends c c') : Homed c' env := by
  intro henv
  obtain ⟨func, hin⟩ := h henv
  exact ⟨func, hin.extends hext⟩

theorem Context.Homed.framed (h : Homed c env) (final : Context) : ∃ frame, Framed c final env frame := by
  by_cases henv : env = root
  · subst henv
    exact ⟨none, framed_root c final none⟩
  · obtain ⟨func, hin⟩ := h henv
    exact ⟨_, fun _ => ⟨func, hin, rfl⟩⟩

theorem Decl.Entered.shaped {ds ds' : List Decl} (h : Decl.Entered env target c ds c' ds')
    (hc : Shaped c) (hfits : ∀ d ∈ ds, d.Fits env target) (henv : Homed c env) : Shaped c' := by
  obtain ⟨frame, hframe⟩ := henv.framed c'
  exact (h.ready hc hfits hframe (.refl c') fun _ _ _ _ => trivial).1

def Decl.isSimple : Decl → Bool
  | .var _ _ | .data _ _ => true
  | .array _ v => !v.kind.has .param
  | .struct _ _ _ | .function _ _ _ _ => false

theorem Decl.Entered.leafSteps {ds ds' : List Decl} (h : Decl.Entered env target c ds c' ds')
    (hc : Shaped c) (hfits : ∀ d ∈ ds, d.Fits env target) (hsimple : ∀ d ∈ ds, d.isSimple = true)
    (henv : Homed c env) : LeafSteps env target c c' := by
  induction h with
  | nil => exact .refl
  | var h hrest ih =>
    obtain ⟨hfit, hfits⟩ := List.forall_mem_cons.mp hfits
    have hentered : Decl.Entered env _ _ [.var {} _] _ _ := .var h .nil
    have hc₁ := hentered.shaped hc (List.forall_mem_singleton.mpr hfit) henv
    have hsteps := Variable.register_leafSteps hc hfit.1 hfit.2 h
    exact hsteps.trans (ih hc₁ hfits (List.forall_mem_cons.mp hsimple).2 (henv.extends hentered.extends))
  | array h hrest ih =>
    obtain ⟨hfit, hfits⟩ := List.forall_mem_cons.mp hfits
    obtain ⟨hhead, hsimple⟩ := List.forall_mem_cons.mp hsimple
    have hentered : Decl.Entered env _ _ [.array {} _] _ _ := .array h .nil
    have hc₁ := hentered.shaped hc (List.forall_mem_singleton.mpr hfit) henv
    have hsteps := ArrayDecl.register_leafSteps hfit (by simpa [isSimple] using hhead) h
    exact hsteps.trans (ih hc₁ hfits hsimple (henv.extends hentered.extends))
  | data h hrest ih =>
    obtain ⟨-, hfits⟩ := List.forall_mem_cons.mp hfits
    obtain ⟨-, hsimple⟩ := List.forall_mem_cons.mp hsimple
    obtain ⟨text, rfl, -⟩ | ⟨lit, -, -, rfl, -⟩ := DataItem.register_eq_ok h
    · exact (ih hc.freshLabel hfits hsimple (henv.extends (extends_freshLabel _))).head (.label _)
    · exact ih hc hfits hsimple henv
  | struct | function => cases (List.forall_mem_cons.mp hsimple).1

theorem Decl.isSimple_of_isLocal {d : Decl} (h : d.isLocal = true) : d.isSimple = true := by
  rw [isLocal, Bool.or_eq_true] at h
  obtain h | h := h
  · obtain ⟨_, _, rfl, -⟩ := exists_of_isVarOf h
    rfl
  · obtain ⟨_, v, rfl, hkind⟩ := exists_of_isArrayOf h
    rw [isSimple, hkind]
    rfl

theorem Decl.isSimple_of_isField {d : Decl} (h : d.isField = true) : d.isSimple = true := by
  rw [isField, Bool.or_eq_true] at h
  obtain h | h := h
  · obtain ⟨_, _, rfl, -⟩ := exists_of_isVarOf h
    rfl
  · obtain ⟨_, v, rfl, hkind⟩ := exists_of_isArrayOf h
    rw [isSimple, hkind]
    rfl

theorem Decl.isSimple_of_isParam {d : Decl} (h : d.isParam = true) : d.isSimple = true := by
  obtain ⟨_, _, rfl, -⟩ := exists_of_isVarOf h
  rfl

/-- Registration of a program arranges its parameters. -/
theorem Decl.Entered.arranged {ds ds' : List Decl} (h : Decl.Entered root (.scope root) c ds c' ds')
    (hc : Shaped c) (ha : Arranged c) (hwf : ∀ d ∈ ds, d.isWellFormed = true) : Arranged c' := by
  have hhomed : ∀ c, Homed c root := fun _ h => absurd rfl h
  -- what is neither a struct nor a function is registered by leaf steps alone
  have hstep : ∀ {c c₁ : Context} {d : Decl} {d' : List Decl}, Shaped c → Arranged c →
      d.isWellFormed = true → d.isSimple = true →
      Decl.Entered root (.scope root) c [d] c₁ d' → Shaped c₁ ∧ Arranged c₁ := by
    intro c c₁ d d' hc ha hd hsimple hentered
    have hfits : ∀ d' ∈ [d], d'.Fits root (.scope root) :=
      List.forall_mem_singleton.mpr (Decl.fits_of_isWellFormed hd)
    refine ⟨hentered.shaped hc hfits (hhomed c), ?_⟩
    exact (hentered.leafSteps hc hfits (List.forall_mem_singleton.mpr hsimple) (hhomed c)).arranged ha
  generalize htarget : Target.scope root = target at h
  induction h with
  | nil => exact ha
  | var h hrest ih =>
    subst htarget
    obtain ⟨hd, hwf⟩ := List.forall_mem_cons.mp hwf
    obtain ⟨hc₁, ha₁⟩ := hstep hc ha hd rfl (.var h .nil)
    exact ih hc₁ ha₁ hwf rfl
  | @array _ _ _ _ site v _ _ _ h hrest ih =>
    subst htarget
    obtain ⟨hd, hwf⟩ := List.forall_mem_cons.mp hwf
    have hsimple : (Decl.array site v).isSimple = true := by
      rw [isWellFormed] at hd
      obtain ⟨_, _, heq, hkind⟩ := exists_of_isArrayOf hd
      cases heq
      rw [isSimple, hkind]
      rfl
    obtain ⟨hc₁, ha₁⟩ := hstep hc ha hd hsimple (.array h .nil)
    exact ih hc₁ ha₁ hwf rfl
  | data h hrest ih =>
    subst htarget
    obtain ⟨hd, hwf⟩ := List.forall_mem_cons.mp hwf
    obtain ⟨hc₁, ha₁⟩ := hstep hc ha hd rfl (.data h .nil)
    exact ih hc₁ ha₁ hwf rfl
  | struct h hrest ih =>
    subst htarget
    obtain ⟨hd, hwf⟩ := List.forall_mem_cons.mp hwf
    have hentered : Decl.Entered root (.scope root) _ [.struct {} _ []] _ _ := .struct h .nil
    have hc₁ := hentered.shaped hc (List.forall_mem_singleton.mpr ⟨rfl, rfl⟩) (hhomed _)
    obtain ⟨i, hins, -⟩ := StructHead.register_eq_ok h
    have hkind : Kind.struct.has .param = false := by decide
    have ha₁ := (ha.addType root (t := .struct _ .empty) fun _ _ h => by cases h).insertDecl (fun _ _ _ => hkind) hins
    exact ih hc₁ ha₁ hwf rfl
  | @function target c c₁ c₂ c' site head params params' body ds ds' result i hresult hparams hins
      hrest ihparams ih =>
    subst htarget
    obtain ⟨hd, hwf⟩ := List.forall_mem_cons.mp hwf
    have hentered : Decl.Entered root (.scope root) c [.function site head params body] c₂ _ :=
      .function hresult hparams hins .nil
    have hc₂ := hentered.shaped hc
      (List.forall_mem_singleton.mpr (Decl.fits_of_isWellFormed hd)) (hhomed c)
    rw [isWellFormed, Bool.and_eq_true] at hd
    have hisParam : ∀ d ∈ DeclList.inOrder params, d.isParam = true :=
      DeclList.forall_mem_inOrder.mpr (DeclList.each_iff.mp hd.1)
    -- the parameters go into the type of the function before its name is declared, with kinds of parameters
    -- only
    have hadd : Arranged (c.addType root (.function result .empty)).2 :=
      ha.addType root fun _ _ h => by cases h; rfl
    have hsteps := hparams.leafSteps (hc.addType root (t := .function result .empty) fun _ h => by cases h)
      (fun d hd => Decl.fits_of_isParam (hisParam d hd) _)
      (fun d hd => Decl.isSimple_of_isParam (hisParam d hd)) (hhomed _)
    have hkind : Kind.func.has .param = false := by decide
    have ha₂ := (hsteps.arranged hadd).insertDecl (fun _ _ _ => hkind) hins
    exact ih hc₂ ha₂ hwf rfl

/-- A checked body adds no parameters. -/
theorem Stmt.Checked.arranged {func : ScopeId} {body body' : List Stmt}
    (h : Stmt.Checked env c body c' body') (hc : Shaped c) (hin : Inside c func env)
    (ha : Arranged c) : Arranged c' ∧ KeepsParams c c' := by
  induction h with
  | nil => exact ⟨ha, .refl _⟩
  | @declare env c c₁ c' d d' rest rest' hlocal hd hrest ih =>
    have hfits : ∀ d' ∈ [d], d'.Fits env (.scope env) :=
      List.forall_mem_singleton.mpr (Decl.fits_of_isLocal hin.ne_root hlocal)
    have hhomed : Homed c env := fun _ => ⟨func, hin⟩
    -- a local takes leaf steps, and these add no parameters
    have hsteps := hd.leafSteps hc hfits
      (List.forall_mem_singleton.mpr (Decl.isSimple_of_isLocal hlocal)) hhomed
    obtain ⟨ha', hkeeps⟩ := ih (hd.shaped hc hfits hhomed) (hin.extends hd.extends) (hsteps.arranged ha)
    exact ⟨ha', (hsteps.keepsParams ha (by nofun)).trans hkeeps⟩
  | @block env c c₁ c' body body' span rest rest' hbody hrest ihbody ih =>
    obtain ⟨ha₁, hkeeps₁⟩ := ihbody (hc.openBlock env) (inside_openBlock hin) (ha.openBlock env)
    have hc₁ := (hbody.ready (hc.openBlock env) (inside_openBlock hin) (.refl c₁)
      fun _ _ _ _ => trivial).1
    obtain ⟨ha', hkeeps'⟩ := ih hc₁ (hin.extends ((extends_openBlock c env).trans hbody.extends)) ha₁
    exact ⟨ha', ((keepsParams_openBlock c env).trans hkeeps₁).trans hkeeps'⟩
  | @goto env c c' label span old rest rest' hrest ih =>
    obtain ⟨ha', hkeeps⟩ := ih (hc.modifyLabel _ _ _) (hin.extends (extends_noteJump c env label span))
      (ha.modifyLabel _ _ _)
    exact ⟨ha', (keepsParams_modifyLabel c env label _).trans hkeeps⟩
  | @label env c c₁ c' name span old rest rest' hplace hrest ih =>
    have hext := extends_placeLabel hplace
    have hc₁ := hc.placeLabel hplace
    obtain ⟨-, rfl⟩ := placeLabel_eq_ok hplace
    obtain ⟨ha', hkeeps⟩ := ih hc₁ (hin.extends hext) (ha.modifyLabel _ _ _)
    exact ⟨ha', (keepsParams_modifyLabel c env name _).trans hkeeps⟩
  | eval _ _ ih => exact ih hc hin ha

/-- Records go into one scope and nowhere else. -/
theorem Context.Declared.arranged {rs : List Record} {s : Scope} (h : Declared env c rs c')
    (hs : c.scopes[env]? = some s) (hkind : s.kind ≠ .block) (ha : Arranged c) :
    Arranged c' ∧ c'.types = c.types ∧ (∀ e, e ≠ env → c'.scopes[e]? = c.scopes[e]?) ∧
      ∃ s', c'.scopes[env]? = some s' ∧ s'.decls.records = s.decls.records ++ rs ∧
        (s.decls.names.Nodup → s'.decls.names.Nodup) := by
  induction h generalizing s with
  | nil => exact ⟨ha, rfl, fun _ _ => rfl, s, hs, (List.append_nil _).symm, id⟩
  | @cons c c₁ c' r rs i hins _ ih =>
    have ha₁ := ha.insertDecl (fun s' hs' hblock => by
      obtain rfl : s' = s := Option.some.inj (hs'.symm.trans hs)
      exact absurd hblock hkind) hins
    obtain ⟨t, ht, hnew, rfl⟩ := insert_eq_ok hins
    obtain rfl : (c.scope env).decls = t := Option.some.inj ht
    rw [scope_eq hs] at hnew
    have hs₁ : (c.setTable (.scope env) ⟨(c.scope env).decls.records ++ [r]⟩).scopes[env]? =
        some { s with decls := ⟨s.decls.records ++ [r]⟩ } := by
      simp [hs, scope_eq hs]
    obtain ⟨ha', htypes, hother, s', hs', hrecords, hnodup⟩ := ih hs₁ hkind ha₁
    refine ⟨ha', htypes, ?_, s', hs', ?_, ?_⟩
    · intro e he
      rw [hother e he]
      simp [he.symm]
    · rw [hrecords, List.append_assoc]
      rfl
    · intro hold
      exact hnodup (Table.nodup_concat hold hnew)

/-- A function has its parameters in its own scope, first of all, as its type has them. -/
def Decl.Seated (c : Context) : Decl → Prop
  | .function _ head _ _ => ∃ scope ty result ps s, head.env = some scope ∧ head.ty = some ty ∧
      c.types.get? ty = some (.function result ps) ∧ c.scopes[scope]? = some s ∧
      ps.records.map Record.bare <+: s.decls.records ∧
      s.params = ps.records.map Record.bare ∧ ps.names.Nodup
  | .var _ _ | .struct _ _ _ | .data _ _ | .array _ _ => True

theorem Decl.Seated.keeps {d : Decl} (h : d.Seated c) (hext : Extends c c') (hkeeps : KeepsParams c c') :
    d.Seated c' := by
  cases d with
  | function site head params body =>
    obtain ⟨scope, ty, result, ps, s, hscope, hty, hget, hs, hstart, hparams, hnodup⟩ := h
    obtain ⟨s', hs', hbecomes⟩ := hext.scopes hs
    obtain ⟨s'', hs'', hsame⟩ := hkeeps.scopes hs
    obtain rfl : s'' = s' := Option.some.inj (hs''.symm.trans hs')
    exact ⟨scope, ty, result, ps, s'', hscope, hty, hkeeps.types hget, hs', hstart.trans hbecomes.decls,
      hsame.trans hparams, hnodup⟩
  | var | struct | data | array => trivial

theorem FunctionHead.enter_seated {f : FunctionHead} {scope : ScopeId} (hc : Shaped c) (ha : Arranged c)
    (h : f.enter root c = .ok scope c') (site : Site) (params : List (Option Decl)) (body : List Stmt) :
    Arranged c' ∧ KeepsParams c c' ∧
      (Decl.function site { f with env := some scope } params body).Seated c' := by
  obtain ⟨ty, result, ps, hty, hget, rfl, hdeclared⟩ := FunctionHead.enter_eq_ok h
  have hopen : Arranged (c.openFunction root result).2 := ha.addScope rfl rfl (Nat.le_succ _)
  have hkeeps : KeepsParams c (c.openFunction root result).2 := keepsParams_addScope c _ _
  -- the new scope has the parameters and nothing else
  obtain ⟨ha', htypes, hother, s', hs', hrecords, hnodup⟩ :=
    hdeclared.arranged (List.getElem?_concat_length ..) (by nofun) hopen
  have hrecords : s'.decls.records = ps.records.map Record.bare := hrecords
  have hnames : s'.decls.names.Nodup := hnodup List.nodup_nil
  have hkinds : ∀ r ∈ ps.records, r.kind = .param := fun r hr => (hc.types hget r hr).1
  refine ⟨ha', ⟨?_, ?_⟩, ?_⟩
  · intro id res table hfun
    rw [htypes]
    exact hfun
  · intro e s hs
    have hlt : e < c.scopes.length := (List.getElem?_eq_some_iff.mp hs).1
    obtain ⟨s₁, hs₁, hparams⟩ := hkeeps.scopes hs
    exact ⟨s₁, (hother e (Nat.ne_of_lt hlt)).trans hs₁, hparams⟩
  · refine ⟨c.scopes.length, ty, result, ps, s', rfl, hty, ?_, hs', ?_, ?_, ?_⟩
    · rw [htypes]
      exact hget
    · exact hrecords.symm ▸ List.prefix_refl _
    · unfold Scope.params
      rw [hrecords, List.filter_eq_self]
      intro r hr
      obtain ⟨p, hp, rfl⟩ := List.mem_map.mp hr
      change p.kind.has .param = true
      rw [hkinds p hp]
      decide
    · simpa [Table.names, hrecords, List.map_map, Function.comp_def, Record.bare] using hnames

/-- After the check of a program every function is seated. -/
theorem Decl.Checked.seated {ds ds' : List Decl} (h : Decl.Checked root c ds c' ds') (hc : Shaped c)
    (ha : Arranged c) (hparts : ∀ d ∈ ds, d.PartsWellFormed) :
    Arranged c' ∧ KeepsParams c c' ∧ ∀ d ∈ ds', d.Seated c' := by
  induction h with
  | nil => exact ⟨ha, .refl _, by nofun⟩
  | var _ ih | array _ ih | data _ ih =>
    obtain ⟨ha', hkeeps, hseated⟩ := ih hc ha (List.forall_mem_cons.mp hparts).2
    exact ⟨ha', hkeeps, List.forall_mem_cons.mpr ⟨trivial, hseated⟩⟩
  | @struct c c₁ c₂ c' site head fields fields' ty ds ds' hty hfields hlayout hrest ih =>
    obtain ⟨hisField, hparts⟩ := List.forall_mem_cons.mp hparts
    have hisField : ∀ d ∈ DeclList.inOrder fields, d.isField = true :=
      DeclList.forall_mem_inOrder.mpr hisField
    have hhomed : Homed c root := fun h => absurd rfl h
    have hfits : ∀ d ∈ DeclList.inOrder fields, d.Fits root (.fields ty) :=
      fun d hd => Decl.fits_of_isField (hisField d hd) ty
    have hsteps := hfields.leafSteps hc hfits
      (fun d hd => Decl.isSimple_of_isField (hisField d hd)) hhomed
    have hc₂ := (hfields.shaped hc hfits hhomed).layOutFields hlayout
    -- fields go into the type of the struct, where no parameter is
    have hkeeps₁ := hsteps.keepsParams ha (by nofun)
    obtain ⟨t, ht, rfl⟩ := layOutFields_eq_ok hlayout
    obtain ⟨ha₂, hkeeps₂⟩ := (hsteps.arranged ha).setFields ht (t.layOut (UInt32.ofNat wordSize))
    obtain ⟨ha', hkeeps, hseated⟩ := ih hc₂ ha₂ hparts
    exact ⟨ha', (hkeeps₁.trans hkeeps₂).trans hkeeps, List.forall_mem_cons.mpr ⟨trivial, hseated⟩⟩
  | @function c c₁ c₂ c' site head params body body' scope ds ds' henter hbody hrest ih =>
    obtain ⟨-, hparts⟩ := List.forall_mem_cons.mp hparts
    obtain ⟨hc₁, hin⟩ := FunctionHead.enter_ready hc henter
    obtain ⟨ha₁, hkeeps₁, hseated₁⟩ := FunctionHead.enter_seated hc ha henter site params body'
    have hc₂ := (hbody.ready hc₁ hin (.refl c₂) fun _ _ _ _ => trivial).1
    obtain ⟨ha₂, hkeeps₂⟩ := hbody.arranged hc₁ hin ha₁
    obtain ⟨ha', hkeeps, hseated⟩ := ih hc₂ ha₂ hparts
    refine ⟨ha', (hkeeps₁.trans hkeeps₂).trans hkeeps, List.forall_mem_cons.mpr ⟨?_, hseated⟩⟩
    -- the function keeps its seat while its body and the rest are checked
    exact hseated₁.keeps (hbody.extends.trans hrest.extends) (hkeeps₂.trans hkeeps)

namespace Frame

/-- The blocks of a function hold no parameters. -/
theorem stored_block (ha : Arranged c) {n : Nat} {e k : ScopeId} {s : Scope}
    (hs : c.scopes[e]? = some s) (hblock : s.kind = .block) (hk : k ∈ blockTree c.scopes n e) :
    ∀ x ∈ stored c k, x.2.kind.has .param = false := by
  induction n generalizing e s with
  | zero => cases hk
  | succ n ih =>
    rw [blockTree, hs] at hk
    obtain rfl | hk := List.mem_cons.mp hk
    · intro x hx
      obtain ⟨r, hr, rfl⟩ := List.mem_map.mp hx
      rw [scope_eq hs] at hr
      exact ha.blocks hs hblock r (List.mem_filter.mp hr).1
    · obtain ⟨child, hchild, hk⟩ := List.mem_flatMap.mp hk
      obtain ⟨s', hs', hkind⟩ := ha.children hs child hchild
      exact ih hs' hkind hk

/-- A function's parameters are what its blocks store first, and there are no others. -/
theorem stored_params (ha : Arranged c) {s : Scope} {ps : List Record} (hs : c.scopes[env]? = some s)
    (hstart : ps <+: s.decls.records) (hparams : s.params = ps)
    (hps : ∀ r ∈ ps, r.kind = .param ∧ c.types.isConst r.ty = false) :
    ∃ others, (blockTree c.scopes (c.scopes.length + 1) env).flatMap (stored c) =
        ps.map (fun r => (env, r)) ++ others ∧ ∀ x ∈ others, x.2.kind.has .param = false := by
  obtain ⟨rs, hrecords⟩ := hstart
  have hstored : ∀ r ∈ ps, (r.kind.isStored && !c.types.isConst r.ty &&
      r.kind.meets (Kind.union .param .localVar)) = true := by
    intro r hr
    rw [(hps r hr).1, (hps r hr).2]
    decide
  -- all parameters of the scope stand at its front, so none is among the rest
  have hrs : ∀ r ∈ rs, r.kind.has .param = false := by
    have hkind : ∀ r ∈ ps, r.kind.has .param = true := by
      intro r hr
      rw [(hps r hr).1]
      decide
    unfold Scope.params at hparams
    rw [← hrecords, List.filter_append, List.filter_eq_self.mpr hkind] at hparams
    have hnil := List.append_right_eq_self.mp hparams
    intro r hr
    simpa using List.filter_eq_nil_iff.mp hnil r hr
  refine ⟨(rs.filter fun r => r.kind.isStored && !c.types.isConst r.ty &&
        r.kind.meets (Kind.union .param .localVar)).map (fun r => (env, r)) ++
      (s.children.flatMap (blockTree c.scopes c.scopes.length)).flatMap (stored c), ?_, ?_⟩
  · rw [blockTree, hs, List.flatMap_cons, stored, scope_eq hs, ← hrecords, List.filter_append,
      List.filter_eq_self.mpr hstored, List.map_append, List.append_assoc, Option.getD_some]
  · intro x hx
    obtain hx | hx := List.mem_append.mp hx
    · obtain ⟨r, hr, rfl⟩ := List.mem_map.mp hx
      exact hrs r (List.mem_filter.mp hr).1
    · obtain ⟨k, hk, hx⟩ := List.mem_flatMap.mp hx
      obtain ⟨child, hchild, hk⟩ := List.mem_flatMap.mp hk
      -- the scopes inside are blocks, and blocks declare no parameters
      obtain ⟨s', hs', hblock⟩ := ha.children hs child hchild
      exact stored_block ha hs' hblock hk x hx

theorem layout_params (ha : Arranged c) {s : Scope} {ps : List Record} (hs : c.scopes[env]? = some s)
    (hstart : ps <+: s.decls.records) (hparams : s.params = ps)
    (hps : ∀ r ∈ ps, r.kind = .param ∧ c.types.isConst r.ty = false) :
    ∃ rest, (layout c env).slots = ps.mapIdx (paramSlot env) ++ rest ∧
      rest.filter Slot.isParam = [] := by
  obtain ⟨others, hstored, hothers⟩ := stored_params ha hs hstart hparams hps
  refine ⟨place (0 + ps.length) 0 others, ?_, filter_place_locals hothers _ _⟩
  have hkind : ∀ r ∈ ps, r.kind.has .param = true := by
    intro r hr
    rw [(hps r hr).1]
    decide
  unfold layout
  rw [hstored, place_append_params hkind]
  simp only [Nat.zero_add]

end Frame

end UnitCompiler
