import UnitCompiler.Decl.Check
import UnitCompiler.Proofs.Lists
import Mathlib.Data.List.Nodup
import Mathlib.Logic.Relation

namespace UnitCompiler.Context

/-- Nothing but the label counter differs, and that has not gone back. -/
structure Relabels (c c' : Context) : Prop where
  types : c'.types = c.types
  scopes : c'.scopes = c.scopes
  labels : c.labels ≤ c'.labels

theorem Relabels.refl (c : Context) : Relabels c c := ⟨rfl, rfl, Nat.le_refl _⟩

theorem Relabels.trans {c₁ c₂ c₃ : Context} (h : Relabels c₁ c₂) (h' : Relabels c₂ c₃) :
    Relabels c₁ c₃ :=
  ⟨h'.types.trans h.types, h'.scopes.trans h.scopes, Nat.le_trans h.labels h'.labels⟩

theorem Relabels.eq {c c' : Context} (h : Relabels c c') : c' = { c with labels := c'.labels } := by
  cases c'
  obtain ⟨rfl, rfl, -⟩ := h
  rfl

theorem relabels_freshLabel (c : Context) : Relabels c c.freshLabel.2 :=
  ⟨rfl, rfl, Nat.le_succ _⟩

/-- One change that registration makes. Only tables that `free` holds of are inserted into, and no
type below `floor` is given back. -/
inductive RegisterStep (free : Target → Prop) (floor : Nat) : Context → Context → Prop
  | label (c : Context) : RegisterStep free floor c c.freshLabel.2
  | addType (c : Context) (env : ScopeId) (t : Ty) : RegisterStep free floor c (c.addType env t).2
  | insert {c c' : Context} {target : Target} {r : Record} {what : String} {i : Nat}
      (hfree : free target) (h : c.insert target r what = .ok (i, c')) :
      RegisterStep free floor c c'
  | release (c : Context) {mark : Nat} (h : floor ≤ mark) :
      RegisterStep free floor c (c.release mark)

abbrev RegisterSteps (free : Target → Prop) (floor : Nat) : Context → Context → Prop :=
  Relation.ReflTransGen (RegisterStep free floor)

/-- One change that a check makes; the fields of structs are registered then, and scopes are opened under
scopes that are there. -/
inductive CheckStep : Context → Context → Prop
  | register {c c' : Context} (h : RegisterStep (fun _ => True) 0 c c') : CheckStep c c'
  | openFunction {c : Context} {parent : ScopeId} (h : parent < c.scopes.length) (result : TypeId) :
      CheckStep c (c.openFunction parent result).2
  | openBlock {c : Context} {parent : ScopeId} (h : parent < c.scopes.length) :
      CheckStep c (c.openBlock parent).2
  | modifyLabel (c : Context) (env : ScopeId) (name : String) (f : JumpLabel → JumpLabel) :
      CheckStep c (c.modifyLabel env name f)
  | layOut {c c' : Context} {ty : TypeId} {word : UInt32} (h : c.layOutFields ty word = .ok c') :
      CheckStep c c'

abbrev CheckSteps : Context → Context → Prop := Relation.ReflTransGen CheckStep

/-- Labels are handed out one at a time. -/
theorem Relabels.checkSteps {c c' : Context} (h : Relabels c c') : CheckSteps c c' := by
  have hcount : ∀ n, CheckSteps c { c with labels := c.labels + n } := by
    intro n
    induction n with
    | zero => exact .refl
    | succ n ih => exact ih.tail (.register (.label _))
  rw [h.eq, ← Nat.add_sub_cancel' h.labels]
  exact hcount _

theorem RegisterSteps.checkSteps {c c' : Context}
    (h : RegisterSteps (fun _ => True) 0 c c') : CheckSteps c c' :=
  Relation.ReflTransGen.mono (fun _ _ h => CheckStep.register h) _ _ h

theorem insert_eq_ok {c c' : Context} {target : Target} {r : Record} {what : String} {i : Nat}
    (h : c.insert target r what = .ok (i, c')) :
    ∃ t, c.table? target = some t ∧ t.contains r.name = false ∧
      c' = c.setTable target ⟨t.records ++ [r]⟩ := by
  unfold insert at h
  cases ht : c.table? target with
  | none => simp [ht] at h
  | some t =>
    simp only [ht] at h
    unfold Table.insert at h
    split at h
    · rename_i hins
      split at hins
      · cases hins
      · rename_i hc
        cases hins
        cases h
        exact ⟨t, rfl, by simpa using hc, rfl⟩
    · cases h

section Parts

variable (c : Context) (env : ScopeId) (f : Scope → Scope)

@[simp] theorem types_modifyScope : (c.modifyScope env f).types = c.types := rfl

@[simp] theorem length_modifyScope : (c.modifyScope env f).scopes.length = c.scopes.length :=
  List.length_modify ..

@[simp] theorem getElem?_modifyScope (e : ScopeId) :
    (c.modifyScope env f).scopes[e]? = c.scopes[e]?.map fun s => if env = e then f s else s :=
  List.getElem?_modify ..

/-- A change of a scope that is not there changes nothing. -/
@[simp] theorem scope_modifyScope (e : ScopeId) :
    (c.modifyScope env f).scope e = if env = e ∧ e < c.scopes.length then f (c.scope e) else c.scope e := by
  unfold scope
  rw [getElem?_modifyScope]
  cases hs : c.scopes[e]? with
  | none => simp [Nat.not_lt.mpr (List.getElem?_eq_none_iff.mp hs)]
  | some s => simp [(List.getElem?_eq_some_iff.mp hs).1]

/-- A view of a scope that a change leaves alone is the same afterwards in every scope. -/
theorem view_modifyScope {α : Type} (view : Scope → α) (e : ScopeId) {f : Scope → Scope}
    (hf : ∀ s, view (f s) = view s) : view ((c.modifyScope env f).scope e) = view (c.scope e) := by
  rw [scope_modifyScope]
  split
  · exact hf _
  · rfl

@[simp] theorem types_freshLabel : c.freshLabel.2.types = c.types := rfl

@[simp] theorem length_addType (t : Ty) : (c.addType env t).2.scopes.length = c.scopes.length :=
  List.length_modify ..

@[simp] theorem getElem?_addType (t : Ty) (e : ScopeId) :
    (c.addType env t).2.scopes[e]? =
      c.scopes[e]?.map fun s => if env = e then { s with types := s.types ++ [c.types.size] } else s :=
  List.getElem?_modify ..

@[simp] theorem decls_addType (t : Ty) (e : ScopeId) : ((c.addType env t).2.scope e).decls = (c.scope e).decls :=
  view_modifyScope { c with types := (c.types.add t).2 } env Scope.decls e fun _ => rfl

@[simp] theorem children_addType (t : Ty) (e : ScopeId) :
    ((c.addType env t).2.scope e).children = (c.scope e).children :=
  view_modifyScope { c with types := (c.types.add t).2 } env Scope.children e fun _ => rfl

@[simp] theorem size_addType (t : Ty) : (c.addType env t).2.types.size = c.types.size + 1 := by
  simp [addType, modifyScope, Arena.add, Arena.size]

@[simp] theorem size_release (mark : Nat) :
    (c.release mark).types.size = min (max mark Arena.builtin.length) c.types.size := by
  simp [release, Arena.truncate, Arena.size]

@[simp] theorem setTable_scope (t : Table) :
    c.setTable (.scope env) t = c.modifyScope env fun s => { s with decls := t } := rfl

@[simp] theorem setTable_types_size (target : Target) (t : Table) :
    (c.setTable target t).types.size = c.types.size := by
  unfold setTable
  split
  · rfl
  all_goals
    split
    · simp [Arena.set, Arena.size]
    · rfl

@[simp] theorem setTable_fields_scopes (ty : TypeId) (t : Table) :
    (c.setTable (.fields ty) t).scopes = c.scopes := by
  simp only [setTable]
  split <;> rfl

@[simp] theorem setTable_params_scopes (ty : TypeId) (t : Table) :
    (c.setTable (.params ty) t).scopes = c.scopes := by
  simp only [setTable]
  split <;> rfl

@[simp] theorem scope_setTable_fields (ty : TypeId) (t : Table) (e : ScopeId) :
    (c.setTable (.fields ty) t).scope e = c.scope e := by
  simp [scope]

@[simp] theorem scope_setTable_params (ty : TypeId) (t : Table) (e : ScopeId) :
    (c.setTable (.params ty) t).scope e = c.scope e := by
  simp [scope]

@[simp] theorem setTable_scopes_length (target : Target) (t : Table) :
    (c.setTable target t).scopes.length = c.scopes.length := by
  cases target <;> simp

end Parts

theorem getElem?_modifyScope_eq_some {c : Context} {env e : ScopeId} {f : Scope → Scope} {s : Scope} :
    (c.modifyScope env f).scopes[e]? = some s ↔
      ∃ s₀, c.scopes[e]? = some s₀ ∧ (if env = e then f s₀ else s₀) = s := by
  simp

theorem RegisterStep.floor_le {free : Target → Prop} {floor : Nat} {c c' : Context}
    (h : RegisterStep free floor c c') (hc : floor ≤ c.types.size) : floor ≤ c'.types.size := by
  cases h with
  | label => exact hc
  | addType env t => simp only [size_addType]; omega
  | insert _ hins =>
    obtain ⟨t, -, -, rfl⟩ := insert_eq_ok hins
    rwa [setTable_types_size]
  | release hm => rw [size_release]; omega

theorem RegisterSteps.floor_le {free : Target → Prop} {floor : Nat} {c c' : Context}
    (h : RegisterSteps free floor c c') (hc : floor ≤ c.types.size) : floor ≤ c'.types.size := by
  induction h with
  | refl => exact hc
  | tail _ hstep ih => exact hstep.floor_le ih

/-- Every type that a scope lists is in the arena, behind the built-in ones. -/
structure Owned (c : Context) : Prop where
  builtin : Arena.builtin.length ≤ c.types.size
  listed : ∀ s ∈ c.scopes, ∀ id ∈ s.types, id < c.types.size

theorem owned_initial : Owned .initial := by
  refine ⟨Nat.le_refl _, ?_⟩
  intro s hs id hid
  simp only [initial, List.mem_singleton] at hs
  subst hs
  cases hid

/-- A change that leaves the lists of types alone, and does not shorten the arena. -/
theorem Owned.of_types {c c' : Context} (hc : Owned c) (hsize : c.types.size ≤ c'.types.size)
    (hscopes : ∀ s ∈ c'.scopes, s.types = [] ∨ ∃ s₀ ∈ c.scopes, s.types = s₀.types) : Owned c' := by
  refine ⟨Nat.le_trans hc.builtin hsize, ?_⟩
  intro s hs id hid
  obtain h | ⟨s₀, hs₀, h⟩ := hscopes s hs
  · rw [h] at hid
    cases hid
  · exact Nat.lt_of_lt_of_le (hc.listed s₀ hs₀ id (h ▸ hid)) hsize

theorem Owned.modifyScope {c : Context} (hc : Owned c) (env : ScopeId) (f : Scope → Scope)
    (hf : ∀ s, (f s).types = s.types) : Owned (c.modifyScope env f) := by
  refine hc.of_types (Nat.le_refl _) ?_
  intro s hs
  obtain h | ⟨s₀, h, rfl⟩ := mem_modify hs
  · exact Or.inr ⟨s, h, rfl⟩
  · exact Or.inr ⟨s₀, h, hf s₀⟩

theorem Owned.setTable {c : Context} (hc : Owned c) (target : Target) (t : Table) :
    Owned (c.setTable target t) := by
  have hsize := Nat.le_of_eq (setTable_types_size c target t).symm
  cases target with
  | scope env => exact hc.modifyScope env _ fun _ => rfl
  | fields ty =>
    refine hc.of_types hsize fun s hs => Or.inr ⟨s, ?_, rfl⟩
    rwa [setTable_fields_scopes] at hs
  | params ty =>
    refine hc.of_types hsize fun s hs => Or.inr ⟨s, ?_, rfl⟩
    rwa [setTable_params_scopes] at hs

theorem Owned.addType {c : Context} (hc : Owned c) (env : ScopeId) (t : Ty) :
    Owned (c.addType env t).2 := by
  have hsize := size_addType c env t
  refine ⟨by have := hc.builtin; omega, ?_⟩
  intro s hs id hid
  rw [hsize]
  obtain h | ⟨s₀, h, rfl⟩ := mem_modify hs
  · exact Nat.lt_succ_of_lt (hc.listed s h id hid)
  · obtain h' | h' := List.mem_append.mp hid
    · exact Nat.lt_succ_of_lt (hc.listed s₀ h id h')
    · rw [List.mem_singleton.mp h']
      exact Nat.lt_succ_self _

theorem Owned.release {c : Context} (hc : Owned c) (mark : Nat) : Owned (c.release mark) := by
  have hsize := size_release c mark
  have hb := hc.builtin
  refine ⟨by omega, ?_⟩
  intro s hs id hid
  obtain ⟨s₀, hs₀, rfl⟩ := List.mem_map.mp hs
  obtain ⟨hid₀, hlt⟩ := List.mem_filter.mp hid
  have := hc.listed s₀ hs₀ id hid₀
  simp only [Arena.isFrom, Bool.not_eq_true', decide_eq_false_iff_not] at hlt
  rw [hsize]
  exact Nat.lt_min.mpr ⟨by omega, this⟩

theorem RegisterStep.owned {free : Target → Prop} {floor : Nat} {c c' : Context}
    (h : RegisterStep free floor c c') (hc : Owned c) : Owned c' := by
  cases h with
  | label => exact hc.of_types (Nat.le_refl _) fun s hs => Or.inr ⟨s, hs, rfl⟩
  | addType env t => exact hc.addType env t
  | insert _ hins =>
    obtain ⟨t, -, -, rfl⟩ := insert_eq_ok hins
    exact hc.setTable _ _
  | release _ => exact hc.release _

theorem CheckStep.owned {c c' : Context} (h : CheckStep c c') (hc : Owned c) : Owned c' := by
  cases h with
  | register h => exact h.owned hc
  | openFunction _ result =>
    refine hc.of_types (Nat.le_refl _) fun s hs => ?_
    obtain h | h := List.mem_append.mp hs
    · exact Or.inr ⟨s, h, rfl⟩
    · exact Or.inl (by rw [List.mem_singleton.mp h])
  | openBlock =>
    -- first the empty scope is added, then its parent takes it as a child
    apply Owned.modifyScope
    · refine hc.of_types (Nat.le_refl _) fun s hs => ?_
      obtain h | h := List.mem_append.mp hs
      · exact Or.inr ⟨s, h, rfl⟩
      · exact Or.inl (by rw [List.mem_singleton.mp h])
    · exact fun _ => rfl
  | modifyLabel env name f => exact hc.modifyScope _ _ fun _ => rfl
  | layOut h =>
    unfold layOutFields at h
    split at h
    · cases h
    · cases h
      exact hc.setTable _ _

theorem RegisterStep.length_eq {free : Target → Prop} {floor : Nat} {c c' : Context}
    (h : RegisterStep free floor c c') : c'.scopes.length = c.scopes.length := by
  cases h with
  | label => rfl
  | addType env t => simp
  | insert _ hins =>
    obtain ⟨t, -, -, rfl⟩ := insert_eq_ok hins
    exact setTable_scopes_length ..
  | release => exact List.length_map ..

/-- No pass closes a scope for good. -/
theorem CheckStep.length_le {c c' : Context} (h : CheckStep c c') :
    c.scopes.length ≤ c'.scopes.length := by
  cases h with
  | register h => exact Nat.le_of_eq h.length_eq.symm
  | openFunction => simp [Context.openFunction]
  | openBlock => simp [Context.openBlock, Context.modifyScope]
  | modifyLabel => simp [Context.modifyLabel, Context.modifyScope]
  | layOut h =>
    unfold layOutFields at h
    split at h
    · cases h
    · cases h
      exact Nat.le_of_eq (setTable_scopes_length ..).symm

theorem CheckSteps.length_le {c c' : Context} (h : CheckSteps c c') :
    c.scopes.length ≤ c'.scopes.length := by
  induction h with
  | refl => exact Nat.le_refl _
  | tail _ hstep ih => exact Nat.le_trans ih hstep.length_le

theorem CheckSteps.owned {c c' : Context} (h : CheckSteps c c') (hc : Owned c) : Owned c' := by
  induction h with
  | refl => exact hc
  | tail _ hstep ih => exact hstep.owned ih

end UnitCompiler.Context
