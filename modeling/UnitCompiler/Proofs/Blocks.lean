import UnitCompiler.Proofs.Extension
import UnitCompiler.Proofs.Lists

namespace UnitCompiler

namespace Context

/-- The scope is the scope of the function `func` or a block in it. -/
inductive Inside (c : Context) (func : ScopeId) : ScopeId → Prop
  | here {s : Scope} (hs : c.scopes[func]? = some s) (hkind : s.kind = .function)
      (hparent : s.parent = some root) (hne : func ≠ root) : Inside c func func
  | block {parent env : ScopeId} {p s : Scope} (h : Inside c func parent)
      (hp : c.scopes[parent]? = some p) (hs : c.scopes[env]? = some s) (hkind : s.kind = .block)
      (hparent : s.parent = some parent) (hchild : env ∈ p.children) (hlt : parent < env) :
      Inside c func env

def Rooted (c : Context) : Prop :=
  ∃ s, c.scopes[root]? = some s ∧ s.parent = none

theorem rooted_initial : Rooted .initial := ⟨.unit, rfl, rfl⟩

theorem Rooted.extends {c c' : Context} (hc : Rooted c) (h : Extends c c') : Rooted c' := by
  obtain ⟨s, hs, hparent⟩ := hc
  obtain ⟨s', hs', hss'⟩ := h.scopes hs
  exact ⟨s', hs', hss'.parent.trans hparent⟩

variable {c c' : Context} {func env : ScopeId}

theorem Inside.extends (hin : Inside c func env) (h : Extends c c') : Inside c' func env := by
  induction hin with
  | here hs hkind hparent hne =>
    obtain ⟨s', hs', hss'⟩ := h.scopes hs
    exact .here hs' (hss'.kind.trans hkind) (hss'.parent.trans hparent) hne
  | block _ hp hs hkind hparent hchild hlt ih =>
    obtain ⟨p', hp', hpp'⟩ := h.scopes hp
    obtain ⟨s', hs', hss'⟩ := h.scopes hs
    exact .block ih hp' hs' (hss'.kind.trans hkind) (hss'.parent.trans hparent)
      (hpp'.children.subset hchild) hlt

theorem Inside.ne_root (hin : Inside c func env) : env ≠ root := by
  cases hin with
  | here _ _ _ hne => exact hne
  | block _ _ _ _ _ _ hlt =>
    intro h
    rw [h] at hlt
    exact Nat.not_lt_zero _ hlt

theorem Inside.lt_length (hin : Inside c func env) : env < c.scopes.length := by
  cases hin with
  | here hs => exact (List.getElem?_eq_some_iff.mp hs).1
  | block _ _ hs => exact (List.getElem?_eq_some_iff.mp hs).1

theorem inside_openFunction (hc : Rooted c) (result : TypeId) :
    Inside (c.openFunction root result).2 (c.openFunction root result).1
      (c.openFunction root result).1 := by
  obtain ⟨s, hs, -⟩ := hc
  have hlt : root < c.scopes.length := (List.getElem?_eq_some_iff.mp hs).1
  refine .here (List.getElem?_concat_length ..) rfl rfl ?_
  exact Nat.ne_of_gt hlt

theorem exists_openBlock_scope (hlt : env < c.scopes.length) :
    ∃ s, (c.openBlock env).2.scopes[c.scopes.length]? = some s ∧ s.kind = .block ∧ s.parent = some env := by
  unfold openBlock
  rw [getElem?_modifyScope, List.getElem?_concat_length]
  simp [Nat.ne_of_lt hlt]

theorem inside_openBlock (hin : Inside c func env) :
    Inside (c.openBlock env).2 func (c.openBlock env).1 := by
  have hlt := hin.lt_length
  obtain ⟨p, hp⟩ : ∃ p, c.scopes[env]? = some p := ⟨_, List.getElem?_eq_getElem hlt⟩
  have hp' : (c.openBlock env).2.scopes[env]? =
      some { p with children := p.children ++ [c.scopes.length] } := by
    unfold openBlock
    simp [List.getElem?_append_left hlt, hp]
  obtain ⟨s, hs, hkind, hparent⟩ := exists_openBlock_scope hlt
  exact .block (hin.extends (extends_openBlock c env)) hp' hs hkind hparent (by simp [openBlock]) hlt

/-- Nothing is around a function but the unit. -/
theorem mem_outward_inside (hc : Rooted c) {fuel : Nat} {e : ScopeId} (hin : Inside c func env)
    (he : e ∈ outward c.scopes fuel env) : e = root ∨ Inside c func e := by
  induction fuel generalizing env with
  | zero => cases he
  | succ fuel ih =>
    rw [outward] at he
    obtain rfl | he := List.mem_cons.mp he
    · exact Or.inr hin
    · cases hin with
      | here hs _ hparent _ =>
        left
        rw [hs, Option.bind_some, hparent] at he
        obtain ⟨s, hs, hnone⟩ := hc
        cases fuel with
        | zero => cases he
        | succ fuel => simpa [outward, hs, hnone] using he
      | block hin _ hs _ hparent _ _ =>
        rw [hs, Option.bind_some, hparent] at he
        exact ih hin he

theorem mem_enclosing_root (hc : Rooted c) {e : ScopeId} (he : e ∈ c.enclosing root) : e = root := by
  obtain ⟨s, hs, hnone⟩ := hc
  unfold enclosing at he
  cases hn : c.scopes.length with
  | zero => rw [hn] at he; cases he
  | succ n =>
    rw [hn] at he
    simpa [outward, hs, hnone] using he

inductive Within (c : Context) (func : ScopeId) : ScopeId → Prop
  | here {s : Scope} (hs : c.scopes[func]? = some s) (hkind : s.kind = .function) : Within c func func
  | block {parent env : ScopeId} {s : Scope} (h : Within c func parent) (hs : c.scopes[env]? = some s)
      (hkind : s.kind = .block) (hparent : s.parent = some parent) (hlt : parent < env) :
      Within c func env

theorem Inside.within (hin : Inside c func env) : Within c func env := by
  induction hin with
  | here hs hkind _ _ => exact .here hs hkind
  | block _ _ hs hkind hparent _ hlt ih => exact .block ih hs hkind hparent hlt

theorem Within.extends (hin : Within c func env) (h : Extends c c') : Within c' func env := by
  induction hin with
  | here hs hkind =>
    obtain ⟨s', hs', hss'⟩ := h.scopes hs
    exact .here hs' (hss'.kind.trans hkind)
  | block _ hs hkind hparent hlt ih =>
    obtain ⟨s', hs', hss'⟩ := h.scopes hs
    exact .block ih hs' (hss'.kind.trans hkind) (hss'.parent.trans hparent) hlt

theorem Within.lt_length (hin : Within c func env) : env < c.scopes.length := by
  cases hin with
  | here hs => exact (List.getElem?_eq_some_iff.mp hs).1
  | block _ hs => exact (List.getElem?_eq_some_iff.mp hs).1

theorem Within.le (hin : Within c func env) : func ≤ env := by
  induction hin with
  | here => exact Nat.le_refl _
  | block _ _ _ _ hlt ih => exact Nat.le_of_lt (Nat.lt_of_le_of_lt ih hlt)

theorem within_openFunction (c : Context) (parent : ScopeId) (result : TypeId) :
    Within (c.openFunction parent result).2 c.scopes.length c.scopes.length :=
  .here (List.getElem?_concat_length ..) rfl

theorem within_openBlock (hin : Within c func env) : Within (c.openBlock env).2 func (c.openBlock env).1 := by
  obtain ⟨s, hs, hkind, hparent⟩ := exists_openBlock_scope hin.lt_length
  exact .block (hin.extends (extends_openBlock c env)) hs hkind hparent hin.lt_length

theorem find?_outward (hin : Within c func env) {fuel : Nat} (hfuel : env < fuel) :
    (outward c.scopes fuel env).find? (fun e => (c.scope e).kind != .block) = some func := by
  induction hin generalizing fuel with
  | here hs hkind =>
    obtain ⟨n, rfl⟩ := Nat.exists_eq_add_of_lt hfuel
    rw [outward, List.find?_cons_of_pos]
    rw [scope_eq hs, hkind]
    rfl
  | @block parent env s hin hs hkind hparent hlt ih =>
    cases fuel with
    | zero => exact absurd hfuel (Nat.not_lt_zero _)
    | succ fuel =>
      rw [outward, List.find?_cons_of_neg, hs, Option.bind_some, hparent]
      · -- a parent is older than its block, so less fuel will do
        exact ih (Nat.lt_of_lt_of_le hlt (Nat.le_of_lt_succ hfuel))
      · rw [scope_eq hs, hkind]
        decide

theorem Within.functionOf (hin : Within c func env) : c.functionOf env = func := by
  unfold Context.functionOf enclosing
  rw [find?_outward hin hin.lt_length]
  rfl

theorem functionOf_eq (hin : Inside c func env) : c.functionOf env = func :=
  hin.within.functionOf

/-- A lookup answers with a record of a scope on the way outward. -/
theorem lookup_eq_some {name : String} {owner : ScopeId} {r : Record}
    (h : c.lookup env name = some (owner, r)) :
    owner ∈ c.enclosing env ∧ (c.scope owner).decls.get? name = some r := by
  unfold lookup at h
  obtain ⟨e, he, hr⟩ := List.exists_of_findSome?_eq_some h
  obtain ⟨r', hr', heq⟩ := Option.map_eq_some_iff.mp hr
  cases heq
  exact ⟨he, hr'⟩

/-- A scope finds its own declarations first. -/
theorem lookup_own {name : String} {r : Record} {s : Scope} (hs : c.scopes[env]? = some s)
    (h : s.decls.get? name = some r) : c.lookup env name = some (env, r) := by
  have hlt : env < c.scopes.length := (List.getElem?_eq_some_iff.mp hs).1
  unfold lookup enclosing
  obtain ⟨n, hn⟩ := Nat.exists_eq_succ_of_ne_zero (Nat.ne_of_gt (Nat.zero_lt_of_lt hlt))
  rw [hn, outward, List.findSome?_cons, scope_eq hs, h]
  rfl

end Context

open Context

def Record.unplaced (r : Record) : Record :=
  { r with offset := none }

/-- Nothing but offsets changes when a table is laid out. -/
theorem Table.map_layOut {α : Type} {f : Record → α} (hf : ∀ r offset, f { r with offset := offset } = f r) (t : Table)
    (word : UInt32) : (t.layOut word).records.map f = t.records.map f := by
  apply List.ext_getElem?
  intro i
  simp only [layOut, List.getElem?_map, List.getElem?_mapIdx]
  cases t.records[i]? with
  | none => rfl
  | some r => exact congrArg some (hf r _)

theorem Table.get?_of_nodup {t : Table} {r : Record} (h : t.names.Nodup) (hr : r ∈ t.records) :
    t.get? r.name = some r := by
  have hfind := find?_unique (p := fun x => x.name == r.name) hr (beq_self_eq_true _)
    (fun x hx hname => List.inj_on_of_nodup_map h hx hr (eq_of_beq hname)) []
  rw [List.append_nil] at hfind
  exact hfind

/-- A record under a new name keeps the names distinct. -/
theorem Table.nodup_concat {t : Table} {r : Record} (h : t.names.Nodup) (hnew : t.contains r.name = false) :
    (⟨t.records ++ [r]⟩ : Table).names.Nodup := by
  unfold Table.names
  rw [List.map_append, List.map_singleton, List.nodup_append_comm, List.singleton_append, List.nodup_cons]
  refine ⟨?_, h⟩
  intro hmem
  obtain ⟨x, hx, heq⟩ := List.mem_map.mp hmem
  have hcontains : t.contains r.name = true := List.any_eq_true.mpr ⟨x, hx, by simp [heq]⟩
  rw [hnew] at hcontains
  cases hcontains

theorem Table.get?_concat {t : Table} {r : Record} (h : t.contains r.name = false) :
    (⟨t.records ++ [r]⟩ : Table).get? r.name = some r := by
  have hnone : t.records.find? (fun x => x.name == r.name) = none := by
    rw [List.find?_eq_none]
    exact List.any_eq_false.mp h
  unfold Table.get?
  rw [List.find?_append, hnone]
  simp

theorem Table.mem_of_get? {t : Table} {name : String} {r : Record} (h : t.get? name = some r) :
    r ∈ t.records ∧ r.name = name :=
  ⟨List.mem_of_find?_eq_some h, by simpa using List.find?_some h⟩

theorem Table.get?_of_prefix {t t' : Table} {name : String} {r : Record}
    (hp : t.records <+: t'.records) (h : t.get? name = some r) : t'.get? name = some r := by
  obtain ⟨rest, hrest⟩ := hp
  unfold Table.get? at h ⊢
  rw [← hrest, List.find?_append, h]
  rfl

namespace Frame

theorem mem_blockTree_child {scopes : List Scope} {n : Nat} {env p e : ScopeId} {s : Scope}
    (hp : p ∈ blockTree scopes n env) (hs : scopes[p]? = some s) (he : e ∈ s.children) :
    e ∈ blockTree scopes (n + 1) env := by
  induction n generalizing env with
  | zero => cases hp
  | succ n ih =>
    rw [blockTree] at hp
    rw [blockTree]
    obtain rfl | hp := List.mem_cons.mp hp
    · apply List.mem_cons_of_mem
      rw [hs]
      exact List.mem_flatMap.mpr ⟨e, he, List.mem_cons_self⟩
    · obtain ⟨k, hk, hp⟩ := List.mem_flatMap.mp hp
      exact List.mem_cons_of_mem _ (List.mem_flatMap.mpr ⟨k, hk, ih hp⟩)

theorem blockTree_mono {scopes : List Scope} {n m : Nat} {env e : ScopeId} (hnm : n ≤ m)
    (he : e ∈ blockTree scopes n env) : e ∈ blockTree scopes m env := by
  induction n generalizing m env with
  | zero => cases he
  | succ n ih =>
    obtain ⟨m, rfl⟩ : ∃ k, m = k + 1 := ⟨m - 1, by omega⟩
    rw [blockTree] at he ⊢
    obtain rfl | he := List.mem_cons.mp he
    · exact List.mem_cons_self
    · obtain ⟨k, hk, he⟩ := List.mem_flatMap.mp he
      exact List.mem_cons_of_mem _ (List.mem_flatMap.mpr ⟨k, hk, ih (by omega) he⟩)

/-- The tree of a function holds all its blocks: each is at most as deep as it is young. -/
theorem mem_blockTree {c : Context} {func env : ScopeId} (hin : Inside c func env) :
    func ≤ env ∧ env ∈ blockTree c.scopes (env - func + 1) func := by
  induction hin with
  | here => exact ⟨Nat.le_refl _, List.mem_cons_self⟩
  | block _ hp _ _ _ hchild hlt ih =>
    obtain ⟨hle, hmem⟩ := ih
    -- one level deeper and younger by one or more, so the fuel is still enough
    have hmem' := mem_blockTree_child hmem hp hchild
    simp only [ScopeId] at *
    exact ⟨by omega, blockTree_mono (by omega) hmem'⟩

theorem exists_mem_place {env : ScopeId} {r : Record} {l : List (ScopeId × Record)}
    (h : (env, r) ∈ l) (params locals : Nat) :
    ∃ s ∈ place params locals l, s.env = env ∧ s.name = r.name := by
  induction l generalizing params locals with
  | nil => cases h
  | cons head rest ih =>
    rw [place]
    obtain rfl | h := List.mem_cons.mp h
    · split <;> exact ⟨_, List.mem_cons_self, rfl, rfl⟩
    · split
      · obtain ⟨s, hs, hse⟩ := ih h (params + 1) locals
        exact ⟨s, List.mem_cons_of_mem _ hs, hse⟩
      · obtain ⟨s, hs, hse⟩ := ih h params (locals + 1)
        exact ⟨s, List.mem_cons_of_mem _ hs, hse⟩

/-- Every variable of a function has a slot in its frame. -/
theorem offset?_isSome {c : Context} {func env : ScopeId} {r : Record} {s : Scope}
    (hin : Inside c func env) (hs : c.scopes[env]? = some s) (hr : r ∈ s.decls.records)
    (hstored : r.kind.isStored = true) (hconst : c.types.isConst r.ty = false)
    (hkind : r.kind.meets (Kind.union .param .localVar) = true) :
    ((layout c func).offset? env r.name).isSome := by
  have hmem : (env, r) ∈ stored c env := by
    unfold stored
    rw [scope_eq hs]
    exact List.mem_map.mpr ⟨r, List.mem_filter.mpr ⟨hr, by simp [hstored, hconst, hkind]⟩, rfl⟩
  have htree : env ∈ blockTree c.scopes (c.scopes.length + 1) func := by
    obtain ⟨hle, h⟩ := mem_blockTree hin
    have hlt := hin.lt_length
    simp only [ScopeId] at *
    exact blockTree_mono (by omega) h
  obtain ⟨slot, hslot, henv, hname⟩ :=
    exists_mem_place (List.mem_flatMap.mpr ⟨env, htree, hmem⟩) 0 0
  unfold offset?
  rw [Option.isSome_map, List.find?_isSome]
  exact ⟨slot, hslot, by simp [henv, hname]⟩

end Frame

end UnitCompiler
