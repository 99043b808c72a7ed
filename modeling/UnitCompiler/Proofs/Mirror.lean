import Mathlib.Data.List.Find
import Mathlib.Logic.Equiv.Defs
import Mathlib.Order.Monotone.Basic
import UnitCompiler.Proofs.Sound

namespace UnitCompiler

open Context

/-- Moves the types from `floor` on by `types` places, every scope but the outermost by `scopes`, and the numbers
of labels behind `issued` by `labels`. The types below the floor may change places, the built-in ones apart. -/
structure Shift where
  floor : Nat
  perm : Equiv.Perm TypeId
  types : Nat
  scopes : Nat
  issued : Nat
  labels : Nat
  fixed : ∀ id, id < Arena.builtin.length ∨ floor ≤ id → perm id = id

namespace Shift

def ty (l : Shift) (id : TypeId) : TypeId :=
  if id < l.floor then l.perm id else id + l.types

def env (l : Shift) (e : ScopeId) : ScopeId :=
  if e = root then root else e + l.scopes

def number (l : Shift) (k : Nat) : Nat :=
  if k ≤ l.issued then k else k + l.labels

def Moves (l : Shift) (label label' : String) : Prop :=
  ∃ k, label = Symbol.generated k ∧ label' = Symbol.generated (l.number k)

def Live (l : Shift) (own : Target → Prop) (id : TypeId) : Prop :=
  own (.fields id) ∨ l.floor ≤ id

variable {l : Shift}

theorem ty_of_lt {id : TypeId} (h : id < l.floor) : l.ty id = l.perm id := if_pos h

theorem ty_of_le {id : TypeId} (h : l.floor ≤ id) : l.ty id = id + l.types :=
  if_neg (Nat.not_lt.mpr h)

theorem perm_lt {id : TypeId} (h : id < l.floor) : l.perm id < l.floor := by
  by_contra hge
  have hfixed : l.perm (l.perm id) = l.perm id := l.fixed _ (Or.inr (Nat.le_of_not_lt hge))
  rw [l.perm.injective hfixed] at hge
  exact hge h

theorem ty_lt {id : TypeId} (h : id < l.floor) : l.ty id < l.floor := by
  rw [ty_of_lt h]
  exact perm_lt h

theorem ty_injective : Function.Injective l.ty := by
  intro x y h
  by_cases hx : x < l.floor
  · by_cases hy : y < l.floor
    · rw [ty_of_lt hx, ty_of_lt hy] at h
      exact l.perm.injective h
    · have hlt := ty_lt hx
      rw [h, ty_of_le (Nat.le_of_not_lt hy)] at hlt
      exact absurd (Nat.lt_of_le_of_lt (Nat.le_add_right _ _) hlt) hy
  · by_cases hy : y < l.floor
    · have hlt := ty_lt hy
      rw [← h, ty_of_le (Nat.le_of_not_lt hx)] at hlt
      exact absurd (Nat.lt_of_le_of_lt (Nat.le_add_right _ _) hlt) hx
    · rw [ty_of_le (Nat.le_of_not_lt hx), ty_of_le (Nat.le_of_not_lt hy)] at h
      exact Nat.add_right_cancel h

@[simp] theorem env_root : l.env root = root := if_pos rfl

theorem env_of_ne {e : ScopeId} (h : e ≠ root) : l.env e = e + l.scopes := if_neg h

theorem env_strictMono : StrictMono l.env := by
  intro p e h
  have he : e ≠ root := Nat.ne_zero_of_lt h
  rw [env_of_ne he]
  by_cases hp : p = root
  · rw [hp, env_root]
    exact Nat.lt_of_lt_of_le (Nat.pos_of_ne_zero he) (Nat.le_add_right _ _)
  · rw [env_of_ne hp]
    exact Nat.add_lt_add_right h _

theorem le_env (e : ScopeId) : e ≤ l.env e := by
  by_cases he : e = root
  · rw [he]
    exact Nat.zero_le _
  · rw [env_of_ne he]
    exact Nat.le_add_right _ _

theorem moves_issued {k : Nat} (h : k ≤ l.issued) : l.Moves (Symbol.generated k) (Symbol.generated k) :=
  ⟨k, rfl, by rw [number, if_pos h]⟩

end Shift

def Target.shift (l : Shift) : Target → Target
  | .scope env => .scope (l.env env)
  | .fields ty => .fields (l.ty ty)
  | .params ty => .params (l.ty ty)

def Value.shift (l : Shift) : Value → Value
  | .const value ty => .const value (l.ty ty)
  | .var env name ty => .var (l.env env) name (l.ty ty)
  | .new ty label => .new (l.ty ty) label
  | .converted inner source target => .converted (inner.shift l) (l.ty source) (l.ty target)

def Shift.Owned (l : Shift) (own : Target → Prop) (target : Target) : Prop :=
  ∃ t, own t ∧ t.shift l = target

@[simp] theorem Value.shift_ty (l : Shift) (v : Value) : (v.shift l).ty = l.ty v.ty := by
  cases v <;> rfl

@[simp] theorem Value.shift_fold? (l : Shift) (v : Value) : (v.shift l).fold? = v.fold? := by
  cases v <;> rfl

theorem Value.fold?_eq_some {v : Value} {value : Literal} (h : v.fold? = some value) :
    ∃ ty, v = .const value ty := by
  cases v with
  | const w ty =>
    cases h
    exact ⟨ty, rfl⟩
  | _ => cases h

theorem Value.cast_of_fold?_none {v : Value} (h : v.fold? = none) (types : Arena) (target : TypeId) :
    v.cast types target =
      if types.same v.ty target || (v.ty == TypeId.null && types.isStruct target) then .ok v
      else if types.isPrimitive v.ty && types.isPrimitive target then .ok (.converted v v.ty target)
      else .error (.cannotConvert (types.name v.ty) (types.name target)) := by
  cases v with
  | const => cases h
  | _ => rfl

/-- The same declaration of a type that moved. No check reads a default or an offset. -/
structure Record.Mirrors (l : Shift) (r r' : Record) : Prop where
  name : r'.name = r.name
  ty : r'.ty = l.ty r.ty
  kind : r'.kind = r.kind

def Table.Mirrors (l : Shift) (t t' : Table) : Prop :=
  List.Forall₂ (Record.Mirrors l) t.records t'.records

def Table.Answers (l : Shift) (t t' : Table) : Prop :=
  ∀ name, Option.Rel (Record.Mirrors l) (t.get? name) (t'.get? name)

/-- The same type after a move. The fields of a struct are compared only where `live` holds. -/
inductive Ty.Mirrors (l : Shift) (live : Prop) : Ty → Ty → Prop
  | int : Mirrors l live .int .int
  | float : Mirrors l live .float .float
  | string : Mirrors l live .string .string
  | struct {name : String} {fields fields' : Table} (h : live → fields.Mirrors l fields') :
      Mirrors l live (.struct name fields) (.struct name fields')
  | array {label label' : String} {element : TypeId} {sizes : List UInt32} (h : l.Moves label label') :
      Mirrors l live (.array label element sizes) (.array label' (l.ty element) sizes)
  | function {result : TypeId} {params params' : Table} (h : params.Mirrors l params') :
      Mirrors l live (.function result params) (.function (l.ty result) params')
  | const {value : Literal} : Mirrors l live (.const value) (.const value)

/-- Two diagnostics that differ in their texts at most. -/
structure Diagnostic.Resembles (d d' : Diagnostic) : Prop where
  kind : d'.kind = d.kind
  pos : d'.pos = d.pos
  file : d'.file = d.file

theorem Diagnostic.resembles_cannotConvert (source target source' target' : String) :
    (Diagnostic.cannotConvert source target).Resembles (.cannotConvert source' target') :=
  ⟨rfl, rfl, rfl⟩

inductive Alike {α γ : Type} (R : α → γ → Prop) : Except Diagnostic α → Except Diagnostic γ → Prop
  | ok {a : α} {a' : γ} (h : R a a') : Alike R (.ok a) (.ok a')
  | error {d d' : Diagnostic} (h : d.Resembles d') : Alike R (.error d) (.error d')

theorem Alike.map {α γ α' γ' : Type} {R : α → γ → Prop} {S : α' → γ' → Prop} {x : Except Diagnostic α}
    {y : Except Diagnostic γ} {f : α → α'} {g : γ → γ'} (h : Alike R x y)
    (hfg : ∀ a a', R a a' → S (f a) (g a')) : Alike S (x.map f) (y.map g) := by
  cases h with
  | ok h => exact .ok (hfg _ _ h)
  | error h => exact .error h

structure Scope.Mirrors (l : Shift) (inner : Prop) (s s' : Scope) : Prop where
  kind : s'.kind = s.kind
  parent : s'.parent = s.parent.map l.env
  answers : s.decls.Answers l s'.decls
  labels : s'.labels = s.labels
  decls : inner → s.decls.Mirrors l s'.decls
  children : inner → s'.children = s.children.map l.env

section Tables

variable {l : Shift} {t t' : Table}

theorem Table.Mirrors.answers (h : t.Mirrors l t') : t.Answers l t' := by
  intro name
  unfold Table.get?
  unfold Table.Mirrors at h
  generalize t.records = rs, t'.records = rs' at h ⊢
  induction h with
  | nil => exact .none
  | @cons r r' _ _ hr _ ih =>
    rw [List.find?_cons, List.find?_cons, hr.name]
    cases r.name == name with
    | true => exact .some hr
    | false => exact ih

theorem Table.Mirrors.concat (h : t.Mirrors l t') {r r' : Record} (hr : r.Mirrors l r') :
    Table.Mirrors l ⟨t.records ++ [r]⟩ ⟨t'.records ++ [r']⟩ :=
  List.rel_append h (.cons hr .nil)

theorem Table.Answers.contains (h : t.Answers l t') (name : String) :
    t'.contains name = t.contains name := by
  have hsome : ∀ u : Table, u.contains name = (u.get? name).isSome :=
    fun u => List.isSome_find?.symm
  have hget := h name
  rw [hsome, hsome]
  generalize t'.get? name = y at hget ⊢
  generalize t.get? name = x at hget ⊢
  cases hget <;> rfl

theorem Table.Answers.concat (h : t.Answers l t') {r r' : Record} (hr : r.Mirrors l r') :
    Table.Answers l ⟨t.records ++ [r]⟩ ⟨t'.records ++ [r']⟩ := by
  intro name
  have hget := h name
  unfold Table.get? at hget ⊢
  rw [List.find?_append, List.find?_append]
  generalize t'.records.find? _ = y at hget ⊢
  generalize t.records.find? _ = x at hget ⊢
  cases hget with
  | some h => exact .some h
  | none =>
    have hlast : Table.Mirrors l ⟨[r]⟩ ⟨[r']⟩ := .cons hr .nil
    exact hlast.answers name

end Tables

structure Scope.Agrees (s s' : Scope) : Prop where
  kind : s'.kind = s.kind
  parent : s'.parent = s.parent
  decls : s'.decls = s.decls
  labels : s'.labels = s.labels

theorem Scope.Agrees.refl (s : Scope) : s.Agrees s := ⟨rfl, rfl, rfl, rfl⟩

theorem Scope.Agrees.trans {s t u : Scope} (h : s.Agrees t) (h' : t.Agrees u) : s.Agrees u :=
  ⟨h'.kind.trans h.kind, h'.parent.trans h.parent, h'.decls.trans h.decls, h'.labels.trans h.labels⟩

def Ty.Refills (t t' : Ty) : Prop :=
  ∃ name fields fields', t = .struct name fields ∧ t' = .struct name fields'

theorem Ty.Refills.trans {t u v : Ty} (h : t.Refills u) (h' : u.Refills v) : t.Refills v := by
  obtain ⟨name, fields, _, rfl, rfl⟩ := h
  obtain ⟨_, _, fields', heq, rfl⟩ := h'
  cases heq
  exact ⟨name, fields, fields', rfl, rfl⟩

namespace Context

/-- A later context, in which only the structs that `own` holds of have got fields, and nothing was declared
in the outermost scope unless `own` holds of that. -/
structure Keeps (own : Target → Prop) (b c : Context) : Prop where
  types : ∀ {id t}, b.types.get? id = some t →
    ∃ t', c.types.get? id = some t' ∧ (t' = t ∨ own (.fields id) ∧ t.Refills t')
  scopes : ∀ {e s}, e ≠ root → b.scopes[e]? = some s → c.scopes[e]? = some s
  labels : b.labels ≤ c.labels
  root : ¬ own (.scope root) → (b.scope root).Agrees (c.scope root)

/-- Whatever the first context has, the second has after a move. The fields of a struct are compared only where
`live` holds. -/
structure Image (l : Shift) (live : TypeId → Prop) (c c' : Context) : Prop where
  pos : 0 < c.scopes.length
  types : ∀ {id t}, c.types.get? id = some t →
    ∃ t', c'.types.get? (l.ty id) = some t' ∧ t.Mirrors l (live id) t'
  scopes : ∀ {e s}, c.scopes[e]? = some s →
    ∃ s', c'.scopes[l.env e]? = some s' ∧ s.Mirrors l (e ≠ root) s'
  symbols : ∀ {e s s'}, e ≠ root → c.scopes[e]? = some s → c'.scopes[l.env e]? = some s' →
    l.Moves s.symbol s'.symbol
  -- the walk outward ends in both contexts, and that of a block does not leave its function
  rising : ∀ {e p : ScopeId} {s : Scope}, c.scopes[e]? = some s → s.parent = some p → p < e
  blocks : ∀ {e : ScopeId} {s : Scope}, c.scopes[e]? = some s → s.kind = .block →
    ∃ p, s.parent = some p ∧ p ≠ root
  younger : ∀ {e : ScopeId} {s : Scope}, e ≠ root → c.scopes[e]? = some s →
    ∀ k ∈ s.children, e < k ∧ k < c.scopes.length

/-- The second context is the first one after a move that makes room for what `b` had more when the second
run began. The runs may fill the tables that `own` holds of, and nothing else of what they began with. -/
structure Mirror (l : Shift) (own : Target → Prop) (b c c' : Context) : Prop
    extends Image l (l.Live own) c c' where
  -- below the floor is what both runs began with
  builtin : Arena.builtin.length ≤ l.floor
  base : b.types.size = l.floor + l.types
  baseScopes : b.scopes.length = l.scopes + 1
  baseLabels : b.labels = l.issued + l.labels
  floor : l.floor ≤ c.types.size
  size : c'.types.size = c.types.size + l.types
  length : c'.scopes.length = c.scopes.length + l.scopes
  issued : l.issued ≤ c.labels
  labels : c'.labels = c.labels + l.labels
  keeps : Keeps (l.Owned own) b c'

def Meets (l : Shift) (c c' : Context) (e : ScopeId) : Prop :=
  Option.Rel (Scope.Mirrors l (e ≠ root)) c.scopes[e]? c'.scopes[l.env e]?

section Reading

variable {l : Shift} {c c' : Context} {e env : ScopeId}

theorem Meets.scope (h : Meets l c c' e) : (c.scope e).Mirrors l (e ≠ root) (c'.scope (l.env e)) := by
  unfold Meets at h
  unfold Context.scope
  generalize c'.scopes[l.env e]? = y at h ⊢
  generalize c.scopes[e]? = x at h ⊢
  cases h with
  | some hs => exact hs
  | none => exact ⟨rfl, rfl, fun _ => .none, rfl, fun _ => .nil, fun _ => rfl⟩

theorem Meets.parent (h : Meets l c c' e) :
    c'.scopes[l.env e]?.bind Scope.parent = (c.scopes[e]?.bind Scope.parent).map l.env := by
  unfold Meets at h
  generalize c'.scopes[l.env e]? = y at h ⊢
  generalize c.scopes[e]? = x at h ⊢
  cases h with
  | some hs => exact hs.parent
  | none => rfl

namespace Image

variable {live : TypeId → Prop}

theorem meets (h : Image l live c c') (he : e < c.scopes.length) : Meets l c c' e := by
  have hs : c.scopes[e]? = some c.scopes[e] := List.getElem?_eq_getElem he
  obtain ⟨s', hs', hmirror⟩ := h.scopes hs
  unfold Meets
  rw [hs, hs']
  exact .some hmirror

theorem pos_right (h : Image l live c c') : 0 < c'.scopes.length := by
  obtain ⟨s', hs', -⟩ := h.scopes (List.getElem?_eq_getElem h.pos)
  exact Nat.lt_of_le_of_lt (Nat.zero_le _) (List.getElem?_eq_some_iff.mp hs').1

theorem le_of_mem_outward (h : Image l live c c') {fuel : Nat}
    (he : e ∈ Context.outward c.scopes fuel env) : e ≤ env := by
  induction fuel generalizing env with
  | zero => exact absurd he List.not_mem_nil
  | succ fuel ih =>
    rw [Context.outward] at he
    obtain rfl | hrest := List.mem_cons.mp he
    · exact Nat.le_refl _
    · cases hp : c.scopes[env]?.bind Scope.parent with
      | none =>
        rw [hp] at hrest
        exact absurd hrest List.not_mem_nil
      | some p =>
        rw [hp] at hrest
        obtain ⟨s, hs, hparent⟩ := Option.bind_eq_some_iff.mp hp
        exact Nat.le_trans (ih hrest) (Nat.le_of_lt (h.rising hs hparent))

/-- The fuel reaches the outermost scope if it exceeds the index of the first. -/
theorem outward (h : Image l live c c') (hmeets : ∀ e ≤ env, Meets l c c' e) {fuel fuel' : Nat}
    (hfuel : env < fuel) (hfuel' : l.env env < fuel') :
    Context.outward c'.scopes fuel' (l.env env) = (Context.outward c.scopes fuel env).map l.env := by
  induction fuel generalizing fuel' env with
  | zero => exact absurd hfuel (Nat.not_lt_zero _)
  | succ fuel ih =>
    obtain ⟨n, rfl⟩ := Nat.exists_eq_succ_of_ne_zero (Nat.ne_zero_of_lt hfuel')
    rw [Context.outward, Context.outward, (hmeets env (Nat.le_refl _)).parent]
    cases hp : c.scopes[env]?.bind Scope.parent with
    | none => rfl
    | some p =>
      obtain ⟨s, hs, hparent⟩ := Option.bind_eq_some_iff.mp hp
      have hlt : p < env := h.rising hs hparent
      have hlt' : l.env p < l.env env := Shift.env_strictMono hlt
      have hrest := ih (fun e he => hmeets e (Nat.le_trans he (Nat.le_of_lt hlt)))
        (Nat.lt_of_lt_of_le hlt (Nat.le_of_lt_succ hfuel))
        (Nat.lt_of_lt_of_le hlt' (Nat.le_of_lt_succ hfuel'))
      exact congrArg (l.env env :: ·) hrest

theorem enclosing (h : Image l live c c') (hmeets : ∀ e ≤ env, Meets l c c' e) :
    c'.enclosing (l.env env) = (c.enclosing env).map l.env := by
  unfold Context.enclosing
  by_cases henv : env < c.scopes.length
  · obtain ⟨s', hs', -⟩ := h.scopes (List.getElem?_eq_getElem henv)
    exact h.outward hmeets henv (List.getElem?_eq_some_iff.mp hs').1
  · -- an index without a scope has nothing around it
    have hnone : c.scopes[env]?.bind Scope.parent = none := by
      rw [List.getElem?_eq_none (Nat.le_of_not_lt henv)]
      rfl
    obtain ⟨n, hn⟩ := Nat.exists_eq_succ_of_ne_zero (Nat.ne_of_gt h.pos)
    obtain ⟨n', hn'⟩ := Nat.exists_eq_succ_of_ne_zero (Nat.ne_of_gt h.pos_right)
    rw [hn, hn', Context.outward, Context.outward, (hmeets env (Nat.le_refl _)).parent, hnone]
    rfl

theorem functionOf (h : Image l live c c') (hmeets : ∀ e ≤ env, Meets l c c' e) :
    c'.functionOf (l.env env) = l.env (c.functionOf env) := by
  have hfind : (c.enclosing env).find? ((fun e => (c'.scope e).kind != .block) ∘ l.env) =
      (c.enclosing env).find? fun e => (c.scope e).kind != .block := by
    refine List.find?_congr fun e he => ?_
    exact congrArg (· != ScopeKind.block) (hmeets e (h.le_of_mem_outward he)).scope.kind
  unfold Context.functionOf
  rw [h.enclosing hmeets, List.find?_map, hfind]
  cases (c.enclosing env).find? fun e => (c.scope e).kind != .block <;> rfl

theorem functionOf_lt (h : Image l live c c') (henv : env < c.scopes.length) :
    c.functionOf env < c.scopes.length := by
  unfold Context.functionOf
  cases hf : (c.enclosing env).find? fun e => (c.scope e).kind != .block with
  | none => exact henv
  | some e => exact Nat.lt_of_le_of_lt (h.le_of_mem_outward (List.mem_of_find?_eq_some hf)) henv

/-- The blocks of a function lie inside it, so the way outward does not pass the function. -/
theorem functionOf_ne_root (h : Image l live c c') (henv : env ≠ root) : c.functionOf env ≠ root := by
  have hfind : ∀ (fuel : Nat) (env : ScopeId), env ≠ root → ∀ e,
      (Context.outward c.scopes fuel env).find? (fun e => (c.scope e).kind != .block) = some e →
      e ≠ root := by
    intro fuel
    induction fuel with
    | zero => exact fun _ _ _ he => nomatch he
    | succ fuel ih =>
      intro env henv e he
      rw [Context.outward, List.find?_cons] at he
      cases hk : (c.scope env).kind != .block with
      | true =>
        simp only [hk, Option.some.injEq] at he
        exact he ▸ henv
      | false =>
        simp only [hk] at he
        cases hs : c.scopes[env]? with
        | none => simp [hs] at he
        | some s =>
          rw [scope_eq hs] at hk
          obtain ⟨p, hp, hpr⟩ := h.blocks hs (by simpa using hk)
          rw [hs, Option.bind_some, hp] at he
          exact ih p hpr e he
  unfold Context.functionOf Context.enclosing
  cases hf : (Context.outward c.scopes c.scopes.length env).find? fun e => (c.scope e).kind != .block with
  | none => exact henv
  | some e => exact hfind _ env henv e hf

theorem lookup (h : Image l live c c') (hmeets : ∀ e ≤ env, Meets l c c' e) (name : String) :
    Option.Rel (fun p p' : ScopeId × Record => p'.1 = l.env p.1 ∧ p.2.Mirrors l p'.2)
      (c.lookup env name) (c'.lookup (l.env env) name) := by
  have hall : ∀ e ∈ c.enclosing env, Meets l c c' e := fun e he => hmeets e (h.le_of_mem_outward he)
  unfold Context.lookup
  rw [h.enclosing hmeets]
  generalize c.enclosing env = around at hall ⊢
  induction around with
  | nil => exact .none
  | cons e rest ih =>
    obtain ⟨hhere, hrest⟩ := List.forall_mem_cons.mp hall
    rw [List.map_cons, List.findSome?_cons, List.findSome?_cons]
    have hget := hhere.scope.answers name
    generalize (c'.scope (l.env e)).decls.get? name = y at hget ⊢
    generalize (c.scope e).decls.get? name = x at hget ⊢
    cases hget with
    | some hr => exact .some ⟨rfl, hr⟩
    | none => exact ih hrest

end Image

end Reading

namespace Mirror

variable {l : Shift} {own : Target → Prop} {b c c' : Context} {env : ScopeId}

theorem get? (h : Mirror l own b c c') (id : TypeId) :
    Option.Rel (Ty.Mirrors l (l.Live own id)) (c.types.get? id) (c'.types.get? (l.ty id)) := by
  cases hid : c.types.get? id with
  | some t =>
    obtain ⟨t', ht', ht⟩ := h.types hid
    rw [ht']
    exact .some ht
  | none =>
    have hle : c.types.size ≤ id := List.getElem?_eq_none_iff.mp hid
    have hnone : c'.types.get? (l.ty id) = none := by
      apply List.getElem?_eq_none
      change c'.types.size ≤ _
      rw [Shift.ty_of_le (Nat.le_trans h.floor hle), h.size]
      exact Nat.add_le_add_right hle _
    rw [hnone]
    exact .none

theorem meets (h : Mirror l own b c c') (e : ScopeId) : Meets l c c' e := by
  by_cases he : e < c.scopes.length
  · exact h.toImage.meets he
  · have hle : c.scopes.length ≤ e := Nat.le_of_not_lt he
    have hne : e ≠ root := Nat.ne_of_gt (Nat.lt_of_lt_of_le h.pos hle)
    have hnone : c'.scopes[l.env e]? = none := by
      apply List.getElem?_eq_none
      rw [Shift.env_of_ne hne, h.length]
      exact Nat.add_le_add_right hle _
    unfold Meets
    rw [List.getElem?_eq_none hle, hnone]
    exact .none

theorem scope (h : Mirror l own b c c') (e : ScopeId) :
    (c.scope e).Mirrors l (e ≠ root) (c'.scope (l.env e)) :=
  (h.meets e).scope

theorem functionOf (h : Mirror l own b c c') (env : ScopeId) :
    c'.functionOf (l.env env) = l.env (c.functionOf env) :=
  h.toImage.functionOf fun e _ => h.meets e

theorem lookup (h : Mirror l own b c c') (env : ScopeId) (name : String) :
    Option.Rel (fun p p' : ScopeId × Record => p'.1 = l.env p.1 ∧ p.2.Mirrors l p'.2)
      (c.lookup env name) (c'.lookup (l.env env) name) :=
  h.toImage.lookup (fun e _ => h.meets e) name

/-- What does not tell a type from its image reads the same in both contexts. -/
theorem read (h : Mirror l own b c c') {α : Type} {g : Option Ty → α}
    (hg : ∀ {live t t'}, Ty.Mirrors l live t t' → g (some t') = g (some t)) (id : TypeId) :
    g (c'.types.get? (l.ty id)) = g (c.types.get? id) := by
  have ht := h.get? id
  generalize c'.types.get? (l.ty id) = y at ht ⊢
  generalize c.types.get? id = x at ht ⊢
  cases ht with
  | some ht => exact hg ht
  | none => rfl

theorem isStruct (h : Mirror l own b c c') (id : TypeId) :
    c'.types.isStruct (l.ty id) = c.types.isStruct id :=
  h.read (g := fun t => t.any Ty.isStruct) (fun ht => by cases ht <;> rfl) id

theorem isPrimitive (h : Mirror l own b c c') (id : TypeId) :
    c'.types.isPrimitive (l.ty id) = c.types.isPrimitive id :=
  h.read (g := fun t => t.any Ty.isPrimitive) (fun ht => by cases ht <;> rfl) id

@[simp] theorem ty_beq (x y : TypeId) : (l.ty x == l.ty y) = (x == y) := by
  rw [Bool.eq_iff_iff, beq_iff_eq, beq_iff_eq]
  exact Shift.ty_injective.eq_iff

theorem same (h : Mirror l own b c c') (x y : TypeId) :
    c'.types.same (l.ty x) (l.ty y) = c.types.same x y := by
  have hx := h.get? x
  have hy := h.get? y
  unfold Arena.same
  rw [ty_beq]
  generalize c'.types.get? (l.ty x) = x₂ at hx ⊢
  generalize c.types.get? x = x₁ at hx ⊢
  generalize c'.types.get? (l.ty y) = y₂ at hy ⊢
  generalize c.types.get? y = y₁ at hy ⊢
  cases hx with
  | none => rfl
  | some hx =>
    cases hx with
    | const =>
      cases hy with
      | none => rfl
      | some hy => cases hy <;> rfl
    | _ => rfl

theorem ofLiteral (h : Mirror l own b c c') (v : Literal) :
    l.ty (TypeId.ofLiteral v) = TypeId.ofLiteral v := by
  have hlt : TypeId.ofLiteral v < Arena.builtin.length := by
    cases v <;> simp [TypeId.ofLiteral, TypeId.int, TypeId.float, TypeId.string, TypeId.null, Arena.builtin]
  rw [Shift.ty_of_lt (Nat.lt_of_lt_of_le hlt h.builtin)]
  exact l.fixed _ (Or.inl hlt)

theorem structNamed? (h : Mirror l own b c c') (env : ScopeId) (name : String) :
    c'.structNamed? (l.env env) name = (c.structNamed? env name).map l.ty := by
  have hl := h.lookup env name
  unfold Context.structNamed?
  generalize c'.lookup (l.env env) name = y at hl ⊢
  generalize c.lookup env name = x at hl ⊢
  cases hl with
  | none => rfl
  | @some p p' hp =>
    obtain ⟨-, hr⟩ := hp
    dsimp only
    rw [hr.kind, hr.ty, h.isStruct]
    split <;> rfl

theorem int (h : Mirror l own b c c') : l.ty .int = .int := h.ofLiteral (.int 0)

theorem null (h : Mirror l own b c c') : l.ty .null = .null := h.ofLiteral .null

theorem declaredType (h : Mirror l own b c c') (tag : TypeTag) (env : ScopeId) :
    Alike (fun ty ty' => ty' = l.ty ty) (c.declaredType tag env) (c'.declaredType tag (l.env env)) := by
  unfold Context.declaredType Context.typeOfTag
  cases tag with
  | default => exact .ok h.int.symm
  | int => exact .ok h.int.symm
  | float => exact .ok (h.ofLiteral (.float default)).symm
  | string => exact .ok (h.ofLiteral (.string "")).symm
  | named name =>
    dsimp only
    rw [h.structNamed?]
    cases c.structNamed? env name with
    | some ty => exact .ok rfl
    | none => exact .error ⟨rfl, rfl, rfl⟩

theorem exprCheck (h : Mirror l own b c c') (env : ScopeId) (e : Expr) :
    Alike (fun v v' => v' = v.shift l) (e.check c env) (e.check c' (l.env env)) := by
  cases e with
  | literal value span => exact .ok (by rw [Value.shift, h.ofLiteral])
  | name ident span =>
    have hl := h.lookup env ident
    rw [Expr.check, Expr.check]
    generalize c'.lookup (l.env env) ident = y at hl ⊢
    generalize c.lookup env ident = x at hl ⊢
    cases hl with
    | none => exact .error ⟨rfl, rfl, rfl⟩
    | @some p p' hp =>
      obtain ⟨owner, r⟩ := p
      obtain ⟨owner', r'⟩ := p'
      obtain ⟨howner, hr⟩ := hp
      dsimp only at howner hr ⊢
      have ht := h.get? r.ty
      -- the two records have one kind, and their types differ by the renumbering
      rw [hr.ty, hr.kind]
      generalize c'.types.get? (l.ty r.ty) = y at ht ⊢
      generalize c.types.get? r.ty = x at ht ⊢
      cases ht with
      | none =>
        dsimp only
        split
        · exact .ok (by rw [Value.shift, howner])
        · exact .error ⟨rfl, rfl, rfl⟩
      | some ht =>
        cases ht with
        | const => exact .ok (by rw [Value.shift, h.ofLiteral])
        | _ =>
          dsimp only
          split
          · exact .ok (by rw [Value.shift, howner])
          · exact .error ⟨rfl, rfl, rfl⟩
  | new typeName span =>
    rw [Expr.check, Expr.check, h.structNamed?]
    cases c.structNamed? env typeName with
    | some ty => exact .ok rfl
    | none => exact .error ⟨rfl, rfl, rfl⟩

theorem castLiteral (h : Mirror l own b c c') (value : Literal) (source target : TypeId) :
    Alike (fun v v' => v' = v) (Value.castLiteral c.types value source target)
      (Value.castLiteral c'.types value (l.ty source) (l.ty target)) := by
  have ht := h.get? target
  unfold Value.castLiteral
  generalize c'.types.get? (l.ty target) = y at ht ⊢
  generalize c.types.get? target = x at ht ⊢
  cases ht with
  | none => cases value <;> exact .error (Diagnostic.resembles_cannotConvert ..)
  | some ht =>
    cases value with
    | null =>
      cases ht with
      | struct _ => exact .ok rfl
      | _ => exact .error (Diagnostic.resembles_cannotConvert ..)
    | _ =>
      cases ht with
      | int | float | string => exact .ok rfl
      | _ => exact .error (Diagnostic.resembles_cannotConvert ..)

theorem cast (h : Mirror l own b c c') (v : Value) (target : TypeId) :
    Alike (fun v v' => v' = v.shift l) (v.cast c.types target)
      ((v.shift l).cast c'.types (l.ty target)) := by
  cases hfold : v.fold? with
  | some value =>
    obtain ⟨source, rfl⟩ := Value.fold?_eq_some hfold
    rw [Value.shift, Value.cast, Value.cast, h.same]
    split
    · exact .ok rfl
    · exact (h.castLiteral value source target).map fun _ _ heq => by rw [heq, Value.shift]
  | none =>
    have hnull : (l.ty v.ty == TypeId.null) = (v.ty == TypeId.null) := by
      have hbeq := ty_beq (l := l) v.ty .null
      rwa [h.null] at hbeq
    rw [Value.cast_of_fold?_none hfold, Value.cast_of_fold?_none ((v.shift_fold? l).trans hfold),
      Value.shift_ty, h.same, h.isStruct, h.isPrimitive, h.isPrimitive, hnull]
    split
    · exact .ok rfl
    · split
      · exact .ok rfl
      · exact .error (Diagnostic.resembles_cannotConvert ..)

theorem fieldLiteral (h : Mirror l own b c c') (declared : TypeId) (v : Value) :
    Variable.fieldLiteral c'.types (l.ty declared) (v.shift l) =
      Variable.fieldLiteral c.types declared v := by
  have ht := h.get? declared
  unfold Variable.fieldLiteral
  rw [v.shift_fold? l]
  generalize c'.types.get? (l.ty declared) = y at ht ⊢
  generalize c.types.get? declared = x at ht ⊢
  cases ht with
  | none => rfl
  | some ht => cases ht <;> rfl

theorem constLiteral (h : Mirror l own b c c') (declared : TypeId) (v : Value) :
    Variable.constLiteral c'.types (l.ty declared) (v.shift l) =
      Variable.constLiteral c.types declared v := by
  unfold Variable.constLiteral
  simp [h.isStruct]

end Mirror

end Context

end UnitCompiler
