import UnitCompiler.Proofs.DataSegment
import UnitCompiler.Proofs.DeclaredLocals
import UnitCompiler.Proofs.StructLayout

namespace UnitCompiler

open Context

structure Routine where
  head : FunctionHead
  params : List (Option Decl)
  body : List Stmt

mutual

/-- The functions that a declaration brings in, itself and those among its statements. -/
def Decl.routines : Decl → List Routine
  | .function _ head params body => ⟨head, params, body⟩ :: Stmt.routinesOfAll body
  | .var _ _ | .struct _ _ _ | .data _ _ | .array _ _ => []

def Stmt.routines : Stmt → List Routine
  | .declare d => Decl.routines d
  | .block body _ => Stmt.routinesOfAll body
  | .goto _ _ _ | .label _ _ _ | .eval _ _ => []

def Stmt.routinesOfAll : List Stmt → List Routine
  | [] => []
  | stmt :: rest => Stmt.routines stmt ++ Stmt.routinesOfAll rest

end

def DeclList.routines (program : DeclList) : List Routine :=
  (program.filterMap id).flatMap Decl.routines

theorem Decl.routines_of_isLeaf {d : Decl} (h : d.isLeaf = true) : d.routines = [] := by
  cases d with
  | var | data | array => rw [Decl.routines]
  | struct | function => cases h

def Routine.HasParams (x : Routine) : Prop :=
  ∀ d ∈ x.params.filterMap id, d.isParam = true

instance (x : Routine) : Decidable x.HasParams :=
  inferInstanceAs (Decidable (∀ d ∈ x.params.filterMap id, d.isParam = true))

/-- A function as it is written and as its check left it: its statements were checked in a scope that is not below
`floor`, and the scopes that they opened are as they were then. -/
structure Routine.Settled (c : Context) (floor : ScopeId) (x y : Routine) : Prop where
  ident : y.head.ident = x.head.ident
  check : ∃ (env scope : ScopeId) (head : FunctionHead) (c₀ c₁ c₂ : Context),
    head.enter env c₀ = .ok scope c₁ ∧ (x.HasParams → head.TakesParams c₀) ∧
    Stmt.Accepted scope c₁ x.body c₂ y.body ∧ y.head.env = some scope ∧ floor ≤ scope ∧
    Extends c₂ c ∧ ∀ e, scope ≤ e → e < c₂.scopes.length → SameScope c₂ c e

section Check

variable {env : ScopeId} {c c' : Context}

theorem Routine.Settled.later {floor floor' : ScopeId} {x y : Routine} (h : Routine.Settled c floor x y)
    (hext : Extends c c') (hfloor : floor' ≤ floor)
    (hkeep : ∀ e, floor ≤ e → e < c.scopes.length → SameScope c c' e) : Routine.Settled c' floor' x y := by
  obtain ⟨env, scope, head, c₀, c₁, c₂, henter, htakes, hbody, henv, hle, hafter, hsame⟩ := h.check
  refine ⟨h.ident, env, scope, head, c₀, c₁, c₂, henter, htakes, hbody, henv, Nat.le_trans hfloor hle,
    hafter.trans hext, fun e hscope hlt => ?_⟩
  exact (hsame e hscope hlt).trans (hkeep e (Nat.le_trans hle hscope) (Nat.lt_of_lt_of_le hlt hafter.length))

theorem Stmt.Accepted.settled_routine {body body' : List Stmt} (h : Stmt.Accepted env c body c' body')
    {floor floor' : ScopeId} (henv : env < floor) (hfloor : floor' ≤ floor) (x y : Routine)
    (hxy : Routine.Settled c floor x y) : Routine.Settled c' floor' x y :=
  hxy.later h.extends hfloor fun _ hle hlt => h.sameScope (Nat.ne_of_gt (Nat.lt_of_lt_of_le henv hle)) hlt

theorem Routine.Settled.lower {floor floor' : ScopeId} (hfloor : floor' ≤ floor) (x y : Routine)
    (h : Routine.Settled c floor x y) : Routine.Settled c floor' x y :=
  h.later (.refl _) hfloor fun e _ _ => .refl c e

/-- A function that has just been checked is settled. -/
theorem Stmt.Accepted.settles {scope : ScopeId} {c₀ c₁ : Context} {head : FunctionHead} {x : Routine}
    {body' : List Stmt} (h : Stmt.Accepted scope c₁ x.body c body') (henter : head.enter env c₀ = .ok scope c₁)
    (hident : head.ident = x.head.ident) (htakes : x.HasParams → head.TakesParams c₀) (params : List (Option Decl)) :
    Routine.Settled c scope x ⟨{ head with env := some scope }, params, body'⟩ :=
  ⟨hident, env, scope, head, c₀, c₁, c, henter, htakes, h, rfl, Nat.le_refl _, .refl _, fun e _ _ => .refl c e⟩

theorem FunctionHead.TakesParams.later {head : FunctionHead} (h : head.TakesParams c)
    (hkeep : ∀ ty result ps, c.types.get? ty = some (.function result ps) → c'.types.get? ty = c.types.get? ty) :
    head.TakesParams c' := by
  obtain ⟨ty, result, ps, hty, hget, hkind⟩ := h
  exact ⟨ty, result, ps, hty, (hkeep ty result ps hget).trans hget, hkind⟩

structure Routine.Registered (c : Context) (x z : Routine) : Prop where
  ident : z.head.ident = x.head.ident
  body : z.body = x.body
  takes : x.HasParams → z.head.TakesParams c

theorem Routine.Registered.later
    (hkeep : ∀ ty result ps, c.types.get? ty = some (.function result ps) → c'.types.get? ty = c.types.get? ty)
    (x z : Routine) (h : Routine.Registered c x z) : Routine.Registered c' x z :=
  ⟨h.ident, h.body, fun hparams => (h.takes hparams).later hkeep⟩

def Decl.routine? : Decl → Option Routine
  | .function _ head params body => some ⟨head, params, body⟩
  | .var _ _ | .struct _ _ _ | .data _ _ | .array _ _ => none

theorem Decl.routines_eq (d : Decl) :
    d.routines = d.routine?.toList.flatMap fun x => x :: Stmt.routinesOfAll x.body := by
  cases d with
  | function => rw [Decl.routines, Decl.routine?, Option.toList_some, List.flatMap_singleton]
  | var | struct | data | array => rw [Decl.routines]; rfl

/-- The parameters of a function have gone into the table of its type. -/
theorem Decl.Entered.takesParams {params params' : List (Option Decl)} {result : TypeId} {head : FunctionHead}
    (h : Decl.Entered env (.params c.types.size) (c.addType env (.function result .empty)).2
      (DeclList.inOrder params) c' (DeclList.inOrder params')) (hty : head.ty = some c.types.size)
    (hparams : ∀ d ∈ params.filterMap id, d.isParam = true) : head.TakesParams c' := by
  have hvars : ∀ d ∈ DeclList.inOrder params,
      ∃ site v, d = .var site v ∧ v.kind ∈ [Kind.param] ∧ v.registration = none :=
    fun d hd => Decl.exists_of_isVarOf (hparams d ((DeclList.inOrder_perm params).mem_iff.mp hd))
  have hfresh : ∀ site v, Decl.var site v ∈ DeclList.inOrder params → v.registration = none := by
    intro site v hv
    obtain ⟨_, _, heq, -, hnone⟩ := hvars _ hv
    cases heq
    exact hnone
  have htable : (c.addType env (.function result .empty)).2.table? (.params c.types.size) = some .empty := by
    simp [table?]
  obtain ⟨rs, hfilled, hrs⟩ := h.filled (by rintro _ ⟨⟩) hfresh htable
  obtain ⟨result', hget⟩ := table?_params hfilled.table
  refine ⟨c.types.size, result', _, hty, hget, fun p hp => ?_⟩
  have hentry : p.entry ∈ (DeclList.inOrder params).filterMap Decl.entry? := hrs ▸ List.mem_map_of_mem hp
  obtain ⟨d, hd, hpd⟩ := List.mem_filterMap.mp hentry
  obtain ⟨site, v, rfl, hkind, -⟩ := hvars d hd
  exact (congrArg Prod.snd (Option.some.inj hpd)).symm.trans (List.mem_singleton.mp hkind)

/-- Registration gives each function a type with its parameters, and changes neither its name nor its body. -/
theorem Decl.Entered.routines {ds ds' : List Decl} (h : Decl.Entered env (.scope env) c ds c' ds') :
    List.Forall₂ (Routine.Registered c') (ds.filterMap Decl.routine?) (ds'.filterMap Decl.routine?) := by
  generalize htarget : Target.scope env = target at h
  induction h with
  | nil => exact .nil
  | var _ _ ih | array _ _ ih | data _ _ ih | struct _ _ ih => exact ih htarget
  | function _ hparams hins hrest _ ih =>
    subst htarget
    refine .cons ⟨rfl, rfl, fun hwritten => ?_⟩ (ih rfl)
    refine (hparams.takesParams rfl hwritten).later fun ty result ps hget => ?_
    have hlt := lt_size_of_get? hget
    rw [hrest.get?_types (Nat.lt_of_lt_of_le hlt (extends_insert hins).size) (Target.avoids_scope _ _),
      get?_insert_of_avoids hins (Target.avoids_scope _ _)]

/-- The functions among the statements of a function are checked where they stand, and then left alone. -/
theorem Stmt.Accepted.routines {body body' : List Stmt} (h : Stmt.Accepted env c body c' body')
    (henv : env < c.scopes.length) :
    List.Forall₂ (Routine.Settled c' c.scopes.length) (Stmt.routinesOfAll body) (Stmt.routinesOfAll body') := by
  induction h with
  | nil => exact .nil
  | leaf hleaf hd _ ih =>
    have hrest := (ih (hd.extends.lt_length henv)).imp (Routine.Settled.lower hd.extends.length)
    cases hd with
    | var | array | data => exact hrest
    | struct | function => cases hleaf
  | struct hd _ hfields hlayout _ ih =>
    have hext := hd.extends.trans (hfields.extends.trans (extends_layOutFields hlayout))
    exact (ih (hext.lt_length henv)).imp (Routine.Settled.lower hext.length)
  | @function env scope c c₁ _ _ _ _ head head' params params' body _ _ _ hd henter hbody hrest ihbody ih =>
    have hopen := hd.extends.trans (FunctionHead.enter_extends henter)
    have hext := hopen.trans hbody.extends
    have hinner := ihbody (FunctionHead.enter_lt_length henter)
    obtain ⟨hfresh, -⟩ := FunctionHead.enter_within henter
    -- the scope of the function is opened after those that are there now
    have hfloor : c.scopes.length ≤ scope := hfresh ▸ hd.extends.length
    have hregistered : List.Forall₂ (Routine.Registered c₁) [⟨head, params, body⟩] [⟨head', params', body⟩] :=
      hd.routines
    obtain ⟨hfirst, -⟩ := List.forall₂_cons.mp hregistered
    have hhere := hbody.settles henter hfirst.ident hfirst.takes params'
    refine List.rel_append (.cons ?_ ?_) ?_
    · exact hrest.settled_routine (Nat.lt_of_lt_of_le henv hfloor) hfloor _ _ hhere
    -- the rest of the body does not change what the functions inside have settled
    · exact hinner.imp (hrest.settled_routine (hopen.lt_length henv) hopen.length)
    · exact (ih (hext.lt_length henv)).imp (Routine.Settled.lower hext.length)
  | @block env c _ _ _ _ _ _ _ hbody hrest ihbody ih =>
    have hopen := extends_openBlock c env
    have hext := hopen.trans hbody.extends
    have hinner := ihbody (lt_length_openBlock c env)
    exact List.rel_append (hinner.imp (hrest.settled_routine (hopen.lt_length henv) hopen.length))
      ((ih (hext.lt_length henv)).imp (Routine.Settled.lower hext.length))
  | @goto env c _ name span _ _ _ _ ih =>
    have hext := extends_noteJump c env name span
    exact (ih (hext.lt_length henv)).imp (Routine.Settled.lower hext.length)
  | label hplace _ ih =>
    have hext := extends_placeLabel hplace
    exact (ih (hext.lt_length henv)).imp (Routine.Settled.lower hext.length)
  | eval _ _ ih => exact ih henv

/-- Every function of a program, at any depth, is settled by the check. -/
theorem Decl.Accepted.routines {ds ds' : List Decl} (h : Decl.Accepted env c ds c' ds') {xs : List Routine}
    (hxs : List.Forall₂ (Routine.Registered c) xs (ds.filterMap Decl.routine?)) :
    List.Forall₂ (Routine.Settled c' 0) (xs.flatMap fun x => x :: Stmt.routinesOfAll x.body)
      (ds'.flatMap Decl.routines) := by
  induction h generalizing xs with
  | nil =>
    cases hxs
    exact .nil
  | @leaf _ _ d ds ds' hleaf _ ih =>
    rw [List.flatMap_cons, Decl.routines_of_isLeaf hleaf]
    cases d with
    | var | data | array => exact ih hxs
    | struct | function => cases hleaf
  | @struct c c₁ c₂ c' site head fields fields' ty ds ds' hty hfields hlayout _ ih =>
    refine ih (hxs.imp (Routine.Registered.later fun id result ps hget => ?_))
    -- the type of the struct is not that of a function
    have hne : ty ≠ id := by
      rintro rfl
      obtain ⟨t, htable, -⟩ := layOutFields_eq_ok hlayout
      obtain ⟨name, hstruct⟩ := table?_fields htable
      obtain ⟨_, hafter, params, rfl⟩ := hfields.extends.types hget
      cases hafter.symm.trans hstruct
    have havoids := Target.avoids_fields hne
    rw [get?_layOutFields_of_avoids hlayout havoids, hfields.get?_types (lt_size_of_get? hget) havoids]
  | @function c c₁ c₂ c' site head params body body' scope ds ds' henter hbody hrest ih =>
    obtain ⟨x, xs, hx, hrests, rfl⟩ := List.forall₂_cons_right_iff.mp hxs
    have hopen := FunctionHead.enter_extends henter
    have hkeep : ∀ id result ps, c.types.get? id = some (.function result ps) → c₂.types.get? id = c.types.get? id := by
      intro id result ps hget
      rw [hbody.get?_types (Nat.lt_of_lt_of_le (lt_size_of_get? hget) hopen.size), FunctionHead.enter_types henter]
    have hsame : ∀ x y floor, Routine.Settled c₂ floor x y → Routine.Settled c' 0 x y := fun x y floor hxy =>
      hxy.later hrest.extends (Nat.zero_le _) fun e _ hlt => hrest.sameScope hlt
    obtain rfl : body = x.body := hx.body
    have hinner := hbody.routines (FunctionHead.enter_lt_length henter)
    refine List.rel_append (.cons ?_ ?_) (ih (hrests.imp (Routine.Registered.later hkeep)))
    · exact hsame _ _ _ (hbody.settles henter hx.ident hx.takes params)
    · exact hinner.imp fun x y => hsame x y _

end Check

theorem DeclList.filterMap_routine?_inOrder (seq : DeclList) :
    seq.inOrder.filterMap Decl.routine? = (seq.filterMap id).filterMap Decl.routine? := by
  refine DeclList.filterMap_inOrder (fun d hd => ?_) seq
  cases d with
  | struct => rfl
  | var | function | data | array => cases hd

theorem DeclList.routines_eq (program : DeclList) :
    DeclList.routines program = (program.inOrder.filterMap Decl.routine?).flatMap
      fun x => x :: Stmt.routinesOfAll x.body := by
  rw [DeclList.filterMap_routine?_inOrder, DeclList.routines, List.filterMap_eq_flatMap_toList Decl.routine?,
    List.flatMap_assoc]
  exact congrArg (fun f => List.flatMap f _) (funext Decl.routines_eq)

/-- Every function of a program that is registered and checked, at any depth, is settled. -/
theorem DeclList.check_routines {program registered checked : DeclList} {env : ScopeId} {s t t' u : Session}
    (hregister : program.register env (.scope env) s = (⟨registered, .ok ()⟩, t))
    (hcontext : t'.context = t.context) (hcheck : registered.check env t' = (⟨checked, .ok ()⟩, u)) :
    List.Forall₂ (Routine.Settled u.context 0) (DeclList.routines program) (DeclList.routines checked) := by
  have hregistered := (DeclList.register_entered hregister).routines
  rw [DeclList.filterMap_routine?_inOrder registered, ← hcontext] at hregistered
  rw [DeclList.routines_eq program]
  exact (DeclList.checkFrom_accepted hcheck).routines hregistered

end UnitCompiler
