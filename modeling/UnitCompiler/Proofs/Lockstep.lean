import UnitCompiler.Proofs.Copies
import UnitCompiler.Proofs.MirrorSteps
import UnitCompiler.Proofs.Ownership

namespace UnitCompiler

open Context

namespace Diagnostic.Resembles

variable {d d' : Diagnostic}

theorem withPosition (h : d.Resembles d') (pos : Span) :
    (d.withPosition pos).Resembles (d'.withPosition pos) :=
  ⟨h.kind, congrArg (Option.or · (some pos)) h.pos, h.file⟩

theorem stamp (h : d.Resembles d') (decl : Decl) : (decl.stamp d).Resembles (decl.stamp d') :=
  ⟨h.kind, congrArg (Option.or · (some decl.site.pos)) h.pos,
    congrArg (Option.or · decl.site.file) h.file⟩

end Diagnostic.Resembles

theorem Alike.refl {α : Type} (x : Except Diagnostic α) : Alike Eq x x := by
  cases x with
  | ok a => exact .ok rfl
  | error d => exact .error ⟨rfl, rfl, rfl⟩

theorem Alike.bind {α γ α' γ' : Type} {R : α → γ → Prop} {S : α' → γ' → Prop} {x : Except Diagnostic α}
    {y : Except Diagnostic γ} {f : α → Except Diagnostic α'} {g : γ → Except Diagnostic γ'}
    (h : Alike R x y) (hfg : ∀ a a', R a a' → Alike S (f a) (g a')) : Alike S (x >>= f) (y >>= g) := by
  cases h with
  | ok h => exact hfg _ _ h
  | error h => exact .error h

namespace CheckM

variable {α γ α' γ' : Type} {M : Context → Context → Prop} {R : α → γ → Prop} {S : α' → γ' → Prop}

/-- Both succeed, with related results in related contexts, or both fail alike. The contexts after a failure
are of no interest, since nothing goes on from there. -/
inductive Matched (M : Context → Context → Prop) (R : α → γ → Prop) :
    EStateM.Result Diagnostic Context α → EStateM.Result Diagnostic Context γ → Prop
  | ok {a : α} {a' : γ} {c c' : Context} (hc : M c c') (h : R a a') : Matched M R (.ok a c) (.ok a' c')
  | error {d d' : Diagnostic} {c c' : Context} (h : d.Resembles d') :
      Matched M R (.error d c) (.error d' c')

def Lockstep (M : Context → Context → Prop) (R : α → γ → Prop) (x : CheckM α) (y : CheckM γ) : Prop :=
  ∀ c c', M c c' → Matched M R (x c) (y c')

theorem Matched.bind {x : CheckM α} {y : CheckM γ} {f : α → CheckM α'} {g : γ → CheckM γ'} {c c' : Context}
    (h : Matched M R (x c) (y c')) (hfg : ∀ a a', R a a' → Lockstep M S (f a) (g a')) :
    Matched M S ((x >>= f) c) ((y >>= g) c') := by
  generalize hy : y c' = ry at h
  generalize hx : x c = rx at h
  cases h with
  | ok hc h =>
    rw [bind_of_ok f hx, bind_of_ok g hy]
    exact hfg _ _ h _ _ hc
  | error h =>
    rw [bind_of_error f hx, bind_of_error g hy]
    exact .error h

theorem Lockstep.bind {x : CheckM α} {y : CheckM γ} {f : α → CheckM α'} {g : γ → CheckM γ'}
    (h : Lockstep M R x y) (hfg : ∀ a a', R a a' → Lockstep M S (f a) (g a')) :
    Lockstep M S (x >>= f) (y >>= g) :=
  fun c c' hc => (h c c' hc).bind hfg

theorem lockstep_pure {a : α} {a' : γ} (h : R a a') : Lockstep M R (pure a) (pure a') :=
  fun _ _ hc => .ok hc h

theorem lockstep_throw {d d' : Diagnostic} (h : d.Resembles d') : Lockstep M R (throw d) (throw d') :=
  fun _ _ _ => .error h

theorem lockstep_get : Lockstep M M get get := fun _ _ hc => .ok hc hc

theorem lockstep_ofExcept {x : Except Diagnostic α} {y : Except Diagnostic γ} (h : Alike R x y) :
    Lockstep M R (ofExcept x) (ofExcept y) := by
  intro c c' hc
  cases h with
  | ok h => exact .ok hc h
  | error h => exact .error h

theorem lockstep_change {f : Context → α × Context} {g : Context → γ × Context}
    (h : ∀ {c c'}, M c c' → M (f c).2 (g c').2 ∧ R (f c).1 (g c').1) :
    Lockstep M R (change f) (change g) :=
  fun _ _ hc => .ok (h hc).1 (h hc).2

theorem lockstep_change? {f g : Context → Except Diagnostic Context}
    (h : ∀ {c c'}, M c c' → Alike M (f c) (g c')) :
    Lockstep M (fun _ _ => True) (change? f) (change? g) := by
  intro c c' hc
  have hfg := h hc
  unfold change?
  generalize g c' = y at hfg ⊢
  generalize f c = x at hfg ⊢
  cases hfg with
  | ok hc => exact .ok hc trivial
  | error h => exact .error h

variable {l : Shift} {own : Target → Prop} {b : Context} {target : Target} {r r' : Record}

theorem lockstep_insert (htarget : target.Open l own) (hr : r.Mirrors l r') (what : String) :
    Lockstep (Mirror l own b) (fun _ _ => True) (insert target r what) (insert (target.shift l) r' what) := by
  intro c c' hc
  have h := hc.insert htarget hr what
  unfold CheckM.insert
  generalize c'.insert (target.shift l) r' what = y at h ⊢
  generalize c.insert target r what = x at h ⊢
  cases h with
  | ok h => exact .ok h trivial
  | error h => exact .error h

theorem lockstep_insertOrRelease (htarget : target.Open l own) (hr : r.Mirrors l r') (what : String)
    (mark mark' : Nat) :
    Lockstep (Mirror l own b) (fun _ _ => True) (insertOrRelease mark target r what)
      (insertOrRelease mark' (target.shift l) r' what) := by
  intro c c' hc
  have h := hc.insert htarget hr what
  unfold insertOrRelease
  generalize c'.insert (target.shift l) r' what = y at h ⊢
  generalize c.insert target r what = x at h ⊢
  cases h with
  | ok h => exact .ok h trivial
  | error h => exact .error h

/-- The new type is behind the floor, in both contexts in the same place up to the move. -/
theorem lockstep_addType (env : ScopeId) {t t' : Ty} (ht : ∀ live, t.Mirrors l live t') :
    Lockstep (Mirror l own b) (fun ty ty' => ty' = l.ty ty ∧ l.floor ≤ ty)
      (change fun c => c.addType env t) (change fun c => c.addType (l.env env) t') :=
  lockstep_change fun hc => ⟨hc.addType env ht, hc.size_shift.symm, hc.floor⟩

theorem lockstep_freshLabel :
    Lockstep (Mirror l own b) l.Moves (change freshLabel) (change freshLabel) :=
  lockstep_change fun hc => ⟨hc.freshLabel, hc.moves_freshLabel⟩

end CheckM

open CheckM

section Register

variable {l : Shift} {own : Target → Prop} {b : Context} {target : Target}

theorem Variable.initialized_lockstep (v : Variable) (env : ScopeId) (declared : TypeId) (value : Value) :
    Lockstep (Mirror l own b) (fun p p' => p.1.Mirrors l p'.1 ∧ p'.2 = p.2.map (Value.shift l))
      (v.initialized env declared value)
      (v.initialized (l.env env) (l.ty declared) (value.shift l)) := by
  unfold Variable.initialized
  refine lockstep_get.bind fun c c' hc => ?_
  dsimp only
  rw [hc.fieldLiteral, hc.constLiteral]
  split
  · refine (lockstep_ofExcept (.refl _)).bind fun lit lit' hlit => ?_
    subst hlit
    refine (lockstep_addType env fun _ => .const).bind fun ty ty' hty => ?_
    exact lockstep_pure ⟨⟨rfl, rfl, rfl⟩, rfl⟩
  · split
    · refine (lockstep_ofExcept (.refl _)).bind fun lit lit' hlit => ?_
      subst hlit
      refine (lockstep_addType env fun _ => .const).bind fun ty ty' hty => ?_
      split
      · exact lockstep_pure ⟨⟨rfl, rfl, rfl⟩, rfl⟩
      · exact lockstep_pure ⟨⟨rfl, hty.1, rfl⟩, rfl⟩
    · exact lockstep_pure ⟨⟨rfl, rfl, rfl⟩, rfl⟩

theorem Variable.register_lockstep (v : Variable) (env : ScopeId) (htarget : target.Open l own) :
    Lockstep (Mirror l own b)
      (fun v₁ v₁' => v.registration = none → ∀ site, (Decl.var site v₁).Copies l (l.Live own) (.var site v₁'))
      (v.register env target) (v.register (l.env env) (target.shift l)) := by
  unfold Variable.register
  split
  · rename_i hsome
    -- a variable that is registered already is not the fresh one asked about
    refine lockstep_pure fun hnone => ?_
    rw [hnone] at hsome
    cases hsome
  · refine lockstep_get.bind fun c c' hc => ?_
    refine (lockstep_ofExcept (hc.declaredType v.tag env)).bind fun declared declared' hd => ?_
    subst hd
    cases v.init with
    | none =>
      dsimp only
      split
      · exact lockstep_throw ⟨rfl, rfl, rfl⟩
      · refine (lockstep_insert htarget ?_ _).bind fun _ _ _ => ?_
        · exact ⟨rfl, rfl, rfl⟩
        · exact lockstep_pure fun _ _ => .var rfl rfl rfl
    | some init =>
      refine (lockstep_ofExcept (hc.exprCheck env init)).bind fun value value' hvalue => ?_
      subst hvalue
      refine (lockstep_ofExcept (hc.cast value declared)).bind fun value value' hvalue => ?_
      subst hvalue
      refine (v.initialized_lockstep env declared value).bind fun p p' hp => ?_
      refine (lockstep_insertOrRelease htarget hp.1 _ _ _).bind fun _ _ _ => ?_
      refine lockstep_pure fun _ _ => .var rfl rfl ?_
      exact congrArg (fun kept => some (Registration.mk (l.env env) kept)) hp.2

theorem DataItem.register_lockstep (d : DataItem) (env : ScopeId) :
    Lockstep (Mirror l own b) (fun d₁ d₁' => Option.Rel (DataConst.Copies l) d₁.constant d₁'.constant)
      (d.register env) (d.register (l.env env)) := by
  unfold DataItem.register
  refine lockstep_get.bind fun c c' hc => ?_
  refine (lockstep_ofExcept (hc.exprCheck env d.expr)).bind fun value value' hvalue => ?_
  subst hvalue
  rw [value.shift_fold? l]
  cases value.fold? with
  | none => exact lockstep_throw ⟨rfl, rfl, rfl⟩
  | some lit =>
    cases lit with
    | null => exact lockstep_throw ⟨rfl, rfl, rfl⟩
    | string s => exact lockstep_freshLabel.bind fun _ _ hlabel => lockstep_pure (.some ⟨rfl, .some hlabel⟩)
    | int n => exact lockstep_pure (.some ⟨rfl, .none⟩)
    | float x => exact lockstep_pure (.some ⟨rfl, .none⟩)

theorem ArrayDecl.dimension_alike {c c' : Context} (hc : Mirror l own b c c') (env : ScopeId) (e : Expr) :
    Alike Eq (ArrayDecl.dimension c env e) (ArrayDecl.dimension c' (l.env env) e) := by
  unfold ArrayDecl.dimension
  refine (hc.exprCheck env e).bind fun value value' hvalue => ?_
  subst hvalue
  rw [value.shift_fold? l]
  cases value.fold? with
  | none => exact .error ⟨rfl, rfl, rfl⟩
  | some lit =>
    dsimp only
    split
    · exact .error ⟨rfl, rfl, rfl⟩
    · exact .ok rfl

theorem ArrayDecl.dimensions_alike {c c' : Context} (hc : Mirror l own b c c') (env : ScopeId)
    (dims : List Expr) :
    Alike Eq (dims.mapM (ArrayDecl.dimension c env)) (dims.mapM (ArrayDecl.dimension c' (l.env env))) := by
  induction dims with
  | nil => exact .ok rfl
  | cons e rest ih =>
    rw [List.mapM_cons, List.mapM_cons]
    refine (ArrayDecl.dimension_alike hc env e).bind fun n n' hn => ?_
    refine ih.bind fun sizes sizes' hsizes => ?_
    exact .ok (by rw [hn, hsizes])

theorem ArrayDecl.register_lockstep (v : ArrayDecl) (env : ScopeId) (htarget : target.Open l own) :
    Lockstep (Mirror l own b) (fun v₁ v₁' => ∀ site, (Decl.array site v₁).Copies l (l.Live own) (.array site v₁'))
      (v.register env target) (v.register (l.env env) (target.shift l)) := by
  unfold ArrayDecl.register
  refine lockstep_get.bind fun c c' hc => ?_
  refine (lockstep_ofExcept (hc.declaredType v.tag env)).bind fun element element' helement => ?_
  subst helement
  refine (lockstep_ofExcept (ArrayDecl.dimensions_alike hc env v.dims)).bind fun sizes sizes' hsizes => ?_
  subst hsizes
  refine lockstep_freshLabel.bind fun label label' hlabel => ?_
  refine (lockstep_addType env fun _ => .array hlabel).bind fun ty ty' hty => ?_
  refine (lockstep_insertOrRelease htarget ?_ _ _ _).bind fun _ _ _ => ?_
  · exact ⟨rfl, hty.1, rfl⟩
  · exact lockstep_pure fun _ => .array rfl rfl (congrArg some hty.1)

theorem StructHead.register_lockstep (s : StructHead) (env : ScopeId) (htarget : target.Open l own) :
    Lockstep (Mirror l own b)
      (fun h h' => h'.ident = h.ident ∧ h'.ty = h.ty.map l.ty ∧ ∀ ty, h.ty = some ty → l.floor ≤ ty)
      (s.register env target) (s.register (l.env env) (target.shift l)) := by
  unfold StructHead.register
  refine lockstep_get.bind fun c c' hc => ?_
  refine (lockstep_addType env fun _ => .struct fun _ => .nil).bind fun ty ty' hty => ?_
  refine (lockstep_insertOrRelease htarget ?_ _ _ _).bind fun _ _ _ => ?_
  · exact ⟨rfl, hty.1, rfl⟩
  · refine lockstep_pure ⟨rfl, congrArg some hty.1, ?_⟩
    intro id hid
    cases hid
    exact hty.2

theorem FunctionHead.declareType_lockstep (f : FunctionHead) (env : ScopeId) :
    Lockstep (Mirror l own b) (fun ty ty' => ty' = l.ty ty ∧ l.floor ≤ ty) (f.declareType env)
      (f.declareType (l.env env)) := by
  unfold FunctionHead.declareType
  refine lockstep_get.bind fun c c' hc => ?_
  refine (lockstep_ofExcept (hc.declaredType f.tag env)).bind fun result result' hresult => ?_
  subst hresult
  exact lockstep_addType env fun _ => .function .nil

end Register

inductive Visited.Matched {ν ν' : Type} (M : Context → Context → Prop) (R : ν → ν' → Prop) :
    Visited ν × Session → Visited ν' × Session → Prop
  | ok {node : ν} {node' : ν'} {s s' : Session} (hs : M s.context s'.context) (h : R node node') :
      Visited.Matched M R (⟨node, .ok ()⟩, s) (⟨node', .ok ()⟩, s')
  | error {node : ν} {node' : ν'} {s s' : Session} {d d' : Diagnostic} (h : d.Resembles d') :
      Visited.Matched M R (⟨node, .error d⟩, s) (⟨node', .error d'⟩, s')

/-- What the check of a declaration reads of its registration: the type, which has moved, of a function or a
struct. Where `q` holds, the check of a copy gives a copy. -/
inductive Decl.Echoes (l : Shift) (own : Target → Prop) (q : Prop) : Decl → Decl → Prop
  | var {site : Site} {v v' : Variable} (h : q → (Decl.var site v).Copies l (l.Live own) (.var site v')) :
      Decl.Echoes l own q (.var site v) (.var site v')
  | data {site : Site} {d d' : DataItem} (h : q → (Decl.data site d).Copies l (l.Live own) (.data site d')) :
      Decl.Echoes l own q (.data site d) (.data site d')
  | array {site : Site} {v v' : ArrayDecl} (h : q → (Decl.array site v).Copies l (l.Live own) (.array site v')) :
      Decl.Echoes l own q (.array site v) (.array site v')
  | struct {site : Site} {head head' : StructHead} {fields : List (Option Decl)}
      (hident : head'.ident = head.ident) (hty : head'.ty = head.ty.map l.ty)
      (hopen : ∀ ty, head.ty = some ty → l.Live own ty) (hfresh : q → DeclList.areFresh fields = true) :
      Decl.Echoes l own q (.struct site head fields) (.struct site head' fields)
  | function {site : Site} {head head' : FunctionHead} {params params' : List (Option Decl)} {body : List Stmt}
      (hident : head'.ident = head.ident) (hty : head'.ty = head.ty.map l.ty) :
      Decl.Echoes l own q (.function site head params body) (.function site head' params' body)

section Visits

variable {l : Shift} {own : Target → Prop} {b : Context} {target : Target}

theorem Visited.Matched.map {ν ν' μ μ' : Type} {M : Context → Context → Prop} {R : ν → ν' → Prop}
    {S : μ → μ' → Prop} {v : Visited ν} {v' : Visited ν'} {s s' : Session} {f : ν → μ} {g : ν' → μ'}
    (h : Visited.Matched M R (v, s) (v', s')) (hfg : ∀ n n', R n n' → S (f n) (g n')) :
    Visited.Matched M S (⟨f v.node, v.outcome⟩, s) (⟨g v'.node, v'.outcome⟩, s') := by
  cases h with
  | ok hs h => exact .ok hs (hfg _ _ h)
  | error h => exact .error h

theorem Visited.Matched.imp {ν ν' : Type} {M : Context → Context → Prop} {R S : ν → ν' → Prop}
    {x : Visited ν × Session} {y : Visited ν' × Session} (h : Visited.Matched M R x y)
    (hRS : ∀ n n', R n n' → S n n') : Visited.Matched M S x y := by
  cases h with
  | ok hs h => exact .ok hs (hRS _ _ h)
  | error h => exact .error h

theorem Visited.leaf_matched {ν α γ : Type} {M : Context → Context → Prop} {R : α → γ → Prop}
    {S : ν → ν → Prop} {x : CheckM α} {y : CheckM γ} {old old' : ν} {f : α → ν} {g : γ → ν} {s s' : Session}
    (h : Lockstep M R x y) (hfg : ∀ a a', R a a' → S (f a) (g a')) (hs : M s.context s'.context) :
    Visited.Matched M S (Visited.leaf old f x s) (Visited.leaf old' g y s') := by
  have hxy := h _ _ hs
  generalize hy : y s'.context = ry at hxy
  generalize hx : x s.context = rx at hxy
  cases hxy with
  | ok hc h =>
    rw [Visited.leaf_of_ok hx, Visited.leaf_of_ok hy]
    exact .ok hc (hfg _ _ h)
  | error h =>
    rw [Visited.leaf_of_error hx, Visited.leaf_of_error hy]
    exact .error h

theorem Session.attempt_matched {ν ν' : Type} {M : Context → Context → Prop} {R : ν → ν' → Prop}
    {x y : CheckM Unit} {node : ν} {node' : ν'} {s s' : Session} (h : Lockstep M (fun _ _ => True) x y)
    (hs : M s.context s'.context) (hnode : R node node') :
    Visited.Matched M R (⟨node, (Session.attempt x s).1⟩, (Session.attempt x s).2)
      (⟨node', (Session.attempt y s').1⟩, (Session.attempt y s').2) := by
  have hxy := h _ _ hs
  unfold Session.attempt
  generalize y s'.context = ry at hxy ⊢
  generalize x s.context = rx at hxy ⊢
  cases hxy with
  | ok hc _ => exact .ok hc hnode
  | error h => exact .error h

theorem DeclList.inTwoSweeps_matched {M : Context → Context → Prop} {q : Prop}
    {sweep sweep' : Bool → SessionM (Visited DeclList)}
    (h : ∀ structs s s', M s.context s'.context →
      Visited.Matched M (fun seq seq' => q → DeclList.Copies l (l.Live own) seq seq') (sweep structs s)
        (sweep' structs s'))
    {s s' : Session} (hs : M s.context s'.context) :
    Visited.Matched M (fun seq seq' => q → DeclList.Copies l (l.Live own) seq seq') (DeclList.inTwoSweeps sweep s)
      (DeclList.inTwoSweeps sweep' s') := by
  have hfirst := h true s s' hs
  generalize hy : sweep' true s' = y at hfirst
  generalize hx : sweep true s = x at hfirst
  cases hfirst with
  | error hd =>
    rw [DeclList.inTwoSweeps_run _ hx, DeclList.inTwoSweeps_run _ hy]
    exact .error hd
  | ok ht hstructs =>
    rw [DeclList.inTwoSweeps_run _ hx, DeclList.inTwoSweeps_run _ hy]
    exact (h false _ _ ht).map fun _ _ hothers hq => (hstructs hq).merge (hothers hq)

theorem FunctionHead.register_matched {ν : Type} (f : FunctionHead) (env : ScopeId) (params : ν)
    {runParams runParams' : TypeId → SessionM (Visited ν)}
    (hrun : ∀ ty s s', l.floor ≤ ty → Mirror l own b s.context s'.context →
      Visited.Matched (Mirror l own b) (fun _ _ => True) (runParams ty s) (runParams' (l.ty ty) s'))
    (htarget : target.Open l own) {s s' : Session} (hs : Mirror l own b s.context s'.context)
    {head head' : FunctionHead} {visited visited' : Visited ν} {t t' : Session}
    (h : f.register env target params runParams s = ((head, visited), t))
    (h' : f.register (l.env env) (target.shift l) params runParams' s' = ((head', visited'), t')) :
    Visited.Matched (Mirror l own b)
      (fun p p' : FunctionHead × ν => p'.1.ty = p.1.ty.map l.ty ∧ p'.1.ident = p.1.ident ∧
        p.1.env = f.env ∧ p'.1.env = f.env)
      (⟨(head, visited.node), visited.outcome⟩, t) (⟨(head', visited'.node), visited'.outcome⟩, t') := by
  have htype := f.declareType_lockstep env _ _ hs
  unfold FunctionHead.register at h h'
  rw [SessionM.bind_get] at h h'
  generalize hy : f.declareType (l.env env) s'.context = y at htype
  generalize hx : f.declareType env s.context = x at htype
  cases htype with
  | error hd =>
    rw [SessionM.bind_of_eq _ (Session.attempt_of_error hx)] at h
    rw [SessionM.bind_of_eq _ (Session.attempt_of_error hy)] at h'
    cases h
    cases h'
    exact .error hd
  | @ok ty ty' c c' hc hty =>
    obtain ⟨rfl, hfloor⟩ := hty
    rw [SessionM.bind_of_eq _ (Session.attempt_of_ok hx)] at h
    rw [SessionM.bind_of_eq _ (Session.attempt_of_ok hy)] at h'
    dsimp only at h h'
    have hparams := hrun ty { s with context := c } { s' with context := c' } hfloor hc
    generalize hy : runParams' (l.ty ty) { s' with context := c' } = y at hparams
    generalize hx : runParams ty { s with context := c } = x at hparams
    cases hparams with
    | error hd =>
      -- what the runs give back here is not read any more
      rw [SessionM.bind_of_eq _ hx] at h
      rw [SessionM.bind_of_eq _ hy] at h'
      cases h
      cases h'
      exact .error hd
    | @ok node node' u u' hu _ =>
      rw [SessionM.bind_of_eq _ hx] at h
      rw [SessionM.bind_of_eq _ hy] at h'
      dsimp only at h h'
      have hr : Record.Mirrors l { name := f.ident, ty := ty, kind := .func }
          { name := f.ident, ty := l.ty ty, kind := .func } := ⟨rfl, rfl, rfl⟩
      have hins := lockstep_insertOrRelease htarget hr "identifier"
        s.context.types.mark s'.context.types.mark _ _ hu
      generalize hy : insertOrRelease _ _ _ _ u'.context = y at hins
      generalize hx : insertOrRelease _ _ _ _ u.context = x at hins
      cases hins with
      | error hd =>
        rw [SessionM.bind_of_eq _ (Session.attempt_of_error hx)] at h
        rw [SessionM.bind_of_eq _ (Session.attempt_of_error hy)] at h'
        cases h
        cases h'
        exact .error hd
      | ok hc _ =>
        rw [SessionM.bind_of_eq _ (Session.attempt_of_ok hx)] at h
        rw [SessionM.bind_of_eq _ (Session.attempt_of_ok hy)] at h'
        cases h
        cases h'
        exact .ok hc ⟨rfl, rfl, rfl, rfl⟩

mutual

theorem Decl.register_matched (env : ScopeId) : ∀ (d : Decl) (target : Target) (s s' : Session),
    target.Open l own → Mirror l own b s.context s'.context →
      Visited.Matched (Mirror l own b)
        (fun n n' => n.Echoes l own (d.isFresh = true) n' ∧ (d.isFresh = true → n.Copies l (l.Live own) n'))
        (d.register env target s) (d.register (l.env env) (target.shift l) s')
  | .var site v, target, s, s', htarget, hs => by
    rw [Decl.register, Decl.register]
    refine Visited.leaf_matched (v.register_lockstep env htarget) (fun v₁ v₁' hv => ?_) hs
    have hcopy : (Decl.var site v).isFresh = true → (Decl.var site v₁).Copies l (l.Live own) (.var site v₁') := by
      rw [Decl.isFresh, Option.isNone_iff_eq_none]
      exact fun hfresh => hv hfresh site
    exact ⟨.var hcopy, hcopy⟩
  | .function site head params body, target, s, s', htarget, hs => by
    -- the parameters go into the type of the function, which is new on both sides
    have hparams := fun (ty : TypeId) (s s' : Session) (hty : l.floor ≤ ty)
        (hs : Mirror l own b s.context s'.context) =>
      (DeclList.inTwoSweeps_matched (fun structs s s' hs =>
        DeclList.sweep_matched env structs params (.params ty) 0 s s' hty hs) hs).imp fun _ _ _ => trivial
    rw [Decl.register, Decl.register]
    rcases h : head.register env target params (fun ty => DeclList.inTwoSweeps fun structs =>
      DeclList.sweep structs env (.params ty) 0 params) s with ⟨⟨head₁, visited⟩, t⟩
    rcases h' : head.register (l.env env) (target.shift l) params (fun ty => DeclList.inTwoSweeps fun structs =>
      DeclList.sweep structs (l.env env) (.params ty) 0 params) s' with ⟨⟨head₁', visited'⟩, t'⟩
    rw [SessionM.bind_of_eq _ h, SessionM.bind_of_eq _ h']
    have hmatched := head.register_matched env params hparams htarget hs h h'
    refine hmatched.map (f := fun p => Decl.function site p.1 p.2 body)
      (g := fun p => Decl.function site p.1 p.2 body) fun _ _ hhead => ?_
    obtain ⟨hty, hident, henv, henv'⟩ := hhead
    refine ⟨.function hident hty, fun hfresh => ?_⟩
    simp only [Decl.isFresh, Bool.and_eq_true, Option.isNone_iff_eq_none] at hfresh
    obtain ⟨⟨⟨-, hnone⟩, -⟩, hbody⟩ := hfresh
    refine .function hident ?_ ?_ (Stmt.copiesAll_of_areFresh hbody)
    -- a fresh function has no scope yet, so there is none to renumber
    · rw [henv, henv', hnone]
      rfl
    · rw [henv, hnone]
      nofun
  | .struct site head fields, target, s, s', htarget, hs => by
    rw [Decl.register, Decl.register]
    refine Visited.leaf_matched (head.register_lockstep env htarget) (fun h h' hh => ?_) hs
    obtain ⟨hident, hty, hfloor⟩ := hh
    have hfresh : (Decl.struct site head fields).isFresh = true → DeclList.areFresh fields = true := by
      rw [Decl.isFresh, Bool.and_eq_true]
      exact And.right
    have hlive : ∀ ty, h.ty = some ty → l.Live own ty := fun ty hty => Or.inr (hfloor ty hty)
    refine ⟨.struct hident hty hlive hfresh, fun h => ?_⟩
    exact .struct hident hty hlive (DeclList.copies_of_areFresh (hfresh h))
  | .data site d, target, s, s', htarget, hs => by
    rw [Decl.register, Decl.register]
    exact Visited.leaf_matched (d.register_lockstep env)
      (fun _ _ hd => ⟨.data fun _ => .data hd, fun _ => .data hd⟩) hs
  | .array site v, target, s, s', htarget, hs => by
    rw [Decl.register, Decl.register]
    exact Visited.leaf_matched (v.register_lockstep env htarget)
      (fun _ _ hv => ⟨.array fun _ => hv site, fun _ => hv site⟩) hs

theorem DeclList.sweep_matched (env : ScopeId) (structs : Bool) :
    ∀ (seq : List (Option Decl)) (target : Target) (index : Nat) (s s' : Session),
    target.Open l own → Mirror l own b s.context s'.context →
      Visited.Matched (Mirror l own b) (fun n n' => DeclList.areFresh seq = true → DeclList.Copies l (l.Live own) n n')
        (DeclList.sweep structs env target index seq s)
        (DeclList.sweep structs (l.env env) (target.shift l) index seq s')
  | [], target, index, s, s', htarget, hs => by
    rw [DeclList.sweep, DeclList.sweep]
    exact .ok hs fun _ => .nil
  | none :: rest, target, index, s, s', htarget, hs => by
    rw [DeclList.sweep_none, DeclList.sweep_none]
    refine (DeclList.sweep_matched env structs rest target (index + 1) s s' htarget hs).map
      fun _ _ hrest hfresh => .skip (hrest ?_)
    rwa [DeclList.areFresh] at hfresh
  | some d :: rest, target, index, s, s', htarget, hs => by
    by_cases hd : d.isStruct = structs
    · have hhere := Decl.register_matched env d target (Session.log (.visited .register index d.noun) s).2
        (Session.log (.visited .register index d.noun) s').2 htarget hs
      -- both sides visit the slot, and they fail together
      generalize hy : d.register (l.env env) (target.shift l) _ = y at hhere
      generalize hx : d.register env target _ = x at hhere
      cases hhere with
      | error he =>
        rw [DeclList.sweep_visit hd env target index rest hx, DeclList.sweep_visit hd _ _ index rest hy]
        exact .error (he.stamp d)
      | ok ht hcopy =>
        rw [DeclList.sweep_visit hd env target index rest hx, DeclList.sweep_visit hd _ _ index rest hy]
        refine (DeclList.sweep_matched env structs rest target (index + 1) _ _ htarget ht).map
          fun _ _ hrest hfresh => ?_
        rw [DeclList.areFresh, Bool.and_eq_true] at hfresh
        exact .cons (hcopy.2 hfresh.1) (hrest hfresh.2)
    -- the other sweep is the one for this slot, and a fresh declaration is a copy of itself
    · rw [DeclList.sweep_pass hd, DeclList.sweep_pass hd]
      refine (DeclList.sweep_matched env structs rest target (index + 1) s s' htarget hs).map
        fun _ _ hrest hfresh => ?_
      rw [DeclList.areFresh, Bool.and_eq_true] at hfresh
      exact .cons (Decl.copies_of_isFresh hfresh.1) (hrest hfresh.2)

end

theorem DeclList.register_matched (env : ScopeId) (seq : DeclList) (htarget : target.Open l own)
    {s s' : Session} (hs : Mirror l own b s.context s'.context) :
    Visited.Matched (Mirror l own b) (fun n n' => DeclList.areFresh seq = true → DeclList.Copies l (l.Live own) n n')
      (seq.register env target s) (seq.register (l.env env) (target.shift l) s') :=
  DeclList.inTwoSweeps_matched (fun structs s s' hs =>
    DeclList.sweep_matched env structs seq target 0 s s' htarget hs) hs

theorem CheckM.lockstep_insertAll {scope : ScopeId} (hscope : scope ≠ root) {params params' : Table}
    (h : params.Mirrors l params') :
    Lockstep (Mirror l own b) (fun _ _ => True)
      (params.records.forM fun p =>
        CheckM.insert (.scope scope) { name := p.name, ty := p.ty, kind := p.kind } "identifier")
      (params'.records.forM fun p =>
        CheckM.insert (.scope (l.env scope)) { name := p.name, ty := p.ty, kind := p.kind } "identifier") := by
  unfold Table.Mirrors at h
  generalize params.records = rs, params'.records = rs' at h ⊢
  induction h with
  | nil => exact lockstep_pure trivial
  | cons hr _ ih =>
    have hopen : (Target.scope scope).Open l own := fun hroot => absurd hroot hscope
    refine (lockstep_insert hopen ?_ _).bind fun _ _ _ => ih
    exact ⟨hr.name, hr.ty, hr.kind⟩

theorem FunctionHead.enter_matched {f f' : FunctionHead} (hty : f'.ty = f.ty.map l.ty) {env : ScopeId}
    {c c' : Context} (hc : Mirror l own b c c') (henv : env < c.scopes.length) :
    CheckM.Matched (Mirror l own b) (fun scope scope' => scope' = l.env scope ∧ scope ≠ root)
      (f.enter env c) (f'.enter (l.env env) c') := by
  unfold FunctionHead.enter
  rw [hty]
  cases f.ty with
  | none => exact .error ⟨rfl, rfl, rfl⟩
  | some ty =>
    have ht := hc.get? ty
    dsimp only [Option.map_some]
    rw [bind_get, bind_get]
    generalize c'.types.get? (l.ty ty) = y at ht ⊢
    generalize c.types.get? ty = x at ht ⊢
    cases ht with
    | none => exact .error ⟨rfl, rfl, rfl⟩
    | some ht =>
      cases ht with
      | @function result params params' hparams =>
        have hopen := hc.openFunction henv result (l.ty result)
        have hne : c.scopes.length ≠ root := Nat.ne_of_gt hc.pos
        dsimp only
        rw [CheckM.bind_change, CheckM.bind_change]
        have hinsert := CheckM.lockstep_insertAll hne hparams _ _ hopen
        rw [hc.length_shift] at hinsert
        exact hinsert.bind fun _ _ _ => lockstep_pure ⟨hc.length_shift.symm, hne⟩
      | _ => exact .error ⟨rfl, rfl, rfl⟩

/-- A declaration and its echo are checked alike, if their bodies are. -/
theorem Decl.checkWith_matched {d d' : Decl} {q : Prop} (hd : d.Echoes l own q d') {env : ScopeId}
    {runBody runBody' : ScopeId → SessionM (Visited (List Stmt))}
    (hrun : ∀ scope s s', scope ≠ root → scope < s.context.scopes.length →
      Mirror l own b s.context s'.context →
      Visited.Matched (Mirror l own b) (fun n n' => q → Stmt.CopiesAll l (l.Live own) n n') (runBody scope s)
        (runBody' (l.env scope) s'))
    {s s' : Session} (hs : Mirror l own b s.context s'.context) (henv : env < s.context.scopes.length) :
    Visited.Matched (Mirror l own b) (fun n n' => q → n.Copies l (l.Live own) n') (d.checkWith env runBody s)
      (d'.checkWith (l.env env) runBody' s') := by
  cases hd with
  | var hcopy | data hcopy | array hcopy => exact .ok hs hcopy
  | struct hident hty hopen hfresh =>
    rename_i head head' fields
    rw [Decl.checkWith, Decl.checkWith, hty]
    cases hhead : head.ty with
    | none => exact .error ⟨rfl, rfl, rfl⟩
    | some ty =>
      -- the table of fields is one that both sides may change
      have htarget : (Target.fields ty).Open l own := hopen ty hhead
      have hfields := DeclList.register_matched env fields htarget hs
      generalize hy : DeclList.register (l.env env) ((Target.fields ty).shift l) fields s' = y at hfields
      generalize hx : DeclList.register env (.fields ty) fields s = x at hfields
      change Visited.Matched _ _ ((DeclList.register env (.fields ty) fields >>= _) s)
        ((DeclList.register (l.env env) ((Target.fields ty).shift l) fields >>= _) s')
      rw [SessionM.bind_of_eq _ hx, SessionM.bind_of_eq _ hy]
      cases hfields with
      | error he => exact .error he
      | ok ht hnodes =>
        exact Session.attempt_matched (lockstep_change? fun hc => hc.layOutFields htarget _) ht
          fun hq => .struct hident hty hopen (hnodes (hfresh hq))
  | function hident hty =>
    rename_i head head' params params' body
    have henter := FunctionHead.enter_matched hty hs henv
    rw [Decl.checkWith, Decl.checkWith]
    generalize hy : head'.enter (l.env env) s'.context = y at henter
    generalize hx : head.enter env s.context = x at henter
    cases henter with
    | error he =>
      rw [SessionM.bind_of_eq _ (Session.attempt_of_error hx), SessionM.bind_of_eq _ (Session.attempt_of_error hy)]
      exact .error he
    | ok hc hscope =>
      -- the scope of a function is never the root
      obtain ⟨rfl, hne⟩ := hscope
      rw [SessionM.bind_of_eq _ (Session.attempt_of_ok hx), SessionM.bind_of_eq _ (Session.attempt_of_ok hy)]
      refine (hrun _ { s with context := _ } { s' with context := _ } hne
        (FunctionHead.enter_lt_length hx) hc).map fun _ _ hbody hq => .function hident rfl ?_ (hbody hq)
      intro e he
      cases he
      exact hne

theorem Visited.Matched.mapError {ν ν' μ μ' : Type} {M : Context → Context → Prop} {R : ν → ν' → Prop}
    {S : μ → μ' → Prop} {v : Visited ν} {v' : Visited ν'} {s s' : Session}
    (h : Visited.Matched M R (v, s) (v', s')) (d : Decl) {f : ν → μ} {g : ν' → μ'}
    (hfg : ∀ n n', R n n' → S (f n) (g n')) :
    Visited.Matched M S (⟨f v.node, v.outcome.mapError d.stamp⟩, s)
      (⟨g v'.node, v'.outcome.mapError d.stamp⟩, s') := by
  cases h with
  | ok hs h => exact .ok hs (hfg _ _ h)
  | error he => exact .error (he.stamp d)

mutual

theorem Decl.checkBody_matched : ∀ (d : Decl) (env : ScopeId) (s s' : Session), env ≠ root →
    env < s.context.scopes.length → Mirror l own b s.context s'.context →
      Visited.Matched (Mirror l own b) (fun n n' => Stmt.areFresh d.body = true → Stmt.CopiesAll l (l.Live own) n n')
        (d.checkBody env s) (d.checkBody (l.env env) s')
  | .function _ _ _ body, env, s, s', hne, henv, hs => by
    rw [Decl.checkBody, Decl.checkBody]
    exact Stmt.checkAll_matched body env s s' hne henv hs
  | .var _ _, _, _, _, _, _, hs | .struct _ _ _, _, _, _, _, _, hs | .data _ _, _, _, _, _, _, hs
  | .array _ _, _, _, _, _, _, hs => .ok hs fun _ => .nil

theorem Stmt.check_matched : ∀ (stmt : Stmt) (env : ScopeId) (s s' : Session), env ≠ root →
    env < s.context.scopes.length → Mirror l own b s.context s'.context →
      Visited.Matched (Mirror l own b) (fun n n' => stmt.isFresh = true → n.Copies l (l.Live own) n') (stmt.check env s)
        (stmt.check (l.env env) s')
  | .declare d, env, s, s', hne, henv, hs => by
    have hlength := (Decl.register_checkSteps env (.scope env) d s).length_le
    have hregister := Decl.register_matched env d (.scope env) s s' (fun hroot => absurd hroot hne) hs
    have hbody := Decl.checkBody_matched d
    rw [Stmt.check, Stmt.check]
    change Visited.Matched _ _ ((d.register env (.scope env) >>= _) s)
      ((d.register (l.env env) ((Target.scope env).shift l) >>= _) s')
    generalize hy : d.register (l.env env) ((Target.scope env).shift l) s' = y at hregister
    generalize hx : d.register env (.scope env) s = x at hregister hlength
    rw [SessionM.bind_of_eq _ hx, SessionM.bind_of_eq _ hy]
    cases hregister with
    | error he => exact .error (he.stamp d)
    | ok ht hnodes =>
      -- both bodies are that of the declaration before its registration
      have hcheck := Decl.checkWith_matched hnodes.1
        (fun scope s s' hne hlt hs => (hbody scope s s' hne hlt hs).imp
          fun _ _ hcopies hfresh => hcopies (Decl.body_areFresh hfresh))
        ht (Nat.lt_of_lt_of_le henv hlength)
      exact hcheck.mapError d fun _ _ hn hfresh => .declare (hn (by rwa [Stmt.isFresh] at hfresh))
  | .block body span, env, s, s', hne, henv, hs => by
    have hopen := hs.openBlock henv hne
    have hlt : s.context.scopes.length < (s.context.openBlock env).2.scopes.length := by
      simp [openBlock, Context.modifyScope]
    have hbody := Stmt.checkAll_matched body s.context.scopes.length
      { s with context := (s.context.openBlock env).2 } { s' with context := (s'.context.openBlock (l.env env)).2 }
      (Nat.ne_of_gt hs.pos) hlt hopen
    -- the block has the same place in both contexts up to the move
    rw [hs.length_shift] at hbody
    rw [Stmt.check_block, Stmt.check_block]
    refine hbody.map (f := (Stmt.block · span)) (g := (Stmt.block · span)) fun _ _ hn hfresh => ?_
    rw [Stmt.isFresh] at hfresh
    exact .block (hn hfresh)
  | .goto label span old, env, s, s', hne, henv, hs => by
    rw [Stmt.check_goto, Stmt.check_goto]
    refine .ok (hs.modifyLabel hne label _) fun _ => .goto ?_
    intro e he
    cases he
    exact hne
  | .label name span old, env, s, s', hne, henv, hs => by
    rw [Stmt.check, Stmt.check]
    refine Visited.leaf_matched (lockstep_change? fun hc => hc.placeLabel hne name span)
      (fun _ _ _ _ => .label ?_) hs
    intro e he
    cases he
    exact hne
  | .eval e old, env, s, s', hne, henv, hs => by
    rw [Stmt.check, Stmt.check]
    refine Visited.leaf_matched (fun c c' hc => lockstep_ofExcept (hc.exprCheck env e) c c' hc)
      (fun v v' hv _ => ?_) hs
    subst hv
    exact .eval

theorem Stmt.checkAll_matched : ∀ (body : List Stmt) (env : ScopeId) (s s' : Session), env ≠ root →
    env < s.context.scopes.length → Mirror l own b s.context s'.context →
      Visited.Matched (Mirror l own b) (fun n n' => Stmt.areFresh body = true → Stmt.CopiesAll l (l.Live own) n n')
        (Stmt.checkAll body env s) (Stmt.checkAll body (l.env env) s')
  | [], env, s, s', hne, henv, hs => by
    rw [Stmt.checkAll, Stmt.checkAll]
    exact .ok hs fun _ => .nil
  | stmt :: rest, env, s, s', hne, henv, hs => by
    have hlength := (stmt.check_steps henv).length_le
    have hhere := Stmt.check_matched stmt env s s' hne henv hs
    rw [Stmt.checkAll, Stmt.checkAll]
    generalize hy : stmt.check (l.env env) s' = y at hhere
    generalize hx : stmt.check env s = x at hhere hlength
    rw [SessionM.bind_of_eq _ hx, SessionM.bind_of_eq _ hy]
    cases hhere with
    | error he => exact .error (he.withPosition stmt.span)
    | ok ht hnode =>
      refine (Stmt.checkAll_matched rest env _ _ hne (Nat.lt_of_lt_of_le henv hlength) ht).map
        fun _ _ hrest hfresh => ?_
      rw [Stmt.areFresh, Bool.and_eq_true] at hfresh
      exact .cons (hnode hfresh.1) (hrest hfresh.2)

end

end Visits

end UnitCompiler
