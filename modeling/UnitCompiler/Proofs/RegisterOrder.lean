import UnitCompiler.Proofs.Reachable

namespace UnitCompiler

/-- The log does not influence the computation. -/
def SessionM.Blind {α : Type} (x : SessionM α) : Prop :=
  ∀ s t : Session, s.context = t.context → (x s).1 = (x t).1 ∧ (x s).2.context = (x t).2.context

namespace SessionM

variable {α γ : Type}

theorem blind_pure (a : α) : Blind (pure a : SessionM α) := fun _ _ h => ⟨rfl, h⟩

theorem Blind.bind {x : SessionM α} {f : α → SessionM γ} (hx : Blind x) (hf : ∀ a, Blind (f a)) :
    Blind (x >>= f) := by
  intro s t h
  obtain ⟨ha, hc⟩ := hx s t h
  change (f (x s).1 (x s).2).1 = (f (x t).1 (x t).2).1 ∧
    (f (x s).1 (x s).2).2.context = (f (x t).1 (x t).2).2.context
  rw [ha]
  exact hf _ _ _ hc

theorem blind_attempt (x : CheckM α) : Blind (Session.attempt x) := by
  intro s t h
  unfold Session.attempt
  rw [h]
  cases x t.context <;> exact ⟨rfl, rfl⟩

theorem blind_log (e : Event) : Blind (Session.log e) := fun _ _ h => ⟨rfl, h⟩

theorem blind_get {f : Session → SessionM γ} (hf : ∀ s, Blind (f s))
    (hc : ∀ s t : Session, s.context = t.context → f s = f t) : Blind (get >>= f) := by
  intro s t h
  simpa [hc s t h] using hf t s t h

end SessionM

open SessionM

theorem Visited.leaf_blind {ν α : Type} (old : ν) (wrap : α → ν) (x : CheckM α) :
    Blind (Visited.leaf old wrap x) := by
  refine (blind_attempt x).bind fun r => ?_
  cases r <;> exact blind_pure _

theorem FunctionHead.register_blind {ν : Type} (f : FunctionHead) (env : ScopeId) (target : Target)
    (params : ν) {runParams : TypeId → SessionM (Visited ν)} (h : ∀ ty, Blind (runParams ty)) :
    Blind (f.register env target params runParams) := by
  refine blind_get (fun s => ?_) fun s t h => by simp only [h]
  refine (blind_attempt _).bind fun r => ?_
  cases r with
  | error d => exact blind_pure _
  | ok ty =>
    refine (h ty).bind fun visited => ?_
    cases visited.outcome with
    | error d =>
      refine Blind.bind (fun t u ht => ⟨rfl, ?_⟩) fun _ => blind_pure _
      exact congrArg (Context.release · s.context.types.mark) ht
    | ok u =>
      refine (blind_attempt _).bind fun r => ?_
      cases r <;> exact blind_pure _

theorem DeclList.inTwoSweeps_blind {sweep : Bool → SessionM (Visited DeclList)}
    (h : ∀ structs, Blind (sweep structs)) : Blind (DeclList.inTwoSweeps sweep) := by
  refine (h true).bind fun first => ?_
  cases first.outcome with
  | error e => exact blind_pure _
  | ok u => exact (h false).bind fun _ => blind_pure _

mutual

theorem Decl.register_blind (env : ScopeId) :
    ∀ (d : Decl) (target : Target), Blind (d.register env target)
  | .var _ _, _ => by
    rw [Decl.register]
    exact Visited.leaf_blind _ _ _
  | .function _ head params _, target => by
    rw [Decl.register]
    refine Blind.bind (head.register_blind env target params fun ty => ?_) fun _ => blind_pure _
    exact DeclList.inTwoSweeps_blind fun structs =>
      DeclList.sweep_blind env structs params (.params ty) 0
  | .struct _ _ _, _ => by
    rw [Decl.register]
    exact Visited.leaf_blind _ _ _
  | .data _ _, _ => by
    rw [Decl.register]
    exact Visited.leaf_blind _ _ _
  | .array _ _, _ => by
    rw [Decl.register]
    exact Visited.leaf_blind _ _ _

theorem DeclList.sweep_blind (env : ScopeId) (structs : Bool) :
    ∀ (seq : List (Option Decl)) (target : Target) (index : Nat),
      Blind (DeclList.sweep structs env target index seq)
  | [], _, _ => by
    rw [DeclList.sweep]
    exact blind_pure _
  | none :: rest, target, index => by
    rw [DeclList.sweep]
    exact (DeclList.sweep_blind env structs rest target (index + 1)).bind fun _ => blind_pure _
  | some d :: rest, target, index => by
    have hrest := DeclList.sweep_blind env structs rest target (index + 1)
    rw [DeclList.sweep]
    split
    · refine (blind_log _).bind fun _ => (Decl.register_blind env d target).bind fun here => ?_
      cases here.outcome with
      | error e => exact ((blind_log _).bind fun _ => blind_pure _).bind fun _ => blind_pure _
      | ok u => exact hrest.bind fun _ => blind_pure _
    · exact hrest.bind fun _ => blind_pure _

end

/-- The declarations of a sequence as registration comes to them: the structs, then all others. -/
def DeclList.inOrder (seq : DeclList) : List Decl :=
  let decls := seq.filterMap id
  decls.filter Decl.isStruct ++ decls.filter fun d => !d.isStruct

/-- Registers declarations one after another, up to the first that fails. -/
def Decl.registerEach (env : ScopeId) (target : Target) :
    List Decl → SessionM (Except Diagnostic Unit)
  | [] => pure (.ok ())
  | d :: rest => do
    let here ← d.register env target
    match here.outcome with
    | .error e => pure (.error (d.stamp e))
    | .ok () => registerEach env target rest

theorem Decl.registerEach_append (env : ScopeId) (target : Target) (ds rest : List Decl)
    (s : Session) :
    Decl.registerEach env target (ds ++ rest) s =
      match Decl.registerEach env target ds s with
      | (.error e, t) => (.error e, t)
      | (.ok (), t) => Decl.registerEach env target rest t := by
  induction ds generalizing s with
  | nil => rfl
  | cons d ds ih =>
    rcases hd : d.register env target s with ⟨here, t⟩
    rw [List.cons_append, Decl.registerEach, Decl.registerEach, SessionM.bind_of_eq _ hd,
      SessionM.bind_of_eq _ hd]
    cases here.outcome with
    | error e => rfl
    | ok u => exact ih t

theorem Decl.registerEach_error {env : ScopeId} {target : Target} {ds : List Decl} {s u : Session}
    {e : Diagnostic} (h : Decl.registerEach env target ds s = (.error e, u)) :
    ∃ before d later t e', ds = before ++ d :: later ∧
      Decl.registerEach env target before s = (.ok (), t) ∧
      (d.register env target t).1.outcome = .error e' ∧ e = d.stamp e' ∧
      (d.register env target t).2 = u := by
  induction ds generalizing s with
  | nil => cases h
  | cons d ds ih =>
    rcases hd : d.register env target s with ⟨here, t⟩
    rw [Decl.registerEach, SessionM.bind_of_eq _ hd] at h
    cases ho : here.outcome with
    | error e' =>
      simp only [ho] at h
      cases h
      exact ⟨[], d, ds, s, e', rfl, rfl, by rw [hd]; exact ho, rfl, by rw [hd]⟩
    | ok v =>
      simp only [ho] at h
      obtain ⟨before, d', later, t', e', rfl, hb, hrest⟩ := ih h
      refine ⟨d :: before, d', later, t', e', rfl, ?_, hrest⟩
      rw [Decl.registerEach, SessionM.bind_of_eq _ hd]
      simp only [ho]
      exact hb

/-- A sweep registers the declarations that it selects, in text order. -/
theorem DeclList.sweep_eq_registerEach (structs : Bool) (env : ScopeId) (target : Target)
    (seq : DeclList) (index : Nat) {s t : Session} (h : s.context = t.context) :
    (DeclList.sweep structs env target index seq s).1.outcome =
        (Decl.registerEach env target ((seq.filterMap id).filter (·.isStruct = structs)) t).1 ∧
      (DeclList.sweep structs env target index seq s).2.context =
        (Decl.registerEach env target ((seq.filterMap id).filter (·.isStruct = structs)) t).2.context := by
  induction seq generalizing index s t with
  | nil => rw [DeclList.sweep]; exact ⟨rfl, h⟩
  | cons slot rest ih =>
    cases slot with
    | none =>
      rw [DeclList.sweep_none]
      exact ih (index + 1) h
    | some d =>
      by_cases hd : d.isStruct = structs
      · -- a sweep logs its visits, so the two sessions agree in their contexts only
        obtain ⟨hnode, hcontext⟩ := d.register_blind env target
          (Session.log (.visited .register index d.noun) s).2 t h
        rcases hr : d.register env target (Session.log (.visited .register index d.noun) s).2 with
          ⟨here, s'⟩
        rcases hr' : d.register env target t with ⟨here', t'⟩
        rw [hr, hr'] at hnode hcontext
        obtain rfl : here = here' := hnode
        rw [DeclList.sweep_visit hd env target index rest hr]
        simp only [List.filterMap_cons, id_eq, hd, decide_true, List.filter_cons_of_pos]
        rw [Decl.registerEach, SessionM.bind_of_eq _ hr']
        cases here.outcome with
        | error e => exact ⟨rfl, hcontext⟩
        | ok u => exact ih (index + 1) hcontext
      · rw [DeclList.sweep_pass hd]
        simp only [List.filterMap_cons, id_eq, hd, decide_false, Bool.false_eq_true, not_false_eq_true,
          List.filter_cons_of_neg]
        exact ih (index + 1) h

theorem DeclList.register_eq_registerEach (env : ScopeId) (target : Target) (seq : DeclList)
    (s : Session) :
    (seq.register env target s).1.outcome = (Decl.registerEach env target seq.inOrder s).1 ∧
      (seq.register env target s).2.context =
        (Decl.registerEach env target seq.inOrder s).2.context := by
  unfold DeclList.register DeclList.inOrder
  rcases h₁ : DeclList.sweep true env target 0 seq s with ⟨first, t⟩
  obtain ⟨ho, hc⟩ := DeclList.sweep_eq_registerEach true env target seq 0 (s := s) rfl
  rw [h₁] at ho hc
  simp only [Bool.decide_eq_true] at ho hc
  rw [DeclList.inTwoSweeps_run _ h₁, Decl.registerEach_append]
  rcases hs : Decl.registerEach env target ((seq.filterMap id).filter Decl.isStruct) s with ⟨r, t'⟩
  rw [hs] at ho hc
  cases hf : first.outcome with
  | error e =>
    rw [hf] at ho
    subst ho
    exact ⟨hf, hc⟩
  | ok u =>
    rw [hf] at ho
    subst ho
    have h := DeclList.sweep_eq_registerEach false env target seq 0 hc
    simp only [Bool.decide_eq_false] at h
    exact h

inductive Decl.Enrolled (env : ScopeId) : Decl → Decl → Prop
  | same (d : Decl) : Decl.Enrolled env d d
  | var (site : Site) (v v' : Variable) : Decl.Enrolled env (.var site v) (.var site v')
  | array (site : Site) (v v' : ArrayDecl) : Decl.Enrolled env (.array site v) (.array site v')
  | data {site : Site} {d d' : DataItem} {c c' : Context} (h : d.register env c = .ok d' c') :
      Decl.Enrolled env (.data site d) (.data site d')
  | struct {site : Site} {head head' : StructHead} {fields : List (Option Decl)} {target : Target} {c c' : Context}
      (h : head.register env target c = .ok head' c') :
      Decl.Enrolled env (.struct site head fields) (.struct site head' fields)
  | function (site : Site) (head head' : FunctionHead) (params params' : List (Option Decl)) (body : List Stmt) :
      Decl.Enrolled env (.function site head params body) (.function site head' params' body)

theorem Decl.register_enrolled (d : Decl) (env : ScopeId) (target : Target) (s : Session) :
    Decl.Enrolled env d (d.register env target s).1.node := by
  cases d with
  | var site v =>
    rw [Decl.register]
    cases h : v.register env target s.context with
    | ok v' c => rw [Visited.leaf_of_ok h]; exact .var site v v'
    | error e c => rw [Visited.leaf_of_error h]; exact .same _
  | array site v =>
    rw [Decl.register]
    cases h : v.register env target s.context with
    | ok v' c => rw [Visited.leaf_of_ok h]; exact .array site v v'
    | error e c => rw [Visited.leaf_of_error h]; exact .same _
  | data site item =>
    rw [Decl.register]
    cases h : item.register env s.context with
    | ok item' c => rw [Visited.leaf_of_ok h]; exact .data h
    | error e c => rw [Visited.leaf_of_error h]; exact .same _
  | struct site head fields =>
    rw [Decl.register]
    cases h : head.register env target s.context with
    | ok head' c => rw [Visited.leaf_of_ok h]; exact .struct h
    | error e c => rw [Visited.leaf_of_error h]; exact .same _
  | function site head params body =>
    rw [Decl.register]
    exact .function site head _ params _ body

section Slots

variable {R : Decl → Decl → Prop}

theorem DeclList.forall₂_refl (hrefl : ∀ d, R d d) (seq : DeclList) : List.Forall₂ (Option.Rel R) seq seq := by
  refine List.forall₂_same.mpr fun slot _ => ?_
  cases slot with
  | none => exact .none
  | some d => exact .some (hrefl d)

theorem DeclList.forall₂_merge {seq structs others : DeclList} (hstructs : List.Forall₂ (Option.Rel R) seq structs)
    (hothers : List.Forall₂ (Option.Rel R) seq others) : List.Forall₂ (Option.Rel R) seq (structs.merge others) := by
  unfold DeclList.merge
  induction hstructs generalizing others with
  | nil =>
    cases hothers
    exact .nil
  | cons hslot _ ih =>
    cases hothers with
    | cons hslot' hrest =>
      rw [List.zipWith_cons_cons]
      refine .cons ?_ (ih hrest)
      split
      · exact hslot
      · exact hslot'

variable {env : ScopeId} {target : Target}

theorem DeclList.sweep_forall₂ (hrefl : ∀ d, R d d) (hregister : ∀ d s, R d (d.register env target s).1.node)
    (structs : Bool) (index : Nat) (seq : DeclList) (s : Session) :
    List.Forall₂ (Option.Rel R) seq (DeclList.sweep structs env target index seq s).1.node := by
  induction seq generalizing index s with
  | nil => exact .nil
  | cons slot rest ih =>
    cases slot with
    | none =>
      rw [DeclList.sweep_none]
      exact .cons .none (ih _ _)
    | some d =>
      by_cases hd : d.isStruct = structs
      · rw [DeclList.sweep_visit hd env target index rest rfl]
        have hhere := hregister d (Session.log (.visited .register index d.noun) s).2
        split
        · exact .cons (.some hhere) (DeclList.forall₂_refl hrefl rest)
        · exact .cons (.some hhere) (ih _ _)
      · rw [DeclList.sweep_pass hd]
        exact .cons (.some (hrefl d)) (ih _ _)

/-- The slots of a sequence are related to what registration makes of them, if each declaration is. -/
theorem DeclList.register_forall₂ (hrefl : ∀ d, R d d) (hregister : ∀ d s, R d (d.register env target s).1.node)
    (seq : DeclList) (s : Session) : List.Forall₂ (Option.Rel R) seq (seq.register env target s).1.node := by
  unfold DeclList.register
  rw [DeclList.inTwoSweeps_run _ rfl]
  have hfirst := DeclList.sweep_forall₂ hrefl hregister true 0 seq s
  split
  · exact hfirst
  · exact DeclList.forall₂_merge hfirst (DeclList.sweep_forall₂ hrefl hregister false 0 seq _)

end Slots

end UnitCompiler
