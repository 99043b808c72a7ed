import UnitCompiler.Proofs.Outcomes
import UnitCompiler.Proofs.Stability
import UnitCompiler.Proofs.Traversal

namespace UnitCompiler

open Context

namespace CheckM

variable {α γ : Type} {free : Target → Prop} {floor : Nat} {c : Context}

@[simp] theorem after_ofExcept (x : Except Diagnostic α) (c : Context) : after (ofExcept x) c = c := by
  cases x <;> rfl

/-- The part before a pure question to the context does not count. -/
theorem steps_ofExcept {x : Except Diagnostic α} {f : α → CheckM γ}
    (hf : ∀ a, x = .ok a → RegisterSteps free floor c (after (f a) c)) :
    RegisterSteps free floor c (after (ofExcept x >>= f) c) := by
  refine after_bind Relation.ReflTransGen.trans (by rw [after_ofExcept]) ?_
  intro a t ht
  obtain ⟨hx, rfl⟩ := ofExcept_eq_ok ht
  exact hf a hx

theorem steps_insert {target : Target} (hfree : free target) (r : Record) (what : String) :
    RegisterSteps free floor c (after (CheckM.insert target r what) c) := by
  unfold after CheckM.insert
  cases h : c.insert target r what with
  | ok p => exact .single (.insert hfree h)
  | error d => exact .refl

theorem steps_insertOrRelease {target : Target} {mark : Nat} (hfree : free target)
    (hmark : floor ≤ mark) (r : Record) (what : String) :
    RegisterSteps free floor c (after (insertOrRelease mark target r what) c) := by
  unfold after insertOrRelease
  cases h : c.insert target r what with
  | ok p => exact .single (.insert hfree h)
  | error d => exact .single (.release c hmark)

end CheckM

section Register

variable {free : Target → Prop} {floor : Nat} {target : Target}

theorem Variable.initialized_steps (v : Variable) (env : ScopeId) (declared : TypeId)
    (value : Value) (c : Context) :
    RegisterSteps free floor c (after (v.initialized env declared value) c) := by
  unfold Variable.initialized
  rw [after_get]
  split
  · refine CheckM.steps_ofExcept fun lit _ => ?_
    exact .single (.addType c env (.const lit))
  · split
    · refine CheckM.steps_ofExcept fun lit _ => ?_
      refine after_bind Relation.ReflTransGen.trans (.single (.addType c env (.const lit))) ?_
      intro wrapped t _
      split <;> exact .refl
    · exact .refl

theorem Variable.register_steps (hfree : free target) (v : Variable) (env : ScopeId) {c : Context}
    (hc : floor ≤ c.types.size) :
    RegisterSteps free floor c (after (v.register env target) c) := by
  unfold Variable.register
  split
  · exact .refl
  rw [after_get]
  refine CheckM.steps_ofExcept fun declared _ => ?_
  cases v.init with
  | none =>
    dsimp only
    split
    · exact .refl
    · refine after_bind Relation.ReflTransGen.trans (CheckM.steps_insert hfree _ _) ?_
      exact fun _ _ _ => .refl
  | some init =>
    refine CheckM.steps_ofExcept fun value _ => ?_
    refine CheckM.steps_ofExcept fun value _ => ?_
    refine after_bind Relation.ReflTransGen.trans (v.initialized_steps env declared value c) ?_
    rintro ⟨r, kept⟩ t _
    refine after_bind Relation.ReflTransGen.trans (CheckM.steps_insertOrRelease hfree hc _ _) ?_
    exact fun _ _ _ => .refl

theorem DataItem.register_steps (d : DataItem) (env : ScopeId) (c : Context) :
    RegisterSteps free floor c (after (d.register env) c) := by
  unfold DataItem.register
  rw [after_get]
  refine CheckM.steps_ofExcept fun value _ => ?_
  split
  · exact .refl
  · exact .refl
  · exact .single (.label c)
  · exact .refl

theorem ArrayDecl.register_steps (hfree : free target) (v : ArrayDecl) (env : ScopeId)
    {c : Context} (hc : floor ≤ c.types.size) :
    RegisterSteps free floor c (after (v.register env target) c) := by
  unfold ArrayDecl.register
  rw [after_get]
  refine CheckM.steps_ofExcept fun element _ => ?_
  refine CheckM.steps_ofExcept fun sizes _ => ?_
  refine after_bind Relation.ReflTransGen.trans (.single (.label c)) ?_
  intro label t _
  refine after_bind Relation.ReflTransGen.trans (.single (.addType t env _)) ?_
  intro ty u _
  refine after_bind Relation.ReflTransGen.trans (CheckM.steps_insertOrRelease hfree hc _ _) ?_
  exact fun _ _ _ => .refl

theorem StructHead.register_steps (hfree : free target) (s : StructHead) (env : ScopeId)
    {c : Context} (hc : floor ≤ c.types.size) :
    RegisterSteps free floor c (after (s.register env target) c) := by
  unfold StructHead.register
  rw [after_get]
  refine after_bind Relation.ReflTransGen.trans (.single (.addType c env _)) ?_
  intro ty u _
  refine after_bind Relation.ReflTransGen.trans (CheckM.steps_insertOrRelease hfree hc _ _) ?_
  exact fun _ _ _ => .refl

theorem FunctionHead.register_steps {ν : Type} (hfree : free target)
    (hparams : ∀ ty, floor ≤ ty → free (.params ty)) (f : FunctionHead) (env : ScopeId) (params : ν)
    {runParams : TypeId → SessionM (Visited ν)}
    (hrun : ∀ ty s, free (.params ty) → floor ≤ s.context.types.size →
      RegisterSteps free floor s.context (runParams ty s).2.context)
    {s : Session} (hs : floor ≤ s.context.types.size) :
    RegisterSteps free floor s.context
      (f.register env target params runParams s).2.context := by
  obtain ⟨d, -, he⟩ | ⟨result, visited, t, -, hp, h⟩ :=
    f.register_cases env target params runParams s
  · rw [he]
  · -- the type of the function comes first, and its parameters are declared in it
    have h₁ : RegisterSteps free floor s.context (s.context.addType env (.function result .empty)).2 :=
      .single (.addType _ env _)
    have h₂ := hrun s.context.types.size
      { s with context := (s.context.addType env (.function result .empty)).2 }
      (hparams _ hs) (h₁.floor_le hs)
    rw [hp] at h₂
    obtain ⟨d, -, he⟩ | ⟨i, c, -, hi, he⟩ := h
    · rw [he]
      exact (h₁.trans h₂).tail (.release _ hs)
    · rw [he]
      exact (h₁.trans h₂).tail (.insert hfree hi)

theorem DeclList.inTwoSweeps_steps {sweep : Bool → SessionM (Visited DeclList)}
    (h : ∀ structs s, floor ≤ s.context.types.size →
      RegisterSteps free floor s.context (sweep structs s).2.context)
    {s : Session} (hs : floor ≤ s.context.types.size) :
    RegisterSteps free floor s.context (DeclList.inTwoSweeps sweep s).2.context := by
  have h₁ := h true s hs
  rcases hf : sweep true s with ⟨first, t⟩
  rw [hf] at h₁
  rw [DeclList.inTwoSweeps_run sweep hf]
  cases first.outcome with
  | error e => exact h₁
  | ok u => exact h₁.trans (h false t (h₁.floor_le hs))

mutual

theorem Decl.register_steps (hparams : ∀ ty, floor ≤ ty → free (.params ty)) (env : ScopeId) :
    ∀ (d : Decl) (target : Target) (s : Session), free target → floor ≤ s.context.types.size →
      RegisterSteps free floor s.context (d.register env target s).2.context
  | .var site v, target, s, hfree, hs => by
    simpa [Decl.register] using v.register_steps hfree env hs
  | .function site head params body, target, s, hfree, hs => by
    have h := head.register_steps hfree hparams env params (fun ty s hty hs =>
      DeclList.inTwoSweeps_steps (fun structs s hs =>
        DeclList.sweep_steps hparams env structs params (.params ty) 0 s hty hs) hs) hs
    rw [Decl.register]
    exact h
  | .struct site head fields, target, s, hfree, hs => by
    simpa [Decl.register] using head.register_steps hfree env hs
  | .data site d, target, s, _, _ => by
    simpa [Decl.register] using d.register_steps env s.context
  | .array site v, target, s, hfree, hs => by
    simpa [Decl.register] using v.register_steps hfree env hs

theorem DeclList.sweep_steps (hparams : ∀ ty, floor ≤ ty → free (.params ty)) (env : ScopeId)
    (structs : Bool) :
    ∀ (seq : List (Option Decl)) (target : Target) (index : Nat) (s : Session), free target →
      floor ≤ s.context.types.size →
      RegisterSteps free floor s.context (DeclList.sweep structs env target index seq s).2.context
  | [], target, index, s, _, _ => by
    rw [DeclList.sweep]
    exact .refl
  | none :: rest, target, index, s, hfree, hs => by
    rw [DeclList.sweep_none]
    exact DeclList.sweep_steps hparams env structs rest target (index + 1) s hfree hs
  | some d :: rest, target, index, s, hfree, hs => by
    by_cases hd : d.isStruct = structs
    · have h₁ := Decl.register_steps hparams env d target
        (Session.log (.visited .register index d.noun) s).2 hfree hs
      rcases h : d.register env target (Session.log (.visited .register index d.noun) s).2 with
        ⟨here, t⟩
      rw [h] at h₁
      rw [DeclList.sweep_visit hd env target index rest h]
      cases here.outcome with
      | error e => exact h₁
      | ok u =>
        exact h₁.trans (DeclList.sweep_steps hparams env structs rest target (index + 1) t hfree
          (h₁.floor_le hs))
    · rw [DeclList.sweep_pass hd]
      exact DeclList.sweep_steps hparams env structs rest target (index + 1) s hfree hs

end

theorem DeclList.register_steps (hparams : ∀ ty, floor ≤ ty → free (.params ty)) (hfree : free target)
    (env : ScopeId) (seq : DeclList) {s : Session} (hs : floor ≤ s.context.types.size) :
    RegisterSteps free floor s.context (seq.register env target s).2.context :=
  DeclList.inTwoSweeps_steps
    (fun structs s hs => DeclList.sweep_steps hparams env structs seq target 0 s hfree hs) hs

end Register

section Check

theorem Decl.register_checkSteps (env : ScopeId) (target : Target) (d : Decl) (s : Session) :
    CheckSteps s.context (d.register env target s).2.context :=
  RegisterSteps.checkSteps
    (Decl.register_steps (fun _ _ => trivial) env d target s trivial (Nat.zero_le _))

theorem DeclList.register_checkSteps (env : ScopeId) (target : Target) (seq : DeclList)
    (s : Session) : CheckSteps s.context (seq.register env target s).2.context :=
  RegisterSteps.checkSteps
    (DeclList.register_steps (fun _ _ => trivial) trivial env seq (Nat.zero_le _))

theorem CheckM.insertAll_steps (target : Target) (what : String) (f : Record → Record)
    (rs : List Record) (c : Context) :
    CheckSteps c (after (rs.forM fun r => CheckM.insert target (f r) what) c) := by
  induction rs generalizing c with
  | nil => exact .refl
  | cons r rs ih =>
    refine after_bind Relation.ReflTransGen.trans ?_ fun _ t _ => ih t
    exact RegisterSteps.checkSteps (CheckM.steps_insert trivial (f r) what)

theorem FunctionHead.enter_steps (f : FunctionHead) {env : ScopeId} {c : Context}
    (henv : env < c.scopes.length) : CheckSteps c (after (f.enter env) c) := by
  unfold FunctionHead.enter
  cases f.ty with
  | none => exact .refl
  | some ty =>
    dsimp only
    rw [after_get]
    split
    · rename_i result params _
      refine after_bind Relation.ReflTransGen.trans (.single (.openFunction henv result)) ?_
      intro scope t _
      refine after_bind Relation.ReflTransGen.trans (CheckM.insertAll_steps _ _ _ _ t) ?_
      exact fun _ _ _ => .refl
    · exact .refl

theorem Context.Declared.scopes_length {env : ScopeId} {c c' : Context} {rs : List Record}
    (h : Context.Declared env c rs c') : c'.scopes.length = c.scopes.length := by
  induction h with
  | nil => rfl
  | cons hins _ ih =>
    obtain ⟨t, -, -, rfl⟩ := insert_eq_ok hins
    exact ih.trans (setTable_scopes_length ..)

/-- The scope that a function is checked in is one of its own. -/
theorem FunctionHead.enter_lt_length {f : FunctionHead} {env scope : ScopeId} {c c' : Context}
    (h : f.enter env c = .ok scope c') : scope < c'.scopes.length := by
  obtain ⟨ty, result, params, -, -, rfl, hdeclared⟩ := FunctionHead.enter_eq_ok h
  rw [hdeclared.scopes_length]
  simp [openFunction]

theorem checkSteps_traversal : Traversal CheckSteps (fun env c => env < c.scopes.length)
    (fun env c => env < c.scopes.length) fun _ => True where
  refl _ := .refl
  trans := .trans
  outer_mono h henv := Nat.lt_of_lt_of_le henv h.length_le
  inner_mono h henv := Nat.lt_of_lt_of_le henv h.length_le
  outer_of_inner := id
  register d _ := Decl.register_checkSteps _ _ d _
  registered _ _ := trivial
  registerFields _ _ _ := DeclList.register_checkSteps _ _ _ _
  layOut _ _ h := .single (.layOut h)
  enter f henv := f.enter_steps henv
  entered _ h := FunctionHead.enter_lt_length h
  openBlock henv := .single (.openBlock henv)
  opened _ := by simp [openBlock, modifyScope]
  modifyLabel name f _ := .single (.modifyLabel _ _ name f)

theorem Decl.check_steps (d : Decl) {env : ScopeId} {s : Session} (henv : env < s.context.scopes.length) :
    CheckSteps s.context (d.check env s).2.context :=
  checkSteps_traversal.checkDecl trivial henv

theorem Stmt.check_steps (stmt : Stmt) {env : ScopeId} {s : Session} (henv : env < s.context.scopes.length) :
    CheckSteps s.context (stmt.check env s).2.context :=
  checkSteps_traversal.checkStmt stmt env s henv

theorem Stmt.checkAll_steps (body : List Stmt) {env : ScopeId} {s : Session} (henv : env < s.context.scopes.length) :
    CheckSteps s.context (Stmt.checkAll body env s).2.context :=
  checkSteps_traversal.checkAll body env s henv

theorem DeclList.checkFrom_steps {env : ScopeId} (seq : DeclList) (index : Nat) {s : Session}
    (henv : env < s.context.scopes.length) :
    CheckSteps s.context (DeclList.checkFrom env index seq s).2.context :=
  checkSteps_traversal.checkFrom (fun _ _ => trivial) index henv

end Check

/-- The contexts that passes over any sequences of declarations lead to, in any order and whether they
succeed or fail. -/
inductive Context.Reachable : Context → Prop
  | initial : Reachable .initial
  | register {s : Session} (h : Reachable s.context) (env : ScopeId)
      (henv : env < s.context.scopes.length) (target : Target) (seq : DeclList) :
      Reachable (seq.register env target s).2.context
  | check {s : Session} (h : Reachable s.context) (env : ScopeId)
      (henv : env < s.context.scopes.length) (seq : DeclList) :
      Reachable (seq.check env s).2.context
  | emit {β : Type} [Backend β] {s : Emitter β} (h : Reachable s.context) (seq : DeclList) :
      Reachable (after seq.emit s).context
  | emitData {β : Type} [Backend β] {s : Emitter β} (h : Reachable s.context) (seq : DeclList) :
      Reachable (after seq.emitData s).context

theorem Context.Owned.relabels {c c' : Context} (hc : Owned c) (h : Relabels c c') : Owned c' := by
  refine hc.of_types (Nat.le_of_eq (by rw [h.types])) fun s hs => Or.inr ⟨s, ?_, rfl⟩
  rwa [h.scopes] at hs

theorem Context.Reachable.owned {c : Context} (h : Reachable c) : Owned c := by
  induction h with
  | initial => exact owned_initial
  | register _ env _ target seq ih => exact (DeclList.register_checkSteps env target seq _).owned ih
  | check _ env henv seq ih => exact (seq.checkFrom_steps 0 henv).owned ih
  | emit _ seq ih => exact ih.relabels (DeclList.emitFrom_stable 0 seq _).context
  | emitData _ seq ih => exact ih.relabels (DeclList.emitData_stable seq _).context

end UnitCompiler
