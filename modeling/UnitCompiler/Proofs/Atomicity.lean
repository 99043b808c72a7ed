import UnitCompiler.Proofs.RegisterOrder

namespace UnitCompiler

open Context

def Scope.below (mark : Nat) (s : Scope) : Scope :=
  { s with types := s.types.filter fun id => !Arena.isFrom id mark }

namespace Context

theorem release_eq (c : Context) (mark : Nat) :
    c.release mark = ⟨c.types.truncate mark, c.scopes.map (Scope.below mark), c.labels⟩ := rfl

theorem release_self {c : Context} (hc : Owned c) : c.release c.types.size = c := by
  have htypes : c.types.truncate c.types.size = c.types := by
    have h : max c.types.types.length Arena.builtin.length = c.types.types.length :=
      Nat.max_eq_left hc.builtin
    simp only [Arena.truncate, Arena.size, h, List.take_length]
  have hscopes : c.scopes.map (Scope.below c.types.size) = c.scopes := by
    rw [List.map_congr_left (g := id), List.map_id]
    intro s hs
    have hs : (s.types.filter fun id => !Arena.isFrom id c.types.size) = s.types := by
      rw [List.filter_eq_self]
      intro id hid
      have := hc.listed s hs id hid
      simpa [Arena.isFrom] using this
    unfold Scope.below
    rw [hs]
    rfl
  rw [release_eq, htypes, hscopes]

theorem release_release (c : Context) {mark later : Nat} (h : mark ≤ later) :
    (c.release later).release mark = c.release mark := by
  have htypes : (c.types.truncate later).truncate mark = c.types.truncate mark := by
    simp only [Arena.truncate, List.take_take]
    congr 2
    omega
  have hscope (s : Scope) : (s.below later).below mark = s.below mark := by
    unfold Scope.below
    simp only [List.filter_filter]
    congr 1
    refine List.filter_congr fun id _ => ?_
    simp only [Arena.isFrom]
    grind
  simp only [release_eq, htypes, List.map_map]
  congr 1
  exact List.map_congr_left fun s _ => hscope s

theorem map_below_modify (scopes : List Scope) (env : ScopeId) (mark : Nat) {f : Scope → Scope}
    (hf : ∀ s : Scope, (f s).below mark = s.below mark) :
    (scopes.modify env f).map (Scope.below mark) = scopes.map (Scope.below mark) := by
  apply List.ext_getElem?
  intro i
  simp only [List.getElem?_map, List.getElem?_modify]
  cases scopes[i]? with
  | none => rfl
  | some s =>
    by_cases h : env = i
    · simp [h, hf]
    · simp [h]

theorem release_addType (c : Context) (env : ScopeId) (t : Ty) {mark : Nat}
    (hb : Arena.builtin.length ≤ mark) (hmark : mark ≤ c.types.size) :
    (c.addType env t).2.release mark = c.release mark := by
  have htypes : (c.types.add t).2.truncate mark = c.types.truncate mark := by
    simp only [Arena.add, Arena.truncate, Nat.max_eq_left hb]
    rw [List.take_append_of_le_length hmark]
  have hnew : (!Arena.isFrom c.types.size mark) = false := by simp [Arena.isFrom, hmark]
  simp only [addType, modifyScope, release_eq, htypes]
  rw [map_below_modify]
  intro s
  simp [Scope.below, List.filter_append, hnew]

theorem release_setTable_params (c : Context) (ty : TypeId) (t : Table) {mark : Nat}
    (hb : Arena.builtin.length ≤ mark) (hmark : mark ≤ ty) :
    (c.setTable (.params ty) t).release mark = c.release mark := by
  unfold setTable
  dsimp only
  split
  · simp only [release_eq]
    congr 1
    simp only [Arena.set, Arena.truncate, Nat.max_eq_left hb]
    rw [List.take_set_of_le hmark]
  · rfl

def ParamsFrom (mark : Nat) (target : Target) : Prop := ∃ ty, mark ≤ ty ∧ target = .params ty

/-- Registration into the parameter tables of new types can be undone by giving these types back. -/
theorem RegisterStep.relabels_release {mark : Nat} (hb : Arena.builtin.length ≤ mark) {c c' : Context}
    (h : RegisterStep (ParamsFrom mark) mark c c') (hc : mark ≤ c.types.size) :
    Relabels (c.release mark) (c'.release mark) := by
  cases h with
  | label => exact ⟨rfl, rfl, Nat.le_succ _⟩
  | addType env t =>
    rw [release_addType c env t hb hc]
    exact .refl _
  | insert hfree hins =>
    obtain ⟨ty, hty, rfl⟩ := hfree
    obtain ⟨t, -, -, rfl⟩ := insert_eq_ok hins
    rw [release_setTable_params c ty _ hb hty]
    exact .refl _
  | release hm =>
    rw [release_release c hm]
    exact .refl _

theorem RegisterSteps.relabels_release {mark : Nat} (hb : Arena.builtin.length ≤ mark) {c c' : Context}
    (h : RegisterSteps (ParamsFrom mark) mark c c') (hc : mark ≤ c.types.size) :
    Relabels (c.release mark) (c'.release mark) := by
  induction h with
  | refl => exact .refl _
  | tail hsteps hstep ih => exact ih.trans (hstep.relabels_release hb (RegisterSteps.floor_le hsteps hc))

/-- Giving back all that came since `c` leaves the registry of `c`. -/
theorem Owned.relabels_release {c c' : Context} (hc : Owned c)
    (h : RegisterSteps (ParamsFrom c.types.size) c.types.size c c') :
    Relabels c (c'.release c.types.size) := by
  have h := h.relabels_release hc.builtin (Nat.le_refl _)
  rwa [release_self hc] at h

end Context

theorem CheckM.insertOrRelease_error {mark : Nat} {target : Target} {r : Record} {what : String}
    {d : Diagnostic} {c c' : Context}
    (h : CheckM.insertOrRelease mark target r what c = .error d c') : c' = c.release mark := by
  unfold CheckM.insertOrRelease at h
  split at h
  · cases h
  · cases h; rfl

theorem Variable.initialized_error {v : Variable} {env : ScopeId} {declared : TypeId} {value : Value}
    {d : Diagnostic} {c c' : Context} (h : v.initialized env declared value c = .error d c') :
    c' = c := by
  unfold Variable.initialized at h
  obtain h | ⟨c₀, t, h₀, h⟩ := bind_eq_error.mp h
  · cases h
  cases h₀
  split at h
  · obtain ⟨-, rfl⟩ | ⟨lit, -, h⟩ := CheckM.bind_ofExcept_eq_error h
    · rfl
    · obtain h | ⟨_, _, -, h⟩ := bind_eq_error.mp h <;> cases h
  · split at h
    · obtain ⟨-, rfl⟩ | ⟨lit, -, h⟩ := CheckM.bind_ofExcept_eq_error h
      · rfl
      · obtain h | ⟨_, _, -, h⟩ := bind_eq_error.mp h
        · cases h
        · split at h <;> cases h
    · cases h

theorem Variable.register_error {v : Variable} {env : ScopeId} {target : Target} {d : Diagnostic}
    {c c' : Context} (hc : Owned c) (h : v.register env target c = .error d c') : Relabels c c' := by
  unfold Variable.register at h
  split at h
  · cases h
  obtain h | ⟨c₀, t, h₀, h⟩ := bind_eq_error.mp h
  · cases h
  cases h₀
  obtain ⟨-, rfl⟩ | ⟨declared, -, h⟩ := CheckM.bind_ofExcept_eq_error h
  · exact .refl _
  cases hi : v.init with
  | none =>
    simp only [hi] at h
    split at h
    · cases h
      exact .refl _
    · obtain h | ⟨_, t, -, h⟩ := bind_eq_error.mp h
      · unfold CheckM.insert at h
        split at h
        · cases h
        · cases h
          exact .refl _
      · cases h
  | some init =>
    simp only [hi] at h
    obtain ⟨-, rfl⟩ | ⟨checked, -, h⟩ := CheckM.bind_ofExcept_eq_error h
    · exact .refl _
    obtain ⟨-, rfl⟩ | ⟨value, -, h⟩ := CheckM.bind_ofExcept_eq_error h
    · exact .refl _
    obtain h | ⟨⟨r, kept⟩, u, hr, h⟩ := bind_eq_error.mp h
    · exact Variable.initialized_error h ▸ .refl _
    -- from here on there may be a new type, which the failed insertion gives back
    have hsteps : RegisterSteps (ParamsFrom c.types.size) c.types.size c
        (after (v.initialized env declared value) c) := v.initialized_steps env declared value c
    rw [after_of_ok hr] at hsteps
    obtain h | ⟨_, _, -, h⟩ := bind_eq_error.mp h
    · rw [CheckM.insertOrRelease_error h]
      exact hc.relabels_release hsteps
    · cases h

theorem DataItem.register_error {d : DataItem} {env : ScopeId} {e : Diagnostic} {c c' : Context}
    (h : d.register env c = .error e c') : Relabels c c' := by
  unfold DataItem.register at h
  obtain h | ⟨c₀, t, h₀, h⟩ := bind_eq_error.mp h
  · cases h
  cases h₀
  obtain ⟨-, rfl⟩ | ⟨value, -, hf⟩ := CheckM.bind_ofExcept_eq_error h
  · exact .refl _
  cases hfold : value.fold? with
  | none =>
    simp only [hfold] at hf
    cases hf
    exact .refl _
  | some lit =>
    simp only [hfold] at hf
    cases lit with
    | null =>
      cases hf
      exact .refl _
    | string text => obtain hf | ⟨_, _, -, hf⟩ := bind_eq_error.mp hf <;> cases hf
    | int | float => cases hf

theorem ArrayDecl.register_error {v : ArrayDecl} {env : ScopeId} {target : Target} {d : Diagnostic}
    {c c' : Context} (hc : Owned c) (h : v.register env target c = .error d c') : Relabels c c' := by
  unfold ArrayDecl.register at h
  obtain h | ⟨c₀, t, h₀, h⟩ := bind_eq_error.mp h
  · cases h
  cases h₀
  obtain ⟨-, rfl⟩ | ⟨element, -, h⟩ := CheckM.bind_ofExcept_eq_error h
  · exact .refl _
  obtain ⟨-, rfl⟩ | ⟨sizes, -, h⟩ := CheckM.bind_ofExcept_eq_error h
  · exact .refl _
  obtain h | ⟨label, u, hl, h⟩ := bind_eq_error.mp h
  · cases h
  cases hl
  obtain h | ⟨ty, u, hty, h⟩ := bind_eq_error.mp h
  · cases h
  cases hty
  obtain h | ⟨_, _, -, h⟩ := bind_eq_error.mp h
  · rw [CheckM.insertOrRelease_error h]
    refine hc.relabels_release (.tail (.single (.label _)) ?_)
    exact .addType _ env _
  · cases h

theorem StructHead.register_error {s : StructHead} {env : ScopeId} {target : Target} {d : Diagnostic}
    {c c' : Context} (hc : Owned c) (h : s.register env target c = .error d c') : Relabels c c' := by
  unfold StructHead.register at h
  obtain h | ⟨c₀, t, h₀, h⟩ := bind_eq_error.mp h
  · cases h
  cases h₀
  obtain h | ⟨ty, u, hty, h⟩ := bind_eq_error.mp h
  · cases h
  cases hty
  obtain h | ⟨_, _, -, h⟩ := bind_eq_error.mp h
  · rw [CheckM.insertOrRelease_error h]
    exact hc.relabels_release (.single (.addType c env _))
  · cases h

theorem DeclList.register_params_steps {mark : Nat} (env : ScopeId) (params : DeclList)
    {ty : TypeId} (hty : mark ≤ ty) {s : Session} (hs : mark ≤ s.context.types.size) :
    RegisterSteps (ParamsFrom mark) mark s.context (params.register env (.params ty) s).2.context :=
  DeclList.register_steps (fun ty hty => ⟨ty, hty, rfl⟩) ⟨ty, hty, rfl⟩ env params hs

theorem Visited.leaf_relabels {ν α : Type} {old : ν} {wrap : α → ν} {x : CheckM α} {s : Session}
    {d : Diagnostic} (hx : ∀ c, x s.context = .error d c → Relabels s.context c)
    (h : (Visited.leaf old wrap x s).1.outcome = .error d) :
    Relabels s.context (Visited.leaf old wrap x s).2.context := by
  obtain ⟨c, hc⟩ := Visited.leaf_eq_error h
  simpa [after_of_error hc] using hx c hc

/-- A declaration of any kind that is refused leaves no trace in the registry. -/
theorem Decl.register_error {d : Decl} {env : ScopeId} {target : Target} {s : Session}
    {e : Diagnostic} (hs : Owned s.context) (h : (d.register env target s).1.outcome = .error e) :
    Relabels s.context (d.register env target s).2.context := by
  cases d with
  | var site v =>
    rw [Decl.register] at h ⊢
    exact Visited.leaf_relabels (fun _ => Variable.register_error hs) h
  | struct site head fields =>
    rw [Decl.register] at h ⊢
    exact Visited.leaf_relabels (fun _ => StructHead.register_error hs) h
  | data site d =>
    rw [Decl.register] at h ⊢
    exact Visited.leaf_relabels (fun _ => DataItem.register_error) h
  | array site v =>
    rw [Decl.register] at h ⊢
    exact Visited.leaf_relabels (fun _ => ArrayDecl.register_error hs) h
  | function site head params body =>
    rw [Decl.register] at h ⊢
    obtain ⟨d, -, he⟩ | ⟨result, visited, t, -, hp, hc⟩ := head.register_cases env target params
      (fun ty => DeclList.inTwoSweeps fun structs => DeclList.sweep structs env (.params ty) 0 params) s
    · rw [SessionM.bind_of_eq _ he]
      exact .refl _
    · obtain ⟨d, -, he⟩ | ⟨i, c, -, -, he⟩ := hc
      · rw [SessionM.bind_of_eq _ he]
        -- the parameters went into the table of the type that is given back
        have h₁ : RegisterSteps (ParamsFrom s.context.types.size) s.context.types.size s.context
            (s.context.addType env (.function result .empty)).2 := .single (.addType _ env _)
        have h₂ : RegisterSteps (ParamsFrom s.context.types.size) s.context.types.size
            (s.context.addType env (.function result .empty)).2 t.context := by
          have h := DeclList.register_params_steps env params (Nat.le_refl s.context.types.size)
            (s := { s with context := (s.context.addType env (.function result .empty)).2 })
            (h₁.floor_le (Nat.le_refl _))
          rw [DeclList.register, hp] at h
          exact h
        exact hs.relabels_release (h₁.trans h₂)
      · rw [SessionM.bind_of_eq _ he] at h
        cases h

theorem Decl.registerEach_owned (env : ScopeId) (target : Target) (ds : List Decl) {s : Session}
    (hs : Owned s.context) : Owned (Decl.registerEach env target ds s).2.context := by
  induction ds generalizing s with
  | nil => exact hs
  | cons d ds ih =>
    have h := (Decl.register_checkSteps env target d s).owned hs
    rcases hd : d.register env target s with ⟨here, t⟩
    rw [hd] at h
    rw [Decl.registerEach, SessionM.bind_of_eq _ hd]
    cases here.outcome with
    | error e => exact h
    | ok u => exact ih h

/-- Registration is atomic. A refused declaration leaves nothing behind but used labels, and a refused
sequence leaves what the declarations before the refused one have registered, structs first. -/
theorem registration_atomic {s : Session} (hs : s.context.Reachable) (env : ScopeId)
    (target : Target) :
    (∀ (d : Decl) (e : Diagnostic), (d.register env target s).1.outcome = .error e →
      Relabels s.context (d.register env target s).2.context) ∧
    ∀ (seq : DeclList) (e : Diagnostic), (seq.register env target s).1.outcome = .error e →
      ∃ before d later t e', seq.inOrder = before ++ d :: later ∧
        Decl.registerEach env target before s = (.ok (), t) ∧
        (d.register env target t).1.outcome = .error e' ∧ e = d.stamp e' ∧
        Relabels t.context (seq.register env target s).2.context := by
  refine ⟨fun d e h => Decl.register_error hs.owned h, fun seq e h => ?_⟩
  obtain ⟨ho, hc⟩ := seq.register_eq_registerEach env target s
  rcases hr : Decl.registerEach env target seq.inOrder s with ⟨r, u⟩
  rw [hr] at ho hc
  obtain rfl : r = .error e := ho.symm.trans h
  obtain ⟨before, d, later, t, e', horder, hbefore, hd, he, hu⟩ := Decl.registerEach_error hr
  refine ⟨before, d, later, t, e', horder, hbefore, hd, he, ?_⟩
  have ht := Decl.registerEach_owned env target before hs.owned
  rw [hbefore] at ht
  rw [hc, ← hu]
  exact Decl.register_error ht hd

def clashingParams : Decl :=
  .function {} { ident := "f", tag := .default }
    [some (.var {} { ident := "p", tag := .default, kind := .param, init := some (.literal (.int 1) {}) }),
      some (.var {} { ident := "p", tag := .default, kind := .param })] []

theorem registration_atomic_clashingParams :
    Context.initial.Reachable ∧
    (clashingParams.register Context.root (.scope Context.root) {}).1.outcome =
      .error ((Diagnostic.duplicate "variable" "p").located {}) ∧
    Relabels .initial (clashingParams.register Context.root (.scope Context.root) {}).2.context ∧
    (DeclList.register Context.root (.scope Context.root)
      [some clashingParams, none, some (.struct {} { ident := "S" } [])] {}).1.outcome =
      .error ((Diagnostic.duplicate "variable" "p").located {}) ∧
    ∃ before d later t e', DeclList.inOrder
        [some clashingParams, none, some (.struct {} { ident := "S" } [])] = before ++ d :: later ∧
      Decl.registerEach Context.root (.scope Context.root) before {} = (.ok (), t) ∧
      (d.register Context.root (.scope Context.root) t).1.outcome = .error e' ∧
      (Diagnostic.duplicate "variable" "p").located {} = d.stamp e' ∧
      Relabels t.context (DeclList.register Context.root (.scope Context.root)
        [some clashingParams, none, some (.struct {} { ident := "S" } [])] {}).2.context := by
  have hone : (clashingParams.register Context.root (.scope Context.root) {}).1.outcome =
      .error ((Diagnostic.duplicate "variable" "p").located {}) := by rfl
  have hseq : (DeclList.register Context.root (.scope Context.root)
      [some clashingParams, none, some (.struct {} { ident := "S" } [])] {}).1.outcome =
      .error ((Diagnostic.duplicate "variable" "p").located {}) := by rfl
  obtain ⟨h₁, h₂⟩ := registration_atomic .initial Context.root (.scope Context.root) (s := {})
  exact ⟨.initial, hone, h₁ _ _ hone, hseq, h₂ _ _ hseq⟩

end UnitCompiler
