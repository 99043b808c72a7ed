import UnitCompiler.Proofs.Sound

namespace UnitCompiler

open Context

def Decl.SparesBuiltin : Decl → Prop
  | .struct _ head _ => ∀ ty, head.ty = some ty → Arena.builtin.length ≤ ty
  | .var _ _ | .function _ _ _ _ | .data _ _ | .array _ _ => True

def DeclList.SparesBuiltin (seq : DeclList) : Prop :=
  ∀ d ∈ seq.filterMap id, d.SparesBuiltin

section Nodes

variable {s : Session}

theorem Visited.leaf_node {ν α : Type} {p : ν → Prop} {old : ν} {wrap : α → ν} {x : CheckM α}
    (hold : p old) (hnew : ∀ a c, x s.context = .ok a c → p (wrap a)) :
    p (Visited.leaf old wrap x s).1.node := by
  cases hx : x s.context with
  | ok a c =>
    rw [Visited.leaf_of_ok hx]
    exact hnew a c hx
  | error d c =>
    rw [Visited.leaf_of_error hx]
    exact hold

theorem Decl.register_spares (env : ScopeId) (target : Target) {d : Decl} (hs : Owned s.context)
    (hd : d.SparesBuiltin) : (d.register env target s).1.node.SparesBuiltin := by
  cases d with
  | var | data | array =>
    rw [Decl.register]
    exact Visited.leaf_node trivial fun _ _ _ => trivial
  | function =>
    rw [Decl.register]
    trivial
  | struct site head fields =>
    rw [Decl.register]
    refine Visited.leaf_node hd ?_
    intro head' c' h ty hty
    obtain ⟨i, -, rfl⟩ := StructHead.register_eq_ok h
    cases hty
    exact hs.builtin

theorem DeclList.sweep_spares (structs : Bool) (env : ScopeId) (target : Target) (index : Nat)
    {seq : DeclList} (hs : Owned s.context) (hseq : seq.SparesBuiltin) :
    DeclList.SparesBuiltin (DeclList.sweep structs env target index seq s).1.node := by
  induction seq generalizing index s with
  | nil =>
    rw [DeclList.sweep]
    exact hseq
  | cons slot rest ih =>
    cases slot with
    | none =>
      rw [DeclList.sweep_none]
      exact ih (index + 1) hs hseq
    | some d =>
      obtain ⟨hd, hrest⟩ := List.forall_mem_cons.mp hseq
      by_cases hstruct : d.isStruct = structs
      -- the context stays owned, and the declarations after this one rely on it
      · have hnode := Decl.register_spares env target
          (s := (Session.log (.visited .register index d.noun) s).2) hs hd
        have howned := (Decl.register_checkSteps env target d
          (Session.log (.visited .register index d.noun) s).2).owned hs
        rcases hr : d.register env target (Session.log (.visited .register index d.noun) s).2 with
          ⟨here, t⟩
        rw [hr] at hnode howned
        rw [DeclList.sweep_visit hstruct env target index rest hr]
        cases here.outcome with
        | error _ => exact List.forall_mem_cons.mpr ⟨hnode, hrest⟩
        | ok _ => exact List.forall_mem_cons.mpr ⟨hnode, ih (index + 1) howned hrest⟩
      · rw [DeclList.sweep_pass hstruct]
        exact List.forall_mem_cons.mpr ⟨hd, ih (index + 1) hs hrest⟩

/-- A merger takes every slot from one of the two sequences. -/
theorem DeclList.merge_spares {a b : DeclList} (ha : a.SparesBuiltin) (hb : b.SparesBuiltin) :
    (DeclList.merge a b).SparesBuiltin := by
  intro d hd
  obtain ⟨slot, hslot, hid⟩ := List.mem_filterMap.mp hd
  obtain ⟨i, hi⟩ := List.mem_iff_getElem?.mp hslot
  obtain ⟨x, y, hx, hy, rfl⟩ := List.getElem?_zipWith_eq_some.mp hi
  split at hid
  · exact ha d (List.mem_filterMap.mpr ⟨x, List.mem_of_getElem? hx, hid⟩)
  · exact hb d (List.mem_filterMap.mpr ⟨y, List.mem_of_getElem? hy, hid⟩)

theorem DeclList.register_spares (env : ScopeId) (target : Target) {seq : DeclList}
    (hs : Owned s.context) (hseq : seq.SparesBuiltin) :
    DeclList.SparesBuiltin (seq.register env target s).1.node := by
  unfold DeclList.register
  have hfirst := DeclList.sweep_spares true env target 0 hs hseq
  have howned := ((DeclList.sweep_steps (fun _ _ => trivial) env true seq target 0 s trivial
    (Nat.zero_le _)).checkSteps).owned hs
  rcases h : DeclList.sweep true env target 0 seq s with ⟨first, t⟩
  rw [h] at hfirst howned
  rw [DeclList.inTwoSweeps_run _ h]
  cases first.outcome with
  | error e => exact hfirst
  | ok u => exact DeclList.merge_spares hfirst (DeclList.sweep_spares false env target 0 howned hseq)

theorem Decl.checkWith_spares (env : ScopeId) (runBody : ScopeId → SessionM (Visited (List Stmt)))
    {d : Decl} (hd : d.SparesBuiltin) : (d.checkWith env runBody s).1.node.SparesBuiltin := by
  cases d with
  | var | data | array => exact hd
  | function site head params body =>
    rw [Decl.checkWith]
    rcases h : Session.attempt (head.enter env) s with ⟨r, t⟩
    rw [SessionM.bind_of_eq _ h]
    cases r <;> trivial
  | struct site head fields =>
    rw [Decl.checkWith]
    cases hty : head.ty with
    | none => exact hd
    | some ty =>
      dsimp only
      rcases h : DeclList.register env (.fields ty) fields s with ⟨visited, t⟩
      rw [SessionM.bind_of_eq _ h]
      cases visited.outcome <;> exact hd

theorem DeclList.checkFrom_spares (env : ScopeId) {seq : DeclList} (index : Nat) (hseq : seq.SparesBuiltin) :
    DeclList.SparesBuiltin (DeclList.checkFrom env index seq s).1.node := by
  induction seq generalizing index s with
  | nil => exact hseq
  | cons slot rest ih =>
    cases slot with
    | none => exact ih (index + 1) hseq
    | some d =>
      obtain ⟨hd, hrest⟩ := List.forall_mem_cons.mp hseq
      have hnode := Decl.checkWith_spares env d.checkBody hd
        (s := (Session.log (.visited .check index d.noun) s).2)
      rcases hr : d.check env (Session.log (.visited .check index d.noun) s).2 with ⟨here, t⟩
      rw [← Decl.check, hr] at hnode
      rw [DeclList.checkFrom, SessionM.bind_log, SessionM.bind_of_eq _ hr]
      cases here.outcome with
      | error e => exact List.forall_mem_cons.mpr ⟨hnode, hrest⟩
      | ok u => exact List.forall_mem_cons.mpr ⟨hnode, ih (index + 1) hrest⟩

end Nodes

section Check

variable {env : ScopeId}

theorem CheckM.insertAll_sound (rs : List Record) {scope : ScopeId} {c : Context} (hc : Sound c)
    (f : Record → Record) (hrs : ∀ r ∈ rs, ∀ id ∈ (f r).typeIds, id < c.types.size) :
    Sound (after (rs.forM fun r => CheckM.insert (.scope scope) (f r) "identifier") c) := by
  induction rs generalizing c with
  | nil => exact hc
  | cons r rs ih =>
    change Sound (after (CheckM.insert (.scope scope) (f r) "identifier" >>= fun _ => _) c)
    obtain ⟨hr, hrs⟩ := List.forall_mem_cons.mp hrs
    cases h : c.insert (.scope scope) (f r) "identifier" with
    | error d =>
      have hrun : CheckM.insert (.scope scope) (f r) "identifier" c = .error d c := by
        simp only [CheckM.insert, h]
      rw [after_of_error (bind_of_error _ hrun)]
      exact hc
    | ok p =>
      have hrun : CheckM.insert (.scope scope) (f r) "identifier" c = .ok () p.2 := by
        simp only [CheckM.insert, h]
      have hp := hc.insert (fun _ h => Target.noConfusion h) hr h
      have hsize : p.2.types.size = c.types.size := by
        obtain ⟨t, -, -, hp⟩ := Context.insert_eq_ok h
        simp [hp]
      unfold after
      rw [bind_of_ok _ hrun]
      exact ih hp (hsize ▸ hrs)

/-- The parameters have the types that the type of the function gives them. -/
theorem FunctionHead.enter_sound (f : FunctionHead) (env : ScopeId) {c : Context} (hc : Sound c) :
    Sound (after (f.enter env) c) := by
  unfold FunctionHead.enter
  cases f.ty with
  | none => exact hc
  | some ty =>
    dsimp only
    rw [after_get]
    split
    · rename_i result params hty
      have hids := hc.mem_types hty
      have hopen := hc.openFunction (hids result List.mem_cons_self) env
      refine after_bind (R := fun c c' => Sound c → Sound c') (fun h h' hs => h' (h hs))
        (fun _ => hopen) ?_ hc
      intro scope t ht
      cases ht
      intro ht
      refine after_bind (R := fun c c' => Sound c → Sound c') (fun h h' hs => h' (h hs))
        (fun ht => CheckM.insertAll_sound params.records ht _ ?_) (fun _ _ _ h => h) ht
      intro p hp id hid
      rw [List.mem_singleton.mp hid]
      refine hids p.ty (List.mem_cons_of_mem _ (List.mem_flatMap.mpr ⟨p, hp, List.mem_cons_self⟩))
    · exact hc

theorem sound_traversal : Traversal (fun c c' => CheckSteps c c' ∧ (Sound c → Sound c'))
    (fun env c => Sound c ∧ env < c.scopes.length) (fun env c => Sound c ∧ env < c.scopes.length)
    Decl.SparesBuiltin where
  refl _ := ⟨.refl, id⟩
  trans h h' := ⟨h.1.trans h'.1, h'.2 ∘ h.2⟩
  outer_mono h hs := ⟨h.2 hs.1, checkSteps_traversal.outer_mono h.1 hs.2⟩
  inner_mono h hs := ⟨h.2 hs.1, checkSteps_traversal.inner_mono h.1 hs.2⟩
  outer_of_inner := id
  register d h := ⟨checkSteps_traversal.register d h.2,
    fun hs => d.register_sound hs h.2 fun _ h => Target.noConfusion h⟩
  registered {env s t d d'} h hd := by
    -- a struct in a body has the type that it was registered with just now
    have hentered := Decl.register_entered env d (.scope env) s t d' hd
    cases hentered with
    | var | array | data | function => trivial
    | struct hhead =>
      obtain ⟨i, -, rfl⟩ := StructHead.register_eq_ok hhead
      intro ty hty
      cases hty
      exact h.1.builtin_le
  registerFields {env s site head fields ty} h hd hty := by
    refine ⟨DeclList.register_checkSteps env (.fields ty) fields s, fun hs => ?_⟩
    refine DeclList.register_sound fields hs h.2 ?_
    rintro _ ⟨⟩
    exact hd ty hty
  layOut {c c' site head fields ty} hd hty hl :=
    ⟨.single (.layOut hl), fun hs => Sound.layOutFields hs (hd ty hty) hl⟩
  enter f h := ⟨checkSteps_traversal.enter f h.2, f.enter_sound _⟩
  entered {env scope c c' f} h he := by
    have hsound := f.enter_sound env h.1
    rw [after_of_ok he] at hsound
    exact ⟨hsound, checkSteps_traversal.entered h.2 he⟩
  openBlock h := ⟨checkSteps_traversal.openBlock h.2, fun hs => hs.openBlock _⟩
  opened h := ⟨h.1.openBlock _, checkSteps_traversal.opened h.2⟩
  modifyLabel name f h := ⟨checkSteps_traversal.modifyLabel name f h.2, fun hs => hs.modifyLabel _ name f⟩

theorem Decl.check_sound {d : Decl} (hd : d.SparesBuiltin) {s : Session} (hs : Sound s.context)
    (henv : env < s.context.scopes.length) : Sound (d.check env s).2.context :=
  (sound_traversal.checkDecl hd ⟨hs, henv⟩).2 hs

theorem DeclList.checkFrom_sound {seq : DeclList} (index : Nat) {s : Session}
    (hs : Sound s.context) (henv : env < s.context.scopes.length) (hseq : seq.SparesBuiltin) :
    Sound (DeclList.checkFrom env index seq s).2.context :=
  (sound_traversal.checkFrom hseq index ⟨hs, henv⟩).2 hs

end Check

/-- Passes over fresh sequences of declarations lead to the context, against the unit scope, in any
order and whether they succeed or fail. The sequences are as the passes have left them. -/
inductive Context.Underway : Context → List DeclList → Prop
  | initial : Underway .initial []
  | add {c : Context} {pool : List DeclList} {seq : DeclList} (h : Underway c pool)
      (hseq : DeclList.areFresh seq = true) : Underway c (seq :: pool)
  | register {s : Session} {before later : List DeclList} {seq : DeclList}
      (h : Underway s.context (before ++ seq :: later)) :
      Underway (seq.register root (.scope root) s).2.context
        (before ++ (seq.register root (.scope root) s).1.node :: later)
  | check {s : Session} {before later : List DeclList} {seq : DeclList}
      (h : Underway s.context (before ++ seq :: later)) :
      Underway (seq.check root s).2.context (before ++ (seq.check root s).1.node :: later)

theorem DeclList.spares_of_areFresh {seq : DeclList} (h : DeclList.areFresh seq = true) :
    seq.SparesBuiltin := by
  induction seq with
  | nil => nofun
  | cons slot rest ih =>
    cases slot with
    | none => exact ih h
    | some d =>
      rw [DeclList.areFresh, Bool.and_eq_true] at h
      refine List.forall_mem_cons.mpr ⟨?_, ih h.2⟩
      cases d with
      | var | function | data | array => trivial
      | struct site head fields =>
        rw [Decl.isFresh, Bool.and_eq_true, Option.isNone_iff_eq_none] at h
        intro ty hty
        rw [h.1.1] at hty
        cases hty

theorem Context.Underway.sound {c : Context} {pool : List DeclList} (h : c.Underway pool) :
    Sound c ∧ root < c.scopes.length ∧ ∀ seq ∈ pool, seq.SparesBuiltin := by
  induction h with
  | initial => exact ⟨sound_initial, by decide, by nofun⟩
  | add _ hseq ih =>
    obtain ⟨hc, hroot, hpool⟩ := ih
    exact ⟨hc, hroot, List.forall_mem_cons.mpr ⟨DeclList.spares_of_areFresh hseq, hpool⟩⟩
  | @register s before later seq _ ih =>
    obtain ⟨hc, hroot, hpool⟩ := ih
    rw [List.forall_mem_append, List.forall_mem_cons] at hpool
    obtain ⟨hbefore, hseq, hlater⟩ := hpool
    have hlength := (seq.register_checkSteps root (.scope root) s).length_le
    refine ⟨seq.register_sound hc hroot fun _ h => Target.noConfusion h,
      Nat.lt_of_lt_of_le hroot hlength, ?_⟩
    rw [List.forall_mem_append, List.forall_mem_cons]
    exact ⟨hbefore, DeclList.register_spares _ _ hc.owned hseq, hlater⟩
  | @check s before later seq _ ih =>
    obtain ⟨hc, hroot, hpool⟩ := ih
    rw [List.forall_mem_append, List.forall_mem_cons] at hpool
    obtain ⟨hbefore, hseq, hlater⟩ := hpool
    have hlength := (seq.checkFrom_steps 0 hroot).length_le
    refine ⟨DeclList.checkFrom_sound 0 hc hroot hseq, Nat.lt_of_lt_of_le hroot hlength, ?_⟩
    rw [List.forall_mem_append, List.forall_mem_cons]
    exact ⟨hbefore, DeclList.checkFrom_spares _ 0 hseq, hlater⟩

/-- Every type but the four built-in ones has one owner, and no id dangles, whatever was given back on
the way. -/
theorem types_owned_once {c : Context} {pool : List DeclList} (h : c.Underway pool) :
    (c.scopes.flatMap Scope.types).Perm (List.range' 4 (c.types.size - 4)) ∧
      c.types.types.take 4 = [.int, .float, .string, .struct "Null" .empty] ∧
      ∀ id ∈ c.typeIds, id < c.types.size := by
  obtain ⟨hc, -, -⟩ := h.sound
  refine ⟨hc.listed, (List.prefix_iff_eq_take.mp hc.builtin).symm, ?_⟩
  intro id hid
  obtain htype | hscope := List.mem_append.mp hid
  · obtain ⟨t, ht, hid⟩ := List.mem_flatMap.mp htype
    exact hc.types t ht id hid
  · obtain ⟨s, hs, hid⟩ := List.mem_flatMap.mp hscope
    exact hc.scopes s hs id hid

def halfRegistered : DeclList :=
  [some (.struct {} { ident := "S" }
      [some (.var {}
        { ident := "x", tag := .default, kind := .field, init := some (.literal (.int 1) {}) })]),
    some clashingParams]

theorem types_owned_once_halfRegistered :
    (halfRegistered.register root (.scope root) {}).1.outcome =
      .error ((Diagnostic.duplicate "variable" "p").located {}) ∧
    halfRegistered.checkedContext.types.size = 6 ∧
    (halfRegistered.checkedContext.scopes.flatMap Scope.types).Perm (List.range' 4 2) ∧
    halfRegistered.checkedContext.types.types.take 4 = [.int, .float, .string, .struct "Null" .empty] ∧
    ∀ id ∈ halfRegistered.checkedContext.typeIds, id < 6 := by
  have hsize : halfRegistered.checkedContext.types.size = 6 := by decide +kernel
  have hunderway : ∃ pool, halfRegistered.checkedContext.Underway pool := by
    have hseq : DeclList.areFresh halfRegistered = true := by decide +kernel
    have hadd := Context.Underway.add .initial hseq
    have hregister := @Context.Underway.register {} [] [] halfRegistered hadd
    exact ⟨_, @Context.Underway.check _ [] [] _ hregister⟩
  obtain ⟨pool, hpool⟩ := hunderway
  have howned := types_owned_once hpool
  rw [hsize] at howned
  exact ⟨by decide +kernel, hsize, howned⟩

end UnitCompiler
