import Mathlib.Data.List.Perm.Basic
import UnitCompiler.Proofs.CheckedAlone
import UnitCompiler.Proofs.DeclaredStructs

namespace UnitCompiler

open Context

/-- The second program has the structs of the first one, in any order and at any place, and everything else in the
same order. -/
structure DeclList.Rearranges (program program' : DeclList) : Prop where
  others : program'.select false = program.select false
  structs : (program'.select true).Perm (program.select true)

theorem DeclList.Rearranges.refl (program : DeclList) : program.Rearranges program := ⟨rfl, .refl _⟩

section Sweep

variable {structs : Bool} {seq : DeclList} {d : Decl} {ds : List Decl}

@[simp] theorem DeclList.select_append (structs : Bool) (before later : DeclList) :
    DeclList.select structs (before ++ later) = before.select structs ++ later.select structs := by
  rw [select, List.filterMap_append, List.filter_append]
  rfl

theorem DeclList.select_cons (h : d.isStruct = structs) (seq : DeclList) :
    DeclList.select structs (some d :: seq) = d :: seq.select structs := by
  simp [select, h]

theorem DeclList.exists_of_select_eq_cons (h : seq.select structs = d :: ds) :
    ∃ before later, seq = before ++ some d :: later ∧ DeclList.select structs before = [] ∧
      d.isStruct = structs ∧ DeclList.select structs later = ds := by
  unfold select at h
  obtain ⟨skipped, rest, hsplit, hskipped, hd, rfl⟩ := List.filter_eq_cons_iff.mp h
  obtain ⟨before, rest', rfl, hbefore, hrest⟩ := List.filterMap_eq_append_iff.mp hsplit
  obtain ⟨gap, slot, later, rfl, hgap, hslot, rfl⟩ := List.filterMap_eq_cons_iff.mp hrest
  obtain rfl : slot = some d := hslot
  refine ⟨before ++ gap, later, (List.append_assoc ..).symm, ?_, of_decide_eq_true hd, rfl⟩
  rw [select_append, List.append_eq_nil_iff, select, select, hbefore, List.filterMap_eq_nil_iff.mpr hgap]
  exact ⟨List.filter_eq_nil_iff.mpr hskipped, rfl⟩

/-- A sweep passes over what it does not visit. -/
theorem DeclList.sweep_append {before : DeclList} (h : before.select structs = []) (env : ScopeId) (target : Target)
    (later : DeclList) (index : Nat) (s : Session) :
    DeclList.sweep structs env target index (before ++ later) s =
      (⟨before ++ (DeclList.sweep structs env target (index + before.length) later s).1.node,
        (DeclList.sweep structs env target (index + before.length) later s).1.outcome⟩,
        (DeclList.sweep structs env target (index + before.length) later s).2) := by
  induction before generalizing index with
  | nil => rfl
  | cons slot before ih =>
    have hindex : index + (slot :: before).length = index + 1 + before.length := by
      rw [List.length_cons]
      omega
    rw [hindex]
    cases slot with
    | none =>
      simp [ih h]
    | some d =>
      have hd : d.isStruct ≠ structs := by
        intro hd
        rw [select_cons hd] at h
        cases h
      rw [List.cons_append, DeclList.sweep_pass hd, ih]
      · rfl
      · simpa [select, hd] using h

theorem Decl.Entered.body_eq {env : ScopeId} {target : Target} {c c' : Context} {d d' : Decl}
    (h : Decl.Entered env target c [d] c' [d']) : d'.body = d.body := by
  cases h <;> rfl

abbrev Decl.Pairs (l : Shift) (own : Target → Prop) (d d' : Decl) : Prop :=
  d.Echoes l own True d' ∧ (True → Stmt.areFresh d.body = true)

variable {l : Shift} {own : Target → Prop} {b : Context}

/-- Sweeps over the same declarations go alike, wherever these are. -/
theorem DeclList.sweep_rearranged {seq' : DeclList} (h : seq.select structs = ds) (h' : seq'.select structs = ds)
    (hfresh : ∀ d ∈ ds, d.isFresh = true) (hopen : (Target.scope root).Open l own) (index index' : Nat)
    {s s' : Session} (hs : Mirror l own b s.context s'.context) :
    Visited.Matched (Mirror l own b)
      (fun (n n' : DeclList) => List.Forall₂ (Decl.Pairs l own) (n.select structs) (n'.select structs))
      (DeclList.sweep structs root (.scope root) index seq s)
      (DeclList.sweep structs root (.scope root) index' seq' s') := by
  -- on what is visited, since the sequences may have other declarations and other gaps in between
  induction ds generalizing seq seq' index index' s s' with
  | nil =>
    have hskip := DeclList.sweep_append h root (.scope root) [] index s
    have hskip' := DeclList.sweep_append h' root (.scope root) [] index' s'
    rw [List.append_nil, DeclList.sweep] at hskip hskip'
    rw [hskip, hskip']
    refine .ok hs ?_
    change List.Forall₂ _ (DeclList.select structs (seq ++ [])) (DeclList.select structs (seq' ++ []))
    rw [List.append_nil, List.append_nil, h, h']
    exact .nil
  | cons d ds ih =>
    obtain ⟨before, later, rfl, hbefore, hd, hlater⟩ := DeclList.exists_of_select_eq_cons h
    obtain ⟨before', later', rfl, hbefore', -, hlater'⟩ := DeclList.exists_of_select_eq_cons h'
    obtain ⟨hnew, hrest⟩ := List.forall_mem_cons.mp hfresh
    rw [DeclList.sweep_append hbefore, DeclList.sweep_append hbefore']
    have hhere := Decl.register_matched root d (.scope root)
      (Session.log (.visited .register (index + before.length) d.noun) s).2
      (Session.log (.visited .register (index' + before'.length) d.noun) s').2 hopen hs
    rw [Shift.env_root, show (Target.scope root).shift l = .scope root from congrArg Target.scope Shift.env_root]
      at hhere
    generalize hy : d.register root (.scope root)
      (Session.log (.visited .register (index' + before'.length) d.noun) s').2 = y at hhere
    generalize hx : d.register root (.scope root)
      (Session.log (.visited .register (index + before.length) d.noun) s).2 = x at hhere
    cases hhere with
    | error he =>
      rw [DeclList.sweep_visit hd root _ _ later hx, DeclList.sweep_visit hd root _ _ later' hy]
      exact .error (he.stamp d)
    | @ok n n' t t' ht hecho =>
      rw [DeclList.sweep_visit hd root _ _ later hx, DeclList.sweep_visit hd root _ _ later' hy]
      have hentered := Decl.register_entered root d (.scope root) _ t n hx
      have hentered' := Decl.register_entered root d (.scope root) _ t' n' hy
      have hn : n.isStruct = structs := (List.cons.inj hentered.isStruct).1.trans hd
      have hn' : n'.isStruct = structs := (List.cons.inj hentered'.isStruct).1.trans hd
      refine (ih hlater hlater' hrest (index + before.length + 1) (index' + before'.length + 1) ht).map
        (f := fun m => before ++ some n :: m) (g := fun m => before' ++ some n' :: m) fun m m' hm => ?_
      rw [select_append, select_append, hbefore, hbefore', select_cons hn, select_cons hn']
      refine .cons ⟨?_, fun _ => ?_⟩ hm
      · have hecho := hecho.1
        rwa [eq_true hnew] at hecho
      · rw [hentered.body_eq]
        exact Decl.body_areFresh hnew

end Sweep

section Register

variable {program program' : DeclList}

theorem DeclList.select_perm (seq : DeclList) : (seq.select true ++ seq.select false).Perm (seq.filterMap id) := by
  have hperm := DeclList.inOrder_perm seq
  rwa [DeclList.inOrder_eq] at hperm

theorem DeclList.areFresh_iff {seq : DeclList} :
    DeclList.areFresh seq = true ↔ ∀ d ∈ seq.filterMap id, d.isFresh = true := by
  induction seq with
  | nil => exact iff_of_true rfl nofun
  | cons slot rest ih =>
    cases slot with
    | none => exact ih
    | some d =>
      rw [DeclList.areFresh, Bool.and_eq_true, ih, List.filterMap_cons_some (f := id) rfl, List.forall_mem_cons]

theorem DeclList.Rearranges.structNames (h : program.Rearranges program') :
    program.structNames.Perm program'.structNames :=
  h.structs.symm.filterMap _

@[simp] theorem Decl.isStruct_typed (names : List String) (d : Decl) : (d.typed names).isStruct = d.isStruct := by
  cases d <;> rfl

theorem DeclList.sameShape_typed (names : List String) (seq : DeclList) :
    seq.SameShape (seq.map (Option.map (Decl.typed names))) := by
  unfold SameShape
  rw [List.map_map]
  refine List.map_congr_left fun slot _ => ?_
  rw [Function.comp_apply, Option.map_map]
  congr 1
  exact funext fun d => (Decl.isStruct_typed names d).symm

@[simp] theorem DeclList.select_typed (structs : Bool) (names : List String) (seq : DeclList) :
    DeclList.select structs (seq.map (Option.map (Decl.typed names))) =
      (seq.select structs).map (Decl.typed names) := by
  have hsame : (fun d : Decl => decide (d.isStruct = structs)) ∘ Decl.typed names =
      fun d => decide (d.isStruct = structs) := by
    funext d
    simp
  unfold select
  rw [List.filterMap_map, Function.id_comp, ← Function.comp_id (Option.map (Decl.typed names)),
    show (Option.map (Decl.typed names) ∘ id) = fun slot : Option Decl => (id slot).map (Decl.typed names) from rfl,
    ← List.map_filterMap, List.filter_map, hsame]

/-- A merger has its structs from the first sweep and everything else from the second one. -/
theorem DeclList.select_merge_typed (names : List String) {seq node : DeclList} (h : seq.SameShape node) :
    DeclList.select true (DeclList.merge (seq.map (Option.map (Decl.typed names))) node) =
      (seq.select true).map (Decl.typed names) ∧
    DeclList.select false (DeclList.merge (seq.map (Option.map (Decl.typed names))) node) = node.select false := by
  have hmerge := DeclList.filter_merge ((DeclList.sameShape_typed names seq).symm.trans h)
  exact ⟨(hmerge true).trans (DeclList.select_typed true names seq), hmerge false⟩

/-- Two related halves of a sequence can be put together as the sequence is. -/
theorem DeclList.exists_forall₂_filterMap {R : Decl → Decl → Prop} {structs others : List Decl} {seq : DeclList}
    (hstructs : List.Forall₂ R structs (seq.select true)) (hothers : List.Forall₂ R others (seq.select false)) :
    ∃ ds, ds.Perm (structs ++ others) ∧ List.Forall₂ R ds (seq.filterMap id) := by
  have hcomp : Relation.Comp (List.Forall₂ R) List.Perm (structs ++ others) (seq.filterMap id) :=
    ⟨_, List.rel_append hstructs hothers, DeclList.select_perm seq⟩
  rw [List.forall₂_comp_perm_eq_perm_comp_forall₂] at hcomp
  obtain ⟨ds, hperm, hpairs⟩ := hcomp
  exact ⟨ds, hperm.symm, hpairs⟩

theorem Context.Mirror.replica {l : Shift} {b c c' : Context} (h : Mirror l (fun _ => True) b c c')
    (htypes : l.types = 0) (hlabels : l.labels = 0) : Replica l c c' where
  pos := h.pos
  types hid := by
    obtain ⟨t', ht', hmirrors⟩ := h.types hid
    exact ⟨t', ht', hmirrors.change (fun _ _ => rfl) (fun _ _ _ hmoves => hmoves) fun _ => Or.inl trivial⟩
  scopes := h.scopes
  symbols := h.symbols
  rising := h.rising
  blocks := h.blocks
  younger := h.younger
  floor := h.floor
  unmoved := htypes
  unnumbered := hlabels
  size := by rw [h.size, htypes, Nat.add_zero]
  labels := by rw [h.labels, hlabels, Nat.add_zero]

/-- The structs of the second program, as they are typed in the first one and in their own. -/
theorem DeclList.pairs_structs (h : program.Rearranges program') (hfresh : DeclList.areFresh program = true)
    (hnodup : program.structNames.Nodup) (hperm : program.structNames.Perm program'.structNames) :
    List.Forall₂ (Decl.Pairs (Shift.ofStructs hnodup hperm) fun _ => True)
      ((program'.select true).map (Decl.typed program.structNames))
      ((program'.select true).map (Decl.typed program'.structNames)) := by
  refine List.forall₂_map_left_iff.mpr (List.forall₂_map_right_iff.mpr (List.forall₂_same.mpr fun d hd => ?_))
  have hmem := h.structs.mem_iff.mp hd
  have hnew := DeclList.areFresh_iff.mp hfresh d (List.mem_of_mem_filter hmem)
  cases d with
  | var | function | data | array => cases of_decide_eq_true (List.mem_filter.mp hmem).2
  | struct site head fields =>
    have hname : head.ident ∈ program.structNames := List.mem_filterMap.mpr ⟨_, hmem, rfl⟩
    refine ⟨.struct rfl ?_ (fun _ _ => Or.inl trivial) fun _ => ?_, fun _ => rfl⟩
    · exact congrArg some (Shift.ofStructs_ty hnodup hperm hname).symm
    · rw [Decl.isFresh, Bool.and_eq_true] at hnew
      exact hnew.2

/-- What both sweeps leave of the second program is what they leave of the first one, in another order. -/
theorem DeclList.merge_rearranged (h : program.Rearranges program') (hfresh : DeclList.areFresh program = true)
    (hnodup : program.structNames.Nodup) (hperm : program.structNames.Perm program'.structNames)
    {node node' : DeclList} (hshape : program.SameShape node) (hshape' : program'.SameShape node')
    (hothers : List.Forall₂ (Decl.Pairs (Shift.ofStructs hnodup hperm) fun _ => True) (node.select false)
      (node'.select false)) :
    ∃ ds, ds.Perm ((DeclList.merge (program.map (Option.map (Decl.typed program.structNames))) node).filterMap id) ∧
      List.Forall₂ (Decl.Pairs (Shift.ofStructs hnodup hperm) fun _ => True) ds
        ((DeclList.merge (program'.map (Option.map (Decl.typed program'.structNames))) node').filterMap id) := by
  obtain ⟨htrue, hfalse⟩ := DeclList.select_merge_typed program.structNames hshape
  obtain ⟨htrue', hfalse'⟩ := DeclList.select_merge_typed program'.structNames hshape'
  have hstructs := DeclList.pairs_structs h hfresh hnodup hperm
  rw [← htrue'] at hstructs
  rw [← hfalse'] at hothers
  obtain ⟨ds, hds, hpairs⟩ := DeclList.exists_forall₂_filterMap hstructs hothers
  refine ⟨ds, hds.trans (.trans ?_ (DeclList.select_perm _)), hpairs⟩
  rw [htrue, hfalse]
  exact (h.structs.map _).append_right _

/-- Programs that differ in the places of their structs are registered alike, up to the types of the structs. -/
theorem DeclList.register_rearranged (h : program.Rearranges program') (hfresh : DeclList.areFresh program = true)
    {s s' : Session} (hs : s.context = .initial) (hs' : s'.context = .initial) :
    (∃ registered registered' t t' l ds,
      program.register root (.scope root) s = (⟨registered, .ok ()⟩, t) ∧
      program'.register root (.scope root) s' = (⟨registered', .ok ()⟩, t') ∧
      Replica l t.context t'.context ∧ ds.Perm (registered.filterMap id) ∧
      List.Forall₂ (Decl.Pairs l fun _ => True) ds (registered'.filterMap id)) ∨
    ∃ e e', (program.register root (.scope root) s).1.outcome = .error e ∧
      (program'.register root (.scope root) s').1.outcome = .error e' := by
  unfold DeclList.register
  have hnames := h.structNames
  obtain ⟨hnodup, u, hu, hfirst⟩ | ⟨hdup, e, he⟩ :=
      DeclList.sweep_structs program .nil 0 (hs.trans withStructs_nil.symm) <;>
    obtain ⟨hnodup', u', hu', hfirst'⟩ | ⟨hdup', e', he'⟩ :=
      DeclList.sweep_structs program' .nil 0 (hs'.trans withStructs_nil.symm)
  · rw [List.nil_append] at hnodup hu hfirst hnodup' hu' hfirst'
    -- after the first sweep both contexts hold the structs and nothing else, and the second one runs in lockstep
    have hnew : ∀ d ∈ program.select false, d.isFresh = true := fun d hd =>
      DeclList.areFresh_iff.mp hfresh d (List.mem_of_mem_filter hd)
    have hmirror : Mirror (Shift.ofStructs hnodup hnames) (fun _ => True) (withStructs program'.structNames)
        u.context u'.context := by
      rw [hu, hu']
      exact mirror_withStructs hnodup hnames _
    have hsecond := DeclList.sweep_rearranged rfl h.others hnew (fun _ => trivial) 0 0 hmirror
    rw [DeclList.inTwoSweeps_run _ hfirst, DeclList.inTwoSweeps_run _ hfirst']
    generalize hy : DeclList.sweep false root (.scope root) 0 program' u' = y at hsecond ⊢
    generalize hx : DeclList.sweep false root (.scope root) 0 program u = x at hsecond ⊢
    cases hsecond with
    | error => exact Or.inr ⟨_, _, rfl, rfl⟩
    | @ok node node' t t' ht hothers =>
      obtain ⟨ds, hperm, hpairs⟩ := DeclList.merge_rearranged h hfresh hnodup hnames
        (DeclList.sweep_entered root false program _ 0 u t node hx).1
        (DeclList.sweep_entered root false program' _ 0 u' t' node' hy).1 hothers
      exact Or.inl ⟨_, _, t, t', _, ds, rfl, rfl, ht.replica rfl rfl, hperm, hpairs⟩
  -- the structs have the same names, so they clash on both sides or on neither
  · exact absurd (hnames.nodup_iff.mp hnodup) hdup'
  · exact absurd (hnames.nodup_iff.mpr hnodup') hdup
  · generalize hx : DeclList.sweep true root (.scope root) 0 program s = x at he
    generalize hy : DeclList.sweep true root (.scope root) 0 program' s' = y at he'
    obtain ⟨⟨node, outcome⟩, t⟩ := x
    obtain ⟨⟨node', outcome'⟩, t'⟩ := y
    cases he
    cases he'
    rw [DeclList.inTwoSweeps_run _ hx, DeclList.inTwoSweeps_run _ hy]
    exact Or.inr ⟨e, e', rfl, rfl⟩

end Register

end UnitCompiler
