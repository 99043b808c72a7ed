import UnitCompiler.Proofs.Layout
import UnitCompiler.Proofs.ScopeWalks
import Mathlib.Data.Nat.Bitwise

namespace UnitCompiler

namespace Kind

theorem meets_union (k a b : Kind) : k.meets (a.union b) = (k.meets a || k.meets b) := by
  have hand : k.bits &&& (a.bits ||| b.bits) = (k.bits &&& a.bits) ||| (k.bits &&& b.bits) := by
    apply UInt32.toNat_inj.mp
    simp only [UInt32.toNat_and, UInt32.toNat_or, Nat.and_or_distrib_left]
  rw [Bool.eq_iff_iff, Bool.or_eq_true]
  simp only [meets, union, hand, bne_iff_ne, ne_eq, UInt32.or_eq_zero_iff, not_and_or]

/-- Of a single flag, to have some is to have all. -/
theorem meets_flag {f : Kind} {i : Nat} (hf : f.bits.toNat = 2 ^ i) (k : Kind) : k.meets f = k.has f := by
  have hand : (k.bits &&& f.bits).toNat = (k.bits.toNat.testBit i).toNat * 2 ^ i := by
    rw [UInt32.toNat_and, hf, Nat.and_two_pow]
  unfold meets has
  rw [Bool.eq_iff_iff, bne_iff_ne, beq_iff_eq, ← UInt32.toNat_inj, ne_eq, ← UInt32.toNat_inj, hand, hf]
  cases k.bits.toNat.testBit i with
  | false => simp [(Nat.two_pow_pos i).ne]
  | true => simp

end Kind

/-- The record needs a word of a frame: it is a variable, a parameter or a local one, and not of a constant's
type. -/
def Record.inFrame (types : Arena) (r : Record) : Bool :=
  r.kind.isStored && !types.isConst r.ty && (r.kind.has .param || r.kind.has .localVar)

/-- What a slot is for: the scope, the name and the type of a variable, and whether it is a parameter. -/
def Slot.variable (s : Slot) : ScopeId × String × TypeId × Bool :=
  (s.env, s.name, s.ty, s.isParam)

def Context.frameVariables (c : Context) (env : ScopeId) : List (ScopeId × String × TypeId × Bool) :=
  ((c.scope env).decls.records.filter (Record.inFrame c.types)).map fun r =>
    (env, r.name, r.ty, r.kind.has .param)

namespace Frame

theorem stored_eq (c : Context) (env : ScopeId) :
    stored c env = ((c.scope env).decls.records.filter (Record.inFrame c.types)).map fun r => (env, r) := by
  have hkind : ∀ k : Kind, k.meets (Kind.union .param .localVar) = (k.has .param || k.has .localVar) := by
    intro k
    rw [Kind.meets_union, Kind.meets_flag (i := 2) rfl, Kind.meets_flag (i := 1) rfl]
  simp only [stored, hkind]
  rfl

theorem variable_place (params locals : Nat) (l : List (ScopeId × Record)) :
    (place params locals l).map Slot.variable =
      l.map fun x => (x.1, x.2.name, x.2.ty, x.2.kind.has .param) := by
  induction l generalizing params locals with
  | nil => rfl
  | cons head rest ih =>
    obtain ⟨env, r⟩ := head
    cases h : r.kind.has .param with
    | true => rw [place_cons_param h, List.map_cons, List.map_cons, ih, h]; rfl
    | false => rw [place_cons_local h, List.map_cons, List.map_cons, ih, h]; rfl

/-- Parameters go upward, a word each, from where the counter stands. -/
theorem offsets_params (params locals : Nat) (l : List (ScopeId × Record)) :
    ((place params locals l).filter Slot.isParam).map Slot.offset =
      (List.range' params ((place params locals l).filter Slot.isParam).length).map fun k : Nat =>
        paramBase + wordSize * k := by
  induction l generalizing params locals with
  | nil => rfl
  | cons head rest ih =>
    obtain ⟨env, r⟩ := head
    cases h : r.kind.has .param with
    | true =>
      rw [place_cons_param h, List.filter_cons_of_pos rfl, List.map_cons, ih, List.length_cons,
        List.range'_succ, List.map_cons]
    | false => rw [place_cons_local h, List.filter_cons_of_neg (by simp), ih]

/-- Other variables go downward. -/
theorem offsets_locals (params locals : Nat) (l : List (ScopeId × Record)) :
    ((place params locals l).filter fun s => !s.isParam).map Slot.offset =
      (List.range' locals ((place params locals l).filter fun s => !s.isParam).length).map fun k : Nat =>
        -(wordSize * (k + 1) : Int) := by
  induction l generalizing params locals with
  | nil => rfl
  | cons head rest ih =>
    obtain ⟨env, r⟩ := head
    cases h : r.kind.has .param with
    | true => rw [place_cons_param h, List.filter_cons_of_neg (by simp), ih]
    | false =>
      rw [place_cons_local h, List.filter_cons_of_pos (by simp), List.map_cons, ih, List.length_cons,
        List.range'_succ, List.map_cons]

/-- A variable that has one slot is found at the offset of that slot. -/
theorem offset?_eq_some_iff {f : Frame} (hf : (f.slots.map fun s => (s.env, s.name)).Nodup) {env : ScopeId}
    {name : String} {offset : Int} :
    f.offset? env name = some offset ↔ ∃ s ∈ f.slots, s.env = env ∧ s.name = name ∧ s.offset = offset := by
  constructor
  · exact exists_of_offset?
  · rintro ⟨s, hs, rfl, rfl, rfl⟩
    have hfind := find?_unique (p := fun x : Slot => x.env == s.env && x.name == s.name) hs (by simp)
      (fun x hx hfound => List.inj_on_of_nodup_map hf hx hs (by simpa using hfound)) []
    rw [List.append_nil] at hfind
    rw [offset?, hfind]
    rfl

end Frame

namespace Context

def NamesDistinct (c : Context) : Prop :=
  ∀ s ∈ c.scopes, s.decls.names.Nodup

theorem NamesDistinct.modifyScope {c : Context} (hc : NamesDistinct c) (env : ScopeId) {f : Scope → Scope}
    (hf : ∀ s, c.scopes[env]? = some s → (f s).decls.names.Nodup) : NamesDistinct (c.modifyScope env f) := by
  intro s' hs'
  obtain ⟨e, he⟩ := List.mem_iff_getElem?.mp hs'
  obtain ⟨s, hs, rfl⟩ := getElem?_modifyScope_eq_some.mp he
  split
  · rename_i heq
    exact hf s (heq ▸ hs)
  · exact hc s (List.mem_of_getElem? hs)

theorem CheckStep.namesDistinct {c c' : Context} (h : CheckStep c c') (hc : NamesDistinct c) :
    NamesDistinct c' := by
  have hkeep : ∀ s, ∀ env : ScopeId, c.scopes[env]? = some s → s.decls.names.Nodup :=
    fun s env hs => hc s (List.mem_of_getElem? hs)
  have hopen : ∀ {s : Scope}, s.decls = .empty → ∀ t ∈ c.scopes ++ [s], t.decls.names.Nodup := by
    intro s hs t ht
    obtain ht | ht := List.mem_append.mp ht
    · exact hc t ht
    · rw [List.mem_singleton.mp ht, hs]
      exact List.nodup_nil
  cases h with
  | register h =>
    cases h with
    | label => exact hc
    | addType env t =>
      exact NamesDistinct.modifyScope (c := { c with types := (c.types.add t).2 }) hc env
        fun s hs => hkeep s env hs
    | @insert _ target r what i _ hins =>
      -- a name is entered only if the table does not have it
      obtain ⟨t, ht, hnew, rfl⟩ := insert_eq_ok hins
      cases target with
      | scope env =>
        refine hc.modifyScope env fun s hs => ?_
        obtain rfl : (c.scope env).decls = t := Option.some.inj ht
        rw [scope_eq hs] at hnew ⊢
        exact Table.nodup_concat (hkeep s env hs) hnew
      | fields ty => exact fun s hs => hc s (setTable_fields_scopes c ty _ ▸ hs)
      | params ty => exact fun s hs => hc s (setTable_params_scopes c ty _ ▸ hs)
    | release =>
      intro s' hs'
      obtain ⟨s, hs, rfl⟩ := List.mem_map.mp hs'
      exact hc s hs
  | openFunction => exact hopen rfl
  | @openBlock parent =>
    have hadd : NamesDistinct { c with scopes := c.scopes ++ [c.blockScope parent] } := hopen rfl
    exact hadd.modifyScope parent fun s hs => hadd s (List.mem_of_getElem? hs)
  | modifyLabel env name f => exact hc.modifyScope _ fun s hs => hkeep s _ hs
  | layOut h =>
    obtain ⟨t, -, rfl⟩ := layOutFields_eq_ok h
    exact fun s hs => hc s (setTable_fields_scopes c _ _ ▸ hs)

theorem CheckSteps.namesDistinct {c c' : Context} (h : CheckSteps c c') (hc : NamesDistinct c) :
    NamesDistinct c' := by
  induction h with
  | refl => exact hc
  | tail _ hstep ih => exact hstep.namesDistinct ih

theorem Run.namesDistinct {c : Context} (h : Run .initial c) : NamesDistinct c := by
  refine h.steps.namesDistinct ?_
  intro s hs
  rw [List.mem_singleton.mp hs]
  exact List.nodup_nil

/-- A variable needs one word at most, if the scopes differ. -/
theorem NamesDistinct.frameVariables_nodup {c : Context} (hc : NamesDistinct c) {order : List ScopeId}
    (horder : order.Nodup) (hscopes : ∀ e ∈ order, e < c.scopes.length) :
    ((order.flatMap c.frameVariables).map fun v => (v.1, v.2.1)).Nodup := by
  rw [List.map_flatMap, List.nodup_flatMap]
  refine ⟨?_, ?_⟩
  · intro e he
    obtain ⟨s, hs⟩ := exists_scope (hscopes e he)
    have hnames : ((s.decls.records.filter (Record.inFrame c.types)).map Record.name).Nodup :=
      List.Nodup.sublist (List.filter_sublist.map _) (hc s (List.mem_of_getElem? hs))
    have hkeys := hnames.map (f := fun name => (e, name)) fun a b h => (Prod.mk.inj h).2
    rw [List.map_map] at hkeys
    rw [frameVariables, List.map_map, scope_eq hs]
    exact hkeys
  · refine horder.imp ?_
    intro e e' hne key hkey hkey'
    simp only [frameVariables, List.map_map, List.mem_map] at hkey hkey'
    obtain ⟨r, -, rfl⟩ := hkey
    obtain ⟨r', -, heq⟩ := hkey'
    exact hne (Prod.mk.inj heq).1.symm

end Context

open Context

/-- The frame of a scope has one slot for each parameter and local variable of the scope and of the blocks inside
it, in the order of the walk through them, and no other. Parameters are at 8, 12, 16, ... and the rest at -4, -8,
-12, ..., so that no two variables share a word, and a variable is found at the offset of its slot. -/
theorem frame_layout {c : Context} (h : Run .initial c) {f : ScopeId} (hf : f < c.scopes.length) :
    (∃ order, Walks c [f] order ∧ order.Nodup ∧ (∀ e, e ∈ order ↔ Under c f e) ∧
      (Frame.layout c f).slots.map Slot.variable = order.flatMap c.frameVariables ∧
      (Frame.layout c f).params.length = (order.flatMap c.frameVariables).countP (fun v => v.2.2.2) ∧
      (Frame.layout c f).size = 4 * (order.flatMap c.frameVariables).countP (fun v => !v.2.2.2)) ∧
    ((Frame.layout c f).slots.map fun s => (s.env, s.name)).Nodup ∧
    (Frame.layout c f).params.map Slot.offset =
      (List.range (Frame.layout c f).params.length).map (fun k : Nat => (8 + 4 * k : Int)) ∧
    (Frame.layout c f).locals.map Slot.offset =
      (List.range (Frame.layout c f).locals.length).map (fun k : Nat => (-(4 * (k + 1)) : Int)) ∧
    (∀ env name offset, (Frame.layout c f).offset? env name = some offset ↔
      ∃ s ∈ (Frame.layout c f).slots, s.env = env ∧ s.name = name ∧ s.offset = offset) ∧
    ∀ env env' name name' offset, (Frame.layout c f).offset? env name = some offset →
      (Frame.layout c f).offset? env' name' = some offset → env = env' ∧ name = name' := by
  obtain ⟨order, hwalks, hnodup, hmem, hlayout⟩ := h.scopeTree.exists_order hf
  have hvariables : (Frame.layout c f).slots.map Slot.variable = order.flatMap c.frameVariables := by
    rw [hlayout, Frame.variable_place, List.map_flatMap]
    simp only [Frame.stored_eq, List.map_map]
    rfl
  have hscopes : ∀ e ∈ order, e < c.scopes.length := by
    intro e he
    obtain ⟨s, hs⟩ := ((hmem e).mp he).exists_scope
    exact ScopeTree.lt_length hs
  -- names are distinct within a scope, and no scope comes twice in the order
  have hkeys : ((Frame.layout c f).slots.map fun s => (s.env, s.name)).Nodup := by
    have hdistinct := h.namesDistinct.frameVariables_nodup hnodup hscopes
    rw [← hvariables, List.map_map] at hdistinct
    exact hdistinct
  refine ⟨⟨order, hwalks, hnodup, hmem, hvariables, ?_, ?_⟩, hkeys, ?_, ?_,
    fun _ _ _ => Frame.offset?_eq_some_iff hkeys, fun _ _ _ _ _ => Frame.offset?_injective⟩
  · rw [← hvariables, List.countP_map, List.countP_eq_length_filter]
    rfl
  · rw [← hvariables, List.countP_map, List.countP_eq_length_filter, Nat.mul_comm]
    rfl
  · rw [List.range_eq_range']
    exact Frame.offsets_params 0 0 _
  · rw [List.range_eq_range']
    exact Frame.offsets_locals 0 0 _

def nestedLocals : DeclList :=
  let var (name : String) (kind : Kind) : Decl :=
    .var {} { ident := name, tag := .int, kind, init := some (.literal (.int 3) {}) }
  [some (.function {} { ident := "f", tag := .int }
    [some (.var {} { ident := "p", tag := .int, kind := .param }),
      some (.var {} { ident := "q", tag := .string, kind := .param })]
    [.declare (var "x" .localVar),
      .block [.declare (var "x" .localVar), .declare (var "k" (.union .localVar .const)),
        .block [.declare (var "p" .localVar)] {}] {},
      .block [.declare (var "x" .localVar)] {}])]

theorem frame_layout_nestedLocals :
    Run .initial nestedLocals.checkedContext ∧ 1 < nestedLocals.checkedContext.scopes.length ∧
    (Frame.layout nestedLocals.checkedContext 1).slots.map (fun s => (s.env, s.name, s.offset)) =
      [(1, "p", 8), (1, "q", 12), (1, "x", -4), (2, "x", -8), (3, "p", -12), (4, "x", -16)] ∧
    (∃ order, Walks nestedLocals.checkedContext [1] order ∧ order.Nodup ∧
      (Frame.layout nestedLocals.checkedContext 1).slots.map Slot.variable =
        order.flatMap nestedLocals.checkedContext.frameVariables) ∧
    ∀ env name, (Frame.layout nestedLocals.checkedContext 1).offset? env name = some (-12) →
      env = 3 ∧ name = "p" := by
  have hrun := nestedLocals.run_checkedContext
  have hlt : 1 < nestedLocals.checkedContext.scopes.length := by decide +kernel
  obtain ⟨⟨order, hwalks, hnodup, -, hslots, -⟩, -, -, -, -, hinjective⟩ := frame_layout hrun hlt
  refine ⟨hrun, hlt, by decide +kernel, ⟨order, hwalks, hnodup, hslots⟩, ?_⟩
  intro env name hoffset
  exact hinjective env 3 name "p" (-12) hoffset (by decide +kernel)

end UnitCompiler
