import UnitCompiler.Proofs.FlatContext

namespace UnitCompiler

open Context

def Context.Named (c : Context) : Prop :=
  ∀ s ∈ c.scopes, s.symbol = Scope.unit.symbol ∨ ∃ k ≤ c.labels, s.symbol = Symbol.generated k

namespace Context

variable {c c' : Context}

theorem named_initial : Named .initial := by
  intro s hs
  obtain rfl : s = .unit := List.mem_singleton.mp hs
  exact Or.inl rfl

theorem Named.of_symbols (hc : Named c) (hlabels : c.labels ≤ c'.labels)
    (h : ∀ s' ∈ c'.scopes, ∃ s ∈ c.scopes, s'.symbol = s.symbol) : Named c' := by
  intro s' hs'
  obtain ⟨s, hs, heq⟩ := h s' hs'
  rw [heq]
  exact (hc s hs).imp_right fun ⟨k, hk, hsymbol⟩ => ⟨k, Nat.le_trans hk hlabels, hsymbol⟩

theorem Named.modifyScope (hc : Named c) (env : ScopeId) {f : Scope → Scope}
    (hf : ∀ s, (f s).symbol = s.symbol) : Named (c.modifyScope env f) := by
  refine hc.of_symbols (Nat.le_refl _) fun s' hs' => ?_
  obtain hs | ⟨s, hs, rfl⟩ := mem_modify hs'
  · exact ⟨s', hs, rfl⟩
  · exact ⟨s, hs, hf s⟩

theorem Named.addScope (hc : Named c) {s : Scope} {n : Nat} (hn : c.labels ≤ n)
    (hs : s.symbol = Scope.unit.symbol ∨ ∃ k ≤ n, s.symbol = Symbol.generated k) :
    Named { c with scopes := c.scopes ++ [s], labels := n } := by
  intro s' hs'
  obtain hold | hnew := List.mem_append.mp hs'
  · exact (hc s' hold).imp_right fun ⟨k, hk, heq⟩ => ⟨k, Nat.le_trans hk hn, heq⟩
  · rw [List.mem_singleton.mp hnew]
    exact hs

theorem Named.scope (hc : Named c) (env : ScopeId) :
    (c.scope env).symbol = Scope.unit.symbol ∨ ∃ k ≤ c.labels, (c.scope env).symbol = Symbol.generated k := by
  cases hs : c.scopes[env]? with
  | none =>
    rw [Context.scope, hs]
    exact Or.inl rfl
  | some s =>
    rw [scope_eq hs]
    exact hc s (List.mem_of_getElem? hs)

theorem Named.setTable (hc : Named c) (target : Target) (t : Table) : Named (c.setTable target t) := by
  unfold Context.setTable
  split
  · exact hc.modifyScope _ fun _ => rfl
  · split <;> exact hc
  · split <;> exact hc

theorem CheckStep.named (h : CheckStep c c') (hc : Named c) : Named c' := by
  cases h with
  | register h =>
    cases h with
    | label => exact hc.of_symbols (Nat.le_succ _) fun s hs => ⟨s, hs, rfl⟩
    | addType env t => exact Named.modifyScope (c := { c with types := (c.types.add t).2 }) hc env fun _ => rfl
    | insert _ hins =>
      obtain ⟨t, -, -, rfl⟩ := insert_eq_ok hins
      exact hc.setTable _ _
    | release =>
      refine hc.of_symbols (Nat.le_refl _) fun s' hs' => ?_
      obtain ⟨s, hs, rfl⟩ := List.mem_map.mp hs'
      exact ⟨s, hs, rfl⟩
  | openFunction =>
    exact hc.addScope (Nat.le_succ _) (Or.inr ⟨c.labels + 1, Nat.le_refl _, rfl⟩)
  | openBlock =>
    apply Named.modifyScope
    · exact hc.addScope (Nat.le_refl _) (hc.scope _)
    · exact fun _ => rfl
  | modifyLabel env name f => exact hc.modifyScope _ fun _ => rfl
  | layOut hlayout =>
    obtain ⟨t, -, rfl⟩ := layOutFields_eq_ok hlayout
    exact hc.setTable _ _

theorem CheckSteps.named (h : CheckSteps c c') (hc : Named c) : Named c' := by
  induction h with
  | refl => exact hc
  | tail _ hstep ih => exact hstep.named ih

end Context

/-- A context that has an image, of which everything can be read there that is read when something is emitted. -/
structure Context.Readable (l : Shift) (live : TypeId → Prop) (c c' : Context) : Prop
    extends Image l live c c' where
  sound : Sound c
  issued : Issued c
  named : Named c

section Reading

variable {l : Shift} {live : TypeId → Prop} {c c' : Context} {env : ScopeId}

theorem Context.get?_of_lt {id : TypeId} (h : id < c.types.size) : ∃ t, c.types.get? id = some t :=
  ⟨_, List.getElem?_eq_getElem h⟩

theorem Context.Image.lt_right (h : Image l live c c') (henv : env < c.scopes.length) :
    l.env env < c'.scopes.length := by
  obtain ⟨s', hs', -⟩ := h.scopes (List.getElem?_eq_getElem henv)
  exact (List.getElem?_eq_some_iff.mp hs').1

theorem Context.Image.meets_below (h : Image l live c c') (henv : env < c.scopes.length) :
    ∀ e ≤ env, Meets l c c' e :=
  fun _ he => h.meets (Nat.lt_of_le_of_lt he henv)

/-- Blocks are younger than what is around them, so enough fuel finds all of them in both contexts. -/
theorem Context.Image.blockTree (h : Image l live c c') {fuel fuel' : Nat} (hne : env ≠ root)
    (hlt : env < c.scopes.length) (hfuel : c.scopes.length ≤ fuel + env)
    (hfuel' : c.scopes.length ≤ fuel' + env) :
    Frame.blockTree c'.scopes fuel' (l.env env) = (Frame.blockTree c.scopes fuel env).map l.env := by
  induction fuel generalizing fuel' env with
  | zero => simp only [ScopeId] at *; omega
  | succ fuel ih =>
    cases fuel' with
    | zero => simp only [ScopeId] at *; omega
    | succ fuel' =>
      have hs : c.scopes[env]? = some c.scopes[env] := List.getElem?_eq_getElem hlt
      obtain ⟨s', hs', hmirror⟩ := h.scopes hs
      have hyounger := h.younger hne hs
      rw [Frame.blockTree, Frame.blockTree, hs, hs', Option.getD_some, Option.getD_some, hmirror.children hne,
        List.map_cons, List.flatMap_map, List.map_flatMap]
      congr 1
      apply List.flatMap_congr
      intro k hk
      obtain ⟨hek, hklt⟩ := hyounger k hk
      apply ih
      all_goals simp only [ScopeId, root] at *; omega

namespace Context.Readable

variable (h : Readable l live c c')

include h

theorem isConst {id : TypeId} (hid : id < c.types.size) : c'.types.isConst (l.ty id) = c.types.isConst id := by
  obtain ⟨t, ht⟩ := get?_of_lt hid
  obtain ⟨t', ht', hmirror⟩ := h.types ht
  unfold Arena.isConst
  rw [ht, ht']
  cases hmirror <;> rfl

theorem descriptor {id : TypeId} (hid : id < c.types.size) :
    Alike (fun _ _ => True) (Symbol.descriptor c.types id) (Symbol.descriptor c'.types (l.ty id)) := by
  obtain ⟨t, ht⟩ := get?_of_lt hid
  obtain ⟨t', ht', hmirror⟩ := h.types ht
  unfold Symbol.descriptor
  rw [ht, ht']
  cases hmirror with
  | int | float | string | struct | array => exact .ok trivial
  | function | const => exact .error ⟨rfl, rfl, rfl⟩

theorem fieldDescriptor {r r' : Record} (hr : r.Mirrors l r') (hlt : r.ty < c.types.size) :
    Alike (fun _ _ => True) (StructHead.fieldDescriptor c.types r) (StructHead.fieldDescriptor c'.types r') := by
  have hd := h.descriptor hlt
  unfold StructHead.fieldDescriptor
  rw [hr.ty]
  generalize Symbol.descriptor c'.types (l.ty r.ty) = y at hd ⊢
  generalize Symbol.descriptor c.types r.ty = x at hd ⊢
  cases hd with
  | ok => exact .ok trivial
  | error he => exact .error ⟨he.kind, he.pos, he.file⟩

theorem functionOf (henv : env < c.scopes.length) : c'.functionOf (l.env env) = l.env (c.functionOf env) :=
  h.toImage.functionOf (h.meets_below henv)

/-- The label of a function, which is that of its blocks too. -/
theorem symbol (hne : env ≠ root) (henv : env < c.scopes.length) :
    ∃ k ≤ c.labels, (c.scope (c.functionOf env)).symbol = Symbol.generated k ∧
      (c'.scope (c'.functionOf (l.env env))).symbol = Symbol.generated (l.number k) := by
  have hlt := h.functionOf_lt henv
  have hs : c.scopes[c.functionOf env]? = some c.scopes[c.functionOf env] := List.getElem?_eq_getElem hlt
  obtain ⟨s', hs', -⟩ := h.scopes hs
  obtain ⟨k, hk, hk'⟩ := h.symbols (h.functionOf_ne_root hne) hs hs'
  rw [h.functionOf henv, scope_eq hs, scope_eq hs', hk, hk']
  obtain hunit | ⟨j, hj, hgen⟩ := h.named _ (List.mem_of_getElem? hs)
  · exact absurd (hunit.symm.trans hk) (Symbol.ne_generated_of_mem 'm' (by decide) (by decide) (by decide) k)
  · obtain rfl := Symbol.generated_injective (hk.symm.trans hgen)
    exact ⟨k, hj, rfl, rfl⟩

theorem undefinedLabel? (henv : env < c.scopes.length) :
    FunctionHead.undefinedLabel? c' (l.env env) = FunctionHead.undefinedLabel? c env := by
  unfold FunctionHead.undefinedLabel? Scope.dangling
  rw [(h.meets henv).scope.labels]

end Context.Readable

end Reading

def Frame.keys (c : Context) (env : ScopeId) : List (ScopeId × String) :=
  ((Frame.blockTree c.scopes (c.scopes.length + 1) env).flatMap (Frame.stored c)).map fun x => (x.1, x.2.name)

theorem Frame.map_place (params locals : Nat) (l : List (ScopeId × Record)) :
    (Frame.place params locals l).map (fun s => (s.env, s.name)) = l.map fun x => (x.1, x.2.name) := by
  induction l generalizing params locals with
  | nil => rfl
  | cons x rest ih =>
    obtain ⟨env, r⟩ := x
    rw [Frame.place]
    split <;> simp [ih]

theorem Frame.isSome_offset? (c : Context) (func env : ScopeId) (name : String) :
    ((Frame.layout c func).offset? env name).isSome = true ↔ (env, name) ∈ Frame.keys c func := by
  rw [Frame.keys, ← Frame.map_place 0 0, Frame.offset?, Frame.layout]
  simp [List.find?_isSome]

def Frame.Moved (l : Shift) (f f' : Frame) : Prop :=
  ∀ env name, (f'.offset? (l.env env) name).isSome = (f.offset? env name).isSome

section Layout

variable {l : Shift} {live : TypeId → Prop} {c c' : Context} {env : ScopeId}

theorem Context.Readable.stored (h : Readable l live c c') (hne : env ≠ root) (henv : env < c.scopes.length) :
    (Frame.stored c' (l.env env)).map (fun x => (x.1, x.2.name)) =
      (Frame.stored c env).map fun x => (l.env x.1, x.2.name) := by
  have hs : c.scopes[env]? = some c.scopes[env] := List.getElem?_eq_getElem henv
  have hlt : ∀ r ∈ (c.scope env).decls.records, r.ty < c.types.size := by
    intro r hr
    rw [scope_eq hs] at hr
    exact h.sound.scopes _ (List.mem_of_getElem? hs) r.ty
      (List.mem_append_right _ (List.mem_flatMap.mpr ⟨r, hr, List.mem_cons_self⟩))
  have hdecls := (h.meets henv).scope.decls hne
  unfold Frame.stored
  rw [List.map_map, List.map_map]
  unfold Table.Mirrors at hdecls
  generalize (c'.scope (l.env env)).decls.records = rs' at hdecls ⊢
  generalize (c.scope env).decls.records = rs at hdecls hlt ⊢
  induction hdecls with
  | nil => rfl
  | @cons r r' _ _ hr _ ih =>
    obtain ⟨hty, hrest⟩ := List.forall_mem_cons.mp hlt
    rw [List.filter_cons, List.filter_cons, hr.kind, hr.ty, h.isConst hty]
    split
    · simp only [List.map_cons, ih hrest, Function.comp_apply, hr.name]
    · exact ih hrest

theorem Context.Image.lt_of_mem_blockTree (h : Image l live c c') {fuel : Nat} (hne : env ≠ root)
    (henv : env < c.scopes.length) {e : ScopeId} (he : e ∈ Frame.blockTree c.scopes fuel env) :
    e ≠ root ∧ e < c.scopes.length := by
  induction fuel generalizing env with
  | zero => exact absurd he List.not_mem_nil
  | succ fuel ih =>
    rw [Frame.blockTree] at he
    obtain rfl | hchild := List.mem_cons.mp he
    · exact ⟨hne, henv⟩
    · obtain ⟨k, hk, hmem⟩ := List.mem_flatMap.mp hchild
      rw [List.getElem?_eq_getElem henv, Option.getD_some] at hk
      obtain ⟨hlt, hlt'⟩ := h.younger hne (List.getElem?_eq_getElem henv) k hk
      exact ih (Nat.ne_zero_of_lt hlt) hlt' hmem

theorem Context.Readable.keys (h : Readable l live c c') (hne : env ≠ root) (henv : env < c.scopes.length) :
    Frame.keys c' (l.env env) = (Frame.keys c env).map fun x => (l.env x.1, x.2) := by
  have hlast : c.scopes.length - 1 < c.scopes.length := Nat.sub_lt h.pos Nat.one_pos
  have hle : c.scopes.length - 1 ≤ l.env (c.scopes.length - 1) := Shift.le_env _
  have hright := h.lt_right hlast
  have htree : Frame.blockTree c'.scopes (c'.scopes.length + 1) (l.env env) =
      (Frame.blockTree c.scopes (c.scopes.length + 1) env).map l.env := by
    apply h.blockTree hne henv
    all_goals simp only [ScopeId] at *; omega
  unfold Frame.keys
  rw [htree, List.flatMap_map, List.map_flatMap, List.map_map, List.map_flatMap]
  apply List.flatMap_congr
  intro e he
  obtain ⟨hne', he⟩ := h.lt_of_mem_blockTree hne henv he
  exact h.stored hne' he

theorem Context.Readable.layout (h : Readable l live c c') (hne : env ≠ root) (henv : env < c.scopes.length) :
    (Frame.layout c env).Moved l (Frame.layout c' (l.env env)) := by
  intro e name
  have hinj : Function.Injective fun x : ScopeId × String => (l.env x.1, x.2) := by
    rintro ⟨e, n⟩ ⟨e', n'⟩ heq
    simp only [Prod.mk.injEq] at heq
    rw [Shift.env_strictMono.injective heq.1, heq.2]
  rw [Bool.eq_iff_iff, Frame.isSome_offset?, Frame.isSome_offset?, h.keys hne henv]
  exact List.mem_map_of_injective hinj (a := (e, name))

/-- A variable is found at the same place, or in neither run. -/
theorem Context.Readable.location (h : Readable l live c c') (henv : env < c.scopes.length)
    {frame frame' : Option Frame} (hframe : Option.Rel (Frame.Moved l) frame frame') (name : String) :
    Alike (fun _ _ => True) (Emitter.location c frame env name)
      (Emitter.location c' frame' (l.env env) name) := by
  have hlookup := h.lookup (h.meets_below henv) name
  unfold Emitter.location
  generalize c'.lookup (l.env env) name = y at hlookup ⊢
  generalize c.lookup env name = x at hlookup ⊢
  cases hlookup with
  | none => exact .error ⟨rfl, rfl, rfl⟩
  | @some p p' hp =>
    obtain ⟨owner, r⟩ := p
    obtain ⟨owner', r'⟩ := p'
    obtain ⟨rfl, hr⟩ := hp
    dsimp only
    rw [hr.kind]
    split
    · exact .ok trivial
    · split
      -- the frames differ in their numbers only, so both sides have a place or neither has
      · have hoffset : (frame'.bind fun f => f.offset? (l.env owner) name).isSome =
            (frame.bind fun f => f.offset? owner name).isSome := by
          cases hframe with
          | none => rfl
          | some hmoved => exact hmoved owner name
        generalize (frame'.bind fun f => f.offset? (l.env owner) name) = y at hoffset ⊢
        generalize (frame.bind fun f => f.offset? owner name) = x at hoffset ⊢
        cases x <;> cases y
        · exact .error ⟨rfl, rfl, rfl⟩
        · cases hoffset
        · cases hoffset
        · exact .ok trivial
      · exact .error ⟨rfl, rfl, rfl⟩

end Layout

end UnitCompiler
