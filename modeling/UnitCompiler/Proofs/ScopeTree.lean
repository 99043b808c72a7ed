import UnitCompiler.Proofs.Blocks
import UnitCompiler.Proofs.Origins

namespace UnitCompiler

namespace Context

/-- One thing that is done to a context: a single change, or a whole pass, which may fail. Scopes are opened
and checks run under scopes that are there. -/
inductive Action : Context → Context → Prop
  | step {c c' : Context} (h : CheckStep c c') : Action c c'
  | register (s : Session) (env : ScopeId) (target : Target) (seq : DeclList) :
      Action s.context (seq.register env target s).2.context
  | check {s : Session} {env : ScopeId} (h : env < s.context.scopes.length) (seq : DeclList) :
      Action s.context (seq.check env s).2.context
  | checkBody {s : Session} {env : ScopeId} (h : env < s.context.scopes.length) (body : List Stmt) :
      Action s.context (Stmt.checkAll body env s).2.context
  | emit {β : Type} [Backend β] (s : Emitter β) (seq : DeclList) :
      Action s.context (after seq.emit s).context
  | emitBody {β : Type} [Backend β] (s : Emitter β) (body : List Stmt) :
      Action s.context (after (Stmt.emitAll body) s).context
  | emitData {β : Type} [Backend β] (s : Emitter β) (seq : DeclList) :
      Action s.context (after seq.emitData s).context

abbrev Run : Context → Context → Prop := Relation.ReflTransGen Action

/-- Every pass is made of single changes. -/
theorem Action.steps {c c' : Context} (h : Action c c') : CheckSteps c c' := by
  cases h with
  | step h => exact .single h
  | register s env target seq => exact seq.register_checkSteps env target s
  | check h seq => exact seq.checkFrom_steps 0 h
  | checkBody h body => exact Stmt.checkAll_steps body h
  | emit s seq => exact (DeclList.emitFrom_stable 0 seq s).context.checkSteps
  | emitBody s body => exact (Stmt.emitAll_stable body s).context.checkSteps
  | emitData s seq => exact (seq.emitData_stable s).context.checkSteps

theorem Run.steps {c c' : Context} (h : Run c c') : CheckSteps c c' := by
  induction h with
  | refl => exact .refl
  | tail _ haction ih => exact ih.trans haction.steps

end Context

open Context

theorem DeclList.run_checkedContext (ds : DeclList) : Run .initial ds.checkedContext := by
  have hregister : Run .initial (ds.register root (.scope root) {}).2.context :=
    .single (.register {} root (.scope root) ds)
  exact hregister.tail (.check (Nat.lt_of_lt_of_le Nat.one_pos hregister.steps.length_le) _)

def Scope.bare (s : Scope) : Scope :=
  { s with decls := .empty, types := [], labels := [] }

theorem Context.map_bare_modifyScope (c : Context) (env : ScopeId) {f : Scope → Scope}
    (hf : ∀ s, (f s).bare = s.bare) : (c.modifyScope env f).scopes.map Scope.bare = c.scopes.map Scope.bare := by
  apply List.ext_getElem?
  intro e
  rw [List.getElem?_map, List.getElem?_map, getElem?_modifyScope]
  cases c.scopes[e]? with
  | none => rfl
  | some s =>
    simp only [Option.map_some]
    split
    · rw [hf]
    · rfl

@[simp] theorem Context.map_bare_setTable (c : Context) (target : Target) (t : Table) :
    (c.setTable target t).scopes.map Scope.bare = c.scopes.map Scope.bare := by
  cases target with
  | scope env => exact map_bare_modifyScope c env fun _ => rfl
  | fields ty => simp
  | params ty => simp

/-- All that a single change can do to the tree of scopes. -/
theorem Context.CheckStep.scopes_cases {c c' : Context} (h : CheckStep c c') :
    (c'.scopes.map Scope.bare = c.scopes.map Scope.bare ∧ c.labels ≤ c'.labels) ∨
    (∃ parent < c.scopes.length, ∃ result, c' = (c.openFunction parent result).2) ∨
    ∃ parent < c.scopes.length, c' = (c.openBlock parent).2 := by
  cases h with
  | register h =>
    left
    cases h with
    | label => exact ⟨rfl, Nat.le_succ _⟩
    | addType env t =>
      exact ⟨map_bare_modifyScope { c with types := (c.types.add t).2 } env fun _ => rfl, Nat.le_refl _⟩
    | insert _ hins =>
      obtain ⟨t, -, -, rfl⟩ := insert_eq_ok hins
      exact ⟨map_bare_setTable .., (extends_insert hins).labels⟩
    | release => exact ⟨List.map_map .., Nat.le_refl _⟩
  | openFunction h result => exact Or.inr (Or.inl ⟨_, h, result, rfl⟩)
  | openBlock h => exact Or.inr (Or.inr ⟨_, h, rfl⟩)
  | modifyLabel env name f => exact Or.inl ⟨map_bare_modifyScope c _ fun _ => rfl, Nat.le_refl _⟩
  | layOut h =>
    obtain ⟨t, -, rfl⟩ := layOutFields_eq_ok h
    exact Or.inl ⟨map_bare_setTable .., (extends_layOutFields h).labels⟩

/-- The unit is the only scope without a parent, and every parent is older than its child. A scope lists the
blocks right inside it in the order of their opening, and a block has the label and the result of the scope
around it. Functions have labels of their own, out of the first `labels` numbers. -/
structure ScopeTree (scopes : List Scope) (labels : Nat) : Prop where
  root : ∃ s, scopes[root]? = some s ∧ s.kind = .unit ∧ s.parent = none
  inner : ∀ {e : ScopeId} {s : Scope}, scopes[e]? = some s → e ≠ Context.root →
    s.kind ≠ .unit ∧ ∃ p < e, s.parent = some p
  increasing : ∀ {e : ScopeId} {s : Scope}, scopes[e]? = some s → s.children.Pairwise (· < ·)
  children : ∀ {e : ScopeId} {s : Scope}, scopes[e]? = some s → ∀ k, k ∈ s.children ↔
    ∃ t, scopes[k]? = some t ∧ t.kind = .block ∧ t.parent = some e
  copied : ∀ {e p : ScopeId} {s t : Scope}, scopes[e]? = some s → s.kind = .block → s.parent = some p →
    scopes[p]? = some t → s.symbol = t.symbol ∧ s.result = t.result
  numbered : ∀ {e : ScopeId} {s : Scope}, scopes[e]? = some s → s.kind = .function →
    ∃ n ≤ labels, s.symbol = Symbol.generated n
  distinct : ∀ {e e' : ScopeId} {s s' : Scope}, scopes[e]? = some s → s.kind = .function →
    scopes[e']? = some s' → s'.kind = .function → s.symbol = s'.symbol → e = e'

theorem exists_of_map_bare {scopes scopes' : List Scope}
    (h : scopes'.map Scope.bare = scopes.map Scope.bare) {e : ScopeId} {s' : Scope}
    (hs' : scopes'[e]? = some s') :
    ∃ s, scopes[e]? = some s ∧ ∃ decls types labels, s' = { s with decls, types, labels } := by
  have he := congrArg (·[e]?) h
  simp only [List.getElem?_map, hs', Option.map_some] at he
  obtain ⟨s, hs, hbare⟩ := Option.map_eq_some_iff.mp he.symm
  refine ⟨s, hs, s'.decls, s'.types, s'.labels, ?_⟩
  cases s
  cases s'
  cases hbare
  rfl

theorem getElem?_unit {e : ScopeId} {s : Scope} (h : [Scope.unit][e]? = some s) : e = root ∧ s = .unit := by
  cases e with
  | zero => exact ⟨rfl, (Option.some.inj h).symm⟩
  | succ e => cases h

namespace ScopeTree

variable {scopes : List Scope} {labels : Nat}

theorem initial : ScopeTree [.unit] 0 where
  root := ⟨.unit, rfl, rfl, rfl⟩
  inner h hne := absurd (getElem?_unit h).1 hne
  increasing h := by
    obtain ⟨-, rfl⟩ := getElem?_unit h
    exact List.Pairwise.nil
  children h k := by
    obtain ⟨-, rfl⟩ := getElem?_unit h
    constructor
    · exact fun hk => absurd hk List.not_mem_nil
    · rintro ⟨t, ht, hkind, -⟩
      obtain ⟨-, rfl⟩ := getElem?_unit ht
      cases hkind
  copied h hkind := by
    obtain ⟨-, rfl⟩ := getElem?_unit h
    cases hkind
  numbered h hkind := by
    obtain ⟨-, rfl⟩ := getElem?_unit h
    cases hkind
  distinct h hkind := by
    obtain ⟨-, rfl⟩ := getElem?_unit h
    cases hkind

/-- What is declared in the scopes does not matter. -/
theorem of_map_bare {scopes' : List Scope} {labels' : Nat} (hc : ScopeTree scopes labels)
    (h : scopes'.map Scope.bare = scopes.map Scope.bare) (hlabels : labels ≤ labels') :
    ScopeTree scopes' labels' where
  root := by
    obtain ⟨s, hs, hroot⟩ := hc.root
    obtain ⟨s', hs', _, _, _, rfl⟩ := exists_of_map_bare h.symm hs
    exact ⟨s', hs', hroot⟩
  inner hs' hne := by
    obtain ⟨s, hs, _, _, _, rfl⟩ := exists_of_map_bare h hs'
    have hinner := hc.inner hs hne
    exact hinner
  increasing hs' := by
    obtain ⟨s, hs, _, _, _, rfl⟩ := exists_of_map_bare h hs'
    have hincreasing := hc.increasing hs
    exact hincreasing
  children hs' k := by
    obtain ⟨s, hs, _, _, _, rfl⟩ := exists_of_map_bare h hs'
    refine (hc.children hs k).trans ⟨?_, ?_⟩
    · rintro ⟨t, ht, hblock⟩
      obtain ⟨t', ht', _, _, _, rfl⟩ := exists_of_map_bare h.symm ht
      exact ⟨t', ht', hblock⟩
    · rintro ⟨t', ht', hblock⟩
      obtain ⟨t, ht, _, _, _, rfl⟩ := exists_of_map_bare h ht'
      exact ⟨t, ht, hblock⟩
  copied hs' hkind hparent ht' := by
    obtain ⟨s, hs, _, _, _, rfl⟩ := exists_of_map_bare h hs'
    obtain ⟨t, ht, _, _, _, rfl⟩ := exists_of_map_bare h ht'
    have hcopied := hc.copied hs hkind hparent ht
    exact hcopied
  numbered hs' hkind := by
    obtain ⟨s, hs, _, _, _, rfl⟩ := exists_of_map_bare h hs'
    obtain ⟨n, hn, hsymbol⟩ := hc.numbered hs hkind
    exact ⟨n, Nat.le_trans hn hlabels, hsymbol⟩
  distinct hs' hkind ht' hkind' heq := by
    obtain ⟨s, hs, _, _, _, rfl⟩ := exists_of_map_bare h hs'
    obtain ⟨t, ht, _, _, _, rfl⟩ := exists_of_map_bare h ht'
    exact hc.distinct hs hkind ht hkind' heq

theorem lt_length {e : ScopeId} {s : Scope} (hs : scopes[e]? = some s) : e < scopes.length :=
  (List.getElem?_eq_some_iff.mp hs).1

theorem parent_lt (hc : ScopeTree scopes labels) {e p : ScopeId} {s : Scope} (hs : scopes[e]? = some s)
    (hp : s.parent = some p) : p < e := by
  by_cases he : e = Context.root
  · subst he
    obtain ⟨r, hr, -, hnone⟩ := hc.root
    rw [Option.some.inj (hs.symm.trans hr), hnone] at hp
    cases hp
  · obtain ⟨-, p', hlt, hp'⟩ := hc.inner hs he
    rwa [Option.some.inj (hp.symm.trans hp')]

/-- Nothing is inside a scope that is not there yet. -/
theorem parent_ne_length (hc : ScopeTree scopes labels) {e : ScopeId} {s : Scope} (hs : scopes[e]? = some s) :
    s.parent ≠ some scopes.length := by
  intro hp
  exact Nat.lt_asymm (lt_length hs) (hc.parent_lt hs hp)

/-- A function that is opened has the next number, and no scope lists it. -/
theorem addFunction {parent : ScopeId} {s : Scope} (hc : ScopeTree scopes labels) (hlt : parent < scopes.length)
    (hkind : s.kind = .function) (hparent : s.parent = some parent) (hchildren : s.children = [])
    (hsymbol : s.symbol = Symbol.generated (labels + 1)) : ScopeTree (scopes ++ [s]) (labels + 1) where
  root := by
    obtain ⟨r, hr, hroot⟩ := hc.root
    exact ⟨r, getElem?_concat_eq_some.mpr (Or.inl hr), hroot⟩
  inner he hne := by
    obtain hold | ⟨rfl, rfl⟩ := getElem?_concat_eq_some.mp he
    · exact hc.inner hold hne
    · exact ⟨by rw [hkind]; decide, parent, hlt, hparent⟩
  increasing he := by
    obtain hold | ⟨rfl, rfl⟩ := getElem?_concat_eq_some.mp he
    · exact hc.increasing hold
    · rw [hchildren]
      exact List.Pairwise.nil
  children he k := by
    -- the new scope is no block, so the blocks of a parent are those that were there
    have hblocks : ∀ p, (∃ t, (scopes ++ [s])[k]? = some t ∧ t.kind = .block ∧ t.parent = some p) ↔
        ∃ t, scopes[k]? = some t ∧ t.kind = .block ∧ t.parent = some p := by
      intro p
      constructor
      · rintro ⟨t, ht, hblock, hp⟩
        obtain hold | ⟨-, rfl⟩ := getElem?_concat_eq_some.mp ht
        · exact ⟨t, hold, hblock, hp⟩
        · rw [hkind] at hblock
          cases hblock
      · rintro ⟨t, ht, hblock⟩
        exact ⟨t, getElem?_concat_eq_some.mpr (Or.inl ht), hblock⟩
    rw [hblocks]
    obtain hold | ⟨rfl, rfl⟩ := getElem?_concat_eq_some.mp he
    · exact hc.children hold k
    · rw [hchildren]
      refine ⟨fun hk => absurd hk List.not_mem_nil, ?_⟩
      rintro ⟨t, ht, -, hp⟩
      exact absurd hp (hc.parent_ne_length ht)
  copied he hblock hp ht := by
    obtain hold | ⟨-, rfl⟩ := getElem?_concat_eq_some.mp he
    · obtain hold' | ⟨rfl, -⟩ := getElem?_concat_eq_some.mp ht
      · exact hc.copied hold hblock hp hold'
      · exact absurd hp (hc.parent_ne_length hold)
    · rw [hkind] at hblock
      cases hblock
  numbered he hfunction := by
    obtain hold | ⟨-, rfl⟩ := getElem?_concat_eq_some.mp he
    · obtain ⟨n, hn, hn'⟩ := hc.numbered hold hfunction
      exact ⟨n, Nat.le_succ_of_le hn, hn'⟩
    · exact ⟨labels + 1, Nat.le_refl _, hsymbol⟩
  distinct he hfunction he' hfunction' heq := by
    have hnew : ∀ {e : ScopeId} {t : Scope}, scopes[e]? = some t → t.kind = .function → t.symbol ≠ s.symbol := by
      intro e t ht hfunction heq
      obtain ⟨n, hn, hn'⟩ := hc.numbered ht hfunction
      rw [hn', hsymbol] at heq
      rw [Symbol.generated_injective heq] at hn
      exact Nat.not_succ_le_self _ hn
    obtain hold | ⟨rfl, rfl⟩ := getElem?_concat_eq_some.mp he
    · obtain hold' | ⟨rfl, rfl⟩ := getElem?_concat_eq_some.mp he'
      · exact hc.distinct hold hfunction hold' hfunction' heq
      · exact absurd heq (hnew hold hfunction)
    · obtain hold' | ⟨rfl, rfl⟩ := getElem?_concat_eq_some.mp he'
      · exact absurd heq.symm (hnew hold' hfunction')
      · rfl

/-- The scopes after a block is opened: the old ones, of which the parent has one child more, and the block. -/
theorem getElem?_openBlock {c : Context} {parent e : ScopeId} {s' : Scope} (hlt : parent < c.scopes.length) :
    (c.openBlock parent).2.scopes[e]? = some s' ↔
      (∃ s, c.scopes[e]? = some s ∧
        s' = { s with children := s.children ++ if parent = e then [c.scopes.length] else [] }) ∨
      (e = c.scopes.length ∧ s' = c.blockScope parent) := by
  have hrun : (c.openBlock parent).2 = { c with scopes := c.scopes ++ [c.blockScope parent] }.modifyScope parent
    fun s => { s with children := s.children ++ [c.scopes.length] } := rfl
  rw [hrun, getElem?_modifyScope, Option.map_eq_some_iff]
  simp only [getElem?_concat_eq_some]
  constructor
  · rintro ⟨s, hs | ⟨rfl, rfl⟩, rfl⟩
    · refine Or.inl ⟨s, hs, ?_⟩
      split <;> simp
    · refine Or.inr ⟨rfl, ?_⟩
      rw [if_neg (Nat.ne_of_lt hlt)]
  · rintro (⟨s, hs, rfl⟩ | ⟨rfl, rfl⟩)
    · refine ⟨s, Or.inl hs, ?_⟩
      split <;> simp
    · refine ⟨_, Or.inr ⟨rfl, rfl⟩, ?_⟩
      rw [if_neg (Nat.ne_of_lt hlt)]

/-- A block that is opened is the last child of its parent. -/
theorem openBlock {c : Context} {parent : ScopeId} (hc : ScopeTree c.scopes c.labels)
    (hlt : parent < c.scopes.length) : ScopeTree (c.openBlock parent).2.scopes c.labels where
  root := by
    obtain ⟨r, hr, hroot⟩ := hc.root
    exact ⟨_, (getElem?_openBlock hlt).mpr (Or.inl ⟨r, hr, rfl⟩), hroot⟩
  inner he hne := by
    obtain ⟨s, hs, rfl⟩ | ⟨rfl, rfl⟩ := (getElem?_openBlock hlt).mp he
    · have hinner := hc.inner hs hne
      exact hinner
    · refine ⟨fun hunit => ?_, parent, hlt, rfl⟩
      cases hunit
  increasing he := by
    obtain ⟨s, hs, rfl⟩ | ⟨rfl, rfl⟩ := (getElem?_openBlock hlt).mp he
    -- the block has the highest number of all, so it comes last among the children of its parent
    · refine List.pairwise_append.mpr ⟨hc.increasing hs, by split <;> simp, ?_⟩
      intro k hk j hj
      obtain ⟨t, ht, -⟩ := (hc.children hs k).mp hk
      split at hj
      · rw [List.mem_singleton.mp hj]
        exact lt_length ht
      · cases hj
    · exact List.Pairwise.nil
  children he k := by
    obtain ⟨s, hs, rfl⟩ | ⟨rfl, rfl⟩ := (getElem?_openBlock hlt).mp he
    · rw [List.mem_append, hc.children hs k]
      constructor
      · rintro (⟨t, ht, hblock⟩ | hk)
        · exact ⟨_, (getElem?_openBlock hlt).mpr (Or.inl ⟨t, ht, rfl⟩), hblock⟩
        · split at hk
          · rename_i heq
            exact ⟨_, (getElem?_openBlock hlt).mpr (Or.inr ⟨List.mem_singleton.mp hk, rfl⟩), rfl,
              congrArg some heq⟩
          · cases hk
      · rintro ⟨t', ht', hblock, hp⟩
        obtain ⟨t, ht, rfl⟩ | ⟨rfl, rfl⟩ := (getElem?_openBlock hlt).mp ht'
        · exact Or.inl ⟨t, ht, hblock, hp⟩
        · right
          rw [if_pos (Option.some.inj hp)]
          exact List.mem_singleton_self _
    -- no scope is inside the new one yet
    · refine ⟨fun hk => absurd hk List.not_mem_nil, ?_⟩
      rintro ⟨t', ht', -, hp⟩
      obtain ⟨t, ht, rfl⟩ | ⟨-, rfl⟩ := (getElem?_openBlock hlt).mp ht'
      · exact (hc.parent_ne_length ht hp).elim
      · exact absurd (Option.some.inj hp) (Nat.ne_of_lt hlt)
  copied he hblock hp ht' := by
    obtain ⟨s, hs, rfl⟩ | ⟨rfl, rfl⟩ := (getElem?_openBlock hlt).mp he
    · obtain ⟨t, ht, rfl⟩ | ⟨rfl, -⟩ := (getElem?_openBlock hlt).mp ht'
      · have hcopied := hc.copied hs hblock hp ht
        exact hcopied
      · exact (hc.parent_ne_length hs hp).elim
    · cases hp
      obtain ⟨t, ht, rfl⟩ | ⟨heq, -⟩ := (getElem?_openBlock hlt).mp ht'
      -- a block takes over the symbol and the result of its parent
      · rw [blockScope, scope_eq ht]
        exact ⟨rfl, rfl⟩
      · exact absurd heq (Nat.ne_of_lt hlt)
  numbered he hfunction := by
    obtain ⟨s, hs, rfl⟩ | ⟨-, rfl⟩ := (getElem?_openBlock hlt).mp he
    · have hnumbered := hc.numbered hs hfunction
      exact hnumbered
    · cases hfunction
  distinct he hfunction he' hfunction' heq := by
    obtain ⟨s, hs, rfl⟩ | ⟨-, rfl⟩ := (getElem?_openBlock hlt).mp he
    · obtain ⟨s', hs', rfl⟩ | ⟨-, rfl⟩ := (getElem?_openBlock hlt).mp he'
      · exact hc.distinct hs hfunction hs' hfunction' heq
      · cases hfunction'
    · cases hfunction

end ScopeTree

theorem Context.CheckSteps.scopeTree {c c' : Context} (h : CheckSteps c c') (hc : ScopeTree c.scopes c.labels) :
    ScopeTree c'.scopes c'.labels := by
  induction h with
  | refl => exact hc
  | tail _ hstep ih =>
    obtain ⟨hbare, hlabels⟩ | ⟨parent, hlt, result, rfl⟩ | ⟨parent, hlt, rfl⟩ := hstep.scopes_cases
    · exact ih.of_map_bare hbare hlabels
    · exact ih.addFunction hlt rfl rfl rfl rfl
    · exact ih.openBlock hlt

theorem Context.Run.scopeTree {c : Context} (h : Run .initial c) : ScopeTree c.scopes c.labels :=
  h.steps.scopeTree .initial

end UnitCompiler
