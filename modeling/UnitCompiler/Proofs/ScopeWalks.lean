import UnitCompiler.Proofs.ScopeTree

namespace UnitCompiler

namespace Context

/-- The walk from a scope outward comes to an end, after the scopes of the chain. -/
inductive Climbs (c : Context) : ScopeId → List ScopeId → Prop
  | top {e : ScopeId} {s : Scope} (hs : c.scopes[e]? = some s) (h : s.parent = none) : Climbs c e [e]
  | up {e p : ScopeId} {s : Scope} {chain : List ScopeId} (hs : c.scopes[e]? = some s) (h : s.parent = some p)
      (rest : Climbs c p chain) : Climbs c e (e :: chain)

inductive Under (c : Context) (f : ScopeId) : ScopeId → Prop
  | here {s : Scope} (hs : c.scopes[f]? = some s) : Under c f f
  | block {p e : ScopeId} {s : Scope} (h : Under c f p) (hs : c.scopes[e]? = some s) (hkind : s.kind = .block)
      (hparent : s.parent = some p) : Under c f e

/-- The walk inward through pending scopes, each right before its children, comes to an end, after the scopes
of the second list. -/
inductive Walks (c : Context) : List ScopeId → List ScopeId → Prop
  | nil : Walks c [] []
  | cons {e : ScopeId} {s : Scope} {rest inner later : List ScopeId} (hs : c.scopes[e]? = some s)
      (inside : Walks c s.children inner) (beside : Walks c rest later) :
      Walks c (e :: rest) (e :: (inner ++ later))

variable {c : Context}

theorem exists_scope {e : ScopeId} (he : e < c.scopes.length) : ∃ s, c.scopes[e]? = some s :=
  ⟨_, List.getElem?_eq_getElem he⟩

theorem Under.exists_scope {f e : ScopeId} (h : Under c f e) : ∃ s, c.scopes[e]? = some s := by
  cases h with
  | here hs => exact ⟨_, hs⟩
  | block _ hs => exact ⟨_, hs⟩

end Context

open Context

namespace ScopeTree

variable {c : Context}

theorem climbs_outward (hc : ScopeTree c.scopes c.labels) {fuel : Nat} {e : ScopeId} (hfuel : e < fuel)
    (he : e < c.scopes.length) : Climbs c e (outward c.scopes fuel e) := by
  induction fuel generalizing e with
  | zero => exact absurd hfuel (Nat.not_lt_zero _)
  | succ fuel ih =>
    obtain ⟨s, hs⟩ := exists_scope he
    rw [outward, hs, Option.bind_some]
    cases hp : s.parent with
    | none => exact .top hs hp
    | some p =>
      -- a parent is older, so less fuel will do
      have hlt := hc.parent_lt hs hp
      exact .up hs hp (ih (Nat.lt_of_lt_of_le hlt (Nat.le_of_lt_succ hfuel)) (Nat.lt_trans hlt he))

theorem find?_outward (hc : ScopeTree c.scopes c.labels) {fuel : Nat} {e : ScopeId} (hfuel : e < fuel)
    {s : Scope} (hs : c.scopes[e]? = some s) :
    ∃ f t, (outward c.scopes fuel e).find? (fun e => (c.scope e).kind != .block) = some f ∧
      c.scopes[f]? = some t ∧ t.kind ≠ .block ∧ Under c f e ∧ s.symbol = t.symbol ∧ s.result = t.result := by
  induction fuel generalizing e s with
  | zero => exact absurd hfuel (Nat.not_lt_zero _)
  | succ fuel ih =>
    by_cases hkind : s.kind = .block
    -- the root is no block, so a block has a parent
    · have hne : e ≠ Context.root := by
        rintro rfl
        obtain ⟨r, hr, hunit, -⟩ := hc.root
        rw [Option.some.inj (hs.symm.trans hr), hunit] at hkind
        cases hkind
      obtain ⟨-, p, hlt, hparent⟩ := hc.inner hs hne
      obtain ⟨t, ht⟩ := exists_scope (Nat.lt_trans hlt (lt_length hs))
      obtain ⟨f, u, hf, hu, hfunction, hunder, hsymbol, hresult⟩ :=
        ih (Nat.lt_of_lt_of_le hlt (Nat.le_of_lt_succ hfuel)) ht
      -- going outward, a block has the symbol and the result of its parent
      obtain ⟨hsymbol', hresult'⟩ := hc.copied hs hkind hparent ht
      refine ⟨f, u, ?_, hu, hfunction, .block hunder hs hkind hparent, hsymbol'.trans hsymbol,
        hresult'.trans hresult⟩
      rw [outward, List.find?_cons_of_neg, hs, Option.bind_some, hparent]
      · exact hf
      · rw [scope_eq hs, hkind]
        decide
    · refine ⟨e, s, ?_, hs, hkind, .here hs, rfl, rfl⟩
      rw [outward, List.find?_cons_of_pos]
      rw [scope_eq hs]
      exact bne_iff_ne.mpr hkind

/-- The function or unit that a scope belongs to is around it with nothing but blocks between. -/
theorem functionOf (hc : ScopeTree c.scopes c.labels) {e : ScopeId} {s : Scope} (hs : c.scopes[e]? = some s) :
    ∃ t, c.scopes[c.functionOf e]? = some t ∧ t.kind ≠ .block ∧ Under c (c.functionOf e) e ∧
      s.symbol = t.symbol ∧ s.result = t.result := by
  obtain ⟨f, t, hf, hspec⟩ := hc.find?_outward (lt_length hs) hs
  have heq : c.functionOf e = f := by
    unfold Context.functionOf enclosing
    rw [hf]
    rfl
  rw [heq]
  exact ⟨t, hspec⟩

theorem under_le (hc : ScopeTree c.scopes c.labels) {f e : ScopeId} (h : Under c f e) : f ≤ e := by
  induction h with
  | here => exact Nat.le_refl _
  | block _ hs _ hp ih => exact Nat.le_of_lt (Nat.lt_of_le_of_lt ih (hc.parent_lt hs hp))

/-- What is under a scope is the scope or under one of its children. -/
theorem under_iff (hc : ScopeTree c.scopes c.labels) {f e : ScopeId} {s : Scope} (hs : c.scopes[f]? = some s) :
    Under c f e ↔ e = f ∨ ∃ k ∈ s.children, Under c k e := by
  constructor
  · intro h
    induction h with
    | here => exact Or.inl rfl
    | @block p e t _ ht hkind hparent ih =>
      obtain rfl | ⟨k, hk, hunder⟩ := ih
      · exact Or.inr ⟨e, (hc.children hs e).mpr ⟨t, ht, hkind, hparent⟩, .here ht⟩
      · exact Or.inr ⟨k, hk, .block hunder ht hkind hparent⟩
  · rintro (rfl | ⟨k, hk, hunder⟩)
    · exact .here hs
    · obtain ⟨t, ht, hkind, hparent⟩ := (hc.children hs k).mp hk
      induction hunder with
      | here => exact .block (.here hs) ht hkind hparent
      | block _ ht' hkind' hparent' ih => exact .block ih ht' hkind' hparent'

/-- Nothing is under two blocks with the same parent. -/
theorem eq_of_under (hc : ScopeTree c.scopes c.labels) {x y p e : ScopeId} {s t : Scope}
    (hs : c.scopes[x]? = some s) (hsp : s.parent = some p) (ht : c.scopes[y]? = some t) (htp : t.parent = some p)
    (hx : Under c x e) (hy : Under c y e) : x = y := by
  induction hx with
  | here =>
    cases hy with
    | here => rfl
    | block hy hs' _ hparent =>
      rw [Option.some.inj (hs'.symm.trans hs), hsp] at hparent
      cases hparent
      exact absurd (hc.parent_lt ht htp) (Nat.not_lt.mpr (hc.under_le hy))
  | block hx hs' _ hparent ih =>
    cases hy with
    | here =>
      rw [Option.some.inj (hs'.symm.trans ht), htp] at hparent
      cases hparent
      exact absurd (hc.parent_lt hs hsp) (Nat.not_lt.mpr (hc.under_le hx))
    | block hy hs'' _ hparent' =>
      rw [Option.some.inj (hs''.symm.trans hs')] at hparent'
      cases hparent.symm.trans hparent'
      exact ih hy

/-- A scope belongs to one function only. -/
theorem function_unique {f g e : ScopeId} {s t : Scope} (hs : c.scopes[f]? = some s) (hf : s.kind ≠ .block)
    (ht : c.scopes[g]? = some t) (hg : t.kind ≠ .block) (hfe : Under c f e) (hge : Under c g e) : f = g := by
  induction hfe with
  | here =>
    cases hge with
    | here => rfl
    | block _ hs' hblock _ => exact absurd hblock (Option.some.inj (hs.symm.trans hs') ▸ hf)
  | block _ hs' hblock hparent ih =>
    cases hge with
    | here => exact absurd hblock (Option.some.inj (ht.symm.trans hs') ▸ hg)
    | block hge hs'' _ hparent' =>
      rw [Option.some.inj (hs''.symm.trans hs')] at hparent'
      cases hparent.symm.trans hparent'
      exact ih hge

theorem under_function_iff (hc : ScopeTree c.scopes c.labels) {f e : ScopeId} {s : Scope}
    (hs : c.scopes[f]? = some s) (hkind : s.kind ≠ .block) :
    Under c f e ↔ e < c.scopes.length ∧ c.functionOf e = f := by
  constructor
  · intro h
    obtain ⟨t, ht⟩ := h.exists_scope
    obtain ⟨u, hu, hfunction, hunder, -⟩ := hc.functionOf ht
    exact ⟨lt_length ht, function_unique hu hfunction hs hkind hunder h⟩
  · rintro ⟨hlt, rfl⟩
    obtain ⟨t, ht⟩ := exists_scope hlt
    obtain ⟨-, -, -, hunder, -⟩ := hc.functionOf ht
    exact hunder

/-- A child is younger than its parent, so the number of scopes is fuel enough. -/
theorem walks_blockTree (hc : ScopeTree c.scopes c.labels) {fuel : Nat} {es : List ScopeId}
    (hes : ∀ e ∈ es, e < c.scopes.length ∧ c.scopes.length < fuel + e) :
    Walks c es (es.flatMap (Frame.blockTree c.scopes fuel)) := by
  induction fuel generalizing es with
  | zero =>
    cases es with
    | nil => exact .nil
    | cons e rest =>
      obtain ⟨hlt, hfuel⟩ := hes e List.mem_cons_self
      rw [Nat.zero_add] at hfuel
      exact absurd hlt (Nat.lt_asymm hfuel)
  | succ fuel ih =>
    induction es with
    | nil => exact .nil
    | cons e rest ihrest =>
      obtain ⟨⟨hlt, hfuel⟩, hrest⟩ := List.forall_mem_cons.mp hes
      obtain ⟨s, hs⟩ := exists_scope hlt
      have hinside : Walks c s.children (s.children.flatMap (Frame.blockTree c.scopes fuel)) := by
        apply ih
        intro k hk
        obtain ⟨t, ht, -, hparent⟩ := (hc.children hs k).mp hk
        have hyounger := hc.parent_lt ht hparent
        simp only [ScopeId] at *
        exact ⟨lt_length ht, by omega⟩
      rw [List.flatMap_cons, Frame.blockTree, hs]
      exact .cons hs hinside (ihrest hrest)

theorem mem_walks_iff (hc : ScopeTree c.scopes c.labels) {es order : List ScopeId} (h : Walks c es order)
    (k : ScopeId) : k ∈ order ↔ ∃ e ∈ es, Under c e k := by
  induction h with
  | nil => simp
  | @cons e s rest inner later hs _ _ ihinside ihbeside =>
    rw [List.mem_cons, List.mem_append, ihinside, ihbeside, List.exists_mem_cons_iff, hc.under_iff hs, or_assoc]

def Apart (c : Context) (es : List ScopeId) : Prop :=
  es.Pairwise fun x y => ∀ e, Under c x e → ¬ Under c y e

theorem apart_children (hc : ScopeTree c.scopes c.labels) {e : ScopeId} {s : Scope} (hs : c.scopes[e]? = some s) :
    Apart c s.children := by
  refine (hc.increasing hs).imp_of_mem ?_
  intro x y hx hy hlt k hunder hunder'
  obtain ⟨t, ht, -, htp⟩ := (hc.children hs x).mp hx
  obtain ⟨u, hu, -, hup⟩ := (hc.children hs y).mp hy
  exact Nat.ne_of_lt hlt (hc.eq_of_under ht htp hu hup hunder hunder')

theorem walks_nodup (hc : ScopeTree c.scopes c.labels) {es order : List ScopeId} (h : Walks c es order)
    (hes : Apart c es) : order.Nodup := by
  induction h with
  | nil => exact List.nodup_nil
  | @cons e s rest inner later hs inside beside ihinside ihbeside =>
    obtain ⟨hapart, hrest⟩ := List.pairwise_cons.mp hes
    have hlater : ∀ k, Under c e k → k ∉ later := by
      intro k hk hmem
      obtain ⟨y, hy, hunder⟩ := (hc.mem_walks_iff beside k).mp hmem
      exact hapart y hy k hk hunder
    rw [List.nodup_cons, List.nodup_append]
    refine ⟨?_, ihinside (hc.apart_children hs), ihbeside hrest, ?_⟩
    · intro hmem
      obtain hmem | hmem := List.mem_append.mp hmem
      · -- a child is younger than the scope
        obtain ⟨k, hk, hunder⟩ := (hc.mem_walks_iff inside e).mp hmem
        obtain ⟨t, ht, -, hparent⟩ := (hc.children hs k).mp hk
        exact absurd (hc.parent_lt ht hparent) (Nat.not_lt.mpr (hc.under_le hunder))
      · exact hlater e (.here hs) hmem
    · rintro k hk _ hk' rfl
      exact hlater k ((hc.under_iff hs).mpr (Or.inr ((hc.mem_walks_iff inside k).mp hk))) hk'

end ScopeTree

/-- The scopes that the layout of a frame goes through, in their order. -/
theorem ScopeTree.exists_order {c : Context} (hc : ScopeTree c.scopes c.labels) {f : ScopeId}
    (hf : f < c.scopes.length) :
    ∃ order, Walks c [f] order ∧ order.Nodup ∧ (∀ e, e ∈ order ↔ Under c f e) ∧
      Frame.layout c f = ⟨Frame.place 0 0 (order.flatMap (Frame.stored c))⟩ := by
  have hwalks : Walks c [f] ([f].flatMap (Frame.blockTree c.scopes (c.scopes.length + 1))) :=
    hc.walks_blockTree (List.forall_mem_singleton.mpr
      ⟨hf, Nat.lt_of_lt_of_le (Nat.lt_succ_self _) (Nat.le_add_right _ _)⟩)
  rw [List.flatMap_singleton] at hwalks
  refine ⟨_, hwalks, hc.walks_nodup hwalks (List.pairwise_singleton _ f), ?_, rfl⟩
  intro e
  rw [hc.mem_walks_iff hwalks]
  simp

/-- Whatever is done to a context, its scopes form a tree. So the walks over them come to an end: the one outward
that looks names and functions up, and the one inward that lays out a frame, which goes through each block of the
function once and through nothing else. -/
theorem scopes_form_tree {c : Context} (h : Run .initial c) :
    ScopeTree c.scopes c.labels ∧
    (∀ {e e' k : ScopeId} {s s' : Scope}, c.scopes[e]? = some s → c.scopes[e']? = some s' →
      k ∈ s.children → k ∈ s'.children → e = e') ∧
    (∀ {e : ScopeId} {s : Scope}, c.scopes[e]? = some s →
      ∃ t, c.scopes[c.functionOf e]? = some t ∧ t.kind ≠ .block ∧ Under c (c.functionOf e) e ∧
        s.symbol = t.symbol ∧ s.result = t.result) ∧
    (∀ e < c.scopes.length, Climbs c e (c.enclosing e)) ∧
    ∀ {f : ScopeId} {s : Scope}, c.scopes[f]? = some s →
      ∃ order, Walks c [f] order ∧ order.Nodup ∧ (∀ e, e ∈ order ↔ Under c f e) ∧
        (s.kind ≠ .block → ∀ e, e ∈ order ↔ e < c.scopes.length ∧ c.functionOf e = f) ∧
        Frame.layout c f = ⟨Frame.place 0 0 (order.flatMap (Frame.stored c))⟩ := by
  have hc := h.scopeTree
  refine ⟨hc, ?_, hc.functionOf, fun e he => hc.climbs_outward he he, ?_⟩
  · intro e e' k s s' hs hs' hk hk'
    obtain ⟨t, ht, -, hparent⟩ := (hc.children hs k).mp hk
    obtain ⟨t', ht', -, hparent'⟩ := (hc.children hs' k).mp hk'
    rw [Option.some.inj (ht.symm.trans ht')] at hparent
    exact Option.some.inj (hparent.symm.trans hparent')
  · intro f s hs
    obtain ⟨order, hwalks, hnodup, hmem, hlayout⟩ := hc.exists_order (ScopeTree.lt_length hs)
    refine ⟨order, hwalks, hnodup, hmem, fun hkind e => ?_, hlayout⟩
    rw [hmem, hc.under_function_iff hs hkind]

def nestedFunctions : DeclList :=
  [some (.function {} { ident := "f", tag := .int } [] [
    .block [.declare (.function {} { ident := "g", tag := .int } [] [.block [] {}])] {},
    .eval (.name "missing" {}) none])]

theorem scopes_form_tree_nestedFunctions :
    Run .initial nestedFunctions.checkedContext ∧
    nestedFunctions.checkedContext.scopes.map (fun s => (s.kind, s.parent, s.children)) =
      [(.unit, none, []), (.function, some 0, [2]), (.block, some 1, []), (.function, some 2, [4]),
        (.block, some 3, [])] ∧
    ∃ order, Walks nestedFunctions.checkedContext [1] order ∧ order.Nodup ∧
      ∀ e, e ∈ order ↔ e < 5 ∧ nestedFunctions.checkedContext.functionOf e = 1 := by
  have hscopes : nestedFunctions.checkedContext.scopes.map (fun s => (s.kind, s.parent, s.children)) =
      [(.unit, none, []), (.function, some 0, [2]), (.block, some 1, []), (.function, some 2, [4]),
        (.block, some 3, [])] := by decide +kernel
  have hlength : nestedFunctions.checkedContext.scopes.length = 5 := by
    simpa using congrArg List.length hscopes
  have hrun := nestedFunctions.run_checkedContext
  obtain ⟨-, -, -, -, hlayout⟩ := scopes_form_tree hrun
  obtain ⟨s, hs⟩ := exists_scope (c := nestedFunctions.checkedContext) (e := 1) (by rw [hlength]; decide)
  have hkind : s.kind = .function := by
    have hone := congrArg (·[1]?) hscopes
    simp only [List.getElem?_map, hs, Option.map_some] at hone
    exact (Prod.mk.inj (Option.some.inj hone)).1
  obtain ⟨order, hwalks, hnodup, -, hmem, -⟩ := hlayout hs
  exact ⟨hrun, hscopes, order, hwalks, hnodup, hlength ▸ hmem (by rw [hkind]; decide)⟩

end UnitCompiler
