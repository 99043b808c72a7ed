import UnitCompiler.Proofs.CheckedAlone

namespace UnitCompiler

open Context

theorem Decl.echoes_self {c : Context} (d : Decl) : d.Echoes c.still (fun _ => True) False d := by
  have hself : ∀ ty : Option TypeId, ty = ty.map c.still.ty := by
    intro ty
    cases ty with
    | none => rfl
    | some id => simp
  cases d with
  | var => exact .var False.elim
  | data => exact .data False.elim
  | array => exact .array False.elim
  | struct site head fields => exact .struct rfl (hself _) (fun _ _ => Or.inl trivial) False.elim
  | function site head params body => exact .function rfl (hself _)

theorem Visited.eq_of_outcome {ν : Type} {x : Visited ν × Session} {o : Except Diagnostic Unit}
    (h : x.1.outcome = o) : x = (⟨x.1.node, o⟩, x.2) := by
  rw [← h]

theorem DeclList.resumes_self {c : Context} (hc : Flat c) {seq : DeclList}
    (hnodup : ((seq.filterMap id).filterMap Decl.headType?).Nodup) {done : TypeId → Prop}
    (hids : ∀ ty ∈ (seq.filterMap id).filterMap Decl.headType?, ty < c.types.size ∧ ¬ done ty)
    {s : Context} (hfills : Fills done c s) (hpos : 0 < s.scopes.length) :
    Resumes c.still c c (seq.filterMap id) s := by
  refine ⟨hc, hc.replica_self, hpos, hnodup, fun ty hty => (hids ty hty).1, ?_⟩
  refine hfills.mono ?_
  rintro (_ | id | _) hdone
  · exact hdone
  · intro ty hty heq
    rw [still_ty] at heq
    exact (hids ty hty).2 (heq ▸ hdone)
  · exact hdone

theorem DeclList.echoes_self (c : Context) (ds : List Decl) :
    List.Forall₂ (fun d d' => d.Echoes c.still (fun _ => True) False d' ∧ (False → Stmt.areFresh d.body = true))
      ds ds :=
  List.forall₂_same.mpr fun d _ => ⟨d.echoes_self, False.elim⟩

/-- A sequence is checked as its declarations are one by one, if no two of them fill the same struct. -/
theorem DeclList.checkFrom_alone {c : Context} (hc : Flat c) {t : Session} (ht : t.context = c) {seq : DeclList}
    (hnodup : ((seq.filterMap id).filterMap Decl.headType?).Nodup) {done : TypeId → Prop}
    (hids : ∀ ty ∈ (seq.filterMap id).filterMap Decl.headType?, ty < c.types.size ∧ ¬ done ty) (index : Nat)
    {s : Session} (hfills : Fills done c s.context) (hpos : 0 < s.context.scopes.length) :
    ((DeclList.checkFrom root index seq s).1.outcome = .ok () ∧
      ∀ d, some d ∈ seq → (d.check root t).1.outcome = .ok ()) ∨
    ∃ e, (DeclList.checkFrom root index seq s).1.outcome = .error e ∧ Decl.FailsFirst t (seq.filterMap id) e := by
  subst ht
  have hresumes := DeclList.resumes_self hc hnodup hids hfills hpos
  obtain ⟨seq', u, hrun, hlodges, -⟩ | ⟨e, he, hfails⟩ :=
    DeclList.checkFrom_lodges hresumes (DeclList.echoes_self _ _) index
  · refine Or.inl ⟨by rw [hrun], fun d hd => ?_⟩
    exact hlodges.outcome d (List.mem_filterMap.mpr ⟨some d, hd, rfl⟩)
  · exact Or.inr ⟨e, he, hfails⟩

theorem DeclList.register_flat {program registered : DeclList} {s t : Session} (hs : s.context = .initial)
    (h : program.register root (.scope root) s = (⟨registered, .ok ()⟩, t)) : Flat t.context := by
  have hentered := DeclList.register_entered h
  rw [hs] at hentered
  have hsound : Sound (program.register root (.scope root) s).2.context :=
    DeclList.register_sound program (hs ▸ sound_initial) (by rw [hs]; decide) fun _ h => Target.noConfusion h
  rw [h] at hsound
  obtain ⟨u, hu, hroot⟩ := hentered.extends.scopes (show initial.scopes[root]? = some .unit from rfl)
  refine ⟨hsound, hentered.issued issued_initial, hentered.grows.scopes_length, ?_, ?_⟩
  · rw [scope_eq hu]
    exact hroot.kind
  · rw [scope_eq hu]
    exact hroot.parent

/-- The check of a registered program does not depend on the order of its declarations. In any order it
succeeds exactly if each declaration does when it is checked alone, right after registration. Otherwise the
diagnostic is, up to its text, that of the first declaration that fails alone. -/
theorem check_independent_of_order {program registered : DeclList} {s t : Session} (hs : s.context = .initial)
    (h : program.register root (.scope root) s = (⟨registered, .ok ()⟩, t)) {seq : DeclList}
    (hperm : seq.Perm registered) :
    ((seq.check root t).1.outcome = .ok () ↔
      ∀ d, some d ∈ registered → (d.check root t).1.outcome = .ok ()) ∧
    ∀ e, (seq.check root t).1.outcome = .error e → Decl.FailsFirst t (seq.filterMap id) e := by
  have hflat := DeclList.register_flat hs h
  obtain ⟨hnodup, hbounds⟩ := (DeclList.register_entered h).headTypes
  -- each declaration has a type of its own, in whatever order they stand
  have hheads : (registered.inOrder.filterMap Decl.headType?).Perm
      ((seq.filterMap id).filterMap Decl.headType?) :=
    ((DeclList.inOrder_perm registered).trans (hperm.symm.filterMap id)).filterMap _
  have hpos : 0 < t.context.scopes.length := by
    rw [hflat.length]
    exact Nat.one_pos
  have hids : ∀ ty ∈ (seq.filterMap id).filterMap Decl.headType?, ty < t.context.types.size ∧ ¬ False :=
    fun ty hty => ⟨(hbounds ty (hheads.mem_iff.mpr hty)).2, not_false⟩
  have halone := DeclList.checkFrom_alone hflat rfl (hheads.nodup_iff.mp hnodup) hids 0
    (.refl (fun _ => False) _) hpos
  unfold DeclList.check
  obtain ⟨hok, hall⟩ | ⟨e, he, hfails⟩ := halone
  · rw [hok]
    refine ⟨iff_of_true rfl fun d hd => hall d (hperm.mem_iff.mpr hd), ?_⟩
    intro e he
    cases he
  · rw [he]
    refine ⟨iff_of_false (fun h => by cases h) fun hall => ?_, ?_⟩
    -- the first that fails in this order is one of the registered ones
    · obtain ⟨before, d, later, e', hsplit, -, hd, -⟩ := hfails
      have hmem : d ∈ seq.filterMap id := hsplit ▸ List.mem_append_right _ List.mem_cons_self
      obtain ⟨_, hslot, rfl⟩ := List.mem_filterMap.mp hmem
      rw [hall d (hperm.mem_iff.mp hslot)] at hd
      cases hd
    · intro e' he'
      cases he'
      exact hfails

def twoFailures : DeclList :=
  let field : Decl :=
    .var {} { ident := "x", tag := .int, kind := .field, init := some (.literal (.int 1) {}) }
  let localVar : Stmt := .declare (.var {} { ident := "s", tag := .named "T", kind := .localVar })
  [some (.function { pos := ⟨1, 1⟩ } { ident := "f", tag := .named "S" } []
      [.declare (.struct {} { ident := "T" } [some field]), .block [localVar] {},
        .eval (.name "missing" ⟨4, 1⟩) none]),
    none,
    some (.struct { pos := ⟨5, 1⟩ } { ident := "S" } [some field]),
    some (.function { pos := ⟨6, 1⟩, file := some "b.bas" } { ident := "g", tag := .int } []
      [.goto "again" ⟨7, 1⟩ none, .label "again" ⟨8, 1⟩ none, .label "again" ⟨9, 1⟩ none])]

/-- Backwards the label is reported, and the unknown name not any more. -/
theorem check_independent_of_order_twoFailures :
    let registered : Visited DeclList × Session := twoFailures.register root (.scope root) {}
    let backwards : DeclList := registered.1.node.reverse
    let e : Diagnostic := ⟨.duplicateIdentifier, "duplicate label 'again'", some ⟨9, 1⟩, some "b.bas"⟩
    registered.1.outcome = .ok () ∧
    (backwards.check root registered.2).1.outcome = .error e ∧
    Decl.FailsFirst registered.2 (backwards.filterMap id) e ∧
    ∃ d, some d ∈ registered.1.node ∧ (d.check root registered.2).1.outcome ≠ .ok () := by
  intro registered backwards e
  have hok : registered.1.outcome = .ok () := by decide +kernel
  have hrun : registered = (⟨registered.1.node, .ok ()⟩, registered.2) := Visited.eq_of_outcome hok
  have herror : (backwards.check root registered.2).1.outcome = .error e := by decide +kernel
  have hperm : backwards.Perm registered.1.node := List.reverse_perm registered.1.node
  obtain ⟨hiff, hfails⟩ := check_independent_of_order rfl hrun hperm
  refine ⟨hok, herror, hfails e herror, ?_⟩
  by_contra hall
  push Not at hall
  rw [hiff.mpr hall] at herror
  cases herror

end UnitCompiler
