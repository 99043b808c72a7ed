import UnitCompiler.Proofs.Ready
import UnitCompiler.Proofs.Lists

namespace UnitCompiler

open Context

def Kind.globalLabel (k : Kind) (ident : String) : List String :=
  if k.has .global then [Symbol.global ident] else []

def ArrayDecl.typeLabel (c : Context) (v : ArrayDecl) : Option String :=
  v.ty.bind fun ty => (c.types.get? ty).bind Ty.arrayLabel?

namespace Decl

def headLabels (c : Context) : Decl → List String
  | .var _ v => v.kind.globalLabel v.ident
  | .array _ v => (v.typeLabel c).toList ++ v.kind.globalLabel v.ident
  | .data _ d => (d.constant.bind DataConst.label).toList
  | .struct _ head _ => [Symbol.struct head.ident]
  | .function _ head _ _ => [Symbol.function head.ident]

end Decl

def Stmt.labels (c : Context) : Stmt → List String
  | .declare d => d.headLabels c
  | .label name _ env => env.toList.map fun e => c.jumpSymbol e name
  | .block _ _ | .goto _ _ _ | .eval _ _ => []

namespace Decl

def innerLabels (c : Context) : Decl → List String
  | .struct _ _ fields => (fields.filterMap id).flatMap (headLabels c)
  | .function _ head _ body =>
    (Stmt.atomsOfAll body).flatMap (Stmt.labels c) ++ head.env.toList.map c.exitSymbol
  | .var _ _ | .array _ _ | .data _ _ => []

/-- The labels that a checked declaration promises to define. -/
def labels (c : Context) (d : Decl) : List String :=
  d.headLabels c ++ d.innerLabels c

end Decl

/-- The table takes variables of the kind; `env` is the scope that the declaration stands in. -/
def Target.Takes (env : ScopeId) (k : Kind) : Target → Prop
  | .scope e => e = env ∧ (env = root ∧ k ∈ [Kind.global, Kind.union .global .const] ∨
      env ≠ root ∧ k ∈ [Kind.localVar, Kind.union .localVar .const])
  | .fields _ => k = .field
  | .params _ => k = .param

def Decl.Fits (env : ScopeId) (target : Target) : Decl → Prop
  | .var _ v => v.registration = none ∧ target.Takes env v.kind
  | .array _ v => target.Takes env v.kind
  | .data _ _ => True
  | .struct _ _ _ => env = root ∧ target = .scope root
  | .function _ _ params _ =>
    env = root ∧ target = .scope root ∧ ∀ d ∈ params.filterMap id, d.isParam = true

namespace Decl

variable {d : Decl} {env : ScopeId}

theorem fits_of_isWellFormed (h : d.isWellFormed = true) : d.Fits root (.scope root) := by
  cases d with
  | var site v =>
    rw [isWellFormed] at h
    obtain ⟨_, _, heq, hkind, hnew⟩ := exists_of_isVarOf h
    cases heq
    exact ⟨hnew, rfl, Or.inl ⟨rfl, hkind⟩⟩
  | array site v =>
    rw [isWellFormed] at h
    obtain ⟨_, _, heq, hkind⟩ := exists_of_isArrayOf h
    cases heq
    exact ⟨rfl, Or.inl ⟨rfl, by simp [hkind]⟩⟩
  | data => trivial
  | struct => exact ⟨rfl, rfl⟩
  | function site head params body =>
    rw [isWellFormed, Bool.and_eq_true] at h
    exact ⟨rfl, rfl, DeclList.each_iff.mp h.1⟩

theorem fits_of_isLocal (henv : env ≠ root) (h : d.isLocal = true) : d.Fits env (.scope env) := by
  rw [isLocal, Bool.or_eq_true] at h
  obtain h | h := h
  · obtain ⟨_, _, rfl, hkind, hnew⟩ := exists_of_isVarOf h
    exact ⟨hnew, rfl, Or.inr ⟨henv, hkind⟩⟩
  · obtain ⟨_, _, rfl, hkind⟩ := exists_of_isArrayOf h
    exact ⟨rfl, Or.inr ⟨henv, by simp [hkind]⟩⟩

theorem fits_of_isField (h : d.isField = true) (ty : TypeId) : d.Fits env (.fields ty) := by
  rw [isField, Bool.or_eq_true] at h
  obtain h | h := h
  · obtain ⟨_, _, rfl, hkind, hnew⟩ := exists_of_isVarOf h
    exact ⟨hnew, List.mem_singleton.mp hkind⟩
  · obtain ⟨_, _, rfl, hkind⟩ := exists_of_isArrayOf h
    exact hkind

theorem fits_of_isParam (h : d.isParam = true) (ty : TypeId) : d.Fits env (.params ty) := by
  obtain ⟨_, _, rfl, hkind, hnew⟩ := exists_of_isVarOf h
  exact ⟨hnew, List.mem_singleton.mp hkind⟩

end Decl

variable {owed : String → Prop} {c c' final : Context} {frame : Option Frame} {env : ScopeId}
  {target : Target}

/-- A table takes the record of a variable or an array that fits. -/
theorem Target.Takes.admits {a : Arena} {r : Record} (htakes : target.Takes env r.kind)
    (howed : ∀ l ∈ r.kind.globalLabel r.name, owed l) (hlt : r.ty < a.size)
    (hfield : r.kind.has .field = true → a.Describes r.ty) : target.Admits owed a r := by
  cases target with
  | scope e =>
    obtain ⟨rfl, ⟨henv, hkind⟩ | ⟨henv, hkind⟩⟩ := htakes
    · refine ⟨.global hkind henv ?_, hlt⟩
      have hglobal : ∀ k ∈ [Kind.global, Kind.union .global .const], k.has .global = true := by
        decide
      apply howed
      simp [Kind.globalLabel, hglobal _ hkind]
    · refine ⟨.inner ?_ henv, hlt⟩
      simp only [List.mem_cons, List.not_mem_nil, or_false] at hkind ⊢
      obtain h | h := hkind
      · exact Or.inl h
      · exact Or.inr (Or.inl h)
  | fields ty =>
    apply hfield
    rw [show r.kind = .field from htakes]
    decide
  | params ty => exact ⟨htakes, hlt⟩

/-- A kind that is neither constant nor that of a field or parameter is taken by scopes only. -/
theorem Target.Takes.stored {k : Kind} (htakes : target.Takes env k) (hconst : k.has .const = false)
    (hfield : k.has .field = false) (hparam : k.has .param = false) :
    target = .scope env ∧ k.isStored = true := by
  cases target with
  | scope e =>
    obtain ⟨rfl, hkind⟩ := htakes
    have hkinds : ∀ k ∈ [Kind.global, Kind.union .global .const, .localVar,
        Kind.union .localVar .const], k.has .const = false → k.isStored = true := by decide
    refine ⟨rfl, hkinds _ ?_ hconst⟩
    obtain ⟨-, hkind⟩ | ⟨-, hkind⟩ := hkind
    · exact List.mem_append_left [Kind.localVar, Kind.union .localVar .const] hkind
    · exact List.mem_append_right [Kind.global, Kind.union .global .const] hkind
  | fields ty =>
    rw [show k = .field from htakes] at hfield
    cases hfield
  | params ty =>
    rw [show k = .param from htakes] at hparam
    cases hparam

theorem Context.Framed.exists_scope (h : Framed c final env frame) (hc : Rooted c) :
    ∃ s, c.scopes[env]? = some s := by
  by_cases henv : env = root
  · obtain ⟨s, hs, -⟩ := hc
    exact ⟨s, henv ▸ hs⟩
  · obtain ⟨func, hin, -⟩ := h henv
    exact ⟨_, List.getElem?_eq_getElem hin.lt_length⟩

/-- A scope finds the record that it has just taken. -/
theorem Context.get?_insert {r : Record} {what : String} {i : Nat} {s : Scope}
    (hs : c.scopes[env]? = some s) (h : c.insert (.scope env) r what = .ok (i, c')) :
    ∃ s', c'.scopes[env]? = some s' ∧ s'.decls.get? r.name = some r := by
  obtain ⟨t, ht, hnew, rfl⟩ := insert_eq_ok h
  obtain rfl : s.decls = t := by
    rw [← scope_eq hs]
    exact Option.some.inj ht
  refine ⟨{ s with decls := ⟨s.decls.records ++ [r]⟩ }, ?_, ?_⟩
  · simp [hs]
  · have hnone : s.decls.records.find? (fun x => x.name == r.name) = none := by
      rw [List.find?_eq_none]
      intro x hx
      unfold Table.contains at hnew
      rw [List.any_eq_false] at hnew
      exact hnew x hx
    unfold Table.get?
    rw [List.find?_append, hnone]
    simp

theorem Variable.register_ready (hc : Covered owed c) {v v' : Variable} (hnew : v.registration = none)
    (htakes : target.Takes env v.kind) (howed : ∀ l ∈ v.kind.globalLabel v.ident, owed l)
    (hframe : Framed c final env frame) (h : v.register env target c = .ok v' c')
    (hfinal : Extends c' final) : Covered owed c' ∧ v'.Ready owed final frame := by
  obtain ⟨declared, c₁, r, kept, i, hdeclared, hrec, hins, rfl⟩ := Variable.register_eq_ok hnew h
  obtain ⟨hholds, hlt⟩ := hc.declaredType hdeclared
  have hext := extends_insert hins
  cases hrec with
  | plain =>
    refine ⟨hc.insert hins (htakes.admits howed hlt fun _ => Or.inl hholds), ?_⟩
    rintro e init hreg
    cases hreg
  | computed hvalue hconst hfield hparam =>
    obtain ⟨init, checked, -, hcheck, hcast⟩ := hvalue
    have hc' := hc.insert hins (htakes.admits howed hlt fun _ => Or.inl hholds)
    refine ⟨hc', ?_⟩
    rintro e init hreg
    cases hreg
    refine ⟨Value.cast_ready (Expr.check_ready hc (hext.trans hfinal) hframe hcheck) hcast, ?_⟩
    -- the value is still to be computed, so the variable has a place of its own
    obtain ⟨rfl, hstored⟩ := htakes.stored hconst hfield hparam
    obtain ⟨s, hs⟩ := hframe.exists_scope hc.rooted
    obtain ⟨s', hs', hget⟩ := get?_insert hs hins
    exact hc'.located hfinal hs' hget hstored (Arena.Holds.isConst hc' (hext.holds hholds))
      (hframe.extends hext)
  | @defaulted _ lit =>
    have hadd := extends_addType c env (.const lit)
    refine ⟨(hc.addType env (t := .const lit) trivial).insert hins (htakes.admits howed ?_ ?_), ?_⟩
    · exact Nat.lt_of_lt_of_le hlt hadd.size
    · exact fun _ => Or.inl (hadd.holds hholds)
    · rintro e init hreg
      cases hreg
  | @constant _ lit _ _ hfield =>
    refine ⟨(hc.addType env (t := .const lit) trivial).insert hins (htakes.admits howed ?_ ?_), ?_⟩
    · change c.types.size < (c.addType env (.const lit)).2.types.size
      simp
    -- no field is recorded as a constant
    · intro hf
      rw [show v.kind.has .field = _ from hf] at hfield
      cases hfield
    · rintro e init hreg
      cases hreg

/-- A stored size is one more than a number that is not negative. -/
theorem ArrayDecl.dimension_ne_zero {e : Expr} {n : UInt32} (h : dimension c env e = .ok n) :
    n ≠ 0 := by
  unfold dimension at h
  cases hv : e.check c env with
  | error d => rw [hv] at h; cases h
  | ok value =>
    rw [hv] at h
    dsimp only [bind, Except.bind] at h
    cases hf : value.fold? with
    | none => simp only [hf] at h; cases h
    | some lit =>
      simp only [hf] at h
      split at h
      · cases h
      · rename_i hneg
        cases h
        intro hzero
        -- only -1 has the successor 0, and it is negative
        have hmax : lit.toInt32.toUInt32 = 0 - 1 := by
          rw [← hzero, UInt32.add_sub_cancel]
        have hminus : lit.toInt32 = -1 := by simpa using congrArg UInt32.toInt32 hmax
        rw [hminus] at hneg
        exact hneg (by decide)

theorem ArrayDecl.register_ready (hc : Covered owed c) {v v' : ArrayDecl}
    (htakes : target.Takes env v.kind) (h : v.register env target c = .ok v' c')
    (hfinal : Extends c' final)
    (howed : ∀ l ∈ (v'.typeLabel final).toList ++ v'.kind.globalLabel v'.ident, owed l) :
    Covered owed c' ∧ v'.Ready final := by
  obtain ⟨element, sizes, i, helement, hsizes, hins, rfl⟩ := ArrayDecl.register_eq_ok h
  obtain ⟨hholds, -⟩ := hc.declaredType helement
  have hadd := extends_addType c.freshLabel.2 env (.array c.freshLabel.1 element sizes)
  have hget : (c.freshLabel.2.addType env (.array c.freshLabel.1 element sizes)).2.types.get?
      c.types.size = some (.array c.freshLabel.1 element sizes) :=
    get?_addType_self c.freshLabel.2 env _
  obtain ⟨_, hget', rfl⟩ := ((extends_insert hins).trans hfinal).types hget
  have hlabel : owed c.freshLabel.1 := by
    apply howed
    simp [ArrayDecl.typeLabel, hget', Ty.arrayLabel?]
  have hc₁ : Covered owed (c.freshLabel.2.addType env (.array c.freshLabel.1 element sizes)).2 := by
    refine hc.freshLabel.addType env ⟨hlabel, hadd.holds hholds, ?_⟩
    intro n hn
    obtain ⟨e, -, he⟩ := exists_of_mapM_eq_ok hsizes hn
    exact ArrayDecl.dimension_ne_zero he
  refine ⟨hc₁.insert hins (htakes.admits ?_ ?_ ?_), ?_⟩
  · exact fun l hl => howed l (List.mem_append_right _ hl)
  · exact lt_size_of_get? hget
  · exact fun _ => Or.inr ⟨_, _, _, hget⟩
  · exact ⟨_, _, _, _, rfl, hget'⟩

theorem StructHead.register_ready (hc : Covered owed c) {s s' : StructHead}
    (h : s.register root (.scope root) c = .ok s' c') (hfinal : Extends c' final)
    (howed : owed (Symbol.struct s'.ident)) : Covered owed c' ∧ s'.Ready final := by
  obtain ⟨i, hins, rfl⟩ := StructHead.register_eq_ok h
  have hget := get?_addType_self c root (.struct s.ident .empty)
  obtain ⟨_, hget', fields, rfl⟩ := ((extends_insert hins).trans hfinal).types hget
  have hc₁ : Covered owed (c.addType root (.struct s.ident .empty)).2 :=
    hc.addType root fun _ => ⟨howed, fun r hr => by cases hr⟩
  refine ⟨hc₁.insert hins ⟨.struct rfl hc.size howed, lt_size_of_get? hget⟩, ?_⟩
  exact ⟨_, fields, rfl, hc.size, hget'⟩

theorem Variable.register_kind {v v' : Variable} (hnew : v.registration = none)
    (h : v.register env target c = .ok v' c') : v'.kind = v.kind ∧ v'.ident = v.ident := by
  obtain ⟨_, _, _, _, _, -, -, -, rfl⟩ := Variable.register_eq_ok hnew h
  exact ⟨rfl, rfl⟩

/-- Parameters have no labels. -/
theorem Decl.Entered.headLabels_params {ds ds' : List Decl}
    (h : Decl.Entered env target c ds c' ds') (hparams : ∀ d ∈ ds, d.isParam = true) :
    ∀ d ∈ ds', d.headLabels final = [] := by
  induction h with
  | nil => exact fun _ hd => by cases hd
  | var h _ ih =>
    obtain ⟨hhead, hrest⟩ := List.forall_mem_cons.mp hparams
    obtain ⟨_, _, heq, hkind, hnew⟩ := exists_of_isVarOf hhead
    cases heq
    rw [List.forall_mem_cons]
    refine ⟨?_, ih hrest⟩
    rw [headLabels, (Variable.register_kind hnew h).1, List.mem_singleton.mp hkind]
    rfl
  | array | data | struct | function => cases (List.forall_mem_cons.mp hparams).1

/-- Registration keeps the context covered and makes the declarations ready, if every label that it
gives them is owed. -/
theorem Decl.Entered.ready {ds ds' : List Decl} (h : Decl.Entered env target c ds c' ds')
    (hc : Covered owed c) (hfits : ∀ d ∈ ds, d.Fits env target) (hframe : Framed c final env frame)
    (hfinal : Extends c' final) (howed : ∀ d ∈ ds', ∀ l ∈ d.headLabels final, owed l) :
    Covered owed c' ∧ ∀ d ∈ ds', d.Registered owed final frame := by
  induction h with
  | nil => exact ⟨hc, fun _ hd => by cases hd⟩
  | var h hrest ih =>
    obtain ⟨⟨hnew, htakes⟩, hfits⟩ := List.forall_mem_cons.mp hfits
    obtain ⟨howed, howeds⟩ := List.forall_mem_cons.mp howed
    obtain ⟨hkind, hident⟩ := Variable.register_kind hnew h
    rw [headLabels, hkind, hident] at howed
    obtain ⟨hc₁, hready⟩ := Variable.register_ready hc hnew htakes howed hframe h
      (hrest.extends.trans hfinal)
    obtain ⟨hc', hall⟩ := ih hc₁ hfits (hframe.extends (Variable.register_grows h).extends) hfinal howeds
    exact ⟨hc', List.forall_mem_cons.mpr ⟨hready, hall⟩⟩
  | array h hrest ih =>
    obtain ⟨htakes, hfits⟩ := List.forall_mem_cons.mp hfits
    obtain ⟨howed, howeds⟩ := List.forall_mem_cons.mp howed
    obtain ⟨hc₁, hready⟩ := ArrayDecl.register_ready hc htakes h (hrest.extends.trans hfinal) howed
    obtain ⟨hc', hall⟩ := ih hc₁ hfits (hframe.extends (ArrayDecl.register_grows h).extends) hfinal howeds
    exact ⟨hc', List.forall_mem_cons.mpr ⟨hready, hall⟩⟩
  | data h hrest ih =>
    obtain ⟨-, hfits⟩ := List.forall_mem_cons.mp hfits
    obtain ⟨-, howeds⟩ := List.forall_mem_cons.mp howed
    obtain ⟨text, rfl, rfl⟩ | ⟨lit, hnull, htext, rfl, rfl⟩ := DataItem.register_eq_ok h
    · obtain ⟨hc', hall⟩ := ih hc.freshLabel hfits (hframe.extends (extends_freshLabel _)) hfinal howeds
      exact ⟨hc', List.forall_mem_cons.mpr ⟨Or.inl ⟨text, _, rfl⟩, hall⟩⟩
    · obtain ⟨hc', hall⟩ := ih hc hfits hframe hfinal howeds
      exact ⟨hc', List.forall_mem_cons.mpr ⟨Or.inr ⟨lit, rfl, hnull, htext⟩, hall⟩⟩
  | struct h hrest ih =>
    obtain ⟨⟨rfl, rfl⟩, hfits⟩ := List.forall_mem_cons.mp hfits
    obtain ⟨howed, howeds⟩ := List.forall_mem_cons.mp howed
    obtain ⟨hc₁, hready⟩ := StructHead.register_ready hc h (hrest.extends.trans hfinal)
      (howed _ List.mem_cons_self)
    obtain ⟨hc', hall⟩ := ih hc₁ hfits (framed_root _ _ _) hfinal howeds
    exact ⟨hc', List.forall_mem_cons.mpr ⟨hready, hall⟩⟩
  | @function target c c₁ c₂ c' site head params params' body ds ds' result i hresult hparams hins
      hrest ihparams ih =>
    obtain ⟨⟨rfl, rfl, hisParam⟩, hfits⟩ := List.forall_mem_cons.mp hfits
    obtain ⟨-, howeds⟩ := List.forall_mem_cons.mp howed
    rw [← DeclList.forall_mem_inOrder] at hisParam
    have hadd := extends_addType c root (.function result .empty)
    -- the parameters go into the table of the new type and have no labels
    obtain ⟨hc₁, -⟩ := ihparams (hc.addType root (t := .function result .empty) fun r hr => by cases hr)
      (fun d hd => Decl.fits_of_isParam (hisParam d hd) _) (framed_root _ _ _)
      ((extends_insert hins).trans (hrest.extends.trans hfinal))
      (fun d hd l hl => by rw [hparams.headLabels_params hisParam d hd] at hl; cases hl)
    have hsize : c.types.size < c₁.types.size := by
      refine Nat.lt_of_lt_of_le ?_ hparams.extends.size
      simp
    obtain ⟨hc', hall⟩ := ih (hc₁.insert hins ⟨.function rfl, hsize⟩) hfits (framed_root _ _ _) hfinal howeds
    exact ⟨hc', List.forall_mem_cons.mpr ⟨trivial, hall⟩⟩

theorem Decl.Entered.isLeaf {ds ds' : List Decl} (h : Decl.Entered env target c ds c' ds')
    (hds : ∀ d ∈ ds, d.isLeaf = true) : ∀ d ∈ ds', d.isLeaf = true := by
  induction h with
  | nil => exact hds
  | var _ _ ih => exact List.forall_mem_cons.mpr ⟨rfl, ih (List.forall_mem_cons.mp hds).2⟩
  | array _ _ ih => exact List.forall_mem_cons.mpr ⟨rfl, ih (List.forall_mem_cons.mp hds).2⟩
  | data _ _ ih => exact List.forall_mem_cons.mpr ⟨rfl, ih (List.forall_mem_cons.mp hds).2⟩
  | struct | function => cases (List.forall_mem_cons.mp hds).1

theorem Decl.Registered.leafReady {d : Decl} (h : d.Registered owed c frame) (hd : d.isLeaf = true) :
    d.LeafReady owed c frame := by
  cases d with
  | var | array | data => exact h
  | struct | function => cases hd

/-- A checked body is ready, and the context stays covered. -/
theorem Stmt.Checked.ready {func : ScopeId} {body body' : List Stmt}
    (h : Stmt.Checked env c body c' body') (hc : Covered owed c) (hin : Inside c func env)
    (hfinal : Extends c' final)
    (howed : ∀ stmt ∈ Stmt.atomsOfAll body', ∀ l ∈ stmt.labels final, owed l) :
    Covered owed c' ∧ ∀ stmt ∈ Stmt.atomsOfAll body',
      stmt.Ready owed final (some (Frame.layout final func)) func := by
  induction h with
  | nil => exact ⟨hc, fun _ h => by cases h⟩
  | @declare env c c₁ c' d d' rest rest' hlocal hd hrest ih =>
    obtain ⟨howed, howeds⟩ := List.forall_mem_cons.mp howed
    obtain ⟨hc₁, hready⟩ := hd.ready hc
      (List.forall_mem_singleton.mpr (Decl.fits_of_isLocal hin.ne_root hlocal))
      (fun _ => ⟨func, hin, rfl⟩) (hrest.extends.trans hfinal) (List.forall_mem_singleton.mpr howed)
    -- locals open no scope, so their head is all there is to emit
    have hleaf := hd.isLeaf (List.forall_mem_singleton.mpr (Decl.isLeaf_of_isLocal hlocal))
    obtain ⟨hc', hall⟩ := ih hc₁ (hin.extends hd.extends) hfinal howeds
    refine ⟨hc', List.forall_mem_cons.mpr ⟨?_, hall⟩⟩
    exact (hready d' List.mem_cons_self).leafReady (hleaf d' List.mem_cons_self)
  | block hbody hrest ihbody ih =>
    obtain ⟨howed, howeds⟩ := List.forall_mem_append.mp howed
    obtain ⟨hc₁, hready⟩ := ihbody (hc.openBlock _) (inside_openBlock hin) (hrest.extends.trans hfinal)
      howed
    obtain ⟨hc', hall⟩ := ih hc₁ (hin.extends ((extends_openBlock _ _).trans hbody.extends)) hfinal howeds
    exact ⟨hc', List.forall_mem_append.mpr ⟨hready, hall⟩⟩
  | @goto env c c' label span old rest rest' hrest ih =>
    obtain ⟨-, howeds⟩ := List.forall_mem_cons.mp howed
    have hext := extends_noteJump c env label span
    obtain ⟨hc', hall⟩ := ih (hc.modifyLabel _ _ _) (hin.extends hext) hfinal howeds
    refine ⟨hc', List.forall_mem_cons.mpr ⟨⟨env, rfl, ?_⟩, hall⟩⟩
    exact hin.extends (hext.trans (hrest.extends.trans hfinal))
  | @label env c c₁ c' name span old rest rest' hplace hrest ih =>
    obtain ⟨-, howeds⟩ := List.forall_mem_cons.mp howed
    have hext := extends_placeLabel hplace
    obtain ⟨hc', hall⟩ := ih (hc.placeLabel hplace) (hin.extends hext) hfinal howeds
    refine ⟨hc', List.forall_mem_cons.mpr ⟨⟨env, rfl, ?_⟩, hall⟩⟩
    exact hin.extends (hext.trans (hrest.extends.trans hfinal))
  | @eval env c c' e old value rest rest' hcheck hrest ih =>
    obtain ⟨-, howeds⟩ := List.forall_mem_cons.mp howed
    obtain ⟨hc', hall⟩ := ih hc hin hfinal howeds
    refine ⟨hc', List.forall_mem_cons.mpr ⟨⟨value, rfl, ?_⟩, hall⟩⟩
    exact Expr.check_ready hc (hrest.extends.trans hfinal) (fun _ => ⟨func, hin, rfl⟩) hcheck

theorem Context.Declared.covered {rs : List Record} (h : Declared env c rs c') (hc : Covered owed c)
    (henv : env ≠ root) (hrs : ∀ r ∈ rs, r.kind = .param ∧ r.ty < c.types.size) :
    Covered owed c' := by
  induction h with
  | nil => exact hc
  | cons hins _ ih =>
    obtain ⟨⟨hkind, hlt⟩, hrs⟩ := List.forall_mem_cons.mp hrs
    refine ih (hc.insert hins ⟨.inner (by simp [hkind]) henv, hlt⟩) ?_
    intro r hr
    exact ⟨(hrs r hr).1, Nat.lt_of_lt_of_le (hrs r hr).2 (extends_insert hins).size⟩

theorem FunctionHead.enter_ready {f : FunctionHead} {scope : ScopeId} (hc : Covered owed c)
    (h : f.enter root c = .ok scope c') : Covered owed c' ∧ Inside c' scope scope := by
  obtain ⟨ty, result, params, -, hty, rfl, hdeclared⟩ := FunctionHead.enter_eq_ok h
  have hin := (inside_openFunction hc.rooted result).extends hdeclared.grows.extends
  refine ⟨hdeclared.covered (hc.openFunction root result) hin.ne_root ?_, hin⟩
  intro r hr
  obtain ⟨p, hp, rfl⟩ := List.mem_map.mp hr
  exact hc.types hty p hp

def Decl.PartsWellFormed : Decl → Prop
  | .struct _ _ fields => ∀ d ∈ fields.filterMap id, d.isField = true
  | .function _ _ _ body => Stmt.areWellFormed body = true
  | .var _ _ | .array _ _ | .data _ _ => True

/-- The check makes registered declarations ready. -/
theorem Decl.Checked.ready {ds ds' : List Decl} (h : Decl.Checked root c ds c' ds')
    (hc : Covered owed c) (hparts : ∀ d ∈ ds, d.PartsWellFormed)
    (hreg : ∀ d ∈ ds, d.Registered owed final none) (hfinal : Extends c' final)
    (howed : ∀ d ∈ ds', ∀ l ∈ d.innerLabels final, owed l) :
    Covered owed c' ∧ ∀ d ∈ ds', d.Ready owed final := by
  induction h with
  | nil => exact ⟨hc, fun _ hd => by cases hd⟩
  | var _ ih | array _ ih | data _ ih =>
    obtain ⟨hready, hreg⟩ := List.forall_mem_cons.mp hreg
    obtain ⟨hc', hall⟩ := ih hc (List.forall_mem_cons.mp hparts).2 hreg hfinal
      (List.forall_mem_cons.mp howed).2
    exact ⟨hc', List.forall_mem_cons.mpr ⟨hready, hall⟩⟩
  | @struct c c₁ c₂ c' site head fields fields' ty ds ds' hty hfields hlayout hrest ih =>
    obtain ⟨hisField, hparts⟩ := List.forall_mem_cons.mp hparts
    obtain ⟨hready, hreg⟩ := List.forall_mem_cons.mp hreg
    obtain ⟨howed, howeds⟩ := List.forall_mem_cons.mp howed
    have hisField : ∀ d ∈ DeclList.inOrder fields, d.isField = true :=
      DeclList.forall_mem_inOrder.mpr hisField
    have hperm := DeclList.inOrder_perm fields'
    obtain ⟨hc₁, hentered⟩ := hfields.ready hc
      (fun d hd => Decl.fits_of_isField (hisField d hd) ty) (framed_root c final none)
      ((extends_layOutFields hlayout).trans (hrest.extends.trans hfinal))
      (fun d hd l hl => howed l (List.mem_flatMap.mpr ⟨d, hperm.subset hd, hl⟩))
    have hleaf := hfields.isLeaf fun d hd => Decl.isLeaf_of_isField (hisField d hd)
    obtain ⟨hc', hall⟩ := ih (hc₁.layOutFields hlayout) hparts hreg hfinal howeds
    refine ⟨hc', List.forall_mem_cons.mpr ⟨⟨hready, ?_⟩, hall⟩⟩
    rw [← DeclList.forall_mem_inOrder]
    exact fun d hd => (hentered d hd).leafReady (hleaf d hd)
  | @function c c₁ c₂ c' site head params body body' scope ds ds' henter hbody hrest ih =>
    obtain ⟨-, hparts⟩ := List.forall_mem_cons.mp hparts
    obtain ⟨-, hreg⟩ := List.forall_mem_cons.mp hreg
    obtain ⟨howed, howeds⟩ := List.forall_mem_cons.mp howed
    obtain ⟨hc₁, hin⟩ := FunctionHead.enter_ready hc henter
    obtain ⟨hc₂, hready⟩ := hbody.ready hc₁ hin (hrest.extends.trans hfinal)
      (fun stmt hstmt l hl => howed l (List.mem_append_left _ (List.mem_flatMap.mpr ⟨stmt, hstmt, hl⟩)))
    obtain ⟨hc', hall⟩ := ih hc₂ hparts hreg hfinal howeds
    refine ⟨hc', List.forall_mem_cons.mpr ⟨⟨scope, rfl, ?_, hready⟩, hall⟩⟩
    exact hin.extends (hbody.extends.trans (hrest.extends.trans hfinal))

end UnitCompiler
