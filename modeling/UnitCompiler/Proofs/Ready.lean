import UnitCompiler.Proofs.Covered

namespace UnitCompiler

open Context

section

variable (owed : String → Prop) (c : Context) (frame : Option Frame)

/-- The variable that a name denotes has a place, and the label of the place is owed. -/
def Located (env : ScopeId) (name : String) : Prop :=
  ∃ place, Emitter.location c frame env name = .ok place ∧ ∀ l ∈ place.labels, owed l

def Value.Ready : Value → Prop
  | .const _ _ => True
  | .var env name _ => Located owed c frame env name
  | .new _ label => owed label
  | .converted inner _ _ => Value.Ready inner

def Variable.Ready (v : Variable) : Prop :=
  ∀ env init, v.registration = some ⟨env, some init⟩ →
    init.Ready owed c frame ∧ Located owed c frame env v.ident

def ArrayDecl.Ready (v : ArrayDecl) : Prop :=
  ∃ ty label element sizes, v.ty = some ty ∧ c.types.get? ty = some (.array label element sizes)

def DataItem.Ready (d : DataItem) : Prop :=
  (∃ text label, d.constant = some ⟨.string text, some label⟩) ∨
    ∃ lit, d.constant = some ⟨lit, none⟩ ∧ lit ≠ .null ∧ ∀ text, lit ≠ .string text

def StructHead.Ready (h : StructHead) : Prop :=
  ∃ ty fields, h.ty = some ty ∧ TypeId.null < ty ∧ c.types.get? ty = some (.struct h.ident fields)

def Decl.LeafReady : Decl → Prop
  | .var _ v => v.Ready owed c frame
  | .array _ v => v.Ready c
  | .data _ d => d.Ready
  | _ => False

def Decl.Registered : Decl → Prop
  | .struct _ head _ => head.Ready c
  | .function _ _ _ _ => True
  | d => d.LeafReady owed c frame

/-- A checked statement of the function `func` that can be emitted. -/
def Stmt.Ready (func : ScopeId) : Stmt → Prop
  | .declare d => d.LeafReady owed c frame
  | .block _ _ => False
  | .goto _ _ env => ∃ e, env = some e ∧ Inside c func e
  | .label _ _ env => ∃ e, env = some e ∧ Inside c func e
  | .eval _ checked => ∃ value, checked = some value ∧ value.Ready owed c frame

end

def Decl.Ready (owed : String → Prop) (c : Context) : Decl → Prop
  | .struct _ head fields => head.Ready c ∧ ∀ d ∈ fields.filterMap id, d.LeafReady owed c none
  | .function _ head _ body => ∃ env, head.env = some env ∧ Inside c env env ∧
      ∀ stmt ∈ Stmt.atomsOfAll body, stmt.Ready owed c (some (Frame.layout c env)) env
  | d => d.LeafReady owed c none

def Context.Framed (c final : Context) (env : ScopeId) (frame : Option Frame) : Prop :=
  env ≠ root → ∃ func, Inside c func env ∧ frame = some (Frame.layout final func)

variable {owed : String → Prop} {c c' final : Context} {frame : Option Frame} {env : ScopeId}

theorem Context.framed_root (c final : Context) (frame : Option Frame) :
    Framed c final root frame :=
  fun h => absurd rfl h

theorem Context.Framed.extends (h : Framed c final env frame) (hext : Extends c c') :
    Framed c' final env frame := by
  intro henv
  obtain ⟨func, hin, hframe⟩ := h henv
  exact ⟨func, hin.extends hext, hframe⟩

theorem Context.Framed.enclosing (h : Framed c final env frame) (hc : Rooted c) {e : ScopeId}
    (he : e ∈ c.enclosing env) : Framed c final e frame := by
  intro hne
  by_cases henv : env = root
  · rw [henv] at he
    exact absurd (mem_enclosing_root hc he) hne
  · obtain ⟨func, hin, hframe⟩ := h henv
    obtain hroot | hin := mem_outward_inside hc hin he
    · exact absurd hroot hne
    · exact ⟨func, hin, hframe⟩

/-- The kinds with storage at run time: a global has a label, a variable of a function has a slot. -/
theorem Record.Covered.of_stored {r : Record} (hr : r.Covered owed env)
    (h : r.kind.isStored = true) :
    r.kind = .global ∧ owed (Symbol.global r.name) ∨
      env ≠ root ∧ (r.kind = .localVar ∨ r.kind = .param) := by
  have hconst : ∀ k ∈ [Kind.union .global .const, Kind.union .localVar .const, .func, .struct],
      k.isStored = false := by decide
  cases hr with
  | global hkind _ howed =>
    simp only [List.mem_cons, List.not_mem_nil, or_false] at hkind
    obtain hkind | hkind := hkind
    · exact Or.inl ⟨hkind, howed⟩
    · rw [hkind, hconst _ (by decide)] at h
      cases h
  | inner hkind henv =>
    simp only [List.mem_cons, List.not_mem_nil, or_false] at hkind
    obtain hkind | hkind | hkind := hkind
    · exact Or.inr ⟨henv, Or.inl hkind⟩
    · rw [hkind, hconst _ (by decide)] at h
      cases h
    · exact Or.inr ⟨henv, Or.inr hkind⟩
  | function hkind =>
    rw [hkind, hconst _ (by decide)] at h
    cases h
  | struct hkind =>
    rw [hkind, hconst _ (by decide)] at h
    cases h

/-- A stored variable keeps its place to the end. -/
theorem Context.Covered.located (hc : Covered owed c) (hfinal : Extends c final) {s : Scope}
    {name : String} {r : Record} (hs : c.scopes[env]? = some s) (hget : s.decls.get? name = some r)
    (hstored : r.kind.isStored = true) (hconst : c.types.isConst r.ty = false)
    (hframe : Framed c final env frame) : Located owed final frame env name := by
  obtain ⟨s', hs', hss'⟩ := hfinal.scopes hs
  have hget' := Table.get?_of_prefix hss'.decls hget
  obtain ⟨hmem, rfl⟩ := Table.mem_of_get? hget
  obtain ⟨hcov, hlt⟩ := hc.records hs r hmem
  unfold Located Emitter.location
  rw [lookup_own hs' hget']
  obtain ⟨hkind, howed⟩ | ⟨henv, hkind⟩ := hcov.of_stored hstored
  · refine ⟨.wordAt (Symbol.global r.name), ?_, ?_⟩
    · simp [hkind, show Kind.has .global .global = true from rfl]
    · simpa [Ir.wordAt, Ir.labels] using howed
  · -- a variable of a function, which the frame of the function has a slot for
    obtain ⟨func, hin, rfl⟩ := hframe henv
    have hflags : r.kind.has .global = false ∧ r.kind.meets (Kind.union .localVar .param) = true ∧
        r.kind.meets (Kind.union .param .localVar) = true := by
      obtain h | h := hkind <;> rw [h] <;> decide
    have hconst' : final.types.isConst r.ty = false := by
      rw [hfinal.isConst hlt]
      exact hconst
    have hslot := Frame.offset?_isSome (hin.extends hfinal) hs' (hss'.decls.subset hmem) hstored
      hconst' hflags.2.2
    obtain ⟨offset, hoffset⟩ := Option.isSome_iff_exists.mp hslot
    refine ⟨.slot offset, ?_, ?_⟩
    · simp [hflags, hoffset]
    · simp [Ir.labels]

/-- A checked expression can be emitted from then on. -/
theorem Expr.check_ready (hc : Covered owed c) (hfinal : Extends c final)
    (hframe : Framed c final env frame) {e : Expr} {value : Value} (h : e.check c env = .ok value) :
    value.Ready owed final frame := by
  cases Expr.check_eq_ok h with
  | literal | constant => trivial
  | stored hlookup hconst hstored =>
    -- the record stands in a scope around the expression
    obtain ⟨howner, hget⟩ := lookup_eq_some hlookup
    obtain ⟨s, hs, hget⟩ := get?_decls hget
    exact hc.located hfinal hs hget hstored hconst (hframe.enclosing hc.rooted howner)
  | new hnamed => exact (hc.structNamed hnamed).1

theorem Value.cast_ready {types : Arena} {v w : Value} {target : TypeId}
    (hv : v.Ready owed c frame) (h : v.cast types target = .ok w) : w.Ready owed c frame := by
  have hother : ∀ u : Value, u.Ready owed c frame →
      (if types.same u.ty target || (u.ty == TypeId.null && types.isStruct target) then .ok u
        else if types.isPrimitive u.ty && types.isPrimitive target then
          .ok (.converted u u.ty target)
        else .error (.cannotConvert (types.name u.ty) (types.name target)) :
          Except Diagnostic Value) = .ok w → w.Ready owed c frame := by
    intro u hu h
    split at h
    · cases h
      exact hu
    · split at h
      · cases h
        exact hu
      · cases h
  cases v with
  | const lit source =>
    rw [Value.cast] at h
    split at h
    · cases h
      exact hv
    · cases hlit : Value.castLiteral types lit source target with
      | error d => rw [hlit] at h; cases h
      | ok l => rw [hlit] at h; cases h; trivial
  | var | new | converted => exact hother _ hv h

end UnitCompiler
