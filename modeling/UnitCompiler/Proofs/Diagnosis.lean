import UnitCompiler.CompilationUnit
import UnitCompiler.Proofs.Faults
import UnitCompiler.Proofs.FirstJumps
import UnitCompiler.Proofs.Prepared

namespace UnitCompiler

open Emitter Context

def EmitError.Satisfies (P : Diagnostic → Prop) : EmitError → Prop
  | .diagnostic d => P d
  | .backend _ => True

section Emitting

variable {β α : Type} {P : Diagnostic → Prop}

theorem Emitter.raises_fail {d : Diagnostic} (hd : P d) :
    Raises (EmitError.Satisfies P) (fail d : EmitM β α) :=
  raises_throw hd

theorem Emitter.raises_ofExcept {x : Except Diagnostic α} (hx : ∀ d, x = .error d → P d) :
    Raises (EmitError.Satisfies P) (Emitter.ofExcept x : EmitM β α) := by
  cases x with
  | ok a => exact raises_pure a
  | error d => exact raises_fail (hx d rfl)

theorem Emitter.raises_freshLabel : Raises (EmitError.Satisfies P) (freshLabel : EmitM β String) := by
  intro s e t h
  cases h

variable [Backend β]

theorem Emitter.raises_send (e : Emission) : Raises (EmitError.Satisfies P) (send e : EmitM β Unit) := by
  intro s err t h
  unfold send at h
  rcases ha : Backend.accept s.backend e with ⟨u | x, b⟩
  · rw [ha] at h
    cases h
    exact trivial
  · rw [ha] at h
    cases h

theorem Emitter.raises_sendAll (es : List Emission) :
    Raises (EmitError.Satisfies P) (sendAll es : EmitM β Unit) := by
  induction es with
  | nil => exact raises_pure ()
  | cons e es ih => exact (raises_send e).bind fun _ => ih

/-- Sent items and labels are all there is at the start of a function, so no diagnostic can come from it. -/
theorem FunctionHead.emitEnter_raises (f : FunctionHead) (env : ScopeId) (frame : Frame) :
    Raises (EmitError.Satisfies P) (f.emitEnter env frame : EmitM β Unit) := by
  refine raises_get fun s => (raises_send _).bind fun _ => (raises_sendAll _).bind fun _ => ?_
  refine raises_get fun t => ?_
  split
  · exact raises_freshLabel.bind fun name => raises_sendAll _
  · exact raises_pure ()

omit [Backend β] in
theorem Emitter.raises_locate (env : ScopeId) (name : String) :
    Raises (EmitError.Satisfies (Diagnostic.Names none)) (locate env name : EmitM β Ir) := by
  refine raises_get fun s => raises_ofExcept fun d hd => ?_
  unfold location at hd
  split at hd
  · cases hd
    exact ⟨rfl, rfl⟩
  · split at hd
    · cases hd
    · split at hd
      · split at hd <;> cases hd
        exact ⟨rfl, rfl⟩
      · cases hd
        exact ⟨rfl, rfl⟩

theorem Value.emit_raises (v : Value) :
    Raises (EmitError.Satisfies (Diagnostic.Names none)) (v.emit : EmitM β Ir) := by
  induction v with
  | const value ty =>
    cases value with
    | string text => exact raises_freshLabel.bind fun label => (raises_send _).bind fun _ => raises_pure _
    | int | float | null => exact raises_pure _
  | var env name ty => exact raises_locate env name
  | new ty label => exact raises_pure _
  | converted inner source target ih => exact ih.bind fun value => raises_pure _

theorem Variable.emit_raises (v : Variable) :
    Raises (EmitError.Satisfies (Diagnostic.Names none)) (v.emit : EmitM β Unit) := by
  refine (raises_sendAll _).bind fun _ => ?_
  split
  · rename_i env init _
    refine init.emit_raises.bind fun value => (raises_locate env v.ident).bind fun target => ?_
    exact raises_send _
  · exact raises_pure ()

omit [Backend β] in
theorem DataItem.record_raises (d : DataItem) :
    Raises (EmitError.Satisfies (Diagnostic.Names none)) (d.record : EmitM β DataConst) := by
  unfold record
  cases d.constant with
  | some f => exact raises_pure f
  | none => exact raises_fail ⟨rfl, rfl⟩

theorem DataItem.emit_raises (d : DataItem) :
    Raises (EmitError.Satisfies (Diagnostic.Names none)) (d.emit : EmitM β Unit) := by
  refine d.record_raises.bind fun f => ?_
  split
  · exact raises_send _
  · exact raises_pure ()

theorem DataItem.emitData_raises (d : DataItem) :
    Raises (EmitError.Satisfies (Diagnostic.Names none)) (d.emitData : EmitM β Unit) := by
  refine d.record_raises.bind fun f => ?_
  split
  · exact raises_sendAll _
  · exact raises_sendAll _
  · exact raises_sendAll _
  · exact raises_fail ⟨rfl, rfl⟩

theorem Symbol.descriptor_names {types : Arena} {id : TypeId} {d : Diagnostic}
    (h : Symbol.descriptor types id = .error d) : d.Names none := by
  unfold Symbol.descriptor at h
  split at h <;> cases h <;> exact ⟨rfl, rfl⟩

theorem ArrayDecl.emit_raises (v : ArrayDecl) :
    Raises (EmitError.Satisfies (Diagnostic.Names none)) (v.emit : EmitM β Unit) := by
  refine raises_get fun s => ?_
  dsimp only
  split
  · exact raises_fail ⟨rfl, rfl⟩
  · split
    · split
      · exact raises_fail ⟨rfl, rfl⟩
      · exact (raises_ofExcept fun d => Symbol.descriptor_names).bind fun element => raises_sendAll _
    · exact raises_fail ⟨rfl, rfl⟩

theorem StructHead.fieldDescriptor_names {types : Arena} {r : Record} {d : Diagnostic}
    (h : fieldDescriptor types r = .error d) : d.Names none := by
  unfold fieldDescriptor at h
  cases hd : Symbol.descriptor types r.ty with
  | ok label => rw [hd] at h; cases h
  | error e =>
    have hnames := Symbol.descriptor_names hd
    rw [hd] at h
    cases h
    exact ⟨hnames.pos, hnames.file⟩

theorem StructHead.emit_raises (head : StructHead) :
    Raises (EmitError.Satisfies (Diagnostic.Names none)) (head.emit : EmitM β Unit) := by
  refine raises_get fun s => ?_
  dsimp only
  split
  · exact raises_fail ⟨rfl, rfl⟩
  · split
    · exact raises_fail ⟨rfl, rfl⟩
    · rename_i fields _
      refine Raises.bind (raises_ofExcept fun d hd => ?_) fun descriptors => ?_
      · obtain ⟨xs, hxs, -⟩ | ⟨r, d', hd', -, hr⟩ :=
          mapM_cases (fieldDescriptor s.context.types) fields.records
        · rw [hxs] at hd
          cases hd
        · rw [hd'] at hd
          cases hd
          exact fieldDescriptor_names hr
      · exact raises_freshLabel.bind fun used => raises_freshLabel.bind fun free => raises_sendAll _

theorem Decl.emit_raises {d : Decl} (hd : d.isLeaf = true) :
    Raises (EmitError.Satisfies (Diagnostic.Names none)) (d.emit : EmitM β Unit) := by
  cases d with
  | var site v => rw [Decl.emit]; exact v.emit_raises
  | data site d => rw [Decl.emit]; exact d.emit_raises
  | array site v => rw [Decl.emit]; exact v.emit_raises
  | struct | function => cases hd

def Stmt.isAtomic : Stmt → Bool
  | .goto _ _ _ | .label _ _ _ | .eval _ _ => true
  | .declare _ | .block _ _ => false

theorem Stmt.emit_raises {stmt : Stmt} (h : stmt.isAtomic = true) :
    Raises (EmitError.Satisfies (Diagnostic.Names none)) (stmt.emit : EmitM β Unit) := by
  cases stmt with
  | goto label span env =>
    cases env with
    | none => rw [Stmt.emit]; exact raises_fail ⟨rfl, rfl⟩
    | some env => rw [Stmt.emit]; exact raises_get fun s => raises_send _
  | label name span env =>
    cases env with
    | none => rw [Stmt.emit]; exact raises_fail ⟨rfl, rfl⟩
    | some env => rw [Stmt.emit]; exact raises_get fun s => raises_send _
  | eval e checked =>
    cases checked with
    | none => rw [Stmt.emit]; exact raises_fail ⟨rfl, rfl⟩
    | some value => rw [Stmt.emit]; exact value.emit_raises.bind fun code => raises_send _
  | declare | block => cases h

end Emitting

mutual

/-- The emission of a declaration meets a fault, after what comes before it has been emitted. A label that a
function misses is reported where the function that its scope was opened for first jumps to it. -/
inductive Decl.EmissionFails {β : Type} [Backend β] (opened : List (ScopeId × List Stmt)) :
    Decl → Emitter β → Fault → Prop
  | own {d : Decl} {s t : Emitter β} {raw : Diagnostic} (hd : d.isLeaf = true)
      (h : d.emit s = .error (.diagnostic raw) t) : Decl.EmissionFails opened d s (.of raw none d.site)
  | field {site : Site} {head : StructHead} {fields before after : List (Option Decl)} {d : Decl}
      {s t : Emitter β} {f : Fault} (hfields : fields = before ++ some d :: after)
      (hbefore : DeclList.emitFrom 0 before s = .ok () t)
      (h : d.EmissionFails opened
        { t with events := t.events ++ [.visited .emit (0 + before.length) d.noun] } f) :
      Decl.EmissionFails opened (.struct site head fields) s (f.enclosedBy site)
  | descriptor {site : Site} {head : StructHead} {fields : List (Option Decl)} {s t u : Emitter β}
      {raw : Diagnostic} (hfields : DeclList.emitFrom 0 fields s = .ok () t)
      (h : head.emit t = .error (.diagnostic raw) u) :
      Decl.EmissionFails opened (.struct site head fields) s (.of raw none site)
  | unregistered {site : Site} {head : FunctionHead} {params : List (Option Decl)} {body : List Stmt}
      {s : Emitter β} (h : head.env = none) :
      Decl.EmissionFails opened (.function site head params body) s
        (.of (.unregistered s!"function '{head.ident}'") none site)
  | body {site : Site} {head : FunctionHead} {params : List (Option Decl)} {body before after : List Stmt}
      {stmt : Stmt} {s t u : Emitter β} {env : ScopeId} {f : Fault} (henv : head.env = some env)
      (henter : head.emitEnter env (Frame.layout s.context env) s = .ok () t)
      (hbody : body = before ++ stmt :: after)
      (hbefore : Stmt.emitAll before { t with frame := some (Frame.layout s.context env) } = .ok () u)
      (h : stmt.EmissionFails opened u f) :
      Decl.EmissionFails opened (.function site head params body) s (f.enclosedBy site)
  | leave {site : Site} {head : FunctionHead} {params : List (Option Decl)} {body : List Stmt}
      {s t u : Emitter β} {env : ScopeId} {l : JumpLabel} {pos : Span} (henv : head.env = some env)
      (henter : head.emitEnter env (Frame.layout s.context env) s = .ok () t)
      (hbody : withFrame (Frame.layout s.context env) (Stmt.emitAll body) t = .ok () u)
      (hdangling : (u.context.scope env).dangling.head? = some l)
      (hopened : ∃ body', (env, body') ∈ opened)
      (hjump : ∀ body', (env, body') ∈ opened → (Stmt.jumps body').lookup l.name = some pos) :
      Decl.EmissionFails opened (.function site head params body) s
        (.of (.labelUndefined l.name) (some pos) site)

inductive Stmt.EmissionFails {β : Type} [Backend β] (opened : List (ScopeId × List Stmt)) :
    Stmt → Emitter β → Fault → Prop
  | own {stmt : Stmt} {s t : Emitter β} {raw : Diagnostic} (hstmt : stmt.isAtomic = true)
      (h : stmt.emit s = .error (.diagnostic raw) t) :
      Stmt.EmissionFails opened stmt s (.of raw none stmt.site)
  | declare {d : Decl} {s : Emitter β} {f : Fault} (h : d.EmissionFails opened s f) :
      Stmt.EmissionFails opened (.declare d) s (f.enclosedBy (Stmt.declare d).site)
  | block {body before after : List Stmt} {stmt : Stmt} {span : Span} {s t : Emitter β} {f : Fault}
      (hbody : body = before ++ stmt :: after) (hbefore : Stmt.emitAll before s = .ok () t)
      (h : stmt.EmissionFails opened t f) :
      Stmt.EmissionFails opened (.block body span) s (f.enclosedBy (Stmt.block body span).site)

end

/-- Whatever label a scope misses, the functions that it was opened for jump to it first where it says. -/
def Context.Explains (c : Context) (opened : List (ScopeId × List Stmt)) : Prop :=
  ∀ (env : ScopeId) (l : JumpLabel), l ∈ c.jumpLabels env → l.defined = none →
    ∃ pos, l.referenced = some pos ∧ (∃ body, (env, body) ∈ opened) ∧
      ∀ body, (env, body) ∈ opened → (Stmt.jumps body).lookup l.name = some pos

theorem Context.Explains.relabels {c c' : Context} {opened : List (ScopeId × List Stmt)}
    (h : c.Explains opened) (hc : Relabels c c') : c'.Explains opened := by
  intro env l hl
  refine h env l ?_
  unfold jumpLabels scope at hl ⊢
  rwa [hc.scopes] at hl

section Emission

variable {β : Type} [Backend β] {opened : List (ScopeId × List Stmt)}

theorem Context.Explains.after_ok {ε α : Type} {x : EStateM ε (Emitter β) α} (hx : Stable x) {s t : Emitter β}
    {a : α} (h : s.context.Explains opened) (hrun : x s = .ok a t) : t.context.Explains opened := by
  have hkeeps := (hx s).context
  rw [after_of_ok hrun] at hkeeps
  exact h.relabels hkeeps

/-- The end of a function fails for its first missing label only. -/
theorem FunctionHead.emitLeave_fails {env : ScopeId} {frame : Frame} {s t : Emitter β} {e : Diagnostic}
    (hs : s.context.Explains opened) (h : FunctionHead.emitLeave env frame s = .error (.diagnostic e) t) :
    ∃ l pos, (s.context.scope env).dangling.head? = some l ∧ (∃ body, (env, body) ∈ opened) ∧
      (∀ body, (env, body) ∈ opened → (Stmt.jumps body).lookup l.name = some pos) ∧
      e = (Diagnostic.labelUndefined l.name).located pos := by
  rw [emitLeave, bind_get] at h
  unfold undefinedLabel? at h
  cases hd : (s.context.scope env).dangling.head? with
  | none =>
    rw [hd] at h
    have hsends : Raises (EmitError.Satisfies fun _ => False) (do
        send (.label (s.context.exitSymbol env))
        let debug := Backend.debug (← get).backend
        send (.leave (leaveCode frame s.context.types debug) frame.argBytes) : EmitM β Unit) :=
      (raises_send _).bind fun _ => raises_get fun u => raises_send _
    exact (hsends _ _ _ h).elim
  | some l =>
    have hmem : l ∈ (s.context.scope env).dangling := List.mem_of_head? hd
    obtain ⟨hl, hnone⟩ := List.mem_filter.mp hmem
    obtain ⟨pos, href, hopened, hjump⟩ := hs env l hl (Option.isNone_iff_eq_none.mp hnone)
    rw [hd] at h
    simp only [Option.map_some, href] at h
    cases h
    exact ⟨l, pos, rfl, hopened, hjump, rfl⟩

omit [Backend β] in
theorem DeclList.guarded_eq_error {pass : Pass} {d : Decl} {x : EmitM β Unit} {s t : Emitter β}
    {e : Diagnostic} (h : DeclList.guarded pass d x s = .error e t) (hkind : e.kind ≠ .backendFailed) :
    ∃ raw u, x s = .error (.diagnostic raw) u ∧ e = d.stamp raw := by
  unfold DeclList.guarded at h
  cases hx : x s with
  | ok a u => rw [hx] at h; cases h
  | error err u =>
    rw [hx] at h
    cases err with
    | diagnostic raw =>
      cases h
      exact ⟨raw, u, rfl, rfl⟩
    | backend be =>
      cases h
      exact absurd rfl hkind

/-- A declaration without parts fails by itself. -/
theorem Decl.emit_fails_leaf {d : Decl} (hd : d.isLeaf = true) {s t : Emitter β} {e : Diagnostic}
    (h : d.emit s = .error (.diagnostic e) t) : ∃ f, d.EmissionFails opened s f ∧ d.stamp e = f.report :=
  ⟨_, .own hd h, (Fault.report_of (Decl.emit_raises hd _ _ _ h) d.site).symm⟩

theorem Stmt.emit_fails_atomic {stmt : Stmt} (hstmt : stmt.isAtomic = true) {s t : Emitter β} {e : Diagnostic}
    (h : stmt.emit s = .error (.diagnostic e) t) :
    ∃ f, stmt.EmissionFails opened s f ∧ e.withPosition stmt.span = f.report := by
  refine ⟨_, .own hstmt h, ?_⟩
  rw [Fault.report_of (Stmt.emit_raises hstmt _ _ _ h)]
  simp [Stmt.site, Site.stamp, Diagnostic.withFile]

mutual

theorem Decl.emit_fails : ∀ (d : Decl) (s t : Emitter β) (e : Diagnostic), s.context.Explains opened →
    d.emit s = .error (.diagnostic e) t → e.kind ≠ .backendFailed →
      ∃ f, d.EmissionFails opened s f ∧ d.stamp e = f.report
  | .var site v, s, t, e, _, h, _ => Decl.emit_fails_leaf rfl h
  | .data site d, s, t, e, _, h, _ => Decl.emit_fails_leaf rfl h
  | .array site v, s, t, e, _, h, _ => Decl.emit_fails_leaf rfl h
  | .struct site head fields, s, t, e, hs, h, hkind => by
    rw [Decl.emit] at h
    obtain h | ⟨_, u, hfields, h⟩ := bind_eq_error.mp h
    · obtain ⟨e', he, heq⟩ := adaptExcept_eq_error.mp h
      cases heq
      obtain ⟨before, d, after, u, f, hsplit, hbefore, hf, rfl⟩ :=
        DeclList.emitFrom_fails 0 fields s t e hs he hkind
      exact ⟨_, .field hsplit hbefore hf, (f.report_enclosedBy site).symm⟩
    · have hnames := head.emit_raises _ _ _ h
      exact ⟨_, .descriptor (adaptExcept_eq_ok.mp hfields) h, (Fault.report_of hnames site).symm⟩
  | .function site head params body, s, t, e, hs, h, hkind => by
    rw [Decl.emit] at h
    cases henv : head.env with
    | none =>
      change (match head.env with
        | none => fail (.unregistered s!"function '{head.ident}'")
        | some env => _ : EmitM β Unit) s = _ at h
      rw [henv] at h
      cases h
      exact ⟨_, .unregistered henv, (Fault.report_of ⟨rfl, rfl⟩ site).symm⟩
    | some env =>
      rw [FunctionHead.emit_run henv] at h
      obtain h | ⟨_, u, henter, h⟩ := bind_eq_error.mp h
      -- entering a function has no diagnostics of its own
      · exact (head.emitEnter_raises (P := fun _ => False) env _ _ _ _ h).elim
      · have hu : u.context.Explains opened := hs.after_ok (head.emitEnter_stable env _) henter
        obtain h | ⟨_, v, hbody, h⟩ := bind_eq_error.mp h
        · obtain ⟨w, hw⟩ := withFrame_eq_error h
          obtain ⟨before, stmt, after, x, f, hsplit, hbefore, hf, rfl⟩ :=
            Stmt.emitAll_fails body { u with frame := some (Frame.layout s.context env) } w e hu hw hkind
          exact ⟨_, .body henv henter hsplit hbefore hf, (f.report_enclosedBy site).symm⟩
        · have hv : v.context.Explains opened := hu.after_ok ((Stmt.emitAll_stable body).withFrame _) hbody
          -- at the end of a function the only fault is a jump that nothing answers
          obtain ⟨l, pos, hdangling, hopened, hjump, rfl⟩ := FunctionHead.emitLeave_fails hv h
          have hnames : ((Diagnostic.labelUndefined l.name).located pos).Names (some pos) := ⟨rfl, rfl⟩
          exact ⟨_, .leave henv henter hbody hdangling hopened hjump, (Fault.report_of hnames site).symm⟩

theorem DeclList.emitFrom_fails (index : Nat) : ∀ (seq : List (Option Decl)) (s t : Emitter β) (e : Diagnostic),
    s.context.Explains opened → DeclList.emitFrom index seq s = .error e t → e.kind ≠ .backendFailed →
      ∃ before d after u f, seq = before ++ some d :: after ∧ DeclList.emitFrom index before s = .ok () u ∧
        d.EmissionFails opened
          { u with events := u.events ++ [.visited .emit (index + before.length) d.noun] } f ∧ e = f.report
  | [], s, t, e, _, h, _ => by
    rw [DeclList.emitFrom] at h
    cases h
  | none :: rest, s, t, e, hs, h, hkind => by
    rw [DeclList.emitFrom] at h
    obtain ⟨before, d, after, u, f, rfl, hbefore, hf, rfl⟩ := DeclList.emitFrom_fails (index + 1) rest
      { s with events := s.events ++ [.skipped index] } t e hs h hkind
    refine ⟨none :: before, d, after, u, f, rfl, ?_, ?_, rfl⟩
    · rw [DeclList.emitFrom]
      exact hbefore
    · rw [List.length_cons, Nat.add_comm before.length, ← Nat.add_assoc]
      exact hf
  | some d :: rest, s, t, e, hs, h, hkind => by
    rw [DeclList.emitFrom] at h
    obtain h | ⟨_, u, hd, h⟩ := bind_eq_error.mp h
    · cases h
    · cases hd
      obtain h | ⟨_, u, hd, h⟩ := bind_eq_error.mp h
      · obtain ⟨raw, v, hraw, rfl⟩ := DeclList.guarded_eq_error h hkind
        obtain ⟨f, hf, hreport⟩ := Decl.emit_fails d
          { s with events := s.events ++ [.visited .emit index d.noun] } v raw hs hraw hkind
        exact ⟨[], d, rest, s, f, rfl, by rw [DeclList.emitFrom]; rfl, hf, hreport⟩
      -- the emission so far has not changed what the context can explain
      · have hu : u.context.Explains opened :=
          Explains.after_ok (DeclList.guarded_stable .emit d (Decl.emit_stable d))
            (s := { s with events := s.events ++ [.visited .emit index d.noun] }) hs hd
        obtain ⟨before, d', after, v, f, rfl, hbefore, hf, rfl⟩ :=
          DeclList.emitFrom_fails (index + 1) rest u t e hu h hkind
        refine ⟨some d :: before, d', after, v, f, rfl, ?_, ?_, rfl⟩
        · rw [DeclList.emitFrom]
          exact (bind_of_ok _ hd).trans hbefore
        · rw [List.length_cons, Nat.add_comm before.length, ← Nat.add_assoc]
          exact hf

theorem Stmt.emit_fails : ∀ (stmt : Stmt) (s t : Emitter β) (e : Diagnostic), s.context.Explains opened →
    stmt.emit s = .error (.diagnostic e) t → e.kind ≠ .backendFailed →
      ∃ f, stmt.EmissionFails opened s f ∧ e.withPosition stmt.span = f.report
  | .goto label span env, s, t, e, _, h, _ => Stmt.emit_fails_atomic rfl h
  | .label name span env, s, t, e, _, h, _ => Stmt.emit_fails_atomic rfl h
  | .eval x checked, s, t, e, _, h, _ => Stmt.emit_fails_atomic rfl h
  | .declare d, s, t, e, hs, h, hkind => by
    rw [Stmt.emit] at h
    obtain ⟨err, hd, herr⟩ := adaptExcept_eq_error.mp h
    obtain ⟨raw, rfl, rfl⟩ := EmitError.mapDiagnostic_eq_diagnostic herr
    obtain ⟨f, hf, hreport⟩ := Decl.emit_fails d s t raw hs hd hkind
    exact ⟨_, .declare hf, by rw [hreport, f.report_statement]⟩
  | .block body span, s, t, e, hs, h, hkind => by
    rw [Stmt.emit] at h
    obtain ⟨before, stmt, after, u, f, hsplit, hbefore, hf, rfl⟩ := Stmt.emitAll_fails body s t e hs h hkind
    exact ⟨_, .block hsplit hbefore hf, (f.report_statement _).symm⟩

theorem Stmt.emitAll_fails : ∀ (body : List Stmt) (s t : Emitter β) (e : Diagnostic),
    s.context.Explains opened → Stmt.emitAll body s = .error (.diagnostic e) t → e.kind ≠ .backendFailed →
      ∃ before stmt after u f, body = before ++ stmt :: after ∧ Stmt.emitAll before s = .ok () u ∧
        stmt.EmissionFails opened u f ∧ e = f.report
  | [], s, t, e, _, h, _ => by
    rw [Stmt.emitAll] at h
    cases h
  | stmt :: rest, s, t, e, hs, h, hkind => by
    rw [Stmt.emitAll] at h
    obtain h | ⟨_, u, hd, h⟩ := bind_eq_error.mp h
    · obtain ⟨err, hr, herr⟩ := adaptExcept_eq_error.mp h
      obtain ⟨raw, rfl, rfl⟩ := EmitError.mapDiagnostic_eq_diagnostic herr
      obtain ⟨f, hf, hreport⟩ := Stmt.emit_fails stmt s t raw hs hr hkind
      exact ⟨[], stmt, rest, s, f, rfl, by rw [Stmt.emitAll]; rfl, hf, hreport⟩
    · have hu : u.context.Explains opened :=
        hs.after_ok ((Stmt.emit_stable stmt).adaptExcept _) hd
      obtain ⟨before, stmt', after, v, f, rfl, hbefore, hf, rfl⟩ := Stmt.emitAll_fails rest u t e hu h hkind
      refine ⟨stmt :: before, stmt', after, v, f, rfl, ?_, hf, rfl⟩
      rw [Stmt.emitAll]
      exact (bind_of_ok _ hd).trans hbefore

end

theorem DeclList.emitData_fails {seq : DeclList} {s t : Emitter β} {e : Diagnostic}
    (h : DeclList.emitData seq s = .error e t) (hkind : e.kind ≠ .backendFailed) :
    ∃ before d after u v raw, seq = before ++ some d :: after ∧ DeclList.emitData before s = .ok () u ∧
      d.emitData u = .error (.diagnostic raw) v ∧ e = (Fault.of raw none d.site).report := by
  induction seq generalizing s with
  | nil => cases h
  | cons slot rest ih =>
    cases slot with
    | none =>
      obtain ⟨before, d, after, u, v, raw, rfl, hbefore, hd, he⟩ := ih h
      exact ⟨none :: before, d, after, u, v, raw, rfl, hbefore, hd, he⟩
    | some d =>
      rw [DeclList.emitData] at h
      obtain h | ⟨_, u, hd, h⟩ := bind_eq_error.mp h
      · obtain ⟨raw, v, hraw, rfl⟩ := DeclList.guarded_eq_error h hkind
        have hraises : Raises (EmitError.Satisfies (Diagnostic.Names none)) (d.emitData : EmitM β Unit) := by
          cases d with
          | data site d => exact d.emitData_raises
          | var | function | struct | array => exact raises_pure ()
        have hnames := hraises _ _ _ hraw
        exact ⟨[], d, rest, s, v, raw, rfl, rfl, hraw, (Fault.report_of hnames d.site).symm⟩
      · obtain ⟨before, d', after, v, w, raw, rfl, hbefore, hd', he⟩ := ih h
        refine ⟨some d :: before, d', after, v, w, raw, rfl, ?_, hd', he⟩
        rw [DeclList.emitData]
        exact (bind_of_ok _ hd).trans hbefore

end Emission

namespace Compiler

variable {β : Type} [Backend β] {c : Compiler} {program : DeclList} {b : β}

/-- A compilation meets a fault in one of its passes, after the passes before it and, in that pass, after the
declarations before it. -/
inductive FailsAt (c : Compiler) (program : DeclList) (b : β) : Fault → Prop
  | registering {before after : List Decl} {d : Decl} {t : Session} {f : Fault}
      (hprogram : program.inOrder = before ++ d :: after)
      (hbefore : Decl.registerEach root (.scope root) before
        (c.log (.passStarted .register program.length)).session = (.ok (), t))
      (h : d.RegistrationFails root (.scope root) t f) : FailsAt c program b f
  | checking {r : Compiled β} {before before' after : DeclList} {d : Decl} {t : Session} {f : Fault}
      (hr : c.runAll program b [.register] = r) (hok : r.outcome = .ok ())
      (hprogram : r.program = before ++ some d :: after)
      (hbefore : DeclList.checkFrom root 0 before
        (r.compiler.log (.passStarted .check r.program.length)).session = (⟨before', .ok ()⟩, t))
      (h : d.CheckFails root (Session.log (.visited .check (0 + before.length) d.noun) t).2 f) :
      FailsAt c program b f
  | emitting {r : Compiled β} {before after : DeclList} {d : Decl} {t : Emitter β} {f : Fault}
      (hr : c.runAll program b [.register, .check] = r) (hok : r.outcome = .ok ())
      (hprogram : r.program = before ++ some d :: after)
      (hbefore : DeclList.emitFrom 0 before (r.compiler.entry .emit r.program r.backend) = .ok () t)
      (h : d.EmissionFails ((r.program.filterMap id).flatMap Decl.opened)
        { t with events := t.events ++ [.visited .emit (0 + before.length) d.noun] } f) :
      FailsAt c program b f
  | emittingData {r : Compiled β} {before after : DeclList} {d : Decl} {t u : Emitter β} {raw : Diagnostic}
      (hr : c.runAll program b [.register, .check, .emit] = r) (hok : r.outcome = .ok ())
      (hprogram : r.program = before ++ some d :: after)
      (hbefore : DeclList.emitData before (r.compiler.entry .emitData r.program r.backend) = .ok () t)
      (h : d.emitData t = .error (.diagnostic raw) u) : FailsAt c program b (.of raw none d.site)

theorem run_completed {pass : Pass} (h : (c.run pass program b).outcome = .ok ()) :
    (c.run pass program b).compiler.completed = some pass := by
  unfold run at h ⊢
  split at h
  · rw [conclude_outcome] at h
    rw [if_pos (by assumption), conclude, h]
  · cases h

theorem run_outcome {pass : Pass} (hcompleted : c.completed = pass.prerequisite) :
    (c.run pass program b).outcome =
      ((c.log (.passStarted pass program.length)).perform pass program b).outcome := by
  unfold run
  simp [hcompleted]

omit [Backend β] in
theorem emit_eq_error {x : PassM β Unit} {d : Diagnostic} (h : (c.emit x program b).outcome = .error d) :
    ∃ t, x { c.session with backend := b } = .error d t := by
  unfold emit at h
  cases hx : x { c.session with backend := b } with
  | ok a t => rw [hx] at h; cases h
  | error d' t =>
    rw [hx] at h
    cases h
    exact ⟨t, rfl⟩

/-- Once the passes are through, their last one is complete and the next one can only fail by itself. -/
theorem runAll_concat (passes : List Pass) (pass : Pass)
    (h : (c.runAll program b passes).outcome = .ok ()) :
    c.runAll program b (passes ++ [pass]) = (c.runAll program b passes).compiler.run pass
      (c.runAll program b passes).program (c.runAll program b passes).backend := by
  simp [runAll_append_of_ok [pass] h]

theorem runAll_completed (passes : List Pass) {pass : Pass}
    (hbefore : (c.runAll program b passes).outcome = .ok ())
    (h : (c.runAll program b (passes ++ [pass])).outcome = .ok ()) :
    (c.runAll program b (passes ++ [pass])).compiler.completed = some pass := by
  rw [runAll_concat passes pass hbefore] at h ⊢
  exact run_completed h

/-- After the check every missing label has its first jump on record. -/
theorem runAll_explains (hc : c.session.context = .initial)
    (h : (c.runAll program b [.register]).outcome = .ok ())
    (h' : (c.runAll program b [.register, .check]).outcome = .ok ()) :
    (c.runAll program b [.register, .check]).compiler.session.context.Explains
      (((c.runAll program b [.register, .check]).program.filterMap id).flatMap Decl.opened) := by
  have hcheck := runAll_concat [.register] .check h
  rw [List.singleton_append] at hcheck
  rw [hcheck] at h' ⊢
  rw [runAll_singleton] at h h' ⊢
  obtain ⟨s, hregister, hcontext, -⟩ :=
    run_visiting_ok (x := program.register root (.scope root)) (fun _ => rfl) h
  have hentered := DeclList.register_entered hregister
  generalize c.run .register program b = r at h' hregister hcontext hentered ⊢
  obtain ⟨t, hrun, hcontext', -⟩ := run_visiting_ok (x := r.program.check root) (fun _ => rfl) h'
  have haccepted := DeclList.checkFrom_accepted hrun
  rw [hcontext']
  intro env l hl hdefined
  refine haccepted.exists_jump (fun e => ?_) hl hdefined
  -- registration has left the labels of the new context alone
  have hstart : (c.log (.passStarted .register program.length)).session.context = .initial := hc
  change r.compiler.session.context.jumpLabels e = []
  rw [hcontext, hentered.grows.keepsJumps e, hstart]
  exact jumpLabels_initial e

theorem compile_fails (hc : c.session.context = .initial) (hnew : c.completed = none) {d : Diagnostic}
    (h : (c.compile program b).outcome = .error d) (hkind : d.kind ≠ .backendFailed) :
    ∃ f, c.FailsAt program b f ∧ d = f.report := by
  -- the diagnostic is that of the first pass that fails
  have hsplit (passes rest : List Pass) (h : (c.runAll program b (passes ++ rest)).outcome = .error d) :
      (c.runAll program b passes).outcome = .error d ∨ (c.runAll program b passes).outcome = .ok () := by
    cases ho : (c.runAll program b passes).outcome with
    | ok _ => exact Or.inr rfl
    | error d' => rw [runAll_append_of_error rest ho, ho] at h; exact Or.inl h
  obtain h₁ | h₁ := hsplit [.register] [.check, .emit, .emitData] h
  · rw [runAll_singleton, run_outcome hnew] at h₁
    obtain ⟨before, d', after, t, f, hprogram, hbefore, hf, hreport⟩ :=
      DeclList.register_fails (DeclList.registrationFaulty program) h₁
    exact ⟨f, .registering hprogram hbefore hf, hreport⟩
  have hdone₁ := runAll_completed [] rfl h₁
  obtain h₂ | h₂ := hsplit [.register, .check] [.emit, .emitData] h
  · have hlast := runAll_concat [.register] .check h₁
    rw [List.singleton_append] at hlast
    rw [hlast, run_outcome hdone₁] at h₂
    obtain ⟨before, d', after, before', t, f, hprogram, hbefore, hf, hreport⟩ := DeclList.checkFrom_fails h₂
    exact ⟨f, .checking rfl h₁ hprogram hbefore hf, hreport⟩
  have hdone₂ := runAll_completed [.register] h₁ h₂
  -- from here on the context explains each undefined label by the jump to it
  have hexplains := runAll_explains hc h₁ h₂
  obtain h₃ | h₃ := hsplit [.register, .check, .emit] [.emitData] h
  · have hlast := runAll_concat [.register, .check] .emit h₂
    rw [show [Pass.register, .check] ++ [.emit] = [.register, .check, .emit] from rfl] at hlast
    rw [hlast, run_outcome hdone₂] at h₃
    obtain ⟨t, ht⟩ := emit_eq_error h₃
    obtain ⟨before, d', after, u, f, hprogram, hbefore, hf, hreport⟩ :=
      DeclList.emitFrom_fails 0 _ _ t d hexplains ht hkind
    exact ⟨f, .emitting rfl h₂ hprogram hbefore hf, hreport⟩
  have hdone₃ := runAll_completed [.register, .check] h₂ h₃
  have hlast := runAll_concat [.register, .check, .emit] .emitData h₃
  have h₄ : (c.runAll program b ([.register, .check, .emit] ++ [.emitData])).outcome = .error d := h
  rw [hlast, run_outcome hdone₃] at h₄
  obtain ⟨t, ht⟩ := emit_eq_error h₄
  obtain ⟨before, d', after, u, v, raw, hprogram, hbefore, hd', hreport⟩ := DeclList.emitData_fails ht hkind
  exact ⟨_, .emittingData rfl h₃ hprogram hbefore hd', hreport⟩

end Compiler

/-- Where a failed compilation points. The position is the place that the fault names, and only where it names
none that of the innermost declaration or statement around it; the file is that of the innermost one with a
file, and only where there is none the default of the unit. -/
theorem diagnostic_placed {β : Type} [Backend β] (u : CompilationUnit) (b : β) {d : Diagnostic}
    (h : (u.compileInto b).outcome = .error (.compilation d)) (hkind : d.kind ≠ .backendFailed) :
    ∃ program f, u.state = .collecting program ∧
      ({ session := { events := [.unitStarted program.length (Backend.debug b)] } } : Compiler).FailsAt
        program b f ∧
      d.kind = f.kind ∧ d.message = f.message ∧ d.pos = some (f.place.getD f.around.pos) ∧
      d.file = ((f.around :: f.outer).findSome? Site.file).or u.options.defaultFile := by
  unfold CompilationUnit.compileInto at h
  cases hstate : u.state with
  | built c => simp only [hstate] at h; cases h
  | failed => simp only [hstate] at h; cases h
  | collecting program =>
    simp only [hstate] at h
    split at h
    · cases h
    · rename_i e he
      cases h
      obtain ⟨f, hf, rfl⟩ := Compiler.compile_fails rfl rfl he hkind
      exact ⟨program, f, rfl, hf, rfl, rfl, rfl, rfl⟩

def unknownParam : CompilationUnit where
  options := { defaultFile := some "main.bb" }
  state := .collecting [some (.function { pos := ⟨1, 1⟩, file := some "lib.bb" } { ident := "f", tag := .int } []
    [.block [.declare (.function { pos := ⟨3, 3⟩ } { ident := "g", tag := .int }
      [some (.var { pos := ⟨3, 14⟩ } { ident := "p", tag := .named "T", kind := .param })] [])] ⟨2, 2⟩])]

theorem diagnostic_placed_unknownParam :
    (unknownParam.compileInto (Listing.empty false)).outcome =
      .error (.compilation ⟨.unknownType, "type 'T' not found", some ⟨3, 14⟩, some "lib.bb"⟩) ∧
    ∃ program f, unknownParam.state = .collecting program ∧
      ({ session := { events := [.unitStarted program.length false] } } : Compiler).FailsAt program
        (Listing.empty false) f ∧
      some (⟨3, 14⟩ : Span) = some (f.place.getD f.around.pos) ∧
      some "lib.bb" = ((f.around :: f.outer).findSome? Site.file).or (some "main.bb") := by
  have hends : (unknownParam.compileInto (Listing.empty false)).outcome =
      .error (.compilation ⟨.unknownType, "type 'T' not found", some ⟨3, 14⟩, some "lib.bb"⟩) := by
    decide +kernel
  obtain ⟨program, f, hstate, hf, -, -, hpos, hfile⟩ :=
    diagnostic_placed unknownParam (Listing.empty false) hends (by decide)
  exact ⟨hends, program, f, hstate, hf, hpos, hfile⟩

end UnitCompiler
