import UnitCompiler.Proofs.Emitted
import UnitCompiler.Proofs.JumpLabels

namespace UnitCompiler

open Context Emitter

variable {owed refs : String → Prop} {final : Context} {s : Emitter Tape}

/-- The code around a function refers only to the descriptors of its arrays. -/
theorem Frame.entryCode_labels (hfinal : Covered owed final) (frame : Frame) {tree : Ir}
    (htree : frame.entryCode final.types = some tree) : ∀ l ∈ tree.labels, owed l := by
  intro l hl
  obtain ⟨id, element, sizes, hget⟩ := Frame.exists_array_of_entryCode htree hl
  exact (hfinal.types hget).1

theorem Frame.exitCode_labels (hfinal : Covered owed final) (frame : Frame) {tree : Ir}
    (htree : frame.exitCode final.types = some tree) : ∀ l ∈ tree.labels, owed l := by
  intro l hl
  obtain ⟨id, element, sizes, hget⟩ := Frame.exists_array_of_exitCode htree hl
  exact (hfinal.types hget).1

namespace FunctionHead

theorem leaveCode_labels (hfinal : Covered owed final) (frame : Frame) (debug : Bool) {tree : Ir}
    (htree : leaveCode frame final.types debug = some tree) : ∀ l ∈ tree.labels, owed l := by
  unfold leaveCode at htree
  split at htree
  · intro l hl
    obtain ⟨node, hnode, hl⟩ := Ir.mem_labels_ofList htree hl
    obtain rfl | hnode := List.mem_cons.mp hnode
    · simp [Ir.labels, Ir.labelsOfAll] at hl
    · exact frame.exitCode_labels hfinal (Option.mem_toList.mp hnode) l hl
  · exact frame.exitCode_labels hfinal htree

theorem emitDebugEnter_delivers {a : Bool} (f : FunctionHead) (env : ScopeId) (s : Emitter Tape) :
    Delivers EmitError.Excused refs [] a a True (f.emitDebugEnter env) s := by
  unfold emitDebugEnter
  cases hdebug : Backend.debug s.backend with
  | false =>
    refine .done trivial (t := s) ?_ (.refl s) (complete_of_eq _ rfl (fun _ h => by cases h) rfl)
    rw [bind_get, hdebug]
    rfl
  | true =>
    refine .done trivial ?_ (t := { s with
      context := s.context.freshLabel.2
      backend := { s.backend with items := s.backend.items ++ [.string f.ident s.context.freshLabel.1,
        .code (.call Symbol.debugEnter [.framePointer, .const (Int32.ofNat env),
          .global s.context.freshLabel.1])] } }) ⟨relabels_freshLabel _, rfl, rfl, rfl⟩ ⟨?_, ?_, rfl⟩
    · simp [hdebug]
    · change List.Perm [s.context.freshLabel.1] (generatedBetween s.context.labels (s.context.labels + 1))
      rw [generatedBetween_succ]
      exact List.Perm.refl _
    · intro l hl
      right
      simpa [referredBy, definedBy, Emission.refers, Emission.defines?, Ir.labels, Ir.labelsOfAll] using hl

theorem complete_entryCode (hfinal : Covered owed final)
    (hrefs : ∀ l, owed l ∨ l ∈ Symbol.provided → refs l) (frame : Frame) {a : Bool} (n : Nat) :
    Complete refs [] a a n n ((frame.entryCode final.types).toList.map Emission.code) := by
  cases htree : frame.entryCode final.types with
  | none => exact complete_of_eq _ rfl (fun _ h => by cases h) rfl
  | some tree =>
    refine complete_of_eq _ rfl (fun l hl => Or.inl (hrefs l (Or.inl ?_))) rfl
    have hl : l ∈ tree.labels := by simpa [referredBy, Emission.refers] using hl
    exact frame.entryCode_labels hfinal htree l hl

/-- Entering a function opens it and defines its label. -/
theorem emitEnter_delivers (hfinal : Covered owed final)
    (hrefs : ∀ l, owed l ∨ l ∈ Symbol.provided → refs l) (hctx : Relabels final s.context)
    (f : FunctionHead) (env : ScopeId) (frame : Frame) :
    Delivers EmitError.Excused refs [Symbol.function f.ident] false true True
      (f.emitEnter env frame) s := by
  have henter : Complete refs [Symbol.function f.ident] false true s.context.labels s.context.labels
      [.enter (Symbol.function f.ident) frame.size] :=
    complete_of_eq _ rfl (fun _ h => by cases h) rfl
  unfold emitEnter
  apply delivers_get
  dsimp only
  rw [hctx.types]
  refine ((delivers_send henter).bind fun t es _ => (delivers_sendAll
    (complete_entryCode hfinal hrefs frame t.context.labels)).bind fun u es' _ =>
      f.emitDebugEnter_delivers env u).perm ?_ ?_
  · simp
  · simp

theorem undefinedLabel?_kind {c : Context} {env : ScopeId} {d : Diagnostic}
    (h : undefinedLabel? c env = some d) : d.kind = .undefinedLabel := by
  obtain ⟨l, -, rfl⟩ := Option.map_eq_some_iff.mp h
  cases l.referenced <;> rfl

/-- A function can be left if every label that it jumps to is placed. -/
theorem undefinedLabel?_eq_none {c : Context} {env : ScopeId} {gotos placed : List String}
    (h : JumpLabel.Tracks gotos placed (c.jumpLabels env)) :
    undefinedLabel? c env = none ↔ ∀ n ∈ gotos, n ∈ placed := by
  unfold undefinedLabel? Scope.dangling
  rw [Option.map_eq_none_iff, List.head?_eq_none_iff, List.filter_eq_nil_iff]
  constructor
  · intro hall n hn
    obtain ⟨l, hl, rfl⟩ := List.mem_map.mp ((h.names n).mpr (Or.inl hn))
    exact (h.defined l hl).mp (by simpa [Option.isSome_iff_ne_none] using hall l hl)
  · intro hall l hl
    have hplaced : l.name ∈ placed := by
      obtain hgoto | hplaced := (h.names l.name).mp (List.mem_map_of_mem hl)
      · exact hall _ hgoto
      · exact hplaced
    have hdefined := (h.defined l hl).mpr hplaced
    simpa [Option.isSome_iff_ne_none] using hdefined

/-- Leaving a function closes it, if all its labels are defined. -/
theorem emitLeave_delivers (hfinal : Covered owed final)
    (hrefs : ∀ l, owed l ∨ l ∈ Symbol.provided → refs l) (hctx : Relabels final s.context)
    (env : ScopeId) (frame : Frame) :
    Delivers EmitError.Excused refs [final.exitSymbol env] true false
      (undefinedLabel? final env = none) (emitLeave env frame) s := by
  -- emission issues labels only, so the undefined one and the exit are those of the final context
  have hundefined : undefinedLabel? s.context env = undefinedLabel? final env := by
    rw [hctx.eq]
    rfl
  have hexit : s.context.exitSymbol env = final.exitSymbol env := by
    rw [hctx.eq]
    rfl
  unfold emitLeave
  apply delivers_get
  dsimp only
  rw [hundefined, hexit]
  cases hlabel : undefinedLabel? final env with
  | some d =>
    exact .failed (by simp) rfl ⟨d, rfl, Or.inl (undefinedLabel?_kind hlabel)⟩ (.refl s)
      ⟨List.nil_subperm, rfl⟩
  | none =>
    have hlabel : Complete refs [final.exitSymbol env] true true s.context.labels s.context.labels
        [.label (final.exitSymbol env)] :=
      complete_of_eq _ rfl (fun _ h => by cases h) rfl
    -- the code that leaves refers only to labels that are owed
    have hleave : ∀ t es, Writes s t es → Delivers EmitError.Excused refs [] true false True (do
        let debug := Backend.debug (← get).backend
        send (.leave (leaveCode frame s.context.types debug) frame.argBytes)) t := by
      intro t es hwrites
      apply delivers_get
      apply delivers_send
      rw [hctx.types]
      refine complete_of_eq _ rfl ?_ rfl
      intro l hl
      cases htree : leaveCode frame final.types (Backend.debug t.backend) with
      | none => simp [htree, referredBy, Emission.refers] at hl
      | some tree =>
        have hl : l ∈ tree.labels := by simpa [htree, referredBy, Emission.refers] using hl
        exact Or.inl (hrefs l (Or.inl (leaveCode_labels hfinal frame _ htree l hl)))
    exact ((delivers_send hlabel).bind hleave).perm (by simp) (by simp)

end FunctionHead

/-- A sequence passes an excused diagnostic on with its position. -/
theorem Delivers.guarded {labels : List String} {a b : Bool} {fits : Prop} {x : EmitM Tape Unit}
    (h : Delivers EmitError.Excused refs labels a b fits x s) (pass : Pass) (d : Decl) :
    Delivers Diagnostic.Excused refs labels a b fits (DeclList.guarded pass d x) s := by
  cases h with
  | done hfits hrun hwrites hes => exact .done hfits (DeclList.guarded_eq_ok.mpr hrun) hwrites hes
  | @failed t es e hfits hrun hcause hwrites hes =>
    obtain ⟨diagnostic, rfl, hcause⟩ := hcause
    have hrun' : DeclList.guarded pass d x s = .error (d.stamp diagnostic)
        { t with events := t.events ++ [.declarationFailed pass (d.stamp diagnostic)] } := by
      unfold DeclList.guarded
      rw [hrun]
    exact .failed hfits hrun' hcause
      ⟨hwrites.context, hwrites.frame, hwrites.debug, hwrites.items⟩ hes

section

variable {frame : Option Frame} {labels : Decl → List String} {fits : Decl → Prop} {a : Bool}

/-- What each declaration delivers, a sequence of them delivers one after another. -/
theorem DeclList.emitFrom_delivers {seq : DeclList}
    (h : ∀ d ∈ seq.filterMap id, ∀ s : Emitter Tape, Relabels final s.context → s.frame = frame →
      Delivers EmitError.Excused refs (labels d) a a (fits d) d.emit s)
    (index : Nat) (hctx : Relabels final s.context) (hframe : s.frame = frame) :
    Delivers Diagnostic.Excused refs ((seq.filterMap id).flatMap labels) a a
      (∀ d ∈ seq.filterMap id, fits d) (DeclList.emitFrom index seq) s := by
  induction seq generalizing index s with
  | nil =>
    rw [DeclList.emitFrom]
    exact delivers_pure.perm (List.Perm.refl _) (by simp)
  | cons slot rest ih =>
    cases slot with
    | none =>
      rw [DeclList.emitFrom]
      refine ((delivers_log _).bind fun t es hwrites => ih h (index + 1)
        (hctx.trans hwrites.context) (hwrites.frame.trans hframe)).perm (List.Perm.refl _) ?_
      simp
    | some d =>
      obtain ⟨hd, hrest⟩ := List.forall_mem_cons.mp h
      rw [DeclList.emitFrom]
      refine ((delivers_log _).bind fun t es hwrites => ((hd t (hctx.trans hwrites.context)
        (hwrites.frame.trans hframe)).guarded .emit d).bind fun u es' hwrites' => ih hrest (index + 1)
          (hctx.trans (hwrites.context.trans hwrites'.context))
          (hwrites'.frame.trans (hwrites.frame.trans hframe))).perm (List.Perm.refl _) ?_
      simp

end

/-- A function delivers its label, the labels of its body and its exit. -/
theorem FunctionHead.emit_delivers (hfinal : Covered owed final)
    (hrefs : ∀ l, owed l ∨ l ∈ Symbol.provided → refs l) (hctx : Relabels final s.context)
    {f : FunctionHead} {env : ScopeId} {body : List Stmt} (henv : f.env = some env)
    (hready : ∀ stmt ∈ Stmt.atomsOfAll body,
      stmt.Ready owed final (some (Frame.layout final env)) env)
    (hjumps : ∀ stmt ∈ Stmt.atomsOfAll body, ∀ l ∈ stmt.targets final, refs l) :
    Delivers EmitError.Excused refs ([Symbol.function f.ident] ++
        ((Stmt.atomsOfAll body).flatMap (Stmt.labels final) ++ [final.exitSymbol env])) false false
      (True ∧ (∀ v ∈ (Stmt.atomsOfAll body).filterMap Stmt.array?, v.Small final) ∧
        FunctionHead.undefinedLabel? final env = none)
      (f.emit (Stmt.emitAll body)) s := by
  have hlayout : Frame.layout s.context env = Frame.layout final env := by
    rw [hctx.eq]
    rfl
  have hrun := FunctionHead.emit_run henv (Stmt.emitAll body) s
  rw [hlayout] at hrun
  refine Delivers.congr hrun ?_
  refine (FunctionHead.emitEnter_delivers hfinal hrefs hctx f env _).bind fun t es hwrites => ?_
  -- the body runs in the frame of the function; entry and exit need none
  have hctx := hctx.trans hwrites.context
  have hbody : Delivers EmitError.Excused refs ((Stmt.atomsOfAll body).flatMap (Stmt.labels final)) true
      true (∀ v ∈ (Stmt.atomsOfAll body).filterMap Stmt.array?, v.Small final) (Stmt.emitAll body)
      { t with frame := some (Frame.layout final env) } :=
    Stmt.emitAll_delivers hfinal hrefs body _ hctx hready hjumps
  exact hbody.withFrame.bind fun u es' hwrites' =>
    FunctionHead.emitLeave_delivers hfinal hrefs (hctx.trans hwrites'.context) env _

/-- Every label that the body of a declaration jumps to is defined in it. -/
def Decl.JumpsClosed : Decl → Prop
  | .function _ _ _ body => ∀ n ∈ Stmt.gotos body, n ∈ Stmt.labelNames body
  | .var _ _ | .array _ _ | .data _ _ | .struct _ _ _ => True

/-- A goto whose label statement stands in the same function refers to a label of the function. -/
theorem Stmt.targets_owed {func : ScopeId} {frame : Option Frame} {body : List Stmt}
    (hready : ∀ stmt ∈ Stmt.atomsOfAll body, stmt.Ready owed final frame func)
    (hclosed : ∀ n ∈ Stmt.gotos body, n ∈ Stmt.labelNames body)
    (howed : ∀ stmt ∈ Stmt.atomsOfAll body, ∀ l ∈ stmt.labels final, owed l) :
    ∀ stmt ∈ Stmt.atomsOfAll body, ∀ l ∈ stmt.targets final, owed l := by
  intro stmt hstmt l hl
  cases stmt with
  | goto name span env =>
    obtain ⟨e, rfl, hin⟩ := hready _ hstmt
    have hname : name ∈ Stmt.labelNames body := hclosed name (Stmt.mem_gotos hstmt)
    obtain ⟨other, hother, hlabel⟩ := List.mem_filterMap.mp hname
    cases other with
    | label name' span' env' =>
      cases hlabel
      obtain ⟨e', rfl, hin'⟩ := hready _ hother
      have hsymbol : final.jumpSymbol e name = final.jumpSymbol e' name := by
        unfold jumpSymbol
        rw [functionOf_eq hin, functionOf_eq hin']
      obtain rfl : l = final.jumpSymbol e name := List.mem_singleton.mp hl
      rw [hsymbol]
      exact howed _ hother _ List.mem_cons_self
    | declare | block | goto | eval => cases hlabel
  | declare | block | label | eval => cases hl

theorem Decl.emit_delivers_struct (hfinal : Covered owed final)
    (hrefs : ∀ l, owed l ∨ l ∈ Symbol.provided → refs l) (hctx : Relabels final s.context)
    (hframe : s.frame = none) {site : Site} {head : StructHead} {fields : List (Option Decl)}
    (hd : (Decl.struct site head fields).Ready owed final) :
    Delivers EmitError.Excused refs ((Decl.struct site head fields).labels final) false false
      (∀ v ∈ (Decl.struct site head fields).arrays, v.Small final)
      (Decl.struct site head fields).emit s := by
  obtain ⟨hhead, hfields⟩ := hd
  have hemit := DeclList.emitFrom_delivers (fun d hd t hctx hframe => Decl.emit_delivers_leaf hfinal
    hrefs hctx (hframe ▸ hfields d hd) (a := false)) 0 hctx hframe
  have hcause : ∀ d : Diagnostic, d.Excused → (EmitError.diagnostic d).Excused :=
    fun d hd => ⟨d, rfl, hd⟩
  have hlift := hemit.adaptExcept hcause
  rw [Decl.emit]
  refine (hlift.bind fun t es hwrites => head.emit_delivers hfinal hrefs
    (hctx.trans hwrites.context) hhead).perm List.perm_append_comm ?_
  simp only [arrays, List.mem_filterMap, Option.mem_def, and_true]
  constructor
  · rintro h v ⟨d, hd, hv⟩
    exact h d hd v hv
  · exact fun h d hd v hv => h v ⟨d, hd, hv⟩

theorem Decl.emit_delivers_function (hfinal : Covered owed final)
    (hrefs : ∀ l, owed l ∨ l ∈ Symbol.provided → refs l) (hctx : Relabels final s.context)
    {site : Site} {head : FunctionHead} {params : List (Option Decl)} {body : List Stmt}
    (hd : (Decl.function site head params body).Ready owed final)
    (htracked : (Decl.function site head params body).JumpsTracked final)
    (howed : ∀ l ∈ (Decl.function site head params body).labels final, owed l) :
    Delivers EmitError.Excused refs ((Decl.function site head params body).labels final) false false
      ((Decl.function site head params body).JumpsClosed ∧
        ∀ v ∈ (Decl.function site head params body).arrays, v.Small final)
      (Decl.function site head params body).emit s := by
  obtain ⟨env, henv, hin, hready⟩ := hd
  obtain ⟨env', henv', -, htracks⟩ := htracked
  cases henv.symm.trans henv'
  have hundefined := FunctionHead.undefinedLabel?_eq_none htracks
  have hlabels : labels final (.function site head params body) = [Symbol.function head.ident] ++
      ((Stmt.atomsOfAll body).flatMap (Stmt.labels final) ++ [final.exitSymbol env]) := by
    simp [labels, headLabels, innerLabels, henv]
  have hfits : (True ∧ (∀ v ∈ (Stmt.atomsOfAll body).filterMap Stmt.array?, v.Small final) ∧
      FunctionHead.undefinedLabel? final env = none) ↔
      (Decl.function site head params body).JumpsClosed ∧
        ∀ v ∈ (Decl.function site head params body).arrays, v.Small final := by
    rw [hundefined, true_and, and_comm]
    rfl
  rw [Decl.emit]
  by_cases hclosed : ∀ n ∈ Stmt.gotos body, n ∈ Stmt.labelNames body
  · have hjumps := Stmt.targets_owed hready hclosed fun stmt hstmt l hl => howed l (by
      rw [hlabels]
      exact List.mem_append_right _ (List.mem_append_left _ (List.mem_flatMap.mpr ⟨stmt, hstmt, hl⟩)))
    exact (FunctionHead.emit_delivers hfinal hrefs hctx henv hready fun stmt hstmt l hl =>
      hrefs l (Or.inl (hjumps stmt hstmt l hl))).perm (by rw [hlabels]) hfits
  · -- nothing is known of its gotos, but the function is refused
    have hany := FunctionHead.emit_delivers hfinal (fun _ _ => trivial) hctx henv hready
      (fun _ _ _ _ => trivial)
    exact (hany.perm (by rw [hlabels]) hfits).of_not_fits fun h => hclosed h.1

/-- A checked declaration delivers its labels, unless it is one of the two that are refused. -/
theorem Decl.emit_delivers (hfinal : Covered owed final)
    (hrefs : ∀ l, owed l ∨ l ∈ Symbol.provided → refs l) (hctx : Relabels final s.context)
    (hframe : s.frame = none) {d : Decl} (hd : d.Ready owed final) (htracked : d.JumpsTracked final)
    (howed : ∀ l ∈ d.labels final, owed l) :
    Delivers EmitError.Excused refs (d.labels final) false false
      (d.JumpsClosed ∧ ∀ v ∈ d.arrays, v.Small final) d.emit s := by
  cases d with
  | var | array | data =>
    refine (Decl.emit_delivers_leaf hfinal hrefs hctx ?_).perm (by simp [labels, innerLabels])
      (by simp [JumpsClosed, arrays, array?])
    rw [hframe]
    exact hd
  | struct =>
    exact (Decl.emit_delivers_struct hfinal hrefs hctx hframe hd).perm (List.Perm.refl _)
      (by rw [JumpsClosed, true_and])
  | function => exact Decl.emit_delivers_function hfinal hrefs hctx hd htracked howed

/-- The data segment defines nothing and refers to the texts of the data declarations. -/
theorem DeclList.emitData_delivers {seq : DeclList} (hready : ∀ d ∈ seq.filterMap id, d.Ready owed final)
    (hrefs : ∀ d ∈ seq.filterMap id, ∀ l ∈ d.labels final, refs l) :
    Delivers Diagnostic.Excused refs [] false false True seq.emitData s := by
  induction seq generalizing s with
  | nil =>
    rw [DeclList.emitData]
    exact delivers_pure
  | cons slot rest ih =>
    cases slot with
    | none =>
      rw [DeclList.emitData]
      exact ih hready hrefs
    | some d =>
      obtain ⟨hd, hready⟩ := List.forall_mem_cons.mp hready
      obtain ⟨hrefsd, hrefs⟩ := List.forall_mem_cons.mp hrefs
      have hhere : Delivers EmitError.Excused refs [] false false True d.emitData s := by
        cases d with
        | data site item =>
          exact item.emitData_delivers hd fun l hl => hrefsd l (List.mem_append_left _
            (Option.mem_toList.mpr hl))
        | var | array | struct | function => exact delivers_pure
      rw [DeclList.emitData]
      exact ((hhere.guarded .emitData d).bind fun _ _ _ => ih hready hrefs).perm (List.Perm.refl _)
        and_self_iff

end UnitCompiler
