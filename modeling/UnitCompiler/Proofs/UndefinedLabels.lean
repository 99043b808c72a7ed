import UnitCompiler.Proofs.Diagnosis
import UnitCompiler.Proofs.JumpItems
import UnitCompiler.Proofs.Moves
import UnitCompiler.Proofs.Lists

namespace UnitCompiler

open Context Emitter

namespace JumpLabel

/-- Besides, no label is placed twice, and the labels not placed are known in the order of their jumps. -/
structure Charted (jumps : List (String × Span)) (placed : List String) (ls : List JumpLabel) : Prop
    extends Sourced jumps placed ls where
  distinct : placed.Nodup
  first : ∀ p : String → Bool, (∀ n ∈ placed, p n = false) →
    (ls.map JumpLabel.name).find? p = (jumps.map Prod.fst).find? p

variable {jumps : List (String × Span)} {placed : List String} {ls : List JumpLabel}

theorem charted_nil : Charted [] [] [] :=
  ⟨sourced_nil, List.nodup_nil, fun _ _ => rfl⟩

theorem Charted.jump (h : Charted jumps placed ls) (name : String) (pos : Span) :
    Charted (jumps ++ [(name, pos)]) placed
      (update name (fun l => { l with referenced := l.referenced.or (some pos) }) ls) := by
  refine ⟨h.toSourced.jump name pos, h.distinct, fun p hp => ?_⟩
  rw [map_name_update (by intro; rfl), List.map_append, List.find?_append, ← h.first p hp]
  by_cases hmem : name ∈ ls.map JumpLabel.name
  · rw [if_pos hmem]
    cases hfind : (ls.map JumpLabel.name).find? p with
    | some n => rfl
    | none =>
      have hname := List.find?_eq_none.mp hfind name hmem
      simp [hname]
  · rw [if_neg hmem, List.find?_append]
    rfl

theorem Charted.place (h : Charted jumps placed ls) (name : String) (pos : Span)
    (hnew : (ls.any fun l => l.name == name && l.defined.isSome) = false) :
    Charted jumps (placed ++ [name]) (update name (fun l => { l with defined := some pos }) ls) := by
  refine ⟨h.toSourced.place name pos, ?_, fun p hp => ?_⟩
  · exact List.nodup_append_comm.mp (List.nodup_cons.mpr ⟨h.not_mem_placed hnew, h.distinct⟩)
  · obtain ⟨hold, hlast⟩ := List.forall_mem_append.mp hp
    rw [map_name_update (by intro; rfl), ← h.first p hold]
    by_cases hmem : name ∈ ls.map JumpLabel.name
    · rw [if_pos hmem]
    · rw [if_neg hmem, List.find?_append, List.find?_singleton, hlast name List.mem_cons_self]
      simp

/-- The first entry without a definition is that of the first jump to a label that is not placed. -/
theorem Charted.find?_undefined (h : Charted jumps placed ls) :
    (ls.find? fun l => l.defined.isNone).map JumpLabel.name =
      (jumps.find? fun j => decide (j.1 ∉ placed)).map Prod.fst := by
  have hcongr : ls.find? (fun l => l.defined.isNone) = ls.find? (fun l => decide (l.name ∉ placed)) := by
    refine List.find?_congr fun l hl => ?_
    have hdefined := h.defined l hl
    cases hd : l.defined with
    | none => simpa [hd] using hdefined
    | some pos => simpa [hd] using hdefined
  have hfirst := h.first (fun n => decide (n ∉ placed)) (by simp)
  rw [List.find?_map, List.find?_map] at hfirst
  rw [hcongr]
  exact hfirst

end JumpLabel

open JumpLabel

/-- A function reports its first jump to a label that it does not place, at the place of the jump. -/
theorem FunctionHead.undefinedLabel?_eq {c : Context} {env : ScopeId} {jumps : List (String × Span)}
    {placed : List String} (h : Charted jumps placed (c.jumpLabels env)) :
    FunctionHead.undefinedLabel? c env = (jumps.find? fun j => decide (j.1 ∉ placed)).map fun j =>
      (Diagnostic.labelUndefined j.1).located j.2 := by
  have hfind := h.find?_undefined
  unfold FunctionHead.undefinedLabel? Scope.dangling
  rw [List.head?_filter]
  change ((c.jumpLabels env).find? fun l => l.defined.isNone).map _ = _
  cases hl : (c.jumpLabels env).find? fun l => l.defined.isNone with
  | none =>
    rw [hl, Option.map_none] at hfind
    rw [Option.map_eq_none_iff.mp hfind.symm]
    rfl
  | some l =>
    rw [hl, Option.map_some] at hfind
    obtain ⟨j, hj, hname⟩ := Option.map_eq_some_iff.mp hfind.symm
    have hreferenced : l.referenced = some j.2 := by
      rw [h.referenced l (List.mem_of_find?_eq_some hl), ← hname]
      exact lookup_of_find? (p := fun n => decide (n ∉ placed)) hj
    rw [hj, Option.map_some, Option.map_some, hreferenced, hname]

theorem Stmt.Accepted.charted {env func : ScopeId} {c c' : Context} {body body' : List Stmt}
    (h : Stmt.Accepted env c body c' body') (hin : Within c func env) (hnone : c.jumpLabels func = []) :
    Charted (Stmt.jumps body) (Stmt.labelNames body) (c'.jumpLabels func) := by
  have hcharted := h.follow (fun name pos hs => hs.jump name pos) (fun name pos hs hnew => hs.place name pos hnew)
    hin (P := Charted) (hnone.symm ▸ charted_nil)
  rw [List.nil_append, List.nil_append, h.jumps_eq.1, h.jumps_eq.2] at hcharted
  exact hcharted

namespace Context

variable {old : ScopeId} {c c' : Context}

theorem Advance.jumpLabels (h : Advance old c c') {e : ScopeId} (he : e < old) :
    c'.jumpLabels e = c.jumpLabels e := by
  cases h with
  | label => rfl
  | var h => exact (Variable.register_grows h).keepsJumps e
  | array h => exact (ArrayDecl.register_grows h).keepsJumps e
  | struct h => exact (StructHead.register_grows h).keepsJumps e
  | functionType env result => exact keepsJumps_addType c env _ e
  | function _ h => exact (GrowStep.insert h).keepsJumps e
  | openFunction _ result => exact keepsJumps_openFunction c _ result e
  | param _ _ h => exact (GrowStep.insert h).keepsJumps e
  | openBlock => exact keepsJumps_openBlock c _ e
  | modifyLabel hold name f =>
    simp [Context.modifyLabel, Context.jumpLabels, Nat.ne_of_gt (Nat.lt_of_lt_of_le he hold)]
  | layOut h =>
    obtain ⟨t, -, rfl⟩ := layOutFields_eq_ok h
    exact keepsJumps_setTable c _ _ e

/-- No later pass touches the labels of a function. -/
theorem Advances.jumpLabels (h : Advances old c c') {e : ScopeId} (he : e < old) :
    c'.jumpLabels e = c.jumpLabels e := by
  induction h with
  | refl => rfl
  | tail _ hstep ih => rw [hstep.jumpLabels he, ih]

end Context

/-- The only diagnostic at the end of a function is that of its undefined label. -/
theorem FunctionHead.emitLeave_eq_error_iff {β : Type} [Backend β] {env : ScopeId} {frame : Frame}
    {s : Emitter β} {e : Diagnostic} :
    (∃ t, FunctionHead.emitLeave env frame s = .error (.diagnostic e) t) ↔
      FunctionHead.undefinedLabel? s.context env = some e := by
  rw [emitLeave, bind_get]
  cases FunctionHead.undefinedLabel? s.context env with
  | some d =>
    constructor
    · rintro ⟨t, h⟩
      cases h
      rfl
    · intro h
      cases h
      exact ⟨s, rfl⟩
  | none =>
    have hsends : Raises (EmitError.Satisfies fun _ => False) (do
        send (.label (s.context.exitSymbol env))
        let debug := Backend.debug (← get).backend
        send (.leave (leaveCode frame s.context.types debug) frame.argBytes) : EmitM β Unit) :=
      (raises_send _).bind fun _ => raises_get fun _ => raises_send _
    constructor
    · rintro ⟨t, h⟩
      exact (hsends _ _ _ h).elim
    · intro h
      cases h

theorem Emitter.inside_sendAll_code {code : List Ir} {s t : Emitter Listing}
    (h : sendAll (code.map Emission.code) s = .ok () t) : t.backend.inside = s.backend.inside := by
  induction code generalizing s with
  | nil => cases h; rfl
  | cons tree code ih =>
    obtain ⟨_, u, hsend, hrest⟩ := bind_eq_ok.mp h
    exact (ih hrest).trans (routes_send hsend rfl).inside

/-- After its start a function is open. -/
theorem FunctionHead.emitEnter_inside {f : FunctionHead} {env : ScopeId} {frame : Frame}
    {s t : Emitter Listing} (h : f.emitEnter env frame s = .ok () t) : t.backend.inside.isSome = true := by
  have hdebug : Quiet (f.emitDebugEnter env : EmitM Listing Unit) := by
    refine quiet_get fun s => ?_
    split
    · exact quiet_freshLabel.bind fun _ => quiet_sendAll (by simp [Emission.isQuiet])
    · exact quiet_pure ()
  obtain ⟨_, u, hsend, hrest⟩ := bind_eq_ok.mp
    (show (send (.enter (Symbol.function f.ident) frame.size) >>= _) s = _ from h)
  obtain ⟨-, rfl⟩ := Listing.send_eq_push hsend
  obtain ⟨_, v, hentry, hrest⟩ := bind_eq_ok.mp hrest
  have hopen : v.backend.inside = some (Symbol.function f.ident) := inside_sendAll_code hentry
  rw [(hdebug v t () (by rw [hopen]; rfl) hrest).inside, hopen]
  rfl

theorem Symbol.inFunction_injective (func : String) : Function.Injective (Symbol.inFunction func) := by
  intro name name' h
  simpa [Symbol.inFunction, ← String.toList_inj] using h

/-- Once its statements are emitted, a function fails with a diagnostic for its first undefined label only. -/
theorem FunctionHead.emit_eq_error_iff {β : Type} [Backend β] {f : FunctionHead} {env : ScopeId}
    (henv : f.env = some env) {runBody : EmitM β Unit} (hstable : Stable runBody)
    {jumps : List (String × Span)} {placed : List String} {t u v : Emitter β}
    (hcharted : Charted jumps placed (t.context.jumpLabels env))
    (henter : f.emitEnter env (Frame.layout t.context env) t = .ok () u)
    (hbody : withFrame (Frame.layout t.context env) runBody u = .ok () v) {e : Diagnostic} :
    (∃ w, f.emit runBody t = .error (.diagnostic e) w) ↔
      ∃ j, jumps.find? (fun j => decide (j.1 ∉ placed)) = some j ∧
        (Diagnostic.labelUndefined j.1).located j.2 = e := by
  have hu := (f.emitEnter_stable env (Frame.layout t.context env) t).context
  have hv := (hstable.withFrame (Frame.layout t.context env) u).context
  rw [after_of_ok henter] at hu
  rw [after_of_ok hbody] at hv
  have hscopes : v.context.jumpLabels env = t.context.jumpLabels env := by
    unfold Context.jumpLabels scope
    rw [(hu.trans hv).scopes]
  rw [FunctionHead.emit_run henv, bind_of_ok _ henter, bind_of_ok _ hbody, emitLeave_eq_error_iff,
    undefinedLabel?_eq (hscopes.symm ▸ hcharted)]
  exact Option.map_eq_some_iff

theorem Stmt.Accepted.routes {scope : ScopeId} {c c' final : Context} {body body' : List Stmt}
    (h : Stmt.Accepted scope c body c' body') (hin : Within c scope scope) (hext : Extends c' final)
    {frame : Frame} {u v : Emitter Listing} (hu : Relabels final u.context)
    (hopen : u.backend.inside.isSome = true) (hrun : withFrame frame (Stmt.emitAll body') u = .ok () v) :
    Routes ((Stmt.jumps body).map fun j => final.symbolIn scope j.1)
      ((Stmt.labelNames body).map (final.symbolIn scope)) u v := by
  obtain ⟨w, hw, rfl⟩ := withFrame_eq_ok hrun
  have hroutes := Stmt.emitAll_routes body' { u with frame := some frame } w
    (fun stmt hstmt => (h.anchored hin stmt hstmt).extends hext) hu hopen hw
  rw [h.jumps_eq.1, h.jumps_eq.2] at hroutes
  exact ⟨hroutes.items, hroutes.inside⟩

/-- Undefined labels are found exactly. A function that passes its check places no label twice. When its
statements are emitted, then it fails for an undefined label just when it jumps to a label that it does not
place, and what is reported is the first such jump. The code of the statements jumps to the labels of the
jumps and defines the labels that are placed, so without such a jump every target has one definition. -/
theorem undefined_labels_found {s s' : Session} (hs : Moves .initial s.context) {env : ScopeId}
    (henv : env < s.context.scopes.length) {site : Site} {head : FunctionHead}
    {params : List (Option Decl)} {body : List Stmt} {d : Decl}
    (hcheck : (Decl.function site head params body).check env s = (⟨d, .ok ()⟩, s')) :
    (Stmt.labelNames body).Nodup ∧
    ∃ scope body', d = .function site { head with env := some scope } params body' ∧
      ∀ t u v : Emitter Listing, Passes s'.context t.context →
        head.emitEnter scope (Frame.layout t.context scope) t = .ok () u →
        withFrame (Frame.layout t.context scope) (Stmt.emitAll body') u = .ok () v →
        ((∃ e w, d.emit t = .error (.diagnostic e) w ∧ e.kind = .undefinedLabel) ↔
          ∃ j ∈ Stmt.jumps body, j.1 ∉ Stmt.labelNames body) ∧
        (∀ e w, d.emit t = .error (.diagnostic e) w → ∃ j,
          (Stmt.jumps body).find? (fun j => decide (j.1 ∉ Stmt.labelNames body)) = some j ∧
          e = (Diagnostic.labelUndefined j.1).located j.2) ∧
        ∃ es, v.backend.items = u.backend.items ++ es ∧
          es.filterMap Emission.jump? = (Stmt.jumps body).map (fun j => t.context.symbolIn scope j.1) ∧
          es.filterMap Emission.placed? = (Stmt.labelNames body).map (t.context.symbolIn scope) ∧
          ((∀ j ∈ Stmt.jumps body, j.1 ∈ Stmt.labelNames body) →
            ∀ target ∈ es.filterMap Emission.jump?, (es.filterMap Emission.placed?).count target = 1) := by
  have howned := (hs.advances owned_initial).owned owned_initial
  have hchecked : Advances 0 s.context s'.context := by
    have h := @Decl.check_advances 0 (.function site head params body) env s howned henv (Nat.zero_le _)
    rwa [hcheck] at h
  obtain ⟨scope, c, body', henter, hbody, rfl⟩ := Decl.checkWith_function_eq_ok hcheck
  rw [Decl.checkBody] at hbody
  have haccepted := Stmt.checkAll_accepted body scope _ s' body' hbody
  obtain ⟨hscope, hwithin⟩ := FunctionHead.enter_within henter
  have hcharted := haccepted.charted hwithin
    ((FunctionHead.enter_keepsJumps henter scope).trans (jumpLabels_of_le (Nat.le_of_eq hscope.symm)))
  refine ⟨hcharted.distinct, scope, body', rfl, fun t u v hlater hopened hemitted => ?_⟩
  -- from the check on, the labels of the function stay as they are
  have hadvances := hlater.advances (hchecked.owned howned)
  rw [← hadvances.jumpLabels (hwithin.extends haccepted.extends).lt_length] at hcharted
  have hiff (e : Diagnostic) := FunctionHead.emit_eq_error_iff (e := e) (f := { head with env := some scope }) rfl
    (Stmt.emitAll_stable body') hcharted hopened hemitted
  rw [Decl.emit]
  refine ⟨⟨?_, ?_⟩, ?_, ?_⟩
  · rintro ⟨e, w, h, -⟩
    obtain ⟨j, hj, -⟩ := (hiff e).mp ⟨w, h⟩
    exact ⟨j, List.mem_of_find?_eq_some hj, by simpa using List.find?_some hj⟩
  · rintro ⟨j, hj, hmissing⟩
    have hfound : ((Stmt.jumps body).find? fun j => decide (j.1 ∉ Stmt.labelNames body)).isSome = true :=
      List.find?_isSome.mpr ⟨j, hj, by simpa using hmissing⟩
    obtain ⟨first, hfirst⟩ := Option.isSome_iff_exists.mp hfound
    obtain ⟨w, hw⟩ := (hiff _).mpr ⟨first, hfirst, rfl⟩
    exact ⟨(Diagnostic.labelUndefined first.1).located first.2, w, hw, rfl⟩
  · intro e w h
    obtain ⟨j, hj, he⟩ := (hiff e).mp ⟨w, h⟩
    exact ⟨j, hj, he.symm⟩
  · have hu := (head.emitEnter_stable scope (Frame.layout t.context scope) t).context
    rw [after_of_ok hopened] at hu
    obtain ⟨es, hes, hjumps, hplaced⟩ := (haccepted.routes hwithin hadvances.extends hu
      (FunctionHead.emitEnter_inside hopened) hemitted).items
    refine ⟨es, hes, hjumps, hplaced, fun hdefined target htarget => ?_⟩
    rw [hjumps] at htarget
    obtain ⟨j, hj, rfl⟩ := List.mem_map.mp htarget
    rw [hplaced]
    exact List.count_eq_one_of_mem (hcharted.distinct.map (Symbol.inFunction_injective _))
      (List.mem_map_of_mem (hdefined j hj))

def strayJumps : List Stmt :=
  [.label "a" {} none, .block [.goto "b" ⟨3, 5⟩ none, .goto "a" ⟨4, 5⟩ none] {}, .goto "c" ⟨6, 3⟩ none]

def strayJumpsHead : FunctionHead :=
  { ident := "f", tag := .default, ty := some 4 }

def strayJumpsSession : Session :=
  (DeclList.register root (.scope root)
    [some (.function {} { ident := "f", tag := .default } [] strayJumps)] {}).2

def strayJumpsChecked : List Stmt :=
  [.label "a" {} (some 1), .block [.goto "b" ⟨3, 5⟩ (some 2), .goto "a" ⟨4, 5⟩ (some 2)] {},
    .goto "c" ⟨6, 3⟩ (some 1)]

theorem undefined_labels_found_strayJumps :
    Moves .initial strayJumpsSession.context ∧
    ∃ s', (Decl.function {} strayJumpsHead [] strayJumps).check root strayJumpsSession =
        (⟨.function {} { strayJumpsHead with env := some 1 } [] strayJumpsChecked, .ok ()⟩, s') ∧
      ∃ w, (Decl.function {} { strayJumpsHead with env := some 1 } [] strayJumpsChecked).emit
          { context := s'.context, backend := Listing.empty false } =
        .error (.diagnostic ((Diagnostic.labelUndefined "b").located ⟨3, 5⟩)) w := by
  have hs : Moves .initial strayJumpsSession.context := .single (.pass (.register {} root (.scope root) _))
  have hcheck : (Decl.function {} strayJumpsHead [] strayJumps).check root strayJumpsSession =
    (⟨.function {} { strayJumpsHead with env := some 1 } [] strayJumpsChecked, .ok ()⟩,
      ((Decl.function {} strayJumpsHead [] strayJumps).check root strayJumpsSession).2) := rfl
  obtain ⟨-, scope, body', hd, hemit⟩ := undefined_labels_found hs (by decide) hcheck
  refine ⟨hs, _, hcheck, ?_⟩
  cases hd
  obtain ⟨hfails, hfirst, -⟩ := hemit { context := _, backend := Listing.empty false } _ _ .refl rfl rfl
  obtain ⟨e, w, hw, -⟩ := hfails.mpr ⟨("b", ⟨3, 5⟩), by decide, by decide⟩
  obtain ⟨j, hj, rfl⟩ := hfirst e w hw
  have hb : (Stmt.jumps strayJumps).find? (fun j => decide (j.1 ∉ Stmt.labelNames strayJumps)) =
      some ("b", ⟨3, 5⟩) := by decide
  obtain rfl := Option.some.inj (hb.symm.trans hj)
  exact ⟨w, hw⟩

end UnitCompiler
