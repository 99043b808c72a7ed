import UnitCompiler.Proofs.Simulation
import Mathlib.Data.List.TakeWhile

namespace UnitCompiler

open Emitter

/-- A backend together with the refusals that it has answered so far. -/
structure Watched (β : Type) where
  backend : β
  refusals : List BackendError := []

/-- A backend that never refuses: it goes on as the given one does, whatever that answers. -/
structure Docile (β : Type) where
  backend : β

namespace Watched

variable {β : Type} [Backend β]

def noted : Except BackendError Unit → List BackendError
  | .ok () => []
  | .error e => [e]

instance : Backend (Watched β) where
  debug w := Backend.debug w.backend
  accept w e :=
    let answer := Backend.accept w.backend e
    (answer.1, ⟨answer.2, w.refusals ++ noted answer.1⟩)

instance : Backend (Docile β) where
  debug d := Backend.debug d.backend
  accept d e := (.ok (), ⟨(Backend.accept d.backend e).2⟩)

/-- A watched backend behaves as it does unwatched. -/
theorem simulation :
    Backend.Simulation (fun (w : Watched β) (b : β) => w.backend = b) fun _ _ => False where
  debug h := congrArg Backend.debug h
  accept := by
    rintro w b rfl e
    exact Or.inl ⟨rfl, rfl⟩
  lost h _ := h

theorem docile_simulation (seen : List BackendError) :
    Backend.Simulation (fun (w : Watched β) (d : Docile β) => w.backend = d.backend ∧ w.refusals = seen)
      fun _ _ => True where
  debug h := congrArg Backend.debug h.1
  accept := by
    rintro ⟨b, _⟩ ⟨_⟩ ⟨rfl, rfl⟩ e
    change ((Backend.accept b e).1 = .ok () ∧ _ ∧ _ ++ noted (Backend.accept b e).1 = _) ∨
      (∃ err, (Backend.accept b e).1 = .error err) ∧ True
    cases (Backend.accept b e).1 with
    | ok u => exact Or.inl ⟨rfl, rfl, List.append_nil _⟩
    | error err => exact Or.inr ⟨⟨err, rfl⟩, trivial⟩
  lost _ _ := trivial

end Watched

namespace Emitter

variable {β ε α : Type}

def Unrefused (x : EStateM ε (Emitter (Watched β)) α) (s : Emitter (Watched β)) : Prop :=
  (after x s).backend.refusals = s.backend.refusals

def Refuses (x : EmitM β α) (s : Emitter β) : Prop :=
  ∃ e t, x s = .error (.backend e) t

/-- Only a run without parts of its own is asked for: it passes a refusal on as it is. -/
theorem unrefused_or_refuses [Backend β] {x : EmitM (Watched β) α} {y : EmitM (Docile β) α}
    (h : ∀ seen, Follows (fun w d => w.backend = d.backend ∧ w.refusals = seen) (fun _ _ => True)
      (fun e => ∃ err, e = .backend err) x y) (s : Emitter (Watched β)) :
    Unrefused x s ∨ Refuses x s := by
  -- beside a backend that never refuses, the run stays in step or ends at a refusal
  have hs : InStep (fun (w : Watched β) (d : Docile β) => w.backend = d.backend ∧
      w.refusals = s.backend.refusals) s { s with backend := ⟨s.backend.backend⟩ } :=
    ⟨rfl, rfl, rfl, rfl⟩
  obtain hm | ⟨_, t, hx, ⟨e, rfl⟩, -⟩ := h _ _ _ hs
  · left
    unfold Unrefused after
    generalize x s = r at hm
    generalize y _ = r' at hm
    cases hm with
    | ok h => exact h.backend.2
    | error h => exact h.backend.2
  · exact Or.inr ⟨e, t, hx⟩

end Emitter

mutual

/-- The emission of a declaration ends at a refused item. The list holds the declarations around that
item, the innermost first. -/
inductive Decl.RefusedIn {β : Type} [Backend β] : Decl → Emitter β → List Decl → Prop
  | var {site : Site} {v : Variable} {s : Emitter β} (h : Refuses v.emit s) :
      Decl.RefusedIn (.var site v) s [.var site v]
  | data {site : Site} {d : DataItem} {s : Emitter β} (h : Refuses d.emit s) :
      Decl.RefusedIn (.data site d) s [.data site d]
  | array {site : Site} {v : ArrayDecl} {s : Emitter β} (h : Refuses v.emit s) :
      Decl.RefusedIn (.array site v) s [.array site v]
  | field {site : Site} {head : StructHead} {fields : List (Option Decl)} {s : Emitter β}
      {path : List Decl} (h : DeclList.RefusedIn 0 fields s path) :
      Decl.RefusedIn (.struct site head fields) s (path ++ [.struct site head fields])
  | descriptor {site : Site} {head : StructHead} {fields : List (Option Decl)} {s t : Emitter β}
      (hfields : DeclList.emitFrom 0 fields s = .ok () t) (h : Refuses head.emit t) :
      Decl.RefusedIn (.struct site head fields) s [.struct site head fields]
  | enter {site : Site} {head : FunctionHead} {params : List (Option Decl)} {body : List Stmt}
      {s : Emitter β} {env : ScopeId} (henv : head.env = some env)
      (h : Refuses (head.emitEnter env (Frame.layout s.context env)) s) :
      Decl.RefusedIn (.function site head params body) s [.function site head params body]
  | body {site : Site} {head : FunctionHead} {params : List (Option Decl)} {body : List Stmt}
      {s t : Emitter β} {env : ScopeId} {path : List Decl} (henv : head.env = some env)
      (henter : head.emitEnter env (Frame.layout s.context env) s = .ok () t)
      (h : Stmt.RefusedAmong body { t with frame := some (Frame.layout s.context env) } path) :
      Decl.RefusedIn (.function site head params body) s (path ++ [.function site head params body])
  | leave {site : Site} {head : FunctionHead} {params : List (Option Decl)} {body : List Stmt}
      {s t u : Emitter β} {env : ScopeId} (henv : head.env = some env)
      (henter : head.emitEnter env (Frame.layout s.context env) s = .ok () t)
      (hbody : withFrame (Frame.layout s.context env) (Stmt.emitAll body) t = .ok () u)
      (h : Refuses (FunctionHead.emitLeave env (Frame.layout s.context env)) u) :
      Decl.RefusedIn (.function site head params body) s [.function site head params body]

inductive DeclList.RefusedIn {β : Type} [Backend β] :
    Nat → List (Option Decl) → Emitter β → List Decl → Prop
  | skip {index : Nat} {rest : List (Option Decl)} {s : Emitter β} {path : List Decl}
      (h : DeclList.RefusedIn (index + 1) rest { s with events := s.events ++ [.skipped index] } path) :
      DeclList.RefusedIn index (none :: rest) s path
  | here {index : Nat} {d : Decl} {rest : List (Option Decl)} {s : Emitter β} {path : List Decl}
      (h : d.RefusedIn { s with events := s.events ++ [.visited .emit index d.noun] } path) :
      DeclList.RefusedIn index (some d :: rest) s path
  | later {index : Nat} {d : Decl} {rest : List (Option Decl)} {s t : Emitter β} {path : List Decl}
      (hd : d.emit { s with events := s.events ++ [.visited .emit index d.noun] } = .ok () t)
      (h : DeclList.RefusedIn (index + 1) rest t path) :
      DeclList.RefusedIn index (some d :: rest) s path

inductive Stmt.RefusedIn {β : Type} [Backend β] : Stmt → Emitter β → List Decl → Prop
  | declare {d : Decl} {s : Emitter β} {path : List Decl} (h : d.RefusedIn s path) :
      Stmt.RefusedIn (.declare d) s path
  | block {body : List Stmt} {span : Span} {s : Emitter β} {path : List Decl}
      (h : Stmt.RefusedAmong body s path) : Stmt.RefusedIn (.block body span) s path
  | goto {label : String} {span : Span} {env : Option ScopeId} {s : Emitter β}
      (h : Refuses (Stmt.goto label span env).emit s) : Stmt.RefusedIn (.goto label span env) s []
  | label {name : String} {span : Span} {env : Option ScopeId} {s : Emitter β}
      (h : Refuses (Stmt.label name span env).emit s) : Stmt.RefusedIn (.label name span env) s []
  | eval {e : Expr} {checked : Option Value} {s : Emitter β}
      (h : Refuses (Stmt.eval e checked).emit s) : Stmt.RefusedIn (.eval e checked) s []

inductive Stmt.RefusedAmong {β : Type} [Backend β] : List Stmt → Emitter β → List Decl → Prop
  | here {stmt : Stmt} {rest : List Stmt} {s : Emitter β} {path : List Decl}
      (h : stmt.RefusedIn s path) : Stmt.RefusedAmong (stmt :: rest) s path
  | later {stmt : Stmt} {rest : List Stmt} {s t : Emitter β} {path : List Decl}
      (hstmt : stmt.emit s = .ok () t) (h : Stmt.RefusedAmong rest t path) :
      Stmt.RefusedAmong (stmt :: rest) s path

end

namespace Refusal

/-- The declarations that stamp the report of a refusal on its way out: the innermost struct in whose
field list it happened, and what is around that struct. -/
def stampers (path : List Decl) : List Decl :=
  path.tail.dropWhile fun d => !d.isStruct

def report (path : List Decl) : Diagnostic :=
  { Diagnostic.backendFailed with
    pos := (stampers path).head?.map fun d => d.site.pos
    file := (stampers path).findSome? fun d => d.site.file }

/-- The error on its way: the refusal itself until a field list has reported it. -/
def carried (path : List Decl) (e : BackendError) : EmitError :=
  if (stampers path).isEmpty then .backend e else .diagnostic (report path)

theorem stampers_concat_struct {path : List Decl} (hpath : path ≠ []) {d : Decl}
    (hd : d.isStruct = true) : stampers (path ++ [d]) = stampers path ++ [d] := by
  unfold stampers
  rw [List.tail_append_of_ne_nil hpath, List.dropWhile_append]
  cases path.tail.dropWhile fun d => !d.isStruct <;> simp [hd]

theorem stampers_concat (path : List Decl) {d : Decl} (hd : d.isStruct = false) :
    stampers (path ++ [d]) = if (stampers path).isEmpty then [] else stampers path ++ [d] := by
  cases path with
  | nil => rfl
  | cons _ path =>
    unfold stampers
    rw [List.cons_append, List.tail_cons, List.tail_cons, List.dropWhile_append]
    simp [hd]

theorem stampers_eq_nil {path : List Decl} :
    stampers path = [] ↔ ∀ d ∈ path.tail, d.isStruct = false := by
  simp [stampers, List.dropWhile_eq_nil_iff]

theorem report_of_stampers_nil {path : List Decl} (h : stampers path = []) :
    report path = .backendFailed := by
  simp [report, h, Diagnostic.backendFailed]

theorem report_of_stampers_concat {path path' : List Decl} {d : Decl}
    (h : stampers path' = stampers path ++ [d]) : report path' = d.stamp (report path) := by
  unfold report
  rw [h, List.findSome?_append]
  cases stampers path <;> cases hf : d.site.file <;>
    simp [Decl.stamp, Site.stamp, Diagnostic.withPosition, Diagnostic.withFile,
      Diagnostic.backendFailed, hf]

theorem report_pos_isSome {path : List Decl} (h : stampers path ≠ []) : (report path).pos.isSome := by
  obtain ⟨d, ds, hs⟩ := List.exists_cons_of_ne_nil h
  simp [report, hs]

/-- A report is exactly the plain one where the refused item is in no field list. -/
theorem report_eq_backendFailed {path : List Decl} :
    report path = .backendFailed ↔ ∀ d ∈ path.tail, d.isStruct = false := by
  rw [← stampers_eq_nil]
  refine ⟨fun h => ?_, report_of_stampers_nil⟩
  by_contra hne
  have hpos := report_pos_isSome hne
  rw [h] at hpos
  cases hpos

/-- The statement around it cannot move a report that is under way. -/
theorem carried_withPosition (path : List Decl) (e : BackendError) (pos : Span) :
    (carried path e).mapDiagnostic (fun d => d.withPosition pos) = carried path e := by
  unfold carried
  cases h : stampers path with
  | nil => rfl
  | cons d ds =>
    have hpos := report_pos_isSome (h ▸ List.cons_ne_nil d ds)
    obtain ⟨p, hp⟩ := Option.isSome_iff_exists.mp hpos
    simp only [List.isEmpty_cons, Bool.false_eq_true, if_false, EmitError.mapDiagnostic,
      Diagnostic.withPosition, hp, Option.some_or]
    rw [← hp]

theorem carried_function (path : List Decl) (e : BackendError) {d : Decl} (hd : d.isStruct = false) :
    (carried path e).mapDiagnostic d.stamp = carried (path ++ [d]) e := by
  have hs := stampers_concat path hd
  unfold carried
  cases h : (stampers path).isEmpty with
  | true =>
    rw [h, if_pos rfl] at hs
    rw [hs]
    rfl
  | false =>
    rw [h, if_neg Bool.false_ne_true] at hs
    rw [report_of_stampers_concat hs, hs]
    simp [EmitError.mapDiagnostic]

theorem carried_struct {path : List Decl} (hpath : path ≠ []) (e : BackendError) {d : Decl}
    (hd : d.isStruct = true) :
    (EmitError.diagnostic (report path)).mapDiagnostic d.stamp = carried (path ++ [d]) e := by
  have hs := stampers_concat_struct hpath hd
  unfold carried
  rw [report_of_stampers_concat hs, hs]
  simp [EmitError.mapDiagnostic]

theorem carried_leaf (d : Decl) (e : BackendError) : carried [d] e = .backend e := rfl

end Refusal

section

variable {β : Type} [Backend β]

omit [Backend β] in
/-- A refusal in a sequence is one in its first part, or one in the rest after the first part. -/
theorem unrefused_bind {ε α α' : Type} {x : EStateM ε (Emitter (Watched β)) α}
    {f : α → EStateM ε (Emitter (Watched β)) α'} {s : Emitter (Watched β)} {P : Prop}
    {Q : α → Emitter (Watched β) → Prop} (hx : Unrefused x s ∨ P)
    (hf : ∀ a t, x s = .ok a t → Unrefused (f a) t ∨ Q a t) :
    Unrefused (x >>= f) s ∨ P ∨ ∃ a t, x s = .ok a t ∧ Q a t := by
  obtain hx | hp := hx
  · cases h : x s with
    | ok a t =>
      obtain hf | hq := hf a t h
      · left
        unfold Unrefused at hx hf ⊢
        rw [after_of_ok h] at hx
        unfold after at hf ⊢
        rw [bind_of_ok f h, hf, hx]
      · exact Or.inr (Or.inr ⟨a, t, rfl, hq⟩)
    | error e t =>
      left
      unfold Unrefused at hx ⊢
      rw [after_of_error h] at hx
      rw [after_of_error (bind_of_error f h), hx]
  · exact Or.inr (Or.inl hp)

omit [Backend β] in
theorem unrefused_adaptExcept {ε δ α : Type} {f : ε → δ} {x : EStateM ε (Emitter (Watched β)) α}
    {s : Emitter (Watched β)} : Unrefused (EStateM.adaptExcept f x) s ↔ Unrefused x s := by
  unfold Unrefused
  rw [after_adaptExcept]

omit [Backend β] in
theorem unrefused_withFrame {x : EmitM (Watched β) Unit} {frame : Frame} {s : Emitter (Watched β)}
    (h : Unrefused x { s with frame := some frame }) : Unrefused (withFrame frame x) s := by
  unfold Unrefused after at h ⊢
  unfold withFrame
  cases hx : x { s with frame := some frame } <;> rw [hx] at h <;> exact h

omit [Backend β] in
theorem unrefused_guarded (pass : Pass) (d : Decl) {x : EmitM (Watched β) Unit}
    {s : Emitter (Watched β)} (h : Unrefused x s) : Unrefused (DeclList.guarded pass d x) s := by
  unfold Unrefused after at h ⊢
  unfold DeclList.guarded
  cases hx : x s with
  | ok a t => rw [hx] at h; exact h
  | error e t => rw [hx] at h; cases e <;> exact h

open Refusal

/-- A declaration whose emission has no parts passes a refusal on. -/
theorem Decl.refused_leaf {d : Decl} {x : EmitM (Watched β) Unit} {y : EmitM (Docile β) Unit}
    (h : ∀ seen, Follows (fun w d => w.backend = d.backend ∧ w.refusals = seen) (fun _ _ => True)
      (fun e => ∃ err, e = .backend err) x y) (s : Emitter (Watched β))
    (hin : Refuses x s → d.RefusedIn s [d]) :
    Unrefused x s ∨ ∃ path e err t, d.RefusedIn s path ∧ path ≠ [] ∧
      x s = .error err t ∧ err.mapDiagnostic d.stamp = carried path e := by
  obtain h | h := unrefused_or_refuses h s
  · exact Or.inl h
  · obtain ⟨e, t, he⟩ := id h
    exact Or.inr ⟨[d], e, _, t, hin h, List.cons_ne_nil _ _, he, rfl⟩

/-- A function meets no refusal, or it ends at one in its entry, in its body or in its exit. -/
theorem Decl.refused_function {site : Site} {head : FunctionHead} {params : List (Option Decl)}
    {body : List Stmt} (hbody : ∀ s : Emitter (Watched β), Unrefused (Stmt.emitAll body) s ∨
      ∃ path e t, Stmt.RefusedAmong body s path ∧ Stmt.emitAll body s = .error (carried path e) t)
    (s : Emitter (Watched β)) :
    Unrefused (head.emit (Stmt.emitAll body)) s ∨
      ∃ path e err t, (Decl.function site head params body).RefusedIn s path ∧ path ≠ [] ∧
        head.emit (Stmt.emitAll body) s = .error err t ∧
        err.mapDiagnostic (Decl.function site head params body).stamp = carried path e := by
  cases henv : head.env with
  | none =>
    left
    unfold FunctionHead.emit Unrefused
    rw [after_get, henv]
    rfl
  | some env =>
    have hrun := FunctionHead.emit_run henv (Stmt.emitAll body) s
    -- the refused item belongs to the entry, to the body or to the exit
    obtain h | h | ⟨_, t, henter, h | ⟨_, u, hrest, h⟩⟩ := unrefused_bind
      (unrefused_or_refuses (fun seen => head.emitEnter_follows (Watched.docile_simulation seen)
        (fun e => ⟨e, rfl⟩) env (Frame.layout s.context env)) s)
      fun _ t _ => unrefused_bind
        ((hbody { t with frame := some (Frame.layout s.context env) }).imp_left unrefused_withFrame)
        fun _ u _ => unrefused_or_refuses (fun seen => FunctionHead.emitLeave_follows
          (Watched.docile_simulation seen) (fun e => ⟨e, rfl⟩) env (Frame.layout s.context env)) u
    · left
      unfold Unrefused after at h ⊢
      rw [hrun]
      exact h
    · obtain ⟨e, t, he⟩ := id h
      exact Or.inr ⟨_, e, _, t, .enter henv h, List.cons_ne_nil _ _,
        hrun.trans (bind_of_error _ he), rfl⟩
    · obtain ⟨path, e, u, h, he⟩ := h
      refine Or.inr ⟨_, e, _, { u with frame := t.frame }, .body henv henter h, by simp, hrun.trans ?_,
        carried_function path e rfl⟩
      rw [bind_of_ok _ henter, bind_of_error _ (withFrame_of_error he)]
    · obtain ⟨e, v, he⟩ := id h
      refine Or.inr ⟨_, e, .backend e, v, .leave henv henter hrest h, List.cons_ne_nil _ _,
        hrun.trans ?_, rfl⟩
      rw [bind_of_ok _ henter, bind_of_ok _ hrest, he]

omit [Backend β] in
theorem DeclList.guarded_refused (pass : Pass) {d : Decl} {x : EmitM β Unit} {s t : Emitter β}
    {err : EmitError} {path : List Decl} {e : BackendError} (hx : x s = .error err t)
    (hc : err.mapDiagnostic d.stamp = carried path e) :
    ∃ u, DeclList.guarded pass d x s = .error (Refusal.report path) u := by
  unfold DeclList.guarded
  rw [hx]
  unfold carried at hc
  cases err with
  | diagnostic d' =>
    split at hc
    · cases hc
    · rw [← EmitError.diagnostic.inj hc]
      exact ⟨_, rfl⟩
  | backend e' =>
    split at hc
    · rename_i h
      rw [report_of_stampers_nil (List.isEmpty_iff.mp h)]
      exact ⟨_, rfl⟩
    · cases hc

mutual

/-- A declaration meets no refusal, or it ends at one with the error that is then under way. -/
theorem Decl.emit_refused : ∀ (d : Decl) (s : Emitter (Watched β)),
    Unrefused d.emit s ∨ ∃ path e err t, d.RefusedIn s path ∧ path ≠ [] ∧
      d.emit s = .error err t ∧ err.mapDiagnostic d.stamp = carried path e
  | .var site v, s => by
    rw [Decl.emit]
    exact Decl.refused_leaf (fun seen => v.emit_follows (Watched.docile_simulation seen)
      fun e => ⟨e, rfl⟩) s .var
  | .function site head params body, s => by
    rw [Decl.emit]
    exact Decl.refused_function (Stmt.emitAll_refused body) s
  | .struct site head fields, s => by
    rw [Decl.emit]
    obtain h | ⟨path, t, h, hne, he⟩ | ⟨_, t, hfields, h⟩ := unrefused_bind
      ((DeclList.emitFrom_refused 0 fields s).imp_left unrefused_adaptExcept.mpr)
      fun _ t _ => unrefused_or_refuses (fun seen => head.emit_follows
        (Watched.docile_simulation seen) fun e => ⟨e, rfl⟩) t
    · exact Or.inl h
    · -- the field list has reported it, so the answer of the backend no longer matters
      exact Or.inr ⟨_, .other "", _, t, .field h, by simp,
        bind_of_error _ (adaptExcept_of_error _ he), carried_struct hne _ rfl⟩
    · obtain ⟨e, u, he⟩ := id h
      refine Or.inr ⟨_, e, .backend e, u, .descriptor (adaptExcept_eq_ok.mp hfields) h,
        List.cons_ne_nil _ _, ?_, rfl⟩
      rw [bind_of_ok _ hfields, he]
  | .data site d, s => by
    rw [Decl.emit]
    exact Decl.refused_leaf (fun seen => d.emit_follows (Watched.docile_simulation seen)
      fun e => ⟨e, rfl⟩) s .data
  | .array site v, s => by
    rw [Decl.emit]
    exact Decl.refused_leaf (fun seen => v.emit_follows (Watched.docile_simulation seen)
      fun e => ⟨e, rfl⟩) s .array

theorem DeclList.emitFrom_refused (index : Nat) :
    ∀ (seq : List (Option Decl)) (s : Emitter (Watched β)),
    Unrefused (DeclList.emitFrom index seq) s ∨ ∃ path t, DeclList.RefusedIn index seq s path ∧
      path ≠ [] ∧ DeclList.emitFrom index seq s = .error (Refusal.report path) t
  | [], s => Or.inl rfl
  | none :: rest, s => by
    rw [DeclList.emitFrom]
    obtain h | ⟨path, t, h, hne, he⟩ := DeclList.emitFrom_refused (index + 1) rest
      { s with events := s.events ++ [.skipped index] }
    · exact Or.inl h
    · exact Or.inr ⟨path, t, .skip h, hne, he⟩
  | some d :: rest, s => by
    rw [DeclList.emitFrom]
    obtain h | ⟨path, e, err, t, h, hne, he, hc⟩ | ⟨_, t, hd, path, u, h, hne, he⟩ := unrefused_bind
      ((Decl.emit_refused d { s with events := s.events ++ [.visited .emit index d.noun] }).imp_left
        (unrefused_guarded .emit d)) fun _ t _ => DeclList.emitFrom_refused (index + 1) rest t
    · exact Or.inl h
    · obtain ⟨u, hu⟩ := DeclList.guarded_refused .emit he hc
      have hbind := bind_of_error (fun _ => DeclList.emitFrom (index + 1) rest) hu
      exact Or.inr ⟨path, u, .here h, hne, hbind⟩
    · exact Or.inr ⟨path, u, .later (DeclList.guarded_eq_ok.mp hd) h, hne, (bind_of_ok _ hd).trans he⟩

theorem Stmt.emit_refused : ∀ (stmt : Stmt) (s : Emitter (Watched β)),
    Unrefused stmt.emit s ∨ ∃ path e t, stmt.RefusedIn s path ∧
      stmt.emit s = .error (carried path e) t
  | .declare d, s => by
    rw [Stmt.emit]
    obtain h | ⟨path, e, err, t, h, -, he, hc⟩ := Decl.emit_refused d s
    · exact Or.inl (unrefused_adaptExcept.mpr h)
    · refine Or.inr ⟨path, e, t, .declare h, ?_⟩
      unfold EStateM.adaptExcept
      rw [he, ← hc]
  | .block body span, s => by
    rw [Stmt.emit]
    obtain h | ⟨path, e, t, h, he⟩ := Stmt.emitAll_refused body s
    · exact Or.inl h
    · exact Or.inr ⟨path, e, t, .block h, he⟩
  | .goto label span env, s => by
    obtain h | h := unrefused_or_refuses (fun seen => Stmt.emit_goto_follows
      (Watched.docile_simulation seen) (fun e => ⟨e, rfl⟩) label span env) s
    · exact Or.inl h
    · obtain ⟨e, t, he⟩ := id h
      exact Or.inr ⟨[], e, t, .goto h, he⟩
  | .label name span env, s => by
    obtain h | h := unrefused_or_refuses (fun seen => Stmt.emit_label_follows
      (Watched.docile_simulation seen) (fun e => ⟨e, rfl⟩) name span env) s
    · exact Or.inl h
    · obtain ⟨e, t, he⟩ := id h
      exact Or.inr ⟨[], e, t, .label h, he⟩
  | .eval e checked, s => by
    obtain h | h := unrefused_or_refuses (fun seen => Stmt.emit_eval_follows
      (Watched.docile_simulation seen) (fun e => ⟨e, rfl⟩) e checked) s
    · exact Or.inl h
    · obtain ⟨e, t, he⟩ := id h
      exact Or.inr ⟨[], e, t, .eval h, he⟩

theorem Stmt.emitAll_refused : ∀ (body : List Stmt) (s : Emitter (Watched β)),
    Unrefused (Stmt.emitAll body) s ∨ ∃ path e t, Stmt.RefusedAmong body s path ∧
      Stmt.emitAll body s = .error (carried path e) t
  | [], s => Or.inl rfl
  | stmt :: rest, s => by
    rw [Stmt.emitAll]
    obtain h | ⟨path, e, t, h, he⟩ | ⟨_, t, hstmt, path, e, u, h, he⟩ := unrefused_bind
      ((Stmt.emit_refused stmt s).imp_left unrefused_adaptExcept.mpr)
      fun _ t _ => Stmt.emitAll_refused rest t
    · exact Or.inl h
    · refine Or.inr ⟨path, e, t, .here h, bind_of_error _ ?_⟩
      rw [adaptExcept_of_error _ he, carried_withPosition]
    · exact Or.inr ⟨path, e, u, .later (adaptExcept_eq_ok.mp hstmt) h, (bind_of_ok _ hstmt).trans he⟩

end

inductive DeclList.DataRefusedIn : List (Option Decl) → Emitter β → Decl → Prop
  | skip {rest : List (Option Decl)} {s : Emitter β} {d : Decl}
      (h : DeclList.DataRefusedIn rest s d) : DeclList.DataRefusedIn (none :: rest) s d
  | here {d : Decl} {rest : List (Option Decl)} {s : Emitter β} (h : Refuses d.emitData s) :
      DeclList.DataRefusedIn (some d :: rest) s d
  | later {d d' : Decl} {rest : List (Option Decl)} {s t : Emitter β}
      (hd : d.emitData s = .ok () t) (h : DeclList.DataRefusedIn rest t d') :
      DeclList.DataRefusedIn (some d :: rest) s d'

theorem DeclList.emitData_refused (seq : List (Option Decl)) (s : Emitter (Watched β)) :
    Unrefused (DeclList.emitData seq) s ∨ ∃ d t, DeclList.DataRefusedIn seq s d ∧
      DeclList.emitData seq s = .error .backendFailed t := by
  induction seq generalizing s with
  | nil => exact Or.inl rfl
  | cons slot rest ih =>
    cases slot with
    | none => exact (ih s).imp_right fun ⟨d, t, h, he⟩ => ⟨d, t, .skip h, he⟩
    | some d =>
      obtain h | h | ⟨_, t, hd, d', u, h, he⟩ := unrefused_bind
        ((unrefused_or_refuses (fun seen => d.emitData_follows (Watched.docile_simulation seen)
          fun e => ⟨e, rfl⟩) s).imp_left (unrefused_guarded .emitData d)) fun _ t _ => ih t
      · exact Or.inl h
      · obtain ⟨e, t, he⟩ := id h
        obtain ⟨u, hu⟩ := DeclList.guarded_refused .emitData he (carried_leaf d e).symm
        exact Or.inr ⟨d, u, .here h, bind_of_error _ hu⟩
      · exact Or.inr ⟨d', u, .later (DeclList.guarded_eq_ok.mp hd) h, (bind_of_ok _ hd).trans he⟩

def Compiled.emitter (r : Compiled β) (pass : Pass) : Emitter β :=
  { (r.compiler.log (.passStarted pass r.program.length)).session with backend := r.backend }

/-- The compilation ends at a refused item inside the given declarations, innermost first. -/
inductive Compiler.RefusedIn (c : Compiler) (program : DeclList) (b : β) : List Decl → Prop
  | code {r : Compiled β} {path : List Decl} (hr : c.runAll program b [.register, .check] = r)
      (hok : r.outcome = .ok ()) (h : DeclList.RefusedIn 0 r.program (r.emitter .emit) path) :
      Compiler.RefusedIn c program b path
  | data {r : Compiled β} {d : Decl} (hr : c.runAll program b [.register, .check, .emit] = r)
      (hok : r.outcome = .ok ()) (h : DeclList.DataRefusedIn r.program (r.emitter .emitData) d) :
      Compiler.RefusedIn c program b [d]

/-- A pass meets no refusal, or it ends as its computation does. -/
theorem Compiler.run_refused {pass : Pass} {x : PassM (Watched β) Unit} (r : Compiled (Watched β))
    (hx : ∀ c : Compiler, c.perform pass r.program r.backend = c.emit x r.program r.backend)
    {P : Diagnostic → Prop}
    (h : Unrefused x (r.emitter pass) ∨ ∃ d t, P d ∧ x (r.emitter pass) = .error d t) :
    (r.compiler.run pass r.program r.backend).backend.refusals = r.backend.refusals ∨
      ∃ d, P d ∧ (r.compiler.run pass r.program r.backend).outcome = .error d := by
  unfold run
  split
  · rw [conclude_backend, conclude_outcome, hx]
    obtain h | ⟨d, t, hd, h⟩ := h
    · left
      unfold Unrefused after Compiled.emitter at h
      unfold emit
      generalize x { (r.compiler.log _).session with backend := r.backend } = result at h
      cases result <;> exact h
    · refine Or.inr ⟨d, hd, ?_⟩
      unfold Compiled.emitter at h
      unfold emit
      rw [h]
  · exact Or.inl rfl

theorem Compiler.runAll_early_backend (c : Compiler) (program : DeclList) (b : β) :
    (c.runAll program b [.register, .check]).backend = b := by
  have hrun : ∀ (c : Compiler) (program : DeclList) (b : β) (pass : Pass),
      pass = .register ∨ pass = .check → (c.run pass program b).backend = b := by
    rintro c program b pass (rfl | rfl) <;> unfold run <;> split
    · exact conclude_backend _ _
    · rfl
    · exact conclude_backend _ _
    · rfl
  cases ho : (c.run .register program b).outcome with
  | error d => rw [runAll_of_error _ ho, hrun c program b .register (Or.inl rfl)]
  | ok _ =>
    rw [runAll_of_ok _ ho]
    have hcheck := hrun (c.run .register program b).compiler (c.run .register program b).program
      (c.run .register program b).backend .check (Or.inr rfl)
    cases ho' : ((c.run .register program b).compiler.run .check (c.run .register program b).program
      (c.run .register program b).backend).outcome with
    | error d =>
      rw [runAll_of_error _ ho', hcheck]
      exact hrun c program b .register (Or.inl rfl)
    | ok _ =>
      rw [runAll_of_ok _ ho']
      exact hcheck.trans (hrun c program b .register (Or.inl rfl))

def Compiler.Reports (c : Compiler) (program : DeclList) (w : Watched β) (passes : List Pass) : Prop :=
  (c.runAll program w passes).backend.refusals = [] ∨
    ∃ path, c.RefusedIn program w path ∧
      (c.runAll program w passes).outcome = .error (Refusal.report path)

theorem Compiler.Reports.concat {c : Compiler} {program : DeclList} {w : Watched β}
    {passes : List Pass} (h : c.Reports program w passes) (pass : Pass)
    {x : DeclList → PassM (Watched β) Unit}
    (hx : ∀ (c : Compiler) program w, c.perform pass program w = c.emit (x program) program w)
    (hpass : ∀ r, c.runAll program w passes = r → r.outcome = .ok () →
      Unrefused (x r.program) (r.emitter pass) ∨ ∃ d t, (∃ path, c.RefusedIn program w path ∧
        d = Refusal.report path) ∧ x r.program (r.emitter pass) = .error d t) :
    c.Reports program w (passes ++ [pass]) := by
  unfold Reports at h ⊢
  cases ho : (c.runAll program w passes).outcome with
  | error d =>
    rw [runAll_append_of_error _ ho]
    exact h
  | ok _ =>
    rw [ho] at h
    obtain h | ⟨path, -, h⟩ := h
    · rw [runAll_append_of_ok _ ho, runAll_singleton]
      obtain hrun | ⟨_, ⟨path, hin, rfl⟩, he⟩ :=
        run_refused (c.runAll program w passes) (fun c => hx c _ _) (hpass _ rfl ho)
      · exact Or.inl (hrun.trans h)
      · exact Or.inr ⟨path, hin, he⟩
    · cases h

/-- A watched compilation that met a refusal ended there, with the report of the place. -/
theorem Compiler.compile_reports (c : Compiler) (program : DeclList) (b : β) :
    c.Reports program (⟨b, []⟩ : Watched β) [.register, .check, .emit, .emitData] := by
  have hearly : c.Reports program (⟨b, []⟩ : Watched β) [.register, .check] :=
    Or.inl (congrArg Watched.refusals (c.runAll_early_backend program _))
  have hemit := hearly.concat .emit (fun _ _ _ => rfl) fun r hr ho =>
    (DeclList.emitFrom_refused 0 r.program (r.emitter .emit)).imp_right
      fun ⟨path, t, hin, _, he⟩ => ⟨_, t, ⟨path, .code hr ho hin, rfl⟩, he⟩
  exact hemit.concat .emitData (fun _ _ _ => rfl) fun r hr ho =>
    (DeclList.emitData_refused r.program (r.emitter .emitData)).imp_right
      fun ⟨d, t, hin, he⟩ => ⟨_, t, ⟨[d], .data hr ho hin, rfl⟩, he⟩

/-- A refused item ends the compilation with the report of its place. The report is the plain one, without
position and file, exactly if the item belongs to no field list; otherwise the structs around it have
stamped it. -/
theorem refusal_reported (c : Compiler) (program : DeclList) (b : β)
    (h : (c.compile program (⟨b, []⟩ : Watched β)).backend.refusals ≠ []) :
    ∃ path, c.RefusedIn program (⟨b, []⟩ : Watched β) path ∧
      (c.compile program b).outcome = .error (Refusal.report path) ∧
      (Refusal.report path).kind = .backendFailed ∧
      (Refusal.report path).message = "translation failed" ∧
      (Refusal.report path = .backendFailed ↔ ∀ d ∈ path.tail, d.isStruct = false) := by
  obtain hnone | ⟨path, hin, he⟩ := c.compile_reports program b
  · exact absurd hnone h
  · obtain hstep | ⟨_, -, -, hlost⟩ := c.runAll_follows Watched.simulation program
      (show (⟨b, []⟩ : Watched β).backend = b from rfl) [.register, .check, .emit, .emitData]
    · exact ⟨path, hin, hstep.outcome.symm.trans he, rfl, rfl, report_eq_backendFailed⟩
    · exact hlost.elim

end

def clashingField : DeclList :=
  [some (.var {} { ident := "x", tag := .int, kind := .global }),
    some (.struct { pos := ⟨3, 1⟩, file := some "main.bb" } { ident := "S" }
      [some (.array { pos := ⟨4, 2⟩ } { ident := "x", tag := .int, kind := .global, dims := [] })])]

theorem refusal_reported_clashingField :
    (({} : Compiler).compile clashingField (⟨.empty false, []⟩ : Watched Listing)).backend.refusals =
      [.labelRedefined "_vx"] ∧
    ∃ path, ({} : Compiler).RefusedIn clashingField (⟨.empty false, []⟩ : Watched Listing) path ∧
      Refusal.report path = { Diagnostic.backendFailed with pos := some ⟨3, 1⟩, file := some "main.bb" } ∧
      ¬ ∀ d ∈ path.tail, d.isStruct = false := by
  have hrefused : (({} : Compiler).compile clashingField
      (⟨.empty false, []⟩ : Watched Listing)).backend.refusals = [.labelRedefined "_vx"] := by
    decide +kernel
  have hends : (({} : Compiler).compile clashingField (Listing.empty false)).outcome =
      .error { Diagnostic.backendFailed with pos := some ⟨3, 1⟩, file := some "main.bb" } := by
    rfl
  refine ⟨hrefused, ?_⟩
  obtain ⟨path, hin, he, -, -, hplain⟩ := refusal_reported ({} : Compiler) clashingField
    (Listing.empty false) (by rw [hrefused]; exact List.cons_ne_nil _ _)
  have hreport := Except.error.inj (he.symm.trans hends)
  refine ⟨path, hin, hreport, fun hstruct => ?_⟩
  rw [hplain.mpr hstruct] at hreport
  cases hreport

end UnitCompiler
