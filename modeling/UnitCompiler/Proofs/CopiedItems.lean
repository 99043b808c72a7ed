import UnitCompiler.Proofs.EmissionCopies
import UnitCompiler.Proofs.Lockstep

namespace UnitCompiler

open Context Emitter

section Leaves

variable {l : Shift} {live : TypeId → Prop} {c c' : Context} {start lo : Nat}

theorem Emitter.parallel_locate (h : Readable l live c c') {env : ScopeId} (henv : env < c.scopes.length)
    (name : String) :
    Parallel l c c' start lo (fun _ _ => True) some (locate env name : EmitM Tape Ir) (locate (l.env env) name) := by
  refine parallel_get fun s s' hs => parallel_ofExcept ?_
  rw [hs.left.eq, hs.right.eq]
  exact h.location henv hs.frame name

theorem Emission.tracks_generated {k hi : Nat} (hk : k ≤ hi) {lab : Nat → Nat} (text : String) :
    Tracks lab hi some [.string text (Symbol.generated k)] [.string text (Symbol.generated (lab k))] :=
  .of_plain [.generated k] (List.forall_mem_singleton.mpr rfl) (List.forall_mem_singleton.mpr rfl) rfl rfl
    (List.forall_mem_singleton.mpr fun _ hmem => by cases hmem; exact hk)

theorem Emitter.parallel_loadString (value : String) :
    Parallel l c c' start lo (fun _ _ => True) some (loadString value : EmitM Tape Ir) (loadString value) := by
  refine parallel_freshLabel fun k _ _ => ?_
  refine Parallel.bind (parallel_send fun hi _ hk => Emission.tracks_generated hk value) fun _ _ _ => ?_
  exact parallel_pure trivial

theorem Value.emit_parallel (h : Readable l live c c') (v : Value) (hv : ∀ m ∈ v.held, c.Has m) :
    Parallel l c c' start lo (fun _ _ => True) some (v.emit : EmitM Tape Ir) (v.shift l).emit := by
  induction v with
  | const lit ty =>
    cases lit with
    | string s => exact parallel_loadString s
    | int | float | null => exact parallel_pure trivial
  | var env name ty => exact parallel_locate h (hv (.scope env) List.mem_cons_self) name
  | new ty label => exact parallel_pure trivial
  | converted inner source target ih =>
    exact (ih hv).bind fun _ _ _ => parallel_pure trivial

theorem Variable.tracks_storage (v : Variable) {lab : Nat → Nat} (hi : Nat) :
    Emission.Tracks lab hi some v.storage v.storage := by
  unfold Variable.storage
  split
  · refine .of_plain [.global v.ident] ?_ ?_ rfl rfl (List.forall_mem_singleton.mpr nofun) <;>
      simp [Emission.isPlain]
  · exact .of_unlabelled (List.forall_mem_nil _) (List.forall_mem_nil _)

theorem Variable.emit_parallel (h : Readable l live c c') {v v' : Variable} (hident : v'.ident = v.ident)
    (hkind : v'.kind = v.kind) (hreg : v'.registration = v.registration.map (Registration.shift l))
    (hv : ∀ m ∈ (v.registration.map Registration.held).getD [], c.Has m) :
    Parallel l c c' start lo (fun _ _ => True) some (v.emit : EmitM Tape Unit) v'.emit := by
  have hstorage : v'.storage = v.storage := by
    unfold Variable.storage
    rw [hident, hkind]
  unfold Variable.emit
  rw [hstorage, hreg]
  refine Parallel.bind (parallel_sendAll fun hi _ _ => v.tracks_storage hi) fun _ _ _ => ?_
  cases hr : v.registration with
  | none => exact parallel_pure trivial
  | some r =>
    obtain ⟨env, init⟩ := r
    rw [hr] at hv
    obtain ⟨henv, hinit⟩ := List.forall_mem_cons.mp hv
    cases init with
    | none => exact parallel_pure trivial
    | some value =>
      rw [hident]
      refine (value.emit_parallel h hinit).bind fun _ _ _ => ?_
      exact (parallel_locate h henv v.ident).bind fun _ _ _ => parallel_code _ _

theorem DataItem.record_parallel {d d' : DataItem} (h : Option.Rel (DataConst.Copies l) d.constant d'.constant) :
    Parallel l c c' start lo (fun f f' => d.constant = some f ∧ f.Copies l f') some
      (d.record : EmitM Tape DataConst) d'.record := by
  unfold DataItem.record
  generalize d.constant = x at h ⊢
  generalize d'.constant = x' at h ⊢
  cases h with
  | none => exact parallel_fail _ _
  | some hf => exact parallel_pure ⟨rfl, hf⟩

theorem DataItem.emit_parallel {d d' : DataItem} (h : Option.Rel (DataConst.Copies l) d.constant d'.constant)
    (hd : ∀ m ∈ (d.constant.bind DataConst.label).toList.map Mention.label, c.Has m) :
    Parallel l c c' start lo (fun _ _ => True) some (d.emit : EmitM Tape Unit) d'.emit := by
  refine (DataItem.record_parallel h).bind fun f f' hf => ?_
  obtain ⟨hconst, hvalue, hlabel⟩ := hf
  obtain ⟨value, label⟩ := f
  obtain ⟨value', label'⟩ := f'
  cases hvalue
  rw [hconst] at hd
  cases hlabel with
  | none => cases value <;> exact parallel_pure trivial
  | some hmoves =>
    obtain ⟨k, rfl, rfl⟩ := hmoves
    have hk : k ≤ c.labels := hd (.label _) List.mem_cons_self k rfl
    cases value with
    | string text =>
      rw [← Shift.relabel_of_le hk start]
      exact parallel_send fun hi hle _ => Emission.tracks_generated (Nat.le_trans hk hle) text
    | int | float | null => exact parallel_pure trivial

theorem ArrayDecl.tracks_storage (v : ArrayDecl) {lab : Nat → Nat} (hi : Nat) :
    Emission.Tracks lab hi some v.storage v.storage := by
  unfold ArrayDecl.storage
  split
  · exact .of_plain [.global v.ident] (List.forall_mem_singleton.mpr rfl) (List.forall_mem_singleton.mpr rfl) rfl rfl
      (List.forall_mem_singleton.mpr nofun)
  · exact .of_unlabelled (List.forall_mem_nil _) (List.forall_mem_nil _)

theorem ArrayDecl.emit_parallel (h : Readable l live c c') {v v' : ArrayDecl} (hident : v'.ident = v.ident)
    (hkind : v'.kind = v.kind) (hty : v'.ty = v.ty.map l.ty)
    (hv : ∀ m ∈ v.ty.toList.map Mention.type, c.Has m) :
    Parallel l c c' start lo (fun _ _ => True) some (v.emit : EmitM Tape Unit) v'.emit := by
  have hstorage : v'.storage = v.storage := by
    unfold ArrayDecl.storage
    rw [hident, hkind]
  refine parallel_get fun s s' hs => ?_
  rw [hs.left.types, hs.right.types, hstorage, hty]
  cases hid : v.ty with
  | none => exact parallel_fail _ _
  | some ty =>
    rw [hid] at hv
    obtain ⟨t, ht⟩ := get?_of_lt (hv (.type ty) List.mem_cons_self)
    obtain ⟨t', ht', hmirror⟩ := h.types ht
    simp only [Option.map_some, ht, ht']
    cases hmirror with
    | int | float | string | struct | function | const => exact parallel_fail _ _
    | @array label label' element sizes hmoves =>
      dsimp only
      cases capacity? sizes with
      | none => exact parallel_fail _ _
      | some capacity =>
        have helement : element < c.types.size := h.sound.mem_types ht element List.mem_cons_self
        refine (parallel_ofExcept (h.descriptor helement)).bind fun d d' _ => parallel_sendAll fun hi hle _ => ?_
        obtain ⟨k, rfl, rfl⟩ := hmoves
        -- the label of the array was issued before the emission, so it is renumbered with the types
        obtain ⟨j, hj, hgen⟩ := h.issued _ (List.mem_of_getElem? ht) _ rfl
        obtain rfl := Symbol.generated_injective hgen
        have hhead : Emission.Tracks (l.relabel c.labels start) hi some
            [.align wordSize, .word RecordTag.arrayType.value (some (Symbol.generated k)),
              .word (Int32.ofNat capacity) none, .pointer d]
            [.align wordSize, .word RecordTag.arrayType.value (some (Symbol.generated (l.number k))),
              .word (Int32.ofNat capacity) none, .pointer d'] := by
          rw [← Shift.relabel_of_le hj start]
          refine .of_plain [.generated k] ?_ ?_ rfl rfl (List.forall_mem_singleton.mpr fun _ hmem => ?_)
          · simp [Emission.isPlain]
          · simp [Emission.isPlain]
          · cases hmem
            exact Nat.le_trans hj hle
        exact hhead.append (v.tracks_storage hi) (Nat.le_refl hi)

theorem StructHead.descriptors_alike (h : Readable l live c c') {fields fields' : Table}
    (hfields : fields.Mirrors l fields') (hlt : ∀ r ∈ fields.records, r.ty < c.types.size) :
    Alike (fun ds ds' => ds'.length = ds.length) (fields.records.mapM (fieldDescriptor c.types))
      (fields'.records.mapM (fieldDescriptor c'.types)) := by
  unfold Table.Mirrors at hfields
  generalize fields.records = rs at hfields hlt ⊢
  generalize fields'.records = rs' at hfields ⊢
  induction hfields with
  | nil => exact .ok rfl
  | cons hr _ ih =>
    obtain ⟨hty, hrest⟩ := List.forall_mem_cons.mp hlt
    rw [List.mapM_cons, List.mapM_cons]
    refine (h.fieldDescriptor hr hty).bind fun d d' _ => (ih hrest).bind fun ds ds' hds => .ok ?_
    rw [List.length_cons, List.length_cons, hds]

theorem StructHead.tracks_descriptor {lab : Nat → Nat} {hi used free : Nat} (hused : used ≤ hi) (hfree : free ≤ hi)
    (ident : String) (ds ds' : List String) :
    Emission.Tracks lab hi some
      ([.align wordSize, .word RecordTag.structType.value (some (Symbol.struct ident))] ++
        listHead (Symbol.generated used) ++ listHead (Symbol.generated free) ++
        [.word (Int32.ofNat ds.length) none] ++ ds.map Emission.pointer ++ ds.map Emission.pointer)
      ([.align wordSize, .word RecordTag.structType.value (some (Symbol.struct ident))] ++
        listHead (Symbol.generated (lab used)) ++ listHead (Symbol.generated (lab free)) ++
        [.word (Int32.ofNat ds'.length) none] ++ ds'.map Emission.pointer ++ ds'.map Emission.pointer) := by
  have hpointers : ∀ ds : List String, definedBy (ds.map Emission.pointer) = [] := by
    intro ds
    rw [definedBy, List.filterMap_map]
    exact List.filterMap_eq_nil_iff.mpr fun _ _ => rfl
  refine .of_plain [.struct ident, .generated used, .generated free] ?_ ?_ ?_ ?_ ?_
  · simp [listHead, Emission.isPlain, or_imp, forall_and]
  · simp [listHead, Emission.isPlain, or_imp, forall_and]
  · simp only [definedBy_append, hpointers, List.append_nil]
    rfl
  · simp only [definedBy_append, hpointers, List.append_nil]
    rfl
  · simp [Origin.number?, hused, hfree]

theorem StructHead.emit_parallel (h : Readable l live c c') {head head' : StructHead}
    (hident : head'.ident = head.ident) (hty : head'.ty = head.ty.map l.ty)
    (hlive : ∀ ty, head.ty = some ty → live ty) (hhead : ∀ m ∈ head.ty.toList.map Mention.type, c.Has m) :
    Parallel l c c' start lo (fun _ _ => True) some (head.emit : EmitM Tape Unit) head'.emit := by
  refine parallel_get fun s s' hs => ?_
  rw [hs.left.eq, hs.right.eq, hident, hty]
  cases hid : head.ty with
  | none => exact parallel_fail _ _
  | some ty =>
    rw [hid] at hhead
    obtain ⟨t, ht⟩ := get?_of_lt (hhead (.type ty) List.mem_cons_self)
    obtain ⟨t', ht', hmirror⟩ := h.types ht
    simp only [Option.map_some, Context.table?, ht, ht']
    cases hmirror with
    | int | float | string | array | function | const => exact parallel_fail _ _
    | @struct name fields fields' hfields =>
      have hlt : ∀ r ∈ fields.records, r.ty < c.types.size := fun r hr =>
        h.sound.mem_types ht r.ty (List.mem_flatMap.mpr ⟨r, hr, List.mem_cons_self⟩)
      dsimp only
      refine (parallel_ofExcept (StructHead.descriptors_alike h (hfields (hlive ty hid)) hlt)).bind
        fun ds ds' _ => ?_
      refine parallel_freshLabel fun used _ _ => parallel_freshLabel fun free _ hlt => ?_
      exact parallel_sendAll fun hi _ hle =>
        tracks_descriptor (Nat.le_trans (Nat.le_of_lt hlt) hle) hle head.ident ds ds'

end Leaves

section Functions

variable {l : Shift} {live : TypeId → Prop} {c c' : Context} {start lo : Nat}

theorem FunctionHead.emitDebugEnter_parallel {f f' : FunctionHead} (hident : f'.ident = f.ident)
    (env env' : ScopeId) :
    Parallel l c c' start lo (fun _ _ => True) some (f.emitDebugEnter env : EmitM Tape Unit)
      (f'.emitDebugEnter env') := by
  refine parallel_get fun s s' hs => ?_
  rw [show Backend.debug s'.backend = Backend.debug s.backend from hs.debug, hident]
  split
  · refine parallel_freshLabel fun k _ _ => parallel_sendAll fun hi _ hk => ?_
    refine .of_plain [.generated k] ?_ ?_ rfl rfl (List.forall_mem_singleton.mpr fun _ hmem => ?_)
    · simp [Emission.isPlain]
    · simp [Emission.isPlain]
    · cases hmem
      exact hk
  · exact parallel_pure trivial

/-- No function was open before, and one is afterwards. -/
theorem FunctionHead.emitEnter_parallel {f f' : FunctionHead} (hident : f'.ident = f.ident) (env env' : ScopeId)
    (frame frame' : Frame) :
    Parallel l c c' start lo (fun _ _ => True) (fun b => if b then none else some true)
      (f.emitEnter env frame : EmitM Tape Unit) (f'.emitEnter env' frame') := by
  have henter : ∀ hi, Emission.Tracks (l.relabel c.labels start) hi (fun b => if b then none else some true)
      [.enter (Symbol.function f.ident) frame.size] [.enter (Symbol.function f.ident) frame'.size] := by
    intro hi
    refine ⟨⟨[.function f.ident], rfl, rfl, List.forall_mem_singleton.mpr nofun⟩, fun b => ?_, fun b => ?_⟩
    · cases b <;> rfl
    · cases b
      · exact Or.inr rfl
      · exact Or.inl rfl
  have hcode : ∀ code : Option Ir, ∀ e ∈ code.toList.map Emission.code, e.isPlain = true ∧ e.defines? = none := by
    intro code e he
    obtain ⟨tree, -, rfl⟩ := List.mem_map.mp he
    exact ⟨rfl, rfl⟩
  have hlater : ∀ code code' : Option Ir, Parallel l c c' start lo (fun _ _ => True) some
      (sendAll (code.toList.map Emission.code) >>= fun _ => f.emitDebugEnter env : EmitM Tape Unit)
      (sendAll (code'.toList.map Emission.code) >>= fun _ => f'.emitDebugEnter env') := fun code code' =>
    Parallel.bind (parallel_sendAll fun _ _ _ => .of_unlabelled (hcode code) (hcode code')) fun _ _ _ =>
      FunctionHead.emitDebugEnter_parallel hident env env'
  refine parallel_get fun s s' hs => ?_
  rw [hident]
  refine ((parallel_send fun hi _ _ => henter hi).bind fun _ _ _ => hlater _ _).imp fun b => Or.inr ?_
  cases b <;> rfl

/-- The labels in a function have the number of the function in front. -/
theorem Context.Readable.jumpSymbols (h : Readable l live c c') {env : ScopeId} (hne : env ≠ root)
    (henv : env < c.scopes.length) : ∃ k ≤ c.labels,
      (c.exitSymbol env = (Origin.exit k).text ∧ c'.exitSymbol (l.env env) = (Origin.exit (l.number k)).text) ∧
      ∀ name, c.jumpSymbol env name = (Origin.jump k name).text ∧
        c'.jumpSymbol (l.env env) name = (Origin.jump (l.number k) name).text := by
  obtain ⟨k, hk, hsymbol, hsymbol'⟩ := h.symbol hne henv
  refine ⟨k, hk, ⟨?_, ?_⟩, fun name => ⟨?_, ?_⟩⟩
  · rw [exitSymbol, hsymbol, Origin.text]
  · rw [exitSymbol, hsymbol', Origin.text]
  · rw [jumpSymbol, hsymbol, Origin.text]
  · rw [jumpSymbol, hsymbol', Origin.text]

theorem Emission.tracks_label {o : Origin} {lab : Nat → Nat} {hi : Nat} (h : ∀ k ∈ o.number?, k ≤ hi) :
    Tracks lab hi some [.label o.text] [.label (o.renumber lab).text] :=
  .of_plain [o] (List.forall_mem_singleton.mpr rfl) (List.forall_mem_singleton.mpr rfl) rfl rfl
    (List.forall_mem_singleton.mpr h)

/-- The function that was open is closed. -/
theorem FunctionHead.emitLeave_parallel (h : Readable l live c c') {env : ScopeId} (hne : env ≠ root)
    (henv : env < c.scopes.length) (frame frame' : Frame) :
    Parallel l c c' start lo (fun _ _ => True) (fun b => if b then some false else none)
      (FunctionHead.emitLeave env frame : EmitM Tape Unit) (FunctionHead.emitLeave (l.env env) frame') := by
  obtain ⟨k, hk, ⟨hexit, hexit'⟩, -⟩ := h.jumpSymbols hne henv
  have hleave : ∀ teardown teardown' hi, Emission.Tracks (l.relabel c.labels start) hi
      (fun b => if b then some false else none)
      [.leave teardown frame.argBytes] [.leave teardown' frame'.argBytes] := by
    intro teardown teardown' hi
    refine ⟨⟨[], rfl, rfl, List.forall_mem_nil _⟩, fun b => ?_, fun b => ?_⟩
    · cases b <;> rfl
    · cases b
      · exact Or.inl rfl
      · exact Or.inr rfl
  refine parallel_get fun s s' hs => ?_
  -- the renumbering leaves the names of jump labels alone, so both sides miss the same one
  have hundefined : undefinedLabel? s'.context (l.env env) = undefinedLabel? s.context env := by
    rw [hs.left.eq, hs.right.eq]
    exact h.undefinedLabel? henv
  -- the exit label is numbered with the function, which is older than the emission
  have hlabel : s.context.exitSymbol env = (Origin.exit k).text := by
    rw [hs.left.eq]
    exact hexit
  have hlabel' : s'.context.exitSymbol (l.env env) = ((Origin.exit k).renumber (l.relabel c.labels start)).text := by
    rw [hs.right.eq, Origin.renumber, Shift.relabel_of_le hk]
    exact hexit'
  dsimp only
  rw [hundefined, hlabel, hlabel']
  cases undefinedLabel? s.context env with
  | some d => exact parallel_fail _ _
  | none =>
    refine Parallel.bind (parallel_send fun hi hle _ => Emission.tracks_label fun j hj => ?_) fun _ _ _ =>
      parallel_get fun t t' _ => parallel_send fun hi _ _ => hleave _ _ hi
    cases hj
    exact Nat.le_trans hk hle

theorem FunctionHead.emit_parallel (h : Readable l live c c') {f f' : FunctionHead} (hident : f'.ident = f.ident)
    (henv : f'.env = f.env.map l.env) (hne : ∀ env, f.env = some env → env ≠ root)
    (hf : ∀ m ∈ f.env.toList.map Mention.scope, c.Has m) {x x' : EmitM Tape Unit}
    (hx : Parallel l c c' start lo (fun _ _ => True) some x x') :
    Parallel l c c' start lo (fun _ _ => True) some (f.emit x) (f'.emit x') := by
  refine parallel_get fun s s' hs => ?_
  rw [henv]
  cases hid : f.env with
  | none => exact parallel_fail _ _
  | some env =>
    rw [hid] at hf
    have hlt : env < c.scopes.length := hf (.scope env) List.mem_cons_self
    have hlayout : (Frame.layout s.context env).Moved l (Frame.layout s'.context (l.env env)) := by
      rw [hs.left.eq, hs.right.eq]
      exact h.layout (hne env hid) hlt
    -- after the function no other one is open, as before it
    refine Parallel.imp (Parallel.bind (FunctionHead.emitEnter_parallel hident env (l.env env) _ _) fun _ _ _ =>
      (hx.withFrame hlayout).bind fun _ _ _ => FunctionHead.emitLeave_parallel h (hne env hid) hlt _ _) fun b => ?_
    cases b
    · exact Or.inr rfl
    · exact Or.inl rfl

theorem Stmt.emitLabel_parallel (h : Readable l live c c') {env : ScopeId} (hne : env ≠ root)
    (henv : env < c.scopes.length) (name : String) :
    Parallel l c c' start lo (fun _ _ => True) some
      (get >>= fun s => send (.label (s.context.jumpSymbol env name)) : EmitM Tape Unit)
      (get >>= fun s => send (.label (s.context.jumpSymbol (l.env env) name))) := by
  obtain ⟨k, hk, -, hjump⟩ := h.jumpSymbols hne henv
  refine parallel_get fun s s' hs => ?_
  have hlabel : s.context.jumpSymbol env name = (Origin.jump k name).text := by
    rw [hs.left.eq]
    exact (hjump name).1
  have hlabel' : s'.context.jumpSymbol (l.env env) name =
      ((Origin.jump k name).renumber (l.relabel c.labels start)).text := by
    rw [hs.right.eq, Origin.renumber, Shift.relabel_of_le hk]
    exact (hjump name).2
  rw [hlabel, hlabel']
  refine parallel_send fun hi hle _ => Emission.tracks_label fun j hj => ?_
  cases hj
  exact Nat.le_trans hk hle

end Functions

section Trees

variable {l : Shift} {live : TypeId → Prop} {c c' : Context} {start lo : Nat}

mutual

/-- A copy writes what the original writes, up to the move, and fails if it does. -/
theorem Decl.emit_parallel (h : Readable l live c c') : ∀ {d d' : Decl}, d.Copies l live d' →
    (∀ m ∈ d.held, c.Has m) →
    Parallel l c c' start lo (fun _ _ => True) some (d.emit : EmitM Tape Unit) d'.emit
  | .var _ v, _, hcopy, hd => by
    cases hcopy with
    | var hident hkind hreg =>
      rw [Decl.held] at hd
      exact Variable.emit_parallel h hident hkind hreg hd
  | .function _ head _ body, _, hcopy, hd => by
    cases hcopy with
    | function hident henv hne hbody =>
      rw [Decl.held, List.forall_mem_append] at hd
      rw [Decl.emit, Decl.emit]
      exact FunctionHead.emit_parallel h hident henv hne hd.1 (Stmt.emitAll_parallel h hbody hd.2)
  | .struct _ head fields, _, hcopy, hd => by
    cases hcopy with
    | struct hident hty hlive hfields =>
      rw [Decl.held, List.forall_mem_append] at hd
      rw [Decl.emit, Decl.emit]
      exact (DeclList.emitFrom_parallel h hfields hd.2 0 0).adaptExcept.bind fun _ _ _ =>
        StructHead.emit_parallel h hident hty hlive hd.1
  | .data _ d, _, hcopy, hd => by
    cases hcopy with
    | data hconst =>
      rw [Decl.held] at hd
      exact DataItem.emit_parallel hconst hd
  | .array _ v, _, hcopy, hd => by
    cases hcopy with
    | array hident hkind hty =>
      rw [Decl.held] at hd
      exact ArrayDecl.emit_parallel h hident hkind hty hd

theorem DeclList.emitFrom_parallel (h : Readable l live c c') : ∀ {seq seq' : List (Option Decl)},
    DeclList.Copies l live seq seq' → (∀ m ∈ DeclList.held seq, c.Has m) → ∀ index index' : Nat,
    Parallel l c c' start lo (fun _ _ => True) some (DeclList.emitFrom index seq : PassM Tape Unit)
      (DeclList.emitFrom index' seq')
  | [], _, hcopy, _, index, index' => by
    cases hcopy
    rw [DeclList.emitFrom, DeclList.emitFrom]
    exact parallel_pure trivial
  | none :: rest, _, hcopy, hseq, index, index' => by
    cases hcopy with
    | skip hrest =>
      rw [DeclList.held] at hseq
      rw [DeclList.emitFrom, DeclList.emitFrom]
      exact (parallel_log _ _).bind fun _ _ _ => DeclList.emitFrom_parallel h hrest hseq _ _
  | some d :: rest, _, hcopy, hseq, index, index' => by
    cases hcopy with
    | cons hd hrest =>
      rw [DeclList.held, List.forall_mem_append] at hseq
      rw [DeclList.emitFrom, DeclList.emitFrom]
      exact (parallel_log _ _).bind fun _ _ _ => ((Decl.emit_parallel h hd hseq.1).guarded _ _ _).bind fun _ _ _ =>
        DeclList.emitFrom_parallel h hrest hseq.2 _ _

theorem Stmt.emit_parallel (h : Readable l live c c') : ∀ {stmt stmt' : Stmt}, stmt.Copies l live stmt' →
    (∀ m ∈ stmt.held, c.Has m) →
    Parallel l c c' start lo (fun _ _ => True) some (stmt.emit : EmitM Tape Unit) stmt'.emit
  | .declare d, _, hcopy, hstmt => by
    cases hcopy with
    | declare hd =>
      rw [Stmt.held] at hstmt
      rw [Stmt.emit, Stmt.emit]
      exact (Decl.emit_parallel h hd hstmt).adaptExcept
  | .block body _, _, hcopy, hstmt => by
    cases hcopy with
    | block hbody =>
      rw [Stmt.held] at hstmt
      rw [Stmt.emit, Stmt.emit]
      exact Stmt.emitAll_parallel h hbody hstmt
  | .goto name _ env, _, hcopy, hstmt => by
    cases hcopy with
    | goto hne =>
      cases env with
      | none =>
        -- an unchecked jump is refused on both sides
        rw [Option.map_none, Stmt.emit]
        exact parallel_fail _ _
      | some env =>
        rw [Option.map_some, Stmt.emit, Stmt.emit]
        exact parallel_get fun s s' hs => parallel_code _ _
  | .label name _ env, _, hcopy, hstmt => by
    cases hcopy with
    | label hne =>
      cases env with
      | none =>
        rw [Option.map_none, Stmt.emit]
        exact parallel_fail _ _
      | some env =>
        rw [Stmt.held] at hstmt
        rw [Option.map_some, Stmt.emit, Stmt.emit]
        exact Stmt.emitLabel_parallel h (hne env rfl) (hstmt (.scope env) List.mem_cons_self) name
  | .eval _ checked, _, hcopy, hstmt => by
    cases hcopy with
    | eval =>
      cases checked with
      | none =>
        rw [Option.map_none, Stmt.emit]
        exact parallel_fail _ _
      | some value =>
        rw [Stmt.held] at hstmt
        rw [Option.map_some, Stmt.emit, Stmt.emit]
        exact (value.emit_parallel h hstmt).bind fun _ _ _ => parallel_code _ _

theorem Stmt.emitAll_parallel (h : Readable l live c c') : ∀ {body body' : List Stmt},
    Stmt.CopiesAll l live body body' → (∀ m ∈ Stmt.heldByAll body, c.Has m) →
    Parallel l c c' start lo (fun _ _ => True) some (Stmt.emitAll body : EmitM Tape Unit) (Stmt.emitAll body')
  | [], _, hcopy, _ => by
    cases hcopy
    rw [Stmt.emitAll]
    exact parallel_pure trivial
  | stmt :: rest, _, hcopy, hbody => by
    cases hcopy with
    | cons hstmt hrest =>
      rw [Stmt.heldByAll, List.forall_mem_append] at hbody
      rw [Stmt.emitAll, Stmt.emitAll]
      exact (Stmt.emit_parallel h hstmt hbody.1).adaptExcept.bind fun _ _ _ => Stmt.emitAll_parallel h hrest hbody.2

end

end Trees

end UnitCompiler
