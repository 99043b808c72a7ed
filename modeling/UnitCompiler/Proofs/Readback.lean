import UnitCompiler.Proofs.Yields

namespace UnitCompiler

open Context Emitter

variable {c : Context} {frame : Option Frame} {debug : Bool}

/-- A value is computed from the variable that it names, if it names one. -/
theorem Value.emit_yields (v : Value) :
    Yields c frame debug (v.emit : EmitM Tape Ir) fun code es =>
      Touches c frame [] es ∧ List.Forall₂ (Binding.StoredAt c frame) v.accesses code.places := by
  have hnone : Touches c frame [] [] := touches_of_data (by nofun)
  induction v with
  | const lit ty =>
    cases lit with
    | string text =>
      refine (yields_freshLabel (p := fun _ es => es = []) fun _ => rfl).bind ?_
      rintro label _ rfl
      refine (yields_send (p := fun _ es => es = [.string text label]) rfl).bind ?_
      rintro _ _ rfl
      refine yields_pure ⟨touches_of_data ?_, ?_⟩
      · intro e he
        obtain rfl : e = .string text label := by simpa using he
        exact ⟨rfl, rfl⟩
      · simp [Value.accesses, Ir.places, Ir.placesOfAll]
    | int | float | null => exact yields_pure ⟨hnone, by simp [Value.accesses, Ir.places]⟩
  | var env name ty =>
    refine yields_locate fun place hplace => ⟨hnone, ?_⟩
    rw [location_places hplace]
    exact .cons hplace .nil
  | new ty label => exact yields_pure ⟨hnone, by simp [Value.accesses, Ir.places, Ir.placesOfAll]⟩
  | converted inner source target ih =>
    refine ih.bind fun code es h => yields_pure ?_
    rw [List.append_nil, Value.places_conversion]
    exact h

theorem Variable.storage_data (v : Variable) : ∀ e ∈ v.storage, e.isPlain = true ∧ e.places = [] := by
  intro e he
  unfold Variable.storage at he
  split at he
  · simp only [List.mem_cons, List.not_mem_nil, or_false] at he
    obtain rfl | rfl := he <;> exact ⟨rfl, rfl⟩
  · cases he

theorem Variable.emit_yields (v : Variable) :
    Yields c frame debug (v.emit : EmitM Tape Unit) fun _ es =>
      v.storage <+: es ∧ Touches c frame v.accesses es := by
  have hstorage : Touches c frame [] v.storage := touches_of_data v.storage_data
  have hquiet : Yields c frame debug (pure () : EmitM Tape Unit) fun _ es =>
      v.storage <+: v.storage ++ es ∧ Touches c frame [] (v.storage ++ es) := by
    refine yields_pure ?_
    rw [List.append_nil]
    exact ⟨List.prefix_refl _, hstorage⟩
  unfold Variable.emit Variable.accesses
  refine (yields_sendAll (p := fun _ es => es = v.storage) rfl).bind ?_
  rintro _ _ rfl
  rcases v.registration with _ | ⟨env, _ | init⟩
  · exact hquiet
  · exact hquiet
  · refine init.emit_yields.bind fun code es hcode => ?_
    refine (yields_locate (p := fun place es => Binding.StoredAt c frame ⟨env, v.ident⟩ place ∧
      es = []) fun place hplace => ⟨hplace, rfl⟩).bind ?_
    rintro place _ ⟨hplace, rfl⟩
    refine yields_send ⟨List.prefix_append _ _, ?_⟩
    have hstore : Touches c frame (⟨env, v.ident⟩ :: init.accesses) [.code (.store place code)] := by
      apply touches_code
      rw [Ir.places, location_places hplace]
      exact .cons hplace hcode.2
    exact hstorage.append (hcode.1.append hstore)

theorem ArrayDecl.emit_yields (v : ArrayDecl) :
    Yields c frame debug (v.emit : EmitM Tape Unit) fun _ es => Touches c frame [] es := by
  refine yields_get fun s _ => ?_
  dsimp only
  split
  · exact yields_fail _
  · split
    · split
      · exact yields_fail _
      · refine (yields_ofExcept (p := fun _ es => es = []) fun _ _ => rfl).bind ?_
        rintro element _ rfl
        refine yields_sendAll (touches_of_data ?_)
        intro e he
        unfold ArrayDecl.storage at he
        split at he
        · simp only [List.nil_append, List.cons_append, List.mem_cons, List.not_mem_nil, or_false] at he
          obtain rfl | rfl | rfl | rfl | rfl := he <;> exact ⟨rfl, rfl⟩
        · simp only [List.nil_append, List.append_nil, List.mem_cons, List.not_mem_nil, or_false] at he
          obtain rfl | rfl | rfl | rfl := he <;> exact ⟨rfl, rfl⟩
    · exact yields_fail _

theorem DataItem.emit_yields (d : DataItem) :
    Yields c frame debug (d.emit : EmitM Tape Unit) fun _ es => Touches c frame [] es := by
  unfold DataItem.emit DataItem.record
  cases d.constant with
  | none => exact (yields_fail _ (p := fun _ _ => False)).bind fun _ _ h => h.elim
  | some f =>
    refine (yields_pure (p := fun _ es => es = []) rfl).bind ?_
    rintro f _ rfl
    split
    · refine yields_send (touches_of_data ?_)
      intro e he
      simp only [List.nil_append, List.mem_singleton] at he
      rw [he]
      exact ⟨rfl, rfl⟩
    · exact yields_pure (touches_of_data (by nofun))

theorem DataItem.emitData_yields (d : DataItem) :
    Yields c frame debug (d.emitData : EmitM Tape Unit) fun _ es => Touches c frame [] es := by
  unfold DataItem.emitData DataItem.record
  cases d.constant with
  | none => exact (yields_fail _ (p := fun _ _ => False)).bind fun _ _ h => h.elim
  | some f =>
    refine (yields_pure (p := fun _ es => es = []) rfl).bind ?_
    rintro f _ rfl
    split
    · refine yields_sendAll (touches_of_data ?_)
      simp [Emission.isPlain, Emission.places, Emission.trees]
    · refine yields_sendAll (touches_of_data ?_)
      simp [Emission.isPlain, Emission.places, Emission.trees]
    · refine yields_sendAll (touches_of_data ?_)
      simp [Emission.isPlain, Emission.places, Emission.trees]
    · exact yields_fail _

theorem StructHead.emit_yields (h : StructHead) :
    Yields c frame debug (h.emit : EmitM Tape Unit) fun _ es => Touches c frame [] es := by
  refine yields_get fun s _ => ?_
  dsimp only
  split
  · exact yields_fail _
  · split
    · exact yields_fail _
    · refine (yields_ofExcept (p := fun _ es => es = []) fun _ _ => rfl).bind ?_
      rintro descriptors _ rfl
      refine (yields_freshLabel (p := fun _ es => es = []) fun _ => rfl).bind ?_
      rintro used _ rfl
      refine (yields_freshLabel (p := fun _ es => es = []) fun _ => rfl).bind ?_
      rintro free _ rfl
      refine yields_sendAll (touches_of_data ?_)
      have hpointers : ∀ e ∈ descriptors.map Emission.pointer, e.isPlain = true ∧ e.places = [] := by
        intro e he
        obtain ⟨label, -, rfl⟩ := List.mem_map.mp he
        exact ⟨rfl, rfl⟩
      have hhead : ∀ label, ∀ e ∈ StructHead.listHead label, e.isPlain = true ∧ e.places = [] := by
        simp [StructHead.listHead, Emission.isPlain, Emission.places, Emission.trees]
      simp only [List.nil_append, List.forall_mem_append]
      refine ⟨⟨⟨⟨⟨?_, hhead used⟩, hhead free⟩, ?_⟩, hpointers⟩, hpointers⟩
      · simp [Emission.isPlain, Emission.places, Emission.trees]
      · simp [Emission.isPlain, Emission.places, Emission.trees]

theorem Decl.emit_yields_leaf {d : Decl} (h : d.isLeaf = true) :
    Yields c frame debug (d.emit : EmitM Tape Unit) fun _ es => Touches c frame d.accesses es := by
  cases d with
  | var site v =>
    rw [Decl.emit]
    exact v.emit_yields.mono fun _ _ h => h.2
  | array site v =>
    rw [Decl.emit]
    exact v.emit_yields
  | data site d =>
    rw [Decl.emit]
    exact d.emit_yields
  | struct | function => cases h

def Stmt.AreFlat (body : List Stmt) : Prop :=
  ∀ d, .declare d ∈ Stmt.atomsOfAll body → d.isLeaf = true

mutual

theorem Stmt.emit_yields : ∀ stmt : Stmt, (∀ d, .declare d ∈ stmt.atoms → d.isLeaf = true) →
    Yields c frame debug (stmt.emit : EmitM Tape Unit) fun _ es =>
      Touches c frame (stmt.atoms.flatMap Stmt.accesses) es
  | .declare d, hflat => by
    rw [Stmt.emit, Stmt.atoms, List.flatMap_singleton]
    refine (Decl.emit_yields_leaf (hflat d ?_)).adaptExcept
    rw [Stmt.atoms]
    exact List.mem_singleton_self _
  | .block body span, hflat => by
    rw [Stmt.atoms] at hflat ⊢
    rw [Stmt.emit]
    exact Stmt.emitAll_yields body hflat
  | .goto name span none, _ | .label name span none, _ => by
    rw [Stmt.emit]
    exact yields_fail _
  | .goto name span (some env), _ => by
    rw [Stmt.emit, Stmt.atoms]
    refine yields_get fun s _ => yields_send (touches_code ?_)
    simp [Stmt.accesses, Ir.places]
  | .label name span (some env), _ => by
    rw [Stmt.emit, Stmt.atoms]
    refine yields_get fun s _ => yields_send (touches_of_data ?_)
    simp [Emission.isPlain, Emission.places, Emission.trees]
  | .eval e none, _ => by
    rw [Stmt.emit]
    exact yields_fail _
  | .eval e (some value), _ => by
    rw [Stmt.emit, Stmt.atoms, List.flatMap_singleton]
    refine value.emit_yields.bind fun code es h => yields_send ?_
    have haccesses : Stmt.accesses (.eval e (some value)) = value.accesses := List.append_nil _
    rw [haccesses]
    exact h.1.append (touches_code h.2)

theorem Stmt.emitAll_yields : ∀ body : List Stmt, Stmt.AreFlat body →
    Yields c frame debug (Stmt.emitAll body : EmitM Tape Unit) fun _ es =>
      Touches c frame ((Stmt.atomsOfAll body).flatMap Stmt.accesses) es
  | [], _ => by
    rw [Stmt.emitAll]
    exact yields_pure (touches_of_data (by nofun))
  | stmt :: rest, hflat => by
    unfold Stmt.AreFlat at hflat
    rw [Stmt.atomsOfAll] at hflat ⊢
    rw [Stmt.emitAll, List.flatMap_append]
    have hhere := Stmt.emit_yields stmt fun d hd => hflat d (List.mem_append_left _ hd)
    have hrest := Stmt.emitAll_yields rest fun d hd => hflat d (List.mem_append_right _ hd)
    exact hhere.adaptExcept.bind fun _ es h => hrest.mono fun _ es' h' => h.append h'

end

namespace FunctionHead

def debugItems (f : FunctionHead) (env : ScopeId) (name : String) : Bool → List Emission
  | true => [.string f.ident name,
      .code (.call Symbol.debugEnter [.framePointer, .const (Int32.ofNat env), .global name])]
  | false => []

/-- The items of a function around those of its body. The debugger finds the name of the function at the
label `name`. -/
def items (f : FunctionHead) (c : Context) (debug : Bool) (env : ScopeId) (name : String)
    (body : List Emission) : List Emission :=
  let frame := Frame.layout c env
  .enter (Symbol.function f.ident) frame.size ::
    ((frame.entryCode c.types).toList.map Emission.code ++ f.debugItems env name debug ++ body ++
      [.label (c.exitSymbol env), .leave (leaveCode frame c.types debug) frame.argBytes])

theorem emitDebugEnter_yields (f : FunctionHead) (env : ScopeId) :
    Yields c frame debug (f.emitDebugEnter env : EmitM Tape Unit) fun _ es =>
      ∃ name, es = f.debugItems env name debug := by
  refine yields_get fun s hs => ?_
  have hdebug : Backend.debug s.backend = debug := hs.debug
  rw [hdebug]
  cases debug with
  | false => exact yields_pure ⟨"", rfl⟩
  | true =>
    refine (yields_freshLabel (p := fun _ es => es = []) fun _ => rfl).bind ?_
    rintro name _ rfl
    exact yields_sendAll ⟨name, rfl⟩

theorem emitEnter_yields (f : FunctionHead) (env : ScopeId) (inner : Frame) :
    Yields c frame debug (f.emitEnter env inner : EmitM Tape Unit) fun _ es =>
      ∃ name, es = .enter (Symbol.function f.ident) inner.size ::
        ((inner.entryCode c.types).toList.map Emission.code ++ f.debugItems env name debug) := by
  refine yields_get fun s hs => ?_
  dsimp only
  rw [hs.context.types]
  refine (yields_send (p := fun _ es => es = [.enter (Symbol.function f.ident) inner.size]) rfl).bind ?_
  rintro _ _ rfl
  refine (yields_sendAll (p := fun _ es =>
    es = (inner.entryCode c.types).toList.map Emission.code) rfl).bind ?_
  rintro _ _ rfl
  refine (f.emitDebugEnter_yields env).mono ?_
  rintro _ _ ⟨name, rfl⟩
  exact ⟨name, rfl⟩

theorem emitLeave_yields (env : ScopeId) (inner : Frame) :
    Yields c frame debug (FunctionHead.emitLeave env inner : EmitM Tape Unit) fun _ es =>
      es = [.label (c.exitSymbol env), .leave (leaveCode inner c.types debug) inner.argBytes] := by
  refine yields_get fun s hs => ?_
  dsimp only
  split
  · exact yields_fail _
  · have hexit : s.context.exitSymbol env = c.exitSymbol env := by
      rw [hs.context.eq]
      rfl
    rw [hexit, hs.context.types]
    refine (yields_send (p := fun _ es => es = [.label (c.exitSymbol env)]) rfl).bind ?_
    rintro _ _ rfl
    refine yields_get fun t ht => yields_send ?_
    have hdebug : Backend.debug t.backend = debug := ht.debug
    rw [hdebug]
    rfl

theorem emit_yields (f : FunctionHead) {runBody : EmitM Tape Unit}
    {p : ScopeId → List Emission → Prop}
    (hrun : ∀ env, Yields c (some (Frame.layout c env)) debug runBody fun _ es => p env es) :
    Yields c frame debug (f.emit runBody) fun _ es =>
      ∃ env name body, f.env = some env ∧ p env body ∧ es = f.items c debug env name body := by
  refine yields_get fun s hs => ?_
  dsimp only
  cases henv : f.env with
  | none => exact yields_fail _
  | some env =>
    have hlayout : Frame.layout s.context env = Frame.layout c env := by
      rw [hs.context.eq]
      rfl
    dsimp only
    rw [hlayout]
    refine (f.emitEnter_yields env _).bind ?_
    rintro _ _ ⟨name, rfl⟩
    refine (hrun env).withFrame.bind fun _ body hbody => ?_
    refine (emitLeave_yields env _).mono ?_
    rintro _ _ rfl
    refine ⟨env, name, body, rfl, hbody, ?_⟩
    simp only [items, List.cons_append, List.append_assoc]

end FunctionHead

def Decl.IsFlat : Decl → Prop
  | .struct _ _ fields => ∀ d ∈ fields.filterMap id, d.isLeaf = true
  | .function _ _ _ body => Stmt.AreFlat body
  | .var _ _ | .data _ _ | .array _ _ => True

def Decl.Block (c : Context) (debug : Bool) : Decl → List Emission → Prop
  | .function _ head _ body, es => ∃ env name inner, head.env = some env ∧
      Touches c (some (Frame.layout c env)) ((Stmt.atomsOfAll body).flatMap Stmt.accesses) inner ∧
      es = head.items c debug env name inner
  | .var _ v, es => v.storage <+: es ∧ Touches c none v.accesses es
  | .struct _ _ _, es | .data _ _, es | .array _ _, es => ∃ bs, Touches c none bs es

theorem DeclList.emitFrom_yields {block : Decl → List Emission → Prop} {seq : DeclList}
    (h : ∀ d ∈ seq.filterMap id, Yields c frame debug (d.emit : EmitM Tape Unit) fun _ es => block d es)
    (index : Nat) :
    Yields c frame debug (DeclList.emitFrom index seq : PassM Tape Unit) fun _ es =>
      ∃ blocks, List.Forall₂ block (seq.filterMap id) blocks ∧ es = blocks.flatten := by
  induction seq generalizing index with
  | nil =>
    rw [DeclList.emitFrom]
    exact yields_pure ⟨[], .nil, rfl⟩
  | cons slot rest ih =>
    cases slot with
    | none =>
      rw [DeclList.emitFrom]
      refine (yields_log (p := fun _ es => es = []) rfl).bind ?_
      rintro _ _ rfl
      exact ih h (index + 1)
    | some d =>
      obtain ⟨hd, hrest⟩ := List.forall_mem_cons.mp h
      rw [DeclList.emitFrom]
      refine (yields_log (p := fun _ es => es = []) rfl).bind ?_
      rintro _ _ rfl
      refine (hd.guarded .emit d).bind fun _ es hes => ?_
      refine (ih hrest (index + 1)).mono ?_
      rintro _ _ ⟨blocks, hblocks, rfl⟩
      exact ⟨es :: blocks, .cons hes hblocks, rfl⟩

theorem touches_flatten {ds : List Decl} {blocks : List (List Emission)}
    (h : List.Forall₂ (fun d es => Touches c frame d.accesses es) ds blocks) :
    Touches c frame (ds.flatMap Decl.accesses) blocks.flatten := by
  induction h with
  | nil => exact touches_of_data (by nofun)
  | cons hd _ ih => exact hd.append ih

/-- The fields of a struct come before its descriptor. -/
theorem Decl.emit_yields_struct {site : Site} {head : StructHead} {fields : List (Option Decl)}
    (h : ∀ d ∈ fields.filterMap id, d.isLeaf = true) :
    Yields c frame debug ((Decl.struct site head fields).emit : EmitM Tape Unit) fun _ es =>
      ∃ bs, Touches c frame bs es := by
  rw [Decl.emit]
  have hfields : Yields c frame debug (DeclList.emitFrom 0 fields : PassM Tape Unit) _ :=
    DeclList.emitFrom_yields (fun d hd => Decl.emit_yields_leaf (h d hd)) 0
  refine hfields.adaptExcept.bind ?_
  rintro _ _ ⟨blocks, hblocks, rfl⟩
  exact head.emit_yields.mono fun _ es hes => ⟨_, (touches_flatten hblocks).append hes⟩

theorem Decl.emit_yields {d : Decl} (h : d.IsFlat) :
    Yields c none debug (d.emit : EmitM Tape Unit) fun _ es => d.Block c debug es := by
  cases d with
  | var site v =>
    rw [Decl.emit]
    exact v.emit_yields
  | data site d =>
    rw [Decl.emit]
    exact d.emit_yields.mono fun _ _ h => ⟨[], h⟩
  | array site v =>
    rw [Decl.emit]
    exact v.emit_yields.mono fun _ _ h => ⟨[], h⟩
  | struct site head fields => exact Decl.emit_yields_struct h
  | function site head params body =>
    rw [Decl.emit]
    exact head.emit_yields fun env => Stmt.emitAll_yields body h

theorem DeclList.emitData_yields (seq : DeclList) :
    Yields c frame debug (seq.emitData : PassM Tape Unit) fun _ es => Touches c frame [] es := by
  induction seq with
  | nil => exact yields_pure (touches_of_data (by nofun))
  | cons slot rest ih =>
    cases slot with
    | none => exact ih
    | some d =>
      have hd : Yields c frame debug (d.emitData : EmitM Tape Unit) fun _ es =>
          Touches c frame [] es := by
        cases d with
        | data site d => exact d.emitData_yields
        | var | function | struct | array => exact yields_pure (touches_of_data (by nofun))
      exact (hd.guarded .emitData d).bind fun _ es h => ih.mono fun _ es' h' => h.append h'

end UnitCompiler
