import UnitCompiler.Proofs.DebugErasure

namespace UnitCompiler

open Context Emitter

section Labels

variable {base : Context}

theorem Context.Knows.of_forall_ne {label : String} (h : ∀ n, label ≠ Symbol.generated n) : base.Knows label :=
  Symbol.upTo_of_forall_ne h _

/-- The label of an array type was given out before emission. -/
theorem Context.Issued.get? (h : Issued base) {id element : TypeId} {label : String} {sizes : List UInt32}
    (hget : base.types.get? id = some (.array label element sizes)) : base.Knows label :=
  let ⟨_, hk, heq⟩ := h _ (List.mem_of_getElem? hget) label rfl
  heq ▸ Symbol.upTo_generated hk

theorem Context.Issued.descriptor (h : Issued base) {id : TypeId} {label : String}
    (hlabel : Symbol.descriptor base.types id = .ok label) : base.Knows label := by
  unfold Symbol.descriptor at hlabel
  split at hlabel
  · cases hlabel
  · cases hlabel
    exact .of_forall_ne (Symbol.provided_ne_generated (by decide))
  · cases hlabel
    exact .of_forall_ne (Symbol.provided_ne_generated (by decide))
  · cases hlabel
    exact .of_forall_ne (Symbol.provided_ne_generated (by decide))
  · cases hlabel
    exact .of_forall_ne (Symbol.struct_ne_generated _)
  · rename_i hget
    cases hlabel
    exact h.get? hget
  · cases hlabel

theorem Context.Issued.fieldDescriptor (h : Issued base) {r : Record} {label : String}
    (hlabel : StructHead.fieldDescriptor base.types r = .ok label) : base.Knows label := by
  unfold StructHead.fieldDescriptor at hlabel
  cases hd : Symbol.descriptor base.types r.ty with
  | error d => rw [hd] at hlabel; cases hlabel
  | ok label' =>
    rw [hd] at hlabel
    cases hlabel
    exact h.descriptor hd

def Ir.Renumbered (lab : Nat → Nat) (code' code : Ir) : Prop :=
  code' = code.renumber lab ∧ (Emission.code code').isOrdinary = true

theorem Ir.Renumbered.call {lab : Nat → Nat} {f : String} (hf : f ≠ Symbol.debugEnter) (args : List Ir) :
    (Ir.call f (Ir.renumberAll lab args)).Renumbered lab (.call f args) :=
  ⟨by rw [Ir.renumber], by simpa [Emission.isOrdinary] using hf⟩

/-- Where a variable is stored does not depend on generated labels. -/
theorem location_renumbered {c : Context} {frame : Option Frame} {env : ScopeId} {name : String} {place : Ir}
    (h : Emitter.location c frame env name = .ok place) (lab : Nat → Nat) : place.Renumbered lab place := by
  unfold Emitter.location at h
  split at h
  · cases h
  · split at h
    · cases h
      refine ⟨?_, rfl⟩
      rw [Ir.wordAt, Ir.renumber, Ir.renumber,
        Symbol.renumber_of_forall_ne (Symbol.global_ne_generated name)]
    · split at h
      · split at h
        · cases h
          exact ⟨rfl, rfl⟩
        · cases h
      · cases h

theorem Ir.Renumbered.conversion {lab : Nat → Nat} {code' code : Ir} (h : code'.Renumbered lab code)
    (source target : TypeId) :
    (Value.conversion source target code').Renumbered lab (Value.conversion source target code) := by
  obtain ⟨rfl, hordinary⟩ := h
  constructor
  · unfold Value.conversion
    split_ifs <;> simp [Ir.renumber, Ir.renumberAll]
  · unfold Value.conversion
    split_ifs
    case neg => exact hordinary
    all_goals simp [Emission.isOrdinary, Symbol.stringFromInt, Symbol.stringFromFloat, Symbol.stringToInt,
      Symbol.stringToFloat, Symbol.debugEnter]

end Labels

namespace Emitter

variable {base : Context} {W : (Nat → Nat) → Prop}

/-- An item that refers only to labels given out before emission. -/
theorem shadows_known {e : Emission} (hdefines : ∀ label, e.defines? = some label → base.Knows label)
    (hrefers : ∀ label ∈ e.refers, base.Knows label) (hordinary : e.isOrdinary = true) :
    Shadows base EmitError.Agrees W (fun _ _ _ => True) (send e) (send e) := by
  refine shadows_send (fun lab _ hfix => ?_) (Emission.announces_of_isOrdinary hordinary)
  rw [Emission.withoutLeave_of_isOrdinary hordinary, hfix.renumber hdefines hrefers]

theorem shadows_allKnown {es : List Emission} (hdefined : ∀ label ∈ definedBy es, base.Knows label)
    (hreferred : ∀ label ∈ referredBy es, base.Knows label) (hordinary : ∀ e ∈ es, e.isOrdinary = true) :
    Shadows base EmitError.Agrees W (fun _ _ _ => True) (sendAll es) (sendAll es) := by
  refine shadows_sendAll (fun lab _ hfix => ?_) hordinary
  have hself : ∀ e ∈ es, e.renumber lab = e := by
    intro e he
    apply hfix.renumber
    · exact fun label hl => hdefined label (List.mem_filterMap.mpr ⟨e, he, hl⟩)
    · exact fun label hl => hreferred label (List.mem_flatMap.mpr ⟨e, he, hl⟩)
  rw [List.map_congr_left hself, List.map_id']

theorem shadows_locate (env : ScopeId) (name : String) :
    Shadows base EmitError.Agrees W Ir.Renumbered (locate env name) (locate env name) := by
  refine shadows_get fun s t hs ht hframe _ _ => ?_
  have hlocation : location s.context s.frame env name = location t.context t.frame env name := by
    rw [hs.eq, ht.eq, hframe]
    rfl
  rw [hlocation]
  refine (shadows_ofExcept _).imp fun lab place' place h => ?_
  rw [h.1]
  exact location_renumbered h.2 lab

theorem shadows_code {code' code : Ir} (h : ∀ lab, W lab → code'.Renumbered lab code) :
    Shadows base EmitError.Agrees W (fun _ _ _ => True) (send (.code code')) (send (.code code)) := by
  intro f s t hst hW
  have hordinary := (h _ (hW _ (Continues.resumed hst.mono hst.le 0))).2
  refine shadows_send (fun lab hlab _ => ?_) (Emission.announces_of_isOrdinary hordinary) f s t hst hW
  rw [(h lab hlab).1]
  rfl

theorem shadows_loadString (text : String) :
    Shadows base EmitError.Agrees W Ir.Renumbered (loadString text) (loadString text) := by
  refine shadows_freshLabel.bind fun label' label V hV hlabel => ?_
  have hsend : Shadows base EmitError.Agrees V (fun _ _ _ => True) (send (.string text label'))
      (send (.string text label)) := by
    refine shadows_send (fun lab hlab _ => ?_) fun _ => rfl
    rw [hlabel lab hlab]
    rfl
  refine hsend.bind fun _ _ V' hV' _ => shadows_pure fun lab hlab _ => ?_
  rw [hlabel lab (hV' lab hlab)]
  exact .call (by decide) [.global label]

end Emitter

section Nodes

variable {base : Context} {W : (Nat → Nat) → Prop}

theorem Value.emit_shadows {v : Value} (hv : ∀ m ∈ v.held, base.Has m) :
    Shadows base EmitError.Agrees W Ir.Renumbered v.emit v.emit := by
  induction v with
  | const lit ty =>
    cases lit with
    | string text => exact shadows_loadString text
    | int | float | null => exact shadows_pure fun _ _ _ => ⟨rfl, rfl⟩
  | var env name ty => exact shadows_locate env name
  | new ty label =>
    refine shadows_pure fun lab _ hfix => ?_
    have hlabel := Symbol.renumber_eq_self hfix (hv (.label label) List.mem_cons_self)
    have hcall : (Ir.call Symbol.objectNew (Ir.renumberAll lab [.global label])).Renumbered lab _ :=
      .call (by decide) [.global label]
    rwa [Ir.renumberAll, Ir.renumber, hlabel] at hcall
  | converted inner source target ih =>
    refine (ih hv).bind fun code' code V _ hcode => shadows_pure fun lab hlab _ => ?_
    exact (hcode lab hlab).conversion source target

theorem Variable.emit_shadows {v : Variable} {site : Site}
    (hv : ∀ m ∈ (Decl.var site v).held, base.Has m) :
    Shadows base EmitError.Agrees W (fun _ _ _ => True) v.emit v.emit := by
  have hstorage : Shadows base EmitError.Agrees W (fun _ _ _ => True) (sendAll v.storage) (sendAll v.storage) := by
    unfold Variable.storage
    split
    · refine shadows_allKnown ?_ (by simp [referredBy, Emission.refers]) (by simp [Emission.isOrdinary])
      simp [definedBy, Emission.defines?, Knows.of_forall_ne (Symbol.global_ne_generated v.ident)]
    · exact shadows_allKnown (by simp [definedBy]) (by simp [referredBy]) (by simp)
  refine hstorage.bind fun _ _ V _ _ => ?_
  split
  · rename_i env init hregistration
    have hinit : ∀ m ∈ init.held, base.Has m := by
      intro m hm
      exact hv m (by simp [Decl.held, hregistration, Registration.held, hm])
    refine (Value.emit_shadows hinit).bind fun value' value V' _ hvalue => ?_
    refine (shadows_locate env v.ident).bind fun place' place V'' hV'' hplace => ?_
    refine shadows_send (fun lab hlab _ => ?_) fun _ => rfl
    rw [(hvalue lab (hV'' lab hlab)).1, (hplace lab hlab).1]
    rfl
  · exact shadows_pure fun _ _ _ => trivial

theorem DataItem.record_shadows (d : DataItem) :
    Shadows base EmitError.Agrees W (fun _ c' c => c' = c ∧ d.constant = some c) d.record d.record := by
  unfold DataItem.record
  cases hc : d.constant with
  | none => exact shadows_fail _
  | some c => exact shadows_pure fun _ _ _ => ⟨rfl, rfl⟩

theorem DataItem.emit_shadows {d : DataItem} {site : Site}
    (hd : ∀ m ∈ (Decl.data site d).held, base.Has m) :
    Shadows base EmitError.Agrees W (fun _ _ _ => True) d.emit d.emit := by
  refine d.record_shadows.bindPlain ?_
  rintro c _ V ⟨rfl, hc⟩
  split
  · rename_i text label
    have hlabel : base.Knows label := hd (.label label) (by simp [Decl.held, hc])
    exact shadows_known (by simpa [Emission.defines?]) (by simp [Emission.refers]) rfl
  · exact shadows_pure fun _ _ _ => trivial

theorem DataItem.emitData_shadows {d : DataItem} {site : Site}
    (hd : ∀ m ∈ (Decl.data site d).held, base.Has m) :
    Shadows base EmitError.Agrees W (fun _ _ _ => True) d.emitData d.emitData := by
  refine d.record_shadows.bindPlain ?_
  rintro c _ V ⟨rfl, hc⟩
  split
  · exact shadows_allKnown (by simp [definedBy, Emission.defines?]) (by simp [referredBy, Emission.refers])
      (by simp [Emission.isOrdinary])
  · exact shadows_allKnown (by simp [definedBy, Emission.defines?]) (by simp [referredBy, Emission.refers])
      (by simp [Emission.isOrdinary])
  · rename_i text label
    have hlabel : base.Knows label := hd (.label label) (by simp [Decl.held, hc])
    exact shadows_allKnown (by simp [definedBy, Emission.defines?]) (by simpa [referredBy, Emission.refers])
      (by simp [Emission.isOrdinary])
  · exact shadows_fail _

theorem ArrayDecl.emit_shadows (hbase : Issued base) (v : ArrayDecl) :
    Shadows base EmitError.Agrees W (fun _ _ _ => True) v.emit v.emit := by
  refine shadows_get fun s t hs ht _ _ _ => ?_
  simp only [hs.types, ht.types]
  split
  · exact shadows_fail _
  · split
    · rename_i label element sizes hget
      split
      · exact shadows_fail _
      · refine (shadows_ofExcept _).bindPlain ?_
        rintro descriptor _ V ⟨rfl, hdescriptor⟩
        have hlabel := hbase.get? hget
        have helement := hbase.descriptor hdescriptor
        have hglobal : base.Knows (Symbol.global v.ident) := .of_forall_ne (Symbol.global_ne_generated v.ident)
        unfold ArrayDecl.storage
        split <;> refine shadows_allKnown ?_ ?_ ?_ <;>
          simp [definedBy, referredBy, Emission.defines?, Emission.refers, Emission.isOrdinary, or_imp, forall_and,
            hlabel, helement, hglobal]
    · exact shadows_fail _

/-- The descriptor of a struct in another numbering. -/
theorem StructHead.items_renumber (lab : Nat → Nat) (ident used free : String) {descriptors : List String}
    (h : ∀ label ∈ descriptors, Symbol.renumber lab label = label) :
    StructHead.items ident (Symbol.renumber lab used) (Symbol.renumber lab free) descriptors =
      (StructHead.items ident used free descriptors).map (Emission.renumber lab) := by
  have hpointers : (descriptors.map Emission.pointer).map (Emission.renumber lab) =
      descriptors.map Emission.pointer := by
    rw [List.map_map]
    exact List.map_congr_left fun label hl => by simp [Emission.renumber, h label hl]
  simp only [StructHead.items, StructHead.listHead, List.map_append, hpointers]
  simp [Emission.renumber, Symbol.renumber_of_forall_ne (Symbol.struct_ne_generated ident)]

theorem StructHead.items_isOrdinary (ident used free : String) (descriptors : List String) :
    ∀ e ∈ StructHead.items ident used free descriptors, e.isOrdinary = true := by
  have hpointers : ∀ e ∈ descriptors.map Emission.pointer, e.isOrdinary = true := by simp [Emission.isOrdinary]
  simp [StructHead.items, StructHead.listHead, Emission.isOrdinary, or_imp, forall_and]

theorem StructHead.emit_shadows (hbase : Issued base) (h : StructHead) :
    Shadows base EmitError.Agrees W (fun _ _ _ => True) h.emit h.emit := by
  refine shadows_get fun s t hs ht _ _ _ => ?_
  split
  · exact shadows_fail _
  · rename_i ty _
    have htable : s.context.table? (.fields ty) = t.context.table? (.fields ty) := by
      rw [hs.eq, ht.eq]
      rfl
    dsimp only
    rw [htable]
    split
    · exact shadows_fail _
    · rw [hs.types, ht.types]
      refine (shadows_ofExcept _).bindPlain ?_
      rintro descriptors _ V ⟨rfl, hdescriptors⟩
      have hknown : ∀ label ∈ descriptors, base.Knows label := by
        intro label hl
        obtain ⟨r, -, hr⟩ := exists_of_mapM_eq_ok hdescriptors hl
        exact hbase.fieldDescriptor hr
      refine shadows_freshLabel.bind fun used' used V₁ _ hused => ?_
      refine shadows_freshLabel.bind fun free' free V₂ hV₂ hfree => ?_
      refine shadows_sendAll (fun lab hlab hfix => ?_) (items_isOrdinary h.ident used' free' descriptors)
      rw [hused lab (hV₂ lab hlab), hfree lab hlab]
      exact items_renumber lab h.ident used free fun label hl => Symbol.renumber_eq_self hfix (hknown label hl)

/-- The debugger is told about a function, and nothing else changes. -/
theorem FunctionHead.emitDebugEnter_shadows (head : FunctionHead) (env : ScopeId) :
    Shadows base EmitError.Agrees W (fun _ _ _ => True) (head.emitDebugEnter env) (head.emitDebugEnter env) := by
  refine shadows_get fun s₀ t₀ _ _ _ hdebug hplain => ?_
  have hdebug : Backend.debug s₀.backend = true := hdebug
  have hplain : Backend.debug t₀.backend = false := hplain
  rw [hdebug, hplain, if_pos rfl, if_neg (by decide)]
  intro f s t hst hW
  rw [bind_of_ok _ (show freshLabel s = .ok s.context.freshLabel.1 { s with context := s.context.freshLabel.2 }
    from rfl), sendAll, bind_of_ok _ ((send_listing _ _).trans (by rw [hst.refusal_string])), sendAll,
    bind_of_ok _ ((send_listing _ _).trans rfl)]
  refine .ok (hst.announce head.ident ?_) fun lab hlab => ⟨hW lab hlab.of_one, trivial⟩
  simp [Emission.announces]

/-- Without the debugger's call the code on the way out is what it is without the debugger. -/
theorem FunctionHead.withoutLeave_leaveCode (frame : Frame) (types : Arena) (argBytes : Nat) :
    (Emission.leave (leaveCode frame types true) argBytes).withoutLeave =
      .leave (leaveCode frame types false) argBytes := by
  unfold leaveCode
  cases frame.exitCode types with
  | none => rfl
  | some t => rfl

theorem FunctionHead.emitLeave_shadows (hbase : Issued base) (env : ScopeId) (frame : Frame) :
    Shadows base EmitError.Agrees W (fun _ _ _ => True) (emitLeave env frame) (emitLeave env frame) := by
  refine shadows_get fun s t hs ht _ _ _ => ?_
  have hundefined : undefinedLabel? s.context env = undefinedLabel? t.context env := by
    rw [hs.eq, ht.eq]
    rfl
  have hexit : s.context.exitSymbol env = t.context.exitSymbol env := by
    rw [hs.eq, ht.eq]
    rfl
  dsimp only
  rw [hundefined, hexit, hs.types, ht.types]
  split
  · exact shadows_fail _
  -- the exit label is not a generated one, so no renumbering touches it
  · have hlabel : base.Knows (t.context.exitSymbol env) := .of_forall_ne (Symbol.exit_ne_generated _)
    have hsend : Shadows base EmitError.Agrees W (fun _ _ _ => True) _ _ :=
      shadows_known (e := .label (t.context.exitSymbol env)) (by simpa [Emission.defines?])
        (by simp [Emission.refers]) rfl
    refine hsend.bind fun _ _ V _ _ => shadows_get fun s₁ t₁ _ _ _ hdebug hplain => ?_
    have hdebug : Backend.debug s₁.backend = true := hdebug
    have hplain : Backend.debug t₁.backend = false := hplain
    rw [hdebug, hplain]
    -- without the call to the debugger the two codes are equal, and they refer to labels of the base
    refine shadows_send (fun lab _ hfix => ?_) fun _ => rfl
    rw [withoutLeave_leaveCode]
    refine (hfix.renumber (by simp [Emission.defines?]) fun symbol hsymbol => ?_).symm
    cases hcode : leaveCode frame base.types false with
    | none => simp [hcode, Emission.refers] at hsymbol
    | some tree =>
      rw [hcode] at hsymbol
      obtain ⟨id, element, sizes, hget⟩ := Frame.exists_array_of_exitCode hcode hsymbol
      exact hbase.get? hget

/-- The code on the way into a function stores initial values. -/
theorem Frame.entryCode_isOrdinary {frame : Frame} {types : Arena} {tree : Ir}
    (h : frame.entryCode types = some tree) : (Emission.code tree).isOrdinary = true := by
  unfold Frame.entryCode at h
  match hnodes : frame.locals.filterMap (slotEntry types), h with
  | [node], h =>
    cases h
    obtain ⟨slot, -, hslot⟩ := List.mem_filterMap.mp (hnodes ▸ List.mem_singleton_self tree)
    unfold Frame.slotEntry at hslot
    split at hslot
    · cases hslot
      rfl
    · cases hslot
      rfl
    · cases hslot
  | node :: node' :: rest, h =>
    cases h
    rfl

theorem FunctionHead.emitEnter_shadows (hbase : Issued base) (head : FunctionHead) (env : ScopeId) (frame : Frame) :
    Shadows base EmitError.Agrees W (fun _ _ _ => True) (head.emitEnter env frame) (head.emitEnter env frame) := by
  refine shadows_get fun s t hs ht _ _ _ => ?_
  have hlabel : base.Knows (Symbol.function head.ident) := .of_forall_ne (Symbol.function_ne_generated _)
  have hsend : Shadows base EmitError.Agrees W (fun _ _ _ => True) _ _ :=
    shadows_known (e := .enter (Symbol.function head.ident) frame.size) (by simpa [Emission.defines?])
      (by simp [Emission.refers]) rfl
  refine hsend.bind fun _ _ V _ _ => ?_
  rw [hs.types, ht.types]
  have hentry : Shadows base EmitError.Agrees V (fun _ _ _ => True)
      (sendAll ((frame.entryCode base.types).toList.map Emission.code))
      (sendAll ((frame.entryCode base.types).toList.map Emission.code)) := by
    cases hcode : frame.entryCode base.types with
    | none => exact shadows_allKnown (by simp [definedBy]) (by simp [referredBy]) (by simp)
    | some tree =>
      refine shadows_allKnown (by simp [definedBy, Emission.defines?]) (fun label hl => ?_)
        (by simpa using Frame.entryCode_isOrdinary hcode)
      have hl : label ∈ tree.labels := by simpa [referredBy, Emission.refers] using hl
      obtain ⟨id, element, sizes, hget⟩ := Frame.exists_array_of_entryCode hcode hl
      exact hbase.get? hget
  exact hentry.bind fun _ _ _ _ _ => head.emitDebugEnter_shadows env

theorem FunctionHead.emit_shadows (hbase : Issued base) (head : FunctionHead) {runBody : EmitM Listing Unit}
    (hbody : ∀ V, Shadows base EmitError.Agrees V (fun _ _ _ => True) runBody runBody) :
    Shadows base EmitError.Agrees W (fun _ _ _ => True) (head.emit runBody) (head.emit runBody) := by
  refine shadows_get fun s t hs ht _ _ _ => ?_
  split
  · exact shadows_fail _
  · rename_i env _
    have hlayout : Frame.layout s.context env = Frame.layout t.context env := by
      rw [hs.eq, ht.eq]
      rfl
    dsimp only
    rw [hlayout]
    refine (head.emitEnter_shadows hbase env _).bind fun _ _ V _ _ => ?_
    exact ((hbody V).withFrame _).bind fun _ _ _ _ _ => emitLeave_shadows hbase env _

theorem DeclList.guarded_shadows (pass : Pass) (d : Decl) {x : EmitM Listing Unit}
    (h : Shadows base EmitError.Agrees W (fun _ _ _ => True) x x) :
    Shadows base Eq W (fun _ _ _ => True) (guarded pass d x) (guarded pass d x) := by
  intro f s t hst hW
  have hx := h f s t hst hW
  unfold DeclList.guarded
  generalize x s = rx at hx
  generalize x t = ry at hx
  cases hx with
  | ok hst' hopen => exact .ok hst' hopen
  | error he =>
    cases he with
    | diagnostic e => exact .error rfl
    | backend e' e => exact .error rfl

end Nodes

section Trees

variable {base : Context}

theorem EmitError.Agrees.mapDiagnostic {e' e : EmitError} (h : e'.Agrees e) (g : Diagnostic → Diagnostic) :
    (e'.mapDiagnostic g).Agrees (e.mapDiagnostic g) := by
  cases h with
  | diagnostic d => exact .diagnostic (g d)
  | backend e' e => exact .backend e' e

mutual

theorem Decl.emit_shadows (hbase : Issued base) : ∀ (d : Decl) (W : (Nat → Nat) → Prop),
    (∀ m ∈ d.held, base.Has m) →
      Shadows base EmitError.Agrees W (fun _ _ _ => True) d.emit d.emit
  | .var site v, W, hd => by
    rw [Decl.emit]
    exact Variable.emit_shadows hd
  | .data site d, W, hd => by
    rw [Decl.emit]
    exact DataItem.emit_shadows hd
  | .array site v, W, hd => by
    rw [Decl.emit]
    exact v.emit_shadows hbase
  | .function site head params body, W, hd => by
    rw [Decl.emit]
    exact head.emit_shadows hbase fun V => Stmt.emitAll_shadows hbase body V (List.forall_mem_append.mp hd).2
  | .struct site head fields, W, hd => by
    rw [Decl.emit]
    have hfields := DeclList.emitFrom_shadows hbase 0 fields W (List.forall_mem_append.mp hd).2
    refine (hfields.adaptExcept ?_).bind fun _ _ V _ _ => head.emit_shadows hbase
    rintro e _ rfl
    exact .diagnostic e

theorem DeclList.emitFrom_shadows (hbase : Issued base) (index : Nat) :
    ∀ (seq : List (Option Decl)) (W : (Nat → Nat) → Prop), (∀ m ∈ DeclList.held seq, base.Has m) →
      Shadows base Eq W (fun _ _ _ => True) (DeclList.emitFrom index seq) (DeclList.emitFrom index seq)
  | [], W, h => by
    rw [DeclList.emitFrom]
    exact shadows_pure fun _ _ _ => trivial
  | none :: rest, W, h => by
    rw [DeclList.emitFrom]
    exact (shadows_log _ _).bind fun _ _ V _ _ => DeclList.emitFrom_shadows hbase (index + 1) rest V h
  | some d :: rest, W, h => by
    obtain ⟨hd, hrest⟩ := List.forall_mem_append.mp h
    rw [DeclList.emitFrom]
    refine (shadows_log _ _).bind fun _ _ V _ _ => ?_
    refine (DeclList.guarded_shadows .emit d (Decl.emit_shadows hbase d V hd)).bind fun _ _ V' _ _ => ?_
    exact DeclList.emitFrom_shadows hbase (index + 1) rest V' hrest

theorem Stmt.emit_shadows (hbase : Issued base) : ∀ (stmt : Stmt) (W : (Nat → Nat) → Prop),
    (∀ m ∈ stmt.held, base.Has m) →
      Shadows base EmitError.Agrees W (fun _ _ _ => True) stmt.emit stmt.emit
  | .declare d, W, h => by
    rw [Stmt.emit]
    exact (Decl.emit_shadows hbase d W h).adaptExcept fun _ _ he => he.mapDiagnostic d.stamp
  | .block body span, W, h => by
    rw [Stmt.emit]
    exact Stmt.emitAll_shadows hbase body W h
  | .goto label span none, W, h => by
    rw [Stmt.emit]
    exact shadows_fail _
  | .goto label span (some env), W, h => by
    rw [Stmt.emit]
    refine shadows_get fun s t hs ht _ _ _ => ?_
    dsimp only
    rw [hs.jumpSymbol, ht.jumpSymbol]
    have hknown : base.Knows (base.jumpSymbol env label) := .of_forall_ne (Symbol.inFunction_ne_generated _ _)
    exact shadows_known (by simp [Emission.defines?]) (by simpa [Emission.refers, Ir.labels]) rfl
  | .label name span none, W, h => by
    rw [Stmt.emit]
    exact shadows_fail _
  | .label name span (some env), W, h => by
    rw [Stmt.emit]
    refine shadows_get fun s t hs ht _ _ _ => ?_
    dsimp only
    rw [hs.jumpSymbol, ht.jumpSymbol]
    have hknown : base.Knows (base.jumpSymbol env name) := .of_forall_ne (Symbol.inFunction_ne_generated _ _)
    exact shadows_known (by simpa [Emission.defines?]) (by simp [Emission.refers]) rfl
  | .eval e none, W, h => by
    rw [Stmt.emit]
    exact shadows_fail _
  | .eval e (some value), W, h => by
    rw [Stmt.emit]
    exact (Value.emit_shadows h).bind fun _ _ _ _ hcode => shadows_code hcode

theorem Stmt.emitAll_shadows (hbase : Issued base) : ∀ (body : List Stmt) (W : (Nat → Nat) → Prop),
    (∀ m ∈ Stmt.heldByAll body, base.Has m) →
      Shadows base EmitError.Agrees W (fun _ _ _ => True) (Stmt.emitAll body) (Stmt.emitAll body)
  | [], W, h => by
    rw [Stmt.emitAll]
    exact shadows_pure fun _ _ _ => trivial
  | stmt :: rest, W, h => by
    obtain ⟨hstmt, hrest⟩ := List.forall_mem_append.mp h
    rw [Stmt.emitAll]
    refine ((Stmt.emit_shadows hbase stmt W hstmt).adaptExcept fun _ _ he => he.mapDiagnostic _).bind
      fun _ _ V _ _ => ?_
    exact Stmt.emitAll_shadows hbase rest V hrest

end

theorem DeclList.emitData_shadows : ∀ (seq : DeclList) (W : (Nat → Nat) → Prop),
    (∀ m ∈ DeclList.held seq, base.Has m) →
      Shadows base Eq W (fun _ _ _ => True) seq.emitData seq.emitData
  | [], W, h => shadows_pure fun _ _ _ => trivial
  | none :: rest, W, h => DeclList.emitData_shadows rest W h
  | some d :: rest, W, h => by
    obtain ⟨hd, hrest⟩ := List.forall_mem_append.mp h
    have hdata : Shadows base EmitError.Agrees W (fun _ _ _ => True) d.emitData d.emitData := by
      cases d with
      | data site d => exact DataItem.emitData_shadows hd
      | var | function | struct | array => exact shadows_pure fun _ _ _ => trivial
    exact (DeclList.guarded_shadows .emitData d hdata).bind fun _ _ V _ _ =>
      DeclList.emitData_shadows rest V hrest

end Trees

/-- What an analyzed program refers to is there. -/
theorem DeclList.Analyzed.issued {program registered checked : DeclList} {c final : Context}
    (h : program.Analyzed registered checked c final) (hfresh : DeclList.areFresh program = true) :
    Issued final ∧ ∀ m ∈ DeclList.held checked, final.Has m := by
  refine DeclList.issued hfresh h.entered ?_
  obtain ⟨s, t, rfl, rfl, hrun⟩ := h.check
  exact DeclList.checkFrom_accepted hrun

theorem Beside.of_eq {base : Context} {f : Nat → Nat} {s t s' t' : Emitter Listing} (h : Beside base f s t)
    (hs : s'.context = s.context) (ht : t'.context = t.context) (hsb : s'.backend = s.backend)
    (htb : t'.backend = t.backend) (hframe : s'.frame = t'.frame) : Beside base f s' t' := by
  obtain ⟨⟨_, _⟩, _, _⟩ := s'
  obtain ⟨⟨_, _⟩, _, _⟩ := t'
  cases hs
  cases ht
  cases hsb
  cases htb
  exact { h with frame := hframe }

structure Compiled.Beside (base : Context) (program : DeclList) (last : Pass) (r r' : Compiled Listing) :
    Prop where
  debugged : Relabels base r.compiler.session.context
  plain : Relabels base r'.compiler.session.context
  outcome : (∃ d, r.outcome = .error d ∧ r'.outcome = .error d) ∨
    (r.outcome = .ok () ∧ r'.outcome = .ok ()) ∧ (r.program = program ∧ r'.program = program) ∧
      (r.compiler.completed = some last ∧ r'.compiler.completed = some last) ∧
      ∃ f, UnitCompiler.Beside base f { r.compiler.session with backend := r.backend }
        { r'.compiler.session with backend := r'.backend }

namespace Compiler

variable {base : Context} {program : DeclList}

/-- An emitting pass keeps the compilations side by side. -/
theorem run_beside {r r' : Compiled Listing} {last pass : Pass} {x : PassM Listing Unit}
    (h : r.Beside base program last r') (hr : r.outcome = .ok ()) (hpass : pass.prerequisite = some last)
    (hperform : ∀ (c : Compiler) (b : Listing), c.perform pass program b = c.emit x program b) (hstable : Stable x)
    (hx : Shadows base Eq (fun _ => True) (fun _ _ _ => True) x x) :
    (r.compiler.run pass r.program r.backend).Beside base program pass
      (r'.compiler.run pass r'.program r'.backend) := by
  obtain ⟨d, hd, -⟩ | ⟨-, ⟨hprogram, hprogram'⟩, ⟨hlast, hlast'⟩, f, hst⟩ := h.outcome
  · cases hr.symm.trans hd
  rw [hprogram, hprogram']
  -- both runs have come to the pass before this one
  have hready := hlast.trans hpass.symm
  have hready' := hlast'.trans hpass.symm
  have hentry : Beside base f (r.compiler.entry pass program r.backend)
      (r'.compiler.entry pass program r'.backend) := hst.of_eq rfl rfl rfl rfl rfl
  -- a pass that fails still leaves a context that differs in labels only
  have hkeeps := hentry.debugged.trans (hstable _).context
  have hkeeps' := hentry.plain.trans (hstable _).context
  have hruns := hx f _ _ hentry fun _ _ => trivial
  generalize hs : x (r.compiler.entry pass program r.backend) = rs at hruns
  generalize ht : x (r'.compiler.entry pass program r'.backend) = rt at hruns
  cases hruns with
  | error hd =>
    cases hd
    rw [after_of_error hs] at hkeeps
    rw [after_of_error ht] at hkeeps'
    obtain ⟨ho, hcontext, -⟩ := run_emitting_error (fun c => hperform c _) hready hs
    obtain ⟨ho', hcontext', -⟩ := run_emitting_error (fun c => hperform c _) hready' ht
    exact ⟨hcontext ▸ hkeeps, hcontext' ▸ hkeeps', Or.inl ⟨_, ho, ho'⟩⟩
  | @ok _ _ f' _ _ hst' _ =>
    obtain ⟨ho, hc, hcontext, hp, hb⟩ := run_emitting_ok (fun c => hperform c _) hready hs
    obtain ⟨ho', hc', hcontext', hp', hb'⟩ := run_emitting_ok (fun c => hperform c _) hready' ht
    refine ⟨hcontext ▸ hst'.debugged, hcontext' ▸ hst'.plain, Or.inr ⟨⟨ho, ho'⟩, ⟨hp, hp'⟩, ⟨hc, hc'⟩, f', ?_⟩⟩
    exact hst'.of_eq hcontext hcontext' hb hb' rfl

/-- The passes before emission do not look at the backend. -/
theorem runAll_check_inStep (c : Compiler) (program : DeclList) (b b' : Listing) (passes : List Pass)
    (hpasses : ∀ pass ∈ passes, pass = .register ∨ pass = .check) :
    (c.runAll program b passes).InStep (fun l l' => l = b ∧ l' = b') (c.runAll program b' passes) := by
  induction passes generalizing c program with
  | nil => exact ⟨rfl, rfl, rfl, rfl, rfl⟩
  | cons pass rest ih =>
    obtain ⟨hpass, hrest⟩ := List.forall_mem_cons.mp hpasses
    have hrun : (c.run pass program b).InStep (fun l l' => l = b ∧ l' = b') (c.run pass program b') := by
      have hvisit : ((c.log (.passStarted pass program.length)).perform pass program b).InStep
          (fun l l' => l = b ∧ l' = b') ((c.log (.passStarted pass program.length)).perform pass program b') := by
        obtain rfl | rfl := hpass
        · exact ⟨rfl, rfl, rfl, rfl, rfl⟩
        · exact ⟨rfl, rfl, rfl, rfl, rfl⟩
      unfold run
      split
      · have hfollows : (conclude pass _).Follows (fun l l' => l = b ∧ l' = b') (fun _ _ => False)
            (conclude pass _) := conclude_follows pass (Or.inl hvisit)
        exact hfollows.resolve_right fun ⟨_, _, _, hlost⟩ => hlost
      · exact ⟨rfl, rfl, rfl, rfl, rfl⟩
    cases ho : (c.run pass program b).outcome with
    | error d =>
      rw [runAll_of_error rest ho, runAll_of_error rest (hrun.outcome.symm.trans ho)]
      exact hrun
    | ok _ =>
      rw [runAll_of_ok rest ho, runAll_of_ok rest (hrun.outcome.symm.trans ho), hrun.backend.1, hrun.backend.2,
        ← hrun.compiler, ← hrun.program]
      exact ih _ _ hrest

/-- Before emission the compilations differ in the debugger only. -/
theorem beside_start {d p : Compiled Listing}
    (h : d.InStep (fun l l' => l = Listing.empty true ∧ l' = Listing.empty false) p) (hd : d.outcome = .ok ())
    (hcompleted : d.compiler.completed = some .check) :
    d.Beside d.compiler.session.context d.program .check p := by
  obtain ⟨hcompiler, hprogram, houtcome, hdebugged, hplain⟩ := h
  refine ⟨.refl _, ?_, Or.inr ⟨⟨hd, houtcome ▸ hd⟩, ⟨rfl, hprogram.symm⟩, ⟨hcompleted, hcompiler ▸ hcompleted⟩,
    id, ?_⟩⟩
  · rw [hcompiler]
    exact .refl _
  rw [hdebugged, hplain, ← hcompiler]
  exact {
    debugged := .refl _, plain := .refl _, frame := rfl, debug := rfl, noDebug := rfl, inside := rfl
    mono := fun _ _ h _ => h
    le := fun _ h => h
    fixes := fun _ _ => rfl
    bound := fun _ h => absurd h List.not_mem_nil
    items := fun _ _ => rfl
    defined := fun _ _ _ => ⟨fun h => absurd h List.not_mem_nil, fun h => absurd h List.not_mem_nil⟩ }

theorem compile_beside (hfresh : DeclList.areFresh program = true) :
    ∃ base checked last, (({} : Compiler).compile program (Listing.empty true)).Beside base checked last
      (({} : Compiler).compile program (Listing.empty false)) := by
  have hstep := ({} : Compiler).runAll_check_inStep program (Listing.empty true) (Listing.empty false)
    [.register, .check] (by simp)
  cases hearly : (({} : Compiler).runAll program (Listing.empty true) [.register, .check]).outcome with
  -- up to the check nothing depends on the listing, so both runs fail there or neither does
  | error d =>
    have hearly' := hstep.outcome.symm.trans hearly
    have hd : ({} : Compiler).compile program (Listing.empty true) = _ :=
      runAll_append_of_error [.emit, .emitData] hearly
    have hp : ({} : Compiler).compile program (Listing.empty false) = _ :=
      runAll_append_of_error [.emit, .emitData] hearly'
    rw [hd, hp]
    refine ⟨_, [], .check, .refl _, ?_, Or.inl ⟨d, hearly, hearly'⟩⟩
    rw [hstep.compiler]
    exact .refl _
  | ok _ =>
    have hearly' := hstep.outcome.symm.trans hearly
    have hd : ({} : Compiler).compile program (Listing.empty true) = _ :=
      runAll_append_of_ok [.emit, .emitData] hearly
    have hp : ({} : Compiler).compile program (Listing.empty false) = _ :=
      runAll_append_of_ok [.emit, .emitData] hearly'
    obtain ⟨⟨registered, c, hanalyzed⟩, hcompleted, -⟩ := runAll_check_stages hearly
    obtain ⟨hissued, hheld⟩ := hanalyzed.issued hfresh
    -- the emissions run side by side from one context
    have hstart := beside_start hstep hearly hcompleted
    rw [hd, hp]
    generalize ({} : Compiler).runAll program (Listing.empty true) [.register, .check] = d at *
    generalize ({} : Compiler).runAll program (Listing.empty false) [.register, .check] = p at *
    have hemit : (d.compiler.run .emit d.program d.backend).Beside _ d.program .emit
        (p.compiler.run .emit p.program p.backend) :=
      run_beside hstart hearly rfl (fun _ _ => rfl) (DeclList.emitFrom_stable 0 d.program)
        (DeclList.emitFrom_shadows hissued 0 d.program _ hheld)
    obtain ⟨e, he, he'⟩ | ⟨⟨ho, ho'⟩, -⟩ := hemit.outcome
    · rw [runAll_of_error _ he, runAll_of_error _ he']
      exact ⟨_, _, _, hemit⟩
    · rw [runAll_of_ok _ ho, runAll_of_ok _ ho', runAll_singleton, runAll_singleton]
      exact ⟨_, _, _, run_beside hemit ho rfl (fun _ _ => rfl) (DeclList.emitData_stable d.program)
        (DeclList.emitData_shadows d.program _ hheld)⟩

end Compiler

/-- Compiled with the debugger a program fails as it does without it; or it compiles to the same items, up to
the numbers of labels, once what the debugger adds is taken out. The contexts differ in the count of labels
only. -/
theorem debug_noninterference {program : DeclList} (hfresh : DeclList.areFresh program = true) :
    let debugged := ({} : Compiler).compile program (Listing.empty true)
    let plain := ({} : Compiler).compile program (Listing.empty false)
    ((∃ d, debugged.outcome = .error d ∧ plain.outcome = .error d) ∨
      debugged.outcome = .ok () ∧ plain.outcome = .ok () ∧
        ∃ lab : Nat → Nat, Function.Injective lab ∧
          withoutDebug debugged.backend.items = plain.backend.items.map (Emission.renumber lab)) ∧
      debugged.compiler.session.context =
        { plain.compiler.session.context with labels := debugged.compiler.session.context.labels } := by
  intro debugged plain
  obtain ⟨base, checked, last, hbeside⟩ := Compiler.compile_beside hfresh
  constructor
  · obtain herror | ⟨⟨ho, ho'⟩, -, -, f, hst⟩ := hbeside.outcome
    · exact Or.inl herror
    · have hopen := Continues.resumed hst.mono hst.le 0
      exact Or.inr ⟨ho, ho', _, hopen.mono.injective, hst.items _ hopen⟩
  · calc debugged.compiler.session.context
        = { base with labels := debugged.compiler.session.context.labels } := hbeside.debugged.eq
      _ = { plain.compiler.session.context with labels := debugged.compiler.session.context.labels } := by
        rw [hbeside.plain.eq]

def greetings : DeclList :=
  [some (.var {} { ident := "g", tag := .string, kind := .global, init := some (.literal (.string "a") {}) }),
    some (.function {} { ident := "f", tag := .int } []
      [.declare (.var {} { ident := "t", tag := .string, kind := .localVar, init := some (.literal (.string "b") {}) }),
        .goto "out" {} none, .label "out" {} none]),
    none,
    some (.data {} { expr := .literal (.string "c") {} }),
    some (.function {} { ident := "h", tag := .int } [] [.eval (.literal (.string "d") {}) none])]

theorem debug_noninterference_greetings :
    DeclList.areFresh greetings = true ∧
    (({} : Compiler).compile greetings (Listing.empty true)).outcome = .ok () ∧
    ∃ lab : Nat → Nat, Function.Injective lab ∧
      withoutDebug (({} : Compiler).compile greetings (Listing.empty true)).backend.items =
        (({} : Compiler).compile greetings (Listing.empty false)).backend.items.map (Emission.renumber lab) := by
  have hfresh : DeclList.areFresh greetings = true := by decide
  have hok : (({} : Compiler).compile greetings (Listing.empty true)).outcome = .ok () := by decide +kernel
  obtain ⟨⟨d, hd, -⟩ | ⟨-, -, hlab⟩, -⟩ := debug_noninterference hfresh
  · cases hok.symm.trans hd
  · exact ⟨hfresh, hok, hlab⟩

end UnitCompiler
