import UnitCompiler.Proofs.DataSegment
import UnitCompiler.Proofs.FieldTables
import UnitCompiler.Proofs.TypedRecords
import UnitCompiler.Proofs.Lists

namespace UnitCompiler

open Context Emitter

/-- What the output holds for a field: the description of its type, if that is an array of its own, and the label
of the type. -/
inductive Record.Described (types : Arena) (r : Record) : List Emission × String → Prop
  | int (h : types.get? r.ty = some .int) : Described types r ([], Symbol.intType)
  | float (h : types.get? r.ty = some .float) : Described types r ([], Symbol.floatType)
  | string (h : types.get? r.ty = some .string) : Described types r ([], Symbol.stringType)
  | struct {name : String} {fields : Table} (h : types.get? r.ty = some (.struct name fields)) :
      Described types r ([], "_t" ++ name)
  | array {label : String} {element : TypeId} {sizes : List UInt32} {capacity : Nat} {target : String}
      (h : types.get? r.ty = some (.array label element sizes)) (hcapacity : capacity? sizes = some capacity)
      (helement : Symbol.descriptor types element = .ok target) :
      Described types r ([.align 4, .word 6 (some label), .word (Int32.ofNat capacity) none, .pointer target], label)

theorem Emitter.sendAll_context {β : Type} [Backend β] {es : List Emission} {s t : Emitter β}
    (h : sendAll es s = .ok () t) : t.context = s.context := by
  induction es generalizing s with
  | nil => cases h; rfl
  | cons e es ih =>
    obtain ⟨_, u, hsend, hrest⟩ := bind_eq_ok.mp h
    have hu : u.context = s.context := by
      unfold send at hsend
      split at hsend
      · cases hsend
        rfl
      · cases hsend
    exact (ih hrest).trans hu

section Emit

variable {β : Type} [Backend β] {s t : Emitter β}

theorem ArrayDecl.emit_eq_ok {v : ArrayDecl} (h : v.emit s = .ok () t) :
    ∃ ty label element sizes capacity target, v.ty = some ty ∧
      s.context.types.get? ty = some (.array label element sizes) ∧ capacity? sizes = some capacity ∧
      Symbol.descriptor s.context.types element = .ok target ∧
      sendAll ([.align wordSize, .word RecordTag.arrayType.value (some label),
        .word (Int32.ofNat capacity) none, .pointer target] ++ v.storage) s = .ok () t := by
  unfold ArrayDecl.emit at h
  rw [bind_get] at h
  cases hty : v.ty with
  | none => simp only [hty] at h; cases h
  | some ty =>
    cases hget : s.context.types.get? ty with
    | none => simp only [hty, hget] at h; cases h
    | some type =>
      cases type with
      | array label element sizes =>
        cases hcapacity : capacity? sizes with
        | none => simp only [hty, hget, hcapacity] at h; cases h
        | some capacity =>
          cases htarget : Symbol.descriptor s.context.types element with
          | error d => simp only [hty, hget, hcapacity, htarget] at h; cases h
          | ok target =>
            simp only [hty, hget, hcapacity, htarget] at h
            exact ⟨ty, label, element, sizes, capacity, target, rfl, hget, hcapacity, htarget, h⟩
      | int | float | string | struct | function | const => simp only [hty, hget] at h; cases h

theorem StructHead.fieldDescriptor_eq_ok {types : Arena} {r : Record} {label : String}
    (h : StructHead.fieldDescriptor types r = .ok label) : Symbol.descriptor types r.ty = .ok label := by
  unfold StructHead.fieldDescriptor at h
  cases hd : Symbol.descriptor types r.ty with
  | error d => rw [hd] at h; cases h
  | ok l =>
    rw [hd] at h
    cases h
    rfl

theorem StructHead.emit_eq_ok {head : StructHead} (h : head.emit s = .ok () t) :
    ∃ ty fields labels, head.ty = some ty ∧ s.context.table? (.fields ty) = some fields ∧
      List.Forall₂ (fun r label => Symbol.descriptor s.context.types r.ty = .ok label) fields.records labels ∧
      sendAll (StructHead.items head.ident (Symbol.generated (s.context.labels + 1))
        (Symbol.generated (s.context.labels + 2)) labels)
        { s with context := { s.context with labels := s.context.labels + 2 } } = .ok () t := by
  have hrun := h
  unfold StructHead.emit at hrun
  rw [bind_get] at hrun
  cases hty : head.ty with
  | none => simp only [hty] at hrun; cases hrun
  | some ty =>
    cases htable : s.context.table? (.fields ty) with
    | none => simp only [hty, htable] at hrun; cases hrun
    | some fields =>
      cases hlabels : fields.records.mapM (StructHead.fieldDescriptor s.context.types) with
      | error d => simp only [hty, htable, hlabels] at hrun; cases hrun
      | ok labels =>
        rw [StructHead.emit_run hty htable hlabels] at h
        exact ⟨ty, fields, labels, rfl, htable,
          (forall₂_of_mapM_eq_ok hlabels).imp fun _ _ => StructHead.fieldDescriptor_eq_ok, h⟩

end Emit

section Fields

variable {c₀ final : Context} {env : ScopeId} {s t : Emitter Listing} {r : Record}

/-- A type that a tag denotes is no array, so the output holds nothing but its label. -/
theorem Context.described_of_declaredType {tag : TypeTag} {label : String} (htypes : final.types.Standard)
    (hext : Extends c₀ final) (h : c₀.declaredType tag env = .ok r.ty)
    (hlabel : Symbol.descriptor final.types r.ty = .ok label) : r.Described final.types ([], label) := by
  unfold Symbol.descriptor at hlabel
  have hdenotes := denotes_of_declaredType h
  generalize hty : r.ty = ty at hdenotes
  cases hdenotes with
  | default | int =>
    have hget : final.types.get? r.ty = some .int := hty ▸ htypes.int
    rw [hget] at hlabel
    cases hlabel
    exact .int hget
  | float =>
    have hget : final.types.get? r.ty = some .float := hty ▸ htypes.float
    rw [hget] at hlabel
    cases hlabel
    exact .float hget
  | string =>
    have hget : final.types.get? r.ty = some .string := hty ▸ htypes.string
    rw [hget] at hlabel
    cases hlabel
    exact .string hget
  | named hn =>
    obtain ⟨-, -, -, -, -, hstruct⟩ := structNamed?_eq_some hn
    rw [← hty] at hstruct
    obtain ⟨struct, fields, hget₀⟩ := Arena.exists_of_isStruct hstruct
    -- later the struct may have its fields, but it is the same one
    obtain ⟨_, hget, fields', rfl⟩ := hext.types hget₀
    rw [hget] at hlabel
    cases hlabel
    exact .struct hget

theorem Decl.emit_field {d : Decl} (htypes : final.types.Standard) (hext : Extends c₀ final)
    (hd : d.Declares final.types c₀ env r) (hstands : d.StandsFor r) (hs : s.context.types = final.types)
    (h : d.emit s = .ok () t) :
    t.context = s.context ∧ ∃ block, t.backend.items = s.backend.items ++ block ∧
      ∀ label, Symbol.descriptor final.types r.ty = .ok label → r.Described final.types (block, label) := by
  cases d with
  | var site v =>
    obtain ⟨hkind, e, hregistration⟩ := hstands
    -- a field has no storage, and without a value to compute nothing is emitted for it
    have hstorage : v.storage = [] := by
      rw [Variable.storage, hkind]
      rfl
    rw [Decl.emit] at h
    unfold Variable.emit at h
    rw [hstorage, hregistration] at h
    cases h
    exact ⟨rfl, [], (List.append_nil _).symm, fun label => described_of_declaredType htypes hext hd.2.2⟩
  | array site v =>
    obtain ⟨hkind, hty⟩ := hstands
    have hstorage : v.storage = [] := by
      rw [ArrayDecl.storage, hkind]
      rfl
    rw [Decl.emit] at h
    obtain ⟨ty, label, element, sizes, capacity, target, hty', hget, hcapacity, htarget, hsend⟩ :=
      ArrayDecl.emit_eq_ok h
    cases hty.symm.trans hty'
    rw [hs] at hget htarget
    rw [hstorage, List.append_nil] at hsend
    refine ⟨sendAll_context hsend, _, Listing.sendAll_eq_ok hsend, fun l hl => ?_⟩
    -- the label of an array type is the one its own record was written under
    simp only [Symbol.descriptor, hget] at hl
    cases hl
    exact .array hget hcapacity htarget
  | function | struct | data => cases hd

/-- The fields of a struct bring in the descriptions of their arrays, in the order of the text. -/
theorem DeclList.emitFrom_fields {seq : DeclList} {index : Nat} {rs : List Record} (htypes : final.types.Standard)
    (hext : Extends c₀ final) (hd : List.Forall₂ (Decl.Declares final.types c₀ env) (seq.filterMap id) rs)
    (hstands : List.Forall₂ Decl.StandsFor (seq.filterMap id) rs) (hs : s.context.types = final.types)
    (h : DeclList.emitFrom index seq s = .ok () t) :
    t.context = s.context ∧ ∃ blocks, t.backend.items = s.backend.items ++ blocks.flatten ∧
      List.Forall₂ (fun r block => ∀ label, Symbol.descriptor final.types r.ty = .ok label →
        Record.Described final.types r (block, label)) rs blocks := by
  induction seq generalizing index s rs with
  | nil =>
    cases hd
    rw [DeclList.emitFrom] at h
    cases h
    exact ⟨rfl, [], (List.append_nil _).symm, .nil⟩
  | cons slot rest ih =>
    cases slot with
    | none =>
      rw [DeclList.emitFrom] at h
      exact ih hd hstands (s := { s with events := s.events ++ [.skipped index] }) hs h
    | some d =>
      obtain _ | ⟨hhere, hrest⟩ := (show List.Forall₂ _ (d :: rest.filterMap id) rs from hd)
      obtain _ | ⟨hstand, hstands⟩ := (show List.Forall₂ _ (d :: rest.filterMap id) _ from hstands)
      rw [DeclList.emitFrom] at h
      obtain ⟨_, u, hlog, h⟩ := bind_eq_ok.mp h
      cases hlog
      obtain ⟨_, v, hemit, h⟩ := bind_eq_ok.mp h
      -- each field writes a block of its own and issues no label
      obtain ⟨hcontext, block, hitems, hblock⟩ :=
        Decl.emit_field (s := { s with events := s.events ++ [.visited .emit index d.noun] }) htypes hext hhere
          hstand hs (DeclList.guarded_eq_ok.mp hemit)
      obtain ⟨hcontext', blocks, hitems', hblocks⟩ := ih hrest hstands (by rw [hcontext]; exact hs) h
      refine ⟨hcontext'.trans hcontext, block :: blocks, ?_, .cons hblock hblocks⟩
      rw [hitems', hitems, List.flatten_cons, List.append_assoc]

/-- A struct brings in the descriptions of its arrays and then its own, with the labels of its field types. -/
theorem Decl.emit_struct {site : Site} {head : StructHead} {fields : DeclList} {ty : TypeId} {name : String}
    {written : List Decl} {table : Table} (htypes : final.types.Standard) (hty : head.ty = some ty)
    (hlaid : LaidOut final ty name written (fields.filterMap id) table) (hs : Relabels final s.context)
    (h : (Decl.struct site head fields).emit s = .ok () t) :
    ∃ described, List.Forall₂ (Record.Described final.types) table.records described ∧
      t.backend.items = s.backend.items ++ described.flatMap Prod.fst ++
        StructHead.items head.ident (Symbol.generated (s.context.labels + 1))
          (Symbol.generated (s.context.labels + 2)) (described.map Prod.snd) := by
  rw [Decl.emit] at h
  obtain ⟨_, u, hfields, hhead⟩ := bind_eq_ok.mp h
  obtain ⟨c₀, env, hext, -, -, hdeclares⟩ := hlaid.declared
  obtain ⟨hcontext, blocks, hitems, hblocks⟩ :=
    DeclList.emitFrom_fields htypes hext hdeclares hlaid.stands hs.types (adaptExcept_eq_ok.mp hfields)
  obtain ⟨ty', table', labels, hty', htable, hlabels, hsend⟩ := StructHead.emit_eq_ok hhead
  cases hty.symm.trans hty'
  rw [hcontext] at htable hlabels hsend
  obtain ⟨name', hget⟩ := table?_fields htable
  rw [hs.types] at hget hlabels
  cases hlaid.get.symm.trans hget
  have hlength : blocks.length = labels.length := hblocks.length_eq.symm.trans hlabels.length_eq
  refine ⟨blocks.zip labels, forall₂_zip hblocks hlabels fun r block label hblock hlabel => hblock label hlabel, ?_⟩
  rw [Listing.sendAll_eq_ok hsend, List.flatMap_def, List.map_fst_zip (Nat.le_of_eq hlength),
    List.map_snd_zip (Nat.le_of_eq hlength.symm)]
  exact congrArg (· ++ _) hitems

end Fields

end UnitCompiler
