import UnitCompiler.Proofs.CompiledItems
import UnitCompiler.Proofs.ListingState
import UnitCompiler.Proofs.SiblingOrder

namespace UnitCompiler

open Context Emitter

def Emission.textUnder? (label : String) : Emission → Option String
  | .string value symbol => if symbol = label then some value else none
  | _ => none

def textsUnder (label : String) (items : List Emission) : List String :=
  items.filterMap (Emission.textUnder? label)

/-- Reads the records of a data segment one after another: a tag, then the value, or a pointer to the one
payload of a text. -/
def readRecords (payloads : List Emission) : List Emission → Option (List Literal)
  | [] => some []
  | .word tag none :: .word value none :: rest =>
    if tag = 1 then (readRecords payloads rest).map (.int value :: ·)
    else if tag = 2 then (readRecords payloads rest).map (.float ⟨value.toUInt32⟩ :: ·)
    else none
  | .word tag none :: .pointer label :: rest =>
    match textsUnder label payloads with
    | [text] => if tag = 4 then (readRecords payloads rest).map (.string text :: ·) else none
    | _ => none
  | _ => none

/-- The constant that an expression of the unit stands for: a literal for itself, a name for what it is
declared as. -/
def Expr.constant? (c : Context) : Expr → Option Literal
  | .literal value _ => some value
  | .name ident _ => do
    let r ← (c.scope root).decls.get? ident
    let ty ← c.types.get? r.ty
    ty.constant?
  | .new _ _ => none

namespace Decl

def dataExpr? : Decl → Option Expr
  | .data _ d => some d.expr
  | .var _ _ | .function _ _ _ _ | .struct _ _ _ | .array _ _ => none

def constant? : Decl → Option Literal
  | .data _ d => d.constant.map DataConst.value
  | .var _ _ | .function _ _ _ _ | .struct _ _ _ | .array _ _ => none

theorem dataExpr?_of_isStruct (d : Decl) (h : d.isStruct = true) : d.dataExpr? = none := by
  cases d with
  | struct => rfl
  | var | function | data | array => cases h

theorem constant?_of_isStruct (d : Decl) (h : d.isStruct = true) : d.constant? = none := by
  cases d with
  | struct => rfl
  | var | function | data | array => cases h

end Decl

section Constants

variable {c c' : Context}

theorem Expr.constant?_extends {e : Expr} {lit : Literal} (hc : Rooted c)
    (h : e.constant? c = some lit) (hext : Extends c c') : e.constant? c' = some lit := by
  cases e with
  | literal value span => exact h
  | new name span => cases h
  | name ident span =>
    obtain ⟨r, hr, hrest⟩ := Option.bind_eq_some_iff.mp h
    obtain ⟨ty, hty, hconst⟩ := Option.bind_eq_some_iff.mp hrest
    obtain ⟨s, hs, -⟩ := hc
    obtain ⟨s', hs', hbecomes⟩ := hext.scopes hs
    obtain ⟨ty', hty', hty''⟩ := hext.types hty
    have hr' : (c'.scope root).decls.get? ident = some r := by
      rw [scope_eq hs] at hr
      rw [scope_eq hs']
      exact Table.get?_of_prefix hbecomes.decls hr
    cases ty with
    | const value =>
      cases hty''
      simp only [constant?, hr', Option.bind_eq_bind, Option.bind_some, hty']
      exact hconst
    | _ => cases hconst

theorem Expr.constant?_fills {e : Expr} {lit : Literal} {done : TypeId → Prop}
    (h : e.constant? c = some lit) (hfills : Context.Fills done c c') : e.constant? c' = some lit := by
  cases e with
  | literal value span => exact h
  | new name span => cases h
  | name ident span =>
    obtain ⟨r, hr, hrest⟩ := Option.bind_eq_some_iff.mp h
    obtain ⟨ty, hty, hconst⟩ := Option.bind_eq_some_iff.mp hrest
    obtain ⟨ty', hty', hor⟩ := hfills.types hty
    have hsame : ty' = ty := by
      obtain rfl | ⟨-, name, fields, fields', rfl, -⟩ := hor
      · rfl
      · cases hconst
    rw [← (hfills.root not_false).decls] at hr
    simp only [constant?, hr, Option.bind_eq_bind, Option.bind_some, hty', hsame]
    exact hconst

/-- In the outermost scope only names of that scope are found. -/
theorem lookup_root (hc : Rooted c) {name : String} {owner : ScopeId} {r : Record}
    (h : c.lookup root name = some (owner, r)) : (c.scope root).decls.get? name = some r := by
  obtain ⟨howner, hr⟩ := lookup_eq_some h
  rwa [mem_enclosing_root hc howner] at hr

/-- A constant expression of the outermost scope folds to what it stands for. -/
theorem Expr.constant?_of_fold (hc : Rooted c) {e : Expr} {value : Value} {lit : Literal}
    (h : e.check c root = .ok value) (hfold : value.fold? = some lit) : e.constant? c = some lit := by
  cases Expr.check_eq_ok h with
  | literal => exact hfold
  | constant hlookup hty =>
    simp only [constant?, lookup_root hc hlookup, Option.bind_eq_bind, Option.bind_some, hty]
    exact hfold
  | stored | new => cases hfold

theorem DataItem.register_constant (hc : Rooted c) {d d' : DataItem} (h : d.register root c = .ok d' c') :
    ∃ lit, d.expr.constant? c = some lit ∧ d'.constant.map DataConst.value = some lit := by
  unfold DataItem.register at h
  rw [bind_get] at h
  obtain ⟨value, hvalue, h⟩ := CheckM.bind_ofExcept_eq_ok h
  cases hfold : value.fold? with
  | none =>
    rw [hfold] at h
    cases h
  | some lit =>
    rw [hfold] at h
    refine ⟨lit, Expr.constant?_of_fold hc hvalue hfold, ?_⟩
    cases lit with
    | null => cases h
    | string s =>
      obtain ⟨label, t, hlabel, h⟩ := bind_eq_ok.mp h
      cases h
      rfl
    | int v | float v =>
      cases h
      rfl

/-- Registration folds every data expression, and later declarations do not change what it stands for. -/
theorem Decl.Entered.constants {target : Target} {ds ds' : List Decl}
    (h : Decl.Entered root target c ds c' ds') (hc : Rooted c) {final : Context} (hfinal : Extends c' final) :
    (ds.filterMap Decl.dataExpr?).map (Expr.constant? final) = (ds'.filterMap Decl.constant?).map some := by
  induction h with
  | nil => rfl
  | var h _ ih =>
    exact ih (hc.extends (Variable.register_grows h).extends) hfinal
  | array h _ ih =>
    exact ih (hc.extends (ArrayDecl.register_grows h).extends) hfinal
  | struct h _ ih =>
    obtain ⟨i, hins, rfl⟩ := StructHead.register_eq_ok h
    exact ih (hc.extends ((extends_addType ..).trans (extends_insert hins))) hfinal
  | function _ hparams hins _ _ ih =>
    exact ih (hc.extends (((extends_addType ..).trans hparams.extends).trans (extends_insert hins)))
      hfinal
  | @data _ c c₁ c' site d d' ds ds' h rest ih =>
    have hstep : Extends c c₁ := by
      obtain ⟨text, rfl, -⟩ | ⟨lit, -, -, rfl, -⟩ := DataItem.register_eq_ok h
      · exact extends_freshLabel c
      · exact .refl _
    obtain ⟨lit, hlit, hvalue⟩ := DataItem.register_constant hc h
    have hhere : d.expr.constant? final = some lit :=
      Expr.constant?_extends hc hlit ((hstep.trans rest.extends).trans hfinal)
    have hnode : (Decl.data site d').constant? = some lit := hvalue
    rw [List.filterMap_cons_some (show (Decl.data site d).dataExpr? = some d.expr from rfl),
      List.filterMap_cons_some hnode, List.map_cons, List.map_cons, hhere, ih (hc.extends hstep) hfinal]

/-- The data declarations of a sequence are registered in text order. -/
theorem DeclList.filterMap_inOrder {α : Type} {f : Decl → Option α} (hf : ∀ d, d.isStruct = true → f d = none)
    (seq : DeclList) : seq.inOrder.filterMap f = (seq.filterMap id).filterMap f := by
  unfold DeclList.inOrder
  dsimp only
  generalize seq.filterMap id = ds
  induction ds with
  | nil => rfl
  | cons d ds ih =>
    rw [List.filterMap_append] at ih ⊢
    cases hd : d.isStruct with
    | true => simp [hd, hf d hd, ih]
    | false =>
      have hnone : (ds.filter Decl.isStruct).filterMap f = [] := by
        rw [List.filterMap_eq_nil_iff]
        intro d' hd'
        exact hf d' (List.mem_filter.mp hd').2
      rw [hnone, List.nil_append] at ih
      simp [hd, hnone, List.filterMap_cons, ih]

end Constants

/-- Only a data declaration has a constant, and its check leaves it alone. -/
theorem Decl.Accepted.constants {env : ScopeId} {c c' : Context} {ds ds' : List Decl}
    (h : Decl.Accepted env c ds c' ds') : ds'.filterMap Decl.constant? = ds.filterMap Decl.constant? := by
  induction h with
  | nil => rfl
  | leaf _ _ ih => rw [List.filterMap_cons, List.filterMap_cons, ih]
  | struct _ _ _ _ ih => exact ih
  | function _ _ _ ih => exact ih

/-- The whole check keeps what registration has left, the fields of structs apart. -/
theorem DeclList.checkFrom_fills {c : Context} (hc : Flat c) {seq seq' : DeclList}
    (hnodup : ((seq.filterMap id).filterMap Decl.headType?).Nodup)
    (hids : ∀ ty ∈ (seq.filterMap id).filterMap Decl.headType?, ty < c.types.size) {index : Nat}
    {s t : Session} (hs : s.context = c) (h : DeclList.checkFrom root index seq s = (⟨seq', .ok ()⟩, t)) :
    ∃ done, Context.Fills done c t.context := by
  subst hs
  have hpos : 0 < s.context.scopes.length := by
    rw [hc.length]
    exact Nat.one_pos
  have hresumes := DeclList.resumes_self hc hnodup (fun ty hty => ⟨hids ty hty, not_false⟩)
    (.refl (fun _ => False) s.context) hpos
  obtain ⟨seq₁, u, hrun, -, hfills, -⟩ | ⟨e, he, -⟩ :=
    DeclList.checkFrom_lodges hresumes (DeclList.echoes_self _ _) index
  · rw [hrun] at h
    cases h
    exact ⟨_, hfills⟩
  · rw [h] at he
    cases he

namespace Listing

theorem send_eq_push {e : Emission} {s t : Emitter Listing} (h : send e s = .ok () t) :
    s.backend.refusal? e = none ∧ t = { s with backend := s.backend.push e } := by
  have haccept : Backend.accept s.backend e = s.backend.accept e := rfl
  unfold send at h
  rw [haccept, Listing.accept] at h
  cases hr : s.backend.refusal? e with
  | some err => rw [hr] at h; cases h
  | none =>
    rw [hr] at h
    cases h
    exact ⟨rfl, rfl⟩

theorem send_eq_ok {e : Emission} {s t : Emitter Listing} (h : send e s = .ok () t) :
    t.backend.items = s.backend.items ++ [e] := by
  obtain ⟨-, rfl⟩ := send_eq_push h
  rfl

theorem sendAll_eq_ok {es : List Emission} {s t : Emitter Listing} (h : sendAll es s = .ok () t) :
    t.backend.items = s.backend.items ++ es := by
  induction es generalizing s with
  | nil =>
    cases h
    exact (List.append_nil _).symm
  | cons e es ih =>
    obtain ⟨_, u, hsend, hrest⟩ := bind_eq_ok.mp h
    rw [ih hrest, send_eq_ok hsend, List.append_assoc]
    rfl

end Listing

theorem textsUnder_of_not_mem {label : String} {items : List Emission} (h : label ∉ definedBy items) :
    textsUnder label items = [] := by
  unfold textsUnder
  rw [List.filterMap_eq_nil_iff]
  intro e he
  cases e with
  | string value symbol =>
    have hne : symbol ≠ label := fun heq => h (List.mem_filterMap.mpr ⟨_, he, congrArg some heq⟩)
    exact if_neg hne
  | _ => rfl

/-- A label that stands at one item only leads to one text. -/
theorem textsUnder_of_mem {text label : String} {items : List Emission} (hnodup : (definedBy items).Nodup)
    (h : .string text label ∈ items) : textsUnder label items = [text] := by
  induction items with
  | nil => cases h
  | cons e rest ih =>
    have hcons : definedBy (e :: rest) = e.defines?.toList ++ definedBy rest := by
      unfold definedBy
      rw [List.filterMap_cons]
      cases e.defines? <;> rfl
    rw [hcons] at hnodup
    obtain rfl | hmem := List.mem_cons.mp h
    · have hlabel : label ∉ definedBy rest := (List.nodup_cons.mp hnodup).1
      have hhere : Emission.textUnder? label (.string text label) = some text := if_pos rfl
      unfold textsUnder
      rw [List.filterMap_cons_some hhere]
      exact congrArg (text :: ·) (textsUnder_of_not_mem hlabel)
    · have hlabel : label ∈ definedBy rest := List.mem_filterMap.mpr ⟨_, hmem, rfl⟩
      have hhere : e.textUnder? label = none := by
        cases e with
        | string value symbol =>
          refine if_neg fun heq => ?_
          exact (List.nodup_cons.mp hnodup).1 (heq ▸ hlabel)
        | _ => rfl
      unfold textsUnder
      rw [List.filterMap_cons_none hhere]
      exact ih (List.Nodup.of_append_right hnodup) hmem

theorem DataItem.emit_payload {d : DataItem} {text label : String}
    (hd : d.constant = some ⟨.string text, some label⟩) {s t : Emitter Listing} (h : d.emit s = .ok () t) :
    .string text label ∈ t.backend.items := by
  unfold DataItem.emit DataItem.record at h
  rw [hd] at h
  have hitems : t.backend.items = s.backend.items ++ [.string text label] := Listing.send_eq_ok h
  rw [hitems]
  exact List.mem_append_right _ List.mem_cons_self

/-- The emission of a program holds the payload of each of its texts. -/
theorem DeclList.emitFrom_payload {seq : DeclList} {index : Nat} {s t : Emitter Listing}
    (hs : s.backend.Tidy) (h : DeclList.emitFrom index seq s = .ok () t) {site : Site} {d : DataItem}
    (hd : some (.data site d) ∈ seq) {text label : String}
    (hconst : d.constant = some ⟨.string text, some label⟩) : .string text label ∈ t.backend.items := by
  induction seq generalizing index s with
  | nil => cases hd
  | cons slot rest ih =>
    cases slot with
    | none =>
      rw [DeclList.emitFrom] at h
      obtain ⟨_, u, hlog, h⟩ := bind_eq_ok.mp h
      cases hlog
      have hrest := ih (s := { s with events := s.events ++ [.skipped index] }) hs h (by simpa using hd)
      exact hrest
    | some d' =>
      rw [DeclList.emitFrom] at h
      obtain ⟨_, u, hlog, hrun⟩ := bind_eq_ok.mp h
      cases hlog
      obtain ⟨_, u, hhere, hrest⟩ := bind_eq_ok.mp hrun
      have hemit := DeclList.guarded_eq_ok.mp hhere
      have hsent := (d'.emit_stable { s with events := s.events ++ [.visited .emit index d'.noun] }).backend
      rw [after_of_ok hemit] at hsent
      obtain ⟨hu, -⟩ := hs.sent hsent
      obtain heq | hmem := List.mem_cons.mp hd
      · cases heq
        rw [Decl.emit] at hemit
        have hlater := (DeclList.emitFrom_stable (index + 1) rest u).backend
        rw [after_of_ok hrest] at hlater
        -- what has been recorded stays in the listing
        exact (hu.sent hlater).2.subset (DataItem.emit_payload hconst hemit)
      · exact ih hu hrest hmem

theorem DeclList.emit_stable (seq : DeclList) : Stable (seq.emit : PassM Listing Unit) :=
  DeclList.emitFrom_stable 0 seq

theorem DeclList.emit_tidy {seq : DeclList} {debug : Bool} {s t : Emitter Listing}
    (hs : s.backend = Listing.empty debug) (h : seq.emit s = .ok () t) : t.backend.Tidy := by
  have hsent := (seq.emit_stable s).backend
  rw [after_of_ok h, hs] at hsent
  exact ((Listing.tidy_empty debug).sent hsent).1

/-- A new listing that a program was emitted into holds the payload of each text once. -/
theorem DeclList.emit_textsUnder {seq : DeclList} {debug : Bool} {s t : Emitter Listing}
    (hs : s.backend = Listing.empty debug) (h : seq.emit s = .ok () t) {site : Site} {d : DataItem}
    (hd : some (.data site d) ∈ seq) {text label : String}
    (hconst : d.constant = some ⟨.string text, some label⟩) : textsUnder label t.backend.items = [text] := by
  have hempty : s.backend.Tidy := hs ▸ Listing.tidy_empty debug
  have htidy := DeclList.emit_tidy hs h
  exact textsUnder_of_mem (htidy.defined ▸ htidy.nodup) (DeclList.emitFrom_payload hempty h hd hconst)

/-- What the record of one declaration reads back as. -/
theorem DataItem.emitData_reads {d : DataItem} {payloads : List Emission}
    (hpayload : ∀ {text label}, d.constant = some ⟨.string text, some label⟩ →
      textsUnder label payloads = [text])
    {s t : Emitter Listing} (h : d.emitData s = .ok () t) :
    ∃ lit es, d.constant.map DataConst.value = some lit ∧ t.backend.items = s.backend.items ++ es ∧
      ∀ later, readRecords payloads (es ++ later) = (readRecords payloads later).map (lit :: ·) := by
  unfold DataItem.emitData DataItem.record at h
  cases hd : d.constant with
  | none =>
    rw [hd] at h
    cases h
  | some const =>
    rw [hd] at h
    obtain ⟨value, label⟩ := const
    cases value with
    | int v =>
      refine ⟨.int v, _, rfl, Listing.sendAll_eq_ok h, fun later => ?_⟩
      simp [readRecords, RecordTag.value]
    | float x =>
      refine ⟨.float x, _, rfl, Listing.sendAll_eq_ok h, fun later => ?_⟩
      simp [readRecords, RecordTag.value, UInt32.toUInt32_toInt32]
    | null => cases label <;> cases h
    | string text =>
      cases label with
      | none => cases h
      | some label =>
        refine ⟨.string text, _, rfl, Listing.sendAll_eq_ok h, fun later => ?_⟩
        simp [readRecords, RecordTag.value, hpayload hd]

/-- The records of a program read back as its constants, in text order. -/
theorem DeclList.emitData_reads {seq : DeclList} {payloads : List Emission}
    (hpayload : ∀ {site d text label}, some (Decl.data site d) ∈ seq →
      d.constant = some ⟨.string text, some label⟩ → textsUnder label payloads = [text])
    {s t : Emitter Listing} (h : seq.emitData s = .ok () t) :
    ∃ es, t.backend.items = s.backend.items ++ es ∧
      readRecords payloads es = some ((seq.filterMap id).filterMap Decl.constant?) := by
  induction seq generalizing s with
  | nil =>
    cases h
    exact ⟨[], (List.append_nil _).symm, rfl⟩
  | cons slot rest ih =>
    have hrest : ∀ {site d text label}, some (Decl.data site d) ∈ rest →
        d.constant = some ⟨.string text, some label⟩ → textsUnder label payloads = [text] :=
      fun hmem => hpayload (List.mem_cons_of_mem _ hmem)
    cases slot with
    | none => exact ih hrest h
    | some d =>
      obtain ⟨_, u, hhere, h⟩ := bind_eq_ok.mp h
      have hemit := DeclList.guarded_eq_ok.mp hhere
      -- only data write records, and those of the rest follow them
      obtain ⟨es, hes, hread⟩ := ih hrest h
      cases d with
      | data site item =>
        obtain ⟨lit, es', hlit, hes', hread'⟩ := DataItem.emitData_reads
          (fun hconst => hpayload List.mem_cons_self hconst) hemit
        have hconst : (Decl.data site item).constant? = some lit := hlit
        refine ⟨es' ++ es, by rw [hes, hes', List.append_assoc], ?_⟩
        rw [hread', hread]
        simp only [List.filterMap_cons, id_eq, hconst, Option.map_some]
      | var | function | struct | array =>
        cases hemit
        exact ⟨es, hes, hread⟩

/-- Registration finds what the data expressions of a program stand for, and the check does not change it. -/
theorem DeclList.Analyzed.constants {program registered checked : DeclList} {c final : Context}
    (h : program.Analyzed registered checked c final) :
    ((program.filterMap id).filterMap Decl.dataExpr?).map (Expr.constant? final) =
      ((checked.filterMap id).filterMap Decl.constant?).map some := by
  have hentered := h.entered
  obtain ⟨s₁, t₁, hs₁, rfl, hregister⟩ := h.register
  obtain ⟨s₂, t₂, hs₂, rfl, hcheck⟩ := h.check
  have hflat := DeclList.register_flat hs₁ hregister
  obtain ⟨hnodup, hbounds⟩ := hentered.headTypes
  have hheads := (DeclList.inOrder_perm registered).filterMap Decl.headType?
  obtain ⟨done, hfills⟩ := DeclList.checkFrom_fills hflat (hheads.nodup_iff.mp hnodup)
    (fun ty hty => (hbounds ty (hheads.mem_iff.mpr hty)).2) hs₂ hcheck
  have hchecked := (DeclList.checkFrom_accepted hcheck).constants
  have hregistered := hentered.constants rooted_initial (.refl _)
  rw [DeclList.filterMap_inOrder Decl.dataExpr?_of_isStruct, DeclList.filterMap_inOrder Decl.constant?_of_isStruct]
    at hregistered
  rw [hchecked, ← hregistered]
  apply List.map_congr_left
  intro expr hexpr
  have hmem : expr.constant? t₁.context ∈ ((registered.filterMap id).filterMap Decl.constant?).map some := by
    rw [← hregistered]
    exact List.mem_map_of_mem hexpr
  obtain ⟨lit, -, hlit⟩ := List.mem_map.mp hmem
  rw [← hlit]
  exact Expr.constant?_fills hlit.symm hfills

/-- What a compilation writes last reads back, with the payloads written before, as the constants of its data
declarations in text order: those found by registration, which are what their expressions stand for. -/
theorem data_segment_reads_back {program : DeclList} {debug : Bool}
    (h : (({} : Compiler).compile program (Listing.empty debug)).outcome = .ok ()) :
    let code := (({} : Compiler).runAll program (Listing.empty debug) [.register, .check, .emit]).backend
    let r := ({} : Compiler).compile program (Listing.empty debug)
    code.items <+: r.backend.items ∧
    ∃ constants, readRecords code.items (r.backend.itemsFrom code.size) = some constants ∧
      (r.program.filterMap id).filterMap Decl.constant? = constants ∧
      ((program.filterMap id).filterMap Decl.dataExpr?).map (Expr.constant? r.compiler.session.context) =
        constants.map some := by
  intro code r
  obtain ⟨hcode, e', u, hcontext', -, hbackend', hdata, hprogram, hcontext, hbackend⟩ := Compiler.compile_last h
  obtain ⟨registered, c, final, hanalyzed, e, t, he, -, hb, hemit, ht, htb⟩ := Compiler.runAll_emit_stages hcode
  have hr : r.program = _ := hprogram
  have hrc : r.compiler.session.context = u.context := hcontext
  have hrb : r.backend = u.backend := hbackend
  have hcb : code = t.backend := htb
  rw [hr, hrc, hrb]
  generalize (({} : Compiler).runAll program (Listing.empty debug) [.register, .check, .emit]).program =
    checked at hdata hanalyzed hemit
  have htexts : ∀ {site d text label}, some (Decl.data site d) ∈ checked →
      d.constant = some ⟨.string text, some label⟩ → textsUnder label code.items = [text] :=
    fun hmem hconst => hcb ▸ DeclList.emit_textsUnder hb hemit hmem hconst
  obtain ⟨es, hes, hread⟩ := DeclList.emitData_reads htexts hdata
  rw [hbackend', htb, ← hcb] at hes
  refine ⟨hes ▸ List.prefix_append .., _, ?_, rfl, ?_⟩
  · rw [Listing.itemsFrom, hes, Listing.size, List.drop_left]
    exact hread
  · -- the emitting passes hand out labels and change nothing else
    have hkept := (DeclList.emit_stable checked e).context
    have hkept' := (DeclList.emitData_stable checked e').context
    rw [after_of_ok hemit, he] at hkept
    rw [after_of_ok hdata, hcontext', ht] at hkept'
    rw [(hkept.trans hkept').eq]
    exact hanalyzed.constants

/-- A text twice, a NaN with a payload and a name, among a constant, a struct and a function with a text of its
own. -/
def mixedData : DeclList :=
  [some (.data {} { expr := .literal (.string "a") {} }),
    some (.var {} { ident := "k", tag := .int, kind := .union .global .const, init := some (.literal (.int 7) {}) }),
    none,
    some (.struct {} { ident := "S" } []),
    some (.data {} { expr := .literal (.float ⟨0x7fc01234⟩) {} }),
    some (.function {} { ident := "f", tag := .int } [] [.eval (.literal (.string "b") {}) none]),
    some (.data {} { expr := .name "k" {} }),
    some (.data {} { expr := .literal (.string "a") {} })]

theorem data_segment_reads_back_mixedData :
    (({} : Compiler).compile mixedData (Listing.empty true)).outcome = .ok () ∧
    readRecords (({} : Compiler).runAll mixedData (Listing.empty true) [.register, .check, .emit]).backend.items
        ((({} : Compiler).compile mixedData (Listing.empty true)).backend.itemsFrom
          (({} : Compiler).runAll mixedData (Listing.empty true) [.register, .check, .emit]).backend.size) =
      some [.string "a", .float ⟨0x7fc01234⟩, .int 7, .string "a"] := by
  have hok : (({} : Compiler).compile mixedData (Listing.empty true)).outcome = .ok () := by decide +kernel
  have hconstants : ((({} : Compiler).compile mixedData (Listing.empty true)).program.filterMap id).filterMap
      Decl.constant? = [.string "a", .float ⟨0x7fc01234⟩, .int 7, .string "a"] := by decide +kernel
  obtain ⟨-, found, hread, hfound, -⟩ := data_segment_reads_back hok
  exact ⟨hok, hread.trans (congrArg some (hfound.symm.trans hconstants))⟩

end UnitCompiler
