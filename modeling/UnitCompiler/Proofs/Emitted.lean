import UnitCompiler.Proofs.Delivery
import UnitCompiler.Proofs.Promises
import UnitCompiler.Proofs.Lists
import Mathlib.Algebra.Order.BigOperators.GroupWithZero.List
import Mathlib.Algebra.Order.Ring.Nat

namespace UnitCompiler

open Context Emitter

/-- The two causes for which a checked program is refused after all. -/
def Diagnostic.Excused (d : Diagnostic) : Prop :=
  d.kind = .undefinedLabel ∨ d.kind = .invalidArraySize

def EmitError.Excused (e : EmitError) : Prop :=
  ∃ d, e = .diagnostic d ∧ d.Excused

theorem Context.Relabels.jumpSymbol {c c' : Context} (h : Relabels c c') (env : ScopeId) (name : String) :
    c'.jumpSymbol env name = c.jumpSymbol env name := by
  rw [h.eq]
  rfl

theorem Emitter.locate_run {c : Context} {s : Emitter Tape} (hctx : Relabels c s.context) {env : ScopeId}
    {name : String} {place : Ir} (h : location c s.frame env name = .ok place) :
    locate env name s = .ok place s := by
  have hloc : location s.context s.frame env name = .ok place := by
    rw [hctx.eq]
    exact h
  change ofExcept (location s.context s.frame env name) s = _
  rw [hloc]
  rfl

@[simp] theorem Value.labels_conversion (source target : TypeId) (value : Ir) :
    (Value.conversion source target value).labels = value.labels := by
  unfold Value.conversion
  split_ifs <;> simp [Ir.labels, Ir.labelsOfAll]

variable {owed refs : String → Prop} {final : Context} {a : Bool} {s : Emitter Tape}

/-- The code of a ready value refers to what is owed and to the texts written for it. -/
theorem Value.emit_delivers (howed : ∀ l, owed l → refs l) (hctx : Relabels final s.context) {v : Value}
    (hv : v.Ready owed final s.frame) :
    ∃ ir t es, v.emit s = .ok ir t ∧ Writes s t es ∧
      (∀ a, Complete refs [] a a s.context.labels t.context.labels es) ∧
      ∀ l ∈ ir.labels, refs l ∨ l ∈ definedBy es := by
  have hpure : ∀ ir : Ir, (∀ l ∈ ir.labels, refs l) → ∃ ir' t es,
      (pure ir : EmitM Tape Ir) s = .ok ir' t ∧ Writes s t es ∧
      (∀ a, Complete refs [] a a s.context.labels t.context.labels es) ∧
      ∀ l ∈ ir'.labels, refs l ∨ l ∈ definedBy es := by
    intro ir hir
    exact ⟨ir, s, [], rfl, .refl s, fun a => complete_of_eq _ rfl (fun _ h => by cases h) rfl,
      fun l hl => Or.inl (hir l hl)⟩
  induction v with
  | const lit ty =>
    cases lit with
    | int n => exact hpure (.const n) fun l hl => by simp [Ir.labels] at hl
    | float x => exact hpure (.const x.bits.toInt32) fun l hl => by simp [Ir.labels] at hl
    | null => exact hpure (.const 0) fun l hl => by simp [Ir.labels] at hl
    | string text =>
      -- the text is written under a new label, which the code refers to
      refine ⟨_, _, [.string text s.context.freshLabel.1], rfl,
        ⟨relabels_freshLabel _, rfl, rfl, rfl⟩, fun a => ⟨?_, (fun _ h => by cases h), rfl⟩, ?_⟩
      · change List.Perm [s.context.freshLabel.1] (generatedBetween s.context.labels (s.context.labels + 1))
        rw [generatedBetween_succ]
        exact List.Perm.refl _
      · intro l hl
        right
        simpa [Ir.labels, Ir.labelsOfAll, definedBy, Emission.defines?] using hl
  | var env name ty =>
    obtain ⟨place, hplace, hlabels⟩ := hv
    have hrun : (Value.var env name ty).emit s = .ok place s := locate_run hctx hplace
    rw [hrun]
    exact hpure place fun l hl => howed l (hlabels l hl)
  | new ty label =>
    refine hpure (.call Symbol.objectNew [.global label]) fun l hl => ?_
    simp only [Ir.labels, Ir.labelsOfAll, List.append_nil, List.mem_singleton] at hl
    rw [hl]
    exact howed label hv
  | converted inner source target ih =>
    obtain ⟨ir, t, es, hrun, hwrites, hes, hlabels⟩ := ih hv
    refine ⟨Value.conversion source target ir, t, es, ?_, hwrites, hes, ?_⟩
    · rw [Value.emit, bind_of_ok _ hrun]
      rfl
    · simpa using hlabels

/-- Code may refer to the labels of the items before it. -/
theorem Complete.code {labels : List String} {a b : Bool} {lo hi : Nat} {es : List Emission} {tree : Ir}
    (h : Complete refs labels a b lo hi es) (htree : ∀ l ∈ tree.labels, refs l ∨ l ∈ definedBy es) :
    Complete refs labels a b lo hi (es ++ [.code tree]) := by
  have hdefined : definedBy (es ++ [.code tree]) = definedBy es := by
    rw [definedBy_append]
    exact List.append_nil _
  refine ⟨?_, ?_, ?_⟩
  · rw [hdefined]
    exact h.defined
  · intro l hl
    rw [hdefined]
    rw [referredBy_append, List.mem_append] at hl
    obtain hl | hl := hl
    · exact h.refers l hl
    · exact htree l (by simpa [referredBy, Emission.refers] using hl)
  · rw [List.foldlM_append, h.nest]
    rfl

theorem Variable.storage_complete (v : Variable) (n : Nat) :
    Complete refs (v.kind.globalLabel v.ident) a a n n v.storage := by
  unfold Variable.storage Kind.globalLabel
  split
  · exact complete_of_eq n rfl (fun _ h => by cases h) rfl
  · exact complete_of_eq n rfl (fun _ h => by cases h) rfl

theorem ArrayDecl.storage_complete (v : ArrayDecl) (n : Nat) :
    Complete refs (v.kind.globalLabel v.ident) a a n n v.storage := by
  unfold ArrayDecl.storage Kind.globalLabel
  split
  · exact complete_of_eq n rfl (fun _ h => by cases h) rfl
  · exact complete_of_eq n rfl (fun _ h => by cases h) rfl

theorem Variable.emit_delivers (howed : ∀ l, owed l → refs l) (hctx : Relabels final s.context)
    {v : Variable} (hv : v.Ready owed final s.frame) :
    Delivers EmitError.Excused refs (v.kind.globalLabel v.ident) a a True v.emit s := by
  unfold Variable.emit
  have hstorage : Delivers EmitError.Excused refs (v.kind.globalLabel v.ident) a a True
      (sendAll v.storage) s := delivers_sendAll (v.storage_complete _)
  cases hreg : v.registration with
  | none => exact (hstorage.bind fun _ _ _ => delivers_pure).perm (by rw [List.append_nil]) and_self_iff
  | some r =>
    obtain ⟨env, init⟩ := r
    cases init with
    | none =>
      exact (hstorage.bind fun _ _ _ => delivers_pure).perm (by rw [List.append_nil]) and_self_iff
    | some init =>
      obtain ⟨hinit, place, hplace, hlabels⟩ := hv env init hreg
      -- the initial value is computed and stored once the storage has been laid out
      have hstore : ∀ t es, Writes s t es → Delivers EmitError.Excused refs [] a a True (do
          let value ← init.emit
          let target ← locate env v.ident
          send (.code (.store target value))) t := by
        intro t es hwrites
        have hctx := hctx.trans hwrites.context
        rw [← hwrites.frame] at hinit hplace
        obtain ⟨ir, u, es', hrun, hwrites', hes', hir⟩ := Value.emit_delivers howed hctx hinit
        rw [← hwrites'.frame] at hplace
        refine .done trivial ?_ (hwrites'.trans (writes_items u [.code (.store place ir)])) ?_
        · rw [bind_of_ok _ hrun, bind_of_ok _ (locate_run (hctx.trans hwrites'.context) hplace)]
          rfl
        · apply (hes' a).code
          intro l hl
          rw [Ir.labels, List.mem_append] at hl
          obtain hl | hl := hl
          · exact Or.inl (howed l (hlabels l hl))
          · exact hir l hl
      exact (hstorage.bind hstore).perm (by rw [List.append_nil]) and_self_iff

def ArrayDecl.storedSizes (c : Context) (v : ArrayDecl) : Option (List UInt32) :=
  v.ty.bind fun ty => match c.types.get? ty with
    | some (.array _ _ sizes) => some sizes
    | _ => none

/-- The product of the stored sizes is a 32-bit integer. -/
def ArrayDecl.Small (c : Context) (v : ArrayDecl) : Prop :=
  ∃ sizes, v.storedSizes c = some sizes ∧ (sizes.map UInt32.toNat).prod ≤ maxInt32

theorem foldlM_capacity {sizes : List UInt32} (hsizes : ∀ n ∈ sizes, n ≠ 0) {acc : Nat}
    (hpos : 0 < acc) (hacc : acc ≤ maxInt32) :
    sizes.foldlM (fun acc n =>
        if n.toNat ≤ maxInt32 ∧ acc * n.toNat ≤ maxInt32 then some (acc * n.toNat) else none) acc =
      if acc * (sizes.map UInt32.toNat).prod ≤ maxInt32 then
        some (acc * (sizes.map UInt32.toNat).prod) else none := by
  induction sizes generalizing acc with
  | nil => simp [hacc]
  | cons n sizes ih =>
    obtain ⟨hn, hsizes⟩ := List.forall_mem_cons.mp hsizes
    have hn : 0 < n.toNat := Nat.pos_of_ne_zero fun h => hn (UInt32.toNat_inj.mp h)
    rw [List.foldlM_cons, List.map_cons, List.prod_cons, ← Nat.mul_assoc]
    by_cases hle : acc * n.toNat ≤ maxInt32
    · have hn' : n.toNat ≤ maxInt32 := Nat.le_trans (Nat.le_mul_of_pos_left _ hpos) hle
      rw [if_pos ⟨hn', hle⟩]
      exact ih hsizes (Nat.mul_pos hpos hn) hle
    · -- no factor to come is zero, so a product that is too large stays too large
      have hprod : 0 < (sizes.map UInt32.toNat).prod := by
        apply List.prod_pos
        intro m hm
        obtain ⟨k, hk, rfl⟩ := List.mem_map.mp hm
        exact Nat.pos_of_ne_zero fun h => hsizes k hk (UInt32.toNat_inj.mp h)
      have hgt : ¬ acc * n.toNat * (sizes.map UInt32.toNat).prod ≤ maxInt32 :=
        fun h => hle (Nat.le_trans (Nat.le_mul_of_pos_right _ hprod) h)
      rw [if_neg fun h => hle h.2, if_neg hgt]
      rfl

/-- Sizes are never zero, so no product on the way is larger than the last one. -/
theorem capacity?_eq {sizes : List UInt32} (hsizes : ∀ n ∈ sizes, n ≠ 0) :
    capacity? sizes = if (sizes.map UInt32.toNat).prod ≤ maxInt32 then
      some (sizes.map UInt32.toNat).prod else none := by
  have h := foldlM_capacity hsizes Nat.one_pos (show 1 ≤ maxInt32 by decide)
  rw [Nat.one_mul] at h
  exact h

@[simp] theorem bind_freshLabel {β γ : Type} (f : String → EmitM β γ) (s : Emitter β) :
    (freshLabel >>= f) s = f s.context.freshLabel.1 { s with context := s.context.freshLabel.2 } := rfl

/-- The descriptor of an array whose capacity is a 32-bit integer. -/
theorem ArrayDecl.emit_of_capacity {β : Type} [Backend β] {s : Emitter β} {v : ArrayDecl} {ty element : TypeId}
    {label pointer : String} {sizes : List UInt32} {capacity : Nat} (hty : v.ty = some ty)
    (hget : s.context.types.get? ty = some (.array label element sizes)) (hcapacity : capacity? sizes = some capacity)
    (hpointer : Symbol.descriptor s.context.types element = .ok pointer) :
    v.emit s = sendAll ([.align wordSize, .word RecordTag.arrayType.value (some label),
      .word (Int32.ofNat capacity) none, .pointer pointer] ++ v.storage) s := by
  unfold ArrayDecl.emit
  rw [bind_get]
  simp only [hty, hget, hcapacity, hpointer]
  rfl

/-- Without a capacity nothing at all is emitted. -/
theorem ArrayDecl.emit_of_overflow {β : Type} [Backend β] {s : Emitter β} {v : ArrayDecl} {ty element : TypeId}
    {label : String} {sizes : List UInt32} (hty : v.ty = some ty)
    (hget : s.context.types.get? ty = some (.array label element sizes)) (hcapacity : capacity? sizes = none) :
    v.emit s = .error (.diagnostic .capacityOverflow) s := by
  unfold ArrayDecl.emit
  rw [bind_get]
  simp only [hty, hget, hcapacity]
  rfl

theorem ArrayDecl.emit_delivers (hfinal : Covered owed final)
    (hrefs : ∀ l, owed l ∨ l ∈ Symbol.provided → refs l) (hctx : Relabels final s.context)
    {v : ArrayDecl} (hv : v.Ready final) :
    Delivers EmitError.Excused refs ((v.typeLabel final).toList ++ v.kind.globalLabel v.ident) a a
      (v.Small final) v.emit s := by
  obtain ⟨ty, label, element, sizes, hty, hget⟩ := hv
  obtain ⟨-, helement, hsizes⟩ := hfinal.types hget
  have hlabel : v.typeLabel final = some label := by
    simp [ArrayDecl.typeLabel, hty, hget, Ty.arrayLabel?]
  have hstored : v.storedSizes final = some sizes := by
    simp [ArrayDecl.storedSizes, hty, hget]
  obtain ⟨descriptor, hdescriptor, howed⟩ := Arena.Describes.descriptor hfinal (Or.inl helement)
  rw [← hctx.types] at hget hdescriptor
  -- the capacity is checked before anything is sent
  by_cases hsmall : (sizes.map UInt32.toNat).prod ≤ maxInt32
  · have hcapacity := (capacity?_eq hsizes).trans (if_pos hsmall)
    have hrun := ArrayDecl.emit_of_capacity hty hget hcapacity hdescriptor
    refine .done ⟨sizes, hstored, hsmall⟩ (hrun.trans (sendAll_tape _ s)) (writes_items s _) ?_
    rw [hlabel]
    refine Complete.append (complete_of_eq _ rfl ?_ rfl) (v.storage_complete _) (Nat.le_refl _)
      (Nat.le_refl _)
    intro l hl
    obtain rfl : l = descriptor := by simpa [referredBy, Emission.refers] using hl
    exact Or.inl (hrefs l howed)
  · have hcapacity := (capacity?_eq hsizes).trans (if_neg hsmall)
    have hrun := ArrayDecl.emit_of_overflow hty hget hcapacity
    refine .failed ?_ hrun ⟨_, rfl, Or.inr rfl⟩ (.refl s) ⟨List.nil_subperm, rfl⟩
    rintro ⟨sizes', hstored', hsmall'⟩
    cases hstored.symm.trans hstored'
    exact hsmall hsmall'

theorem DataItem.emit_delivers {d : DataItem} (hd : d.Ready) :
    Delivers EmitError.Excused refs (d.constant.bind DataConst.label).toList a a True d.emit s := by
  obtain ⟨text, label, hconst⟩ | ⟨lit, hconst, hnull, htext⟩ := hd
  · have hrun : d.emit s = sendAll [.string text label] s := by
      unfold DataItem.emit DataItem.record
      rw [hconst]
      rfl
    rw [hconst]
    exact .congr hrun (delivers_sendAll (complete_of_eq _ rfl (fun _ h => by cases h) rfl))
  · have hrun : d.emit s = (pure () : EmitM Tape Unit) s := by
      unfold DataItem.emit DataItem.record
      rw [hconst]
      cases lit with
      | string text => exact absurd rfl (htext text)
      | int | float | null => rfl
    rw [hconst]
    exact .congr hrun delivers_pure

/-- The record of a constant refers to the text that was written before. -/
theorem DataItem.emitData_delivers {d : DataItem} (hd : d.Ready)
    (hrefs : ∀ l ∈ d.constant.bind DataConst.label, refs l) :
    Delivers EmitError.Excused refs [] a a True d.emitData s := by
  obtain ⟨text, label, hconst⟩ | ⟨lit, hconst, hnull, htext⟩ := hd
  · have hrun : d.emitData s = sendAll [.word RecordTag.string.value none, .pointer label] s := by
      unfold DataItem.emitData DataItem.record
      rw [hconst]
      rfl
    refine .congr hrun (delivers_sendAll (complete_of_eq _ rfl ?_ rfl))
    intro l hl
    obtain rfl : l = label := by simpa [referredBy, Emission.refers] using hl
    exact Or.inl (hrefs l (by rw [hconst]; rfl))
  · -- a number is written as it is, behind the tag of its type
    have hrun : ∃ tag value, d.emitData s = sendAll [.word tag none, .word value none] s := by
      unfold DataItem.emitData DataItem.record
      rw [hconst]
      cases lit with
      | string text => exact absurd rfl (htext text)
      | null => exact absurd rfl hnull
      | int v => exact ⟨_, _, rfl⟩
      | float x => exact ⟨_, _, rfl⟩
    obtain ⟨tag, value, hrun⟩ := hrun
    exact .congr hrun (delivers_sendAll (complete_of_eq _ rfl (fun _ h => by cases h) rfl))

/-- Every field of a declared struct has a descriptor. -/
theorem StructHead.fieldDescriptors (hfinal : Covered owed final) {ty : TypeId} {name : String}
    {fields : Table} (hty : TypeId.null < ty)
    (hget : final.types.get? ty = some (.struct name fields)) :
    ∃ descriptors, fields.records.mapM (StructHead.fieldDescriptor final.types) = .ok descriptors ∧
      ∀ l ∈ descriptors, owed l ∨ l ∈ Symbol.provided := by
  have hfield : ∀ r ∈ fields.records, ∃ label, StructHead.fieldDescriptor final.types r = .ok label ∧
      (owed label ∨ label ∈ Symbol.provided) := by
    intro r hr
    obtain ⟨label, hlabel, howed⟩ := Arena.Describes.descriptor hfinal ((hfinal.types hget hty).2 r hr)
    refine ⟨label, ?_, howed⟩
    rw [StructHead.fieldDescriptor, hlabel]
    rfl
  obtain ⟨descriptors, hds⟩ := exists_mapM_eq_ok fun r hr => (hfield r hr).imp fun _ h => h.1
  refine ⟨descriptors, hds, fun l hl => ?_⟩
  obtain ⟨r, hr, hrl⟩ := exists_of_mapM_eq_ok hds hl
  obtain ⟨label, hlabel, howed⟩ := hfield r hr
  cases hrl.symm.trans hlabel
  exact howed

def StructHead.items (ident used free : String) (descriptors : List String) : List Emission :=
  [.align wordSize, .word RecordTag.structType.value (some (Symbol.struct ident))] ++
    StructHead.listHead used ++ StructHead.listHead free ++
    [.word (Int32.ofNat descriptors.length) none] ++ descriptors.map Emission.pointer ++
    descriptors.map Emission.pointer

theorem StructHead.emit_run {β : Type} [Backend β] {s : Emitter β} {h : StructHead} {ty : TypeId} {fields : Table}
    {descriptors : List String} (hty : h.ty = some ty) (htable : s.context.table? (.fields ty) = some fields)
    (hds : fields.records.mapM (StructHead.fieldDescriptor s.context.types) = .ok descriptors) :
    h.emit s = sendAll (StructHead.items h.ident s.context.freshLabel.1
      s.context.freshLabel.2.freshLabel.1 descriptors)
      { s with context := s.context.freshLabel.2.freshLabel.2 } := by
  unfold StructHead.emit
  rw [bind_get]
  simp only [hty, htable, hds]
  rw [bind_of_ok _ (show ofExcept (.ok descriptors) s = .ok descriptors s from rfl),
    bind_freshLabel, bind_freshLabel, StructHead.items]

@[simp] theorem definedBy_pointers (ls : List String) : definedBy (ls.map Emission.pointer) = [] := by
  induction ls with
  | nil => rfl
  | cons l ls ih => exact ih

@[simp] theorem referredBy_pointers (ls : List String) : referredBy (ls.map Emission.pointer) = ls := by
  induction ls with
  | nil => rfl
  | cons l ls ih => exact congrArg (l :: ·) ih

theorem complete_pointers {ls : List String} (n : Nat) (hls : ∀ l ∈ ls, refs l) :
    Complete refs [] a a n n (ls.map Emission.pointer) := by
  refine complete_of_eq n (definedBy_pointers ls) ?_ ?_
  · rw [referredBy_pointers]
    exact fun l hl => Or.inl (hls l hl)
  · induction ls with
    | nil => rfl
    | cons l ls ih => exact ih (List.forall_mem_cons.mp hls).2

theorem StructHead.items_complete (ident : String) {descriptors : List String}
    (hds : ∀ l ∈ descriptors, refs l) (n : Nat) :
    Complete refs [Symbol.struct ident] a a n (n + 2)
      (StructHead.items ident (Symbol.generated (n + 1)) (Symbol.generated (n + 2)) descriptors) := by
  have hlist : ∀ k, Complete refs [] a a k (k + 1) (StructHead.listHead (Symbol.generated (k + 1))) := by
    intro k
    refine ⟨?_, ?_, rfl⟩
    · rw [generatedBetween_succ]
      exact List.Perm.refl _
    · intro l hl
      right
      simpa [StructHead.listHead, referredBy, definedBy, Emission.refers, Emission.defines?] using hl
  have htag : Complete refs [Symbol.struct ident] a a n n [.align wordSize,
      .word RecordTag.structType.value (some (Symbol.struct ident))] :=
    complete_of_eq n rfl (fun _ h => by cases h) rfl
  have hcount : Complete refs [] a a (n + 2) (n + 2) [.word (Int32.ofNat descriptors.length) none] :=
    complete_of_eq _ rfl (fun _ h => by cases h) rfl
  have hpointers : Complete refs [] a a (n + 2) (n + 2) (descriptors.map Emission.pointer) :=
    complete_pointers _ hds
  have hlists := (htag.append (hlist n) (Nat.le_refl _) (Nat.le_succ _)).append (hlist (n + 1))
    (Nat.le_succ _) (Nat.le_succ _)
  have htwo : n ≤ n + 2 := Nat.le_add_right _ _
  exact ((hlists.append hcount htwo (Nat.le_refl _)).append hpointers htwo (Nat.le_refl _)).append
    hpointers htwo (Nat.le_refl _)

theorem StructHead.emit_delivers (hfinal : Covered owed final)
    (hrefs : ∀ l, owed l ∨ l ∈ Symbol.provided → refs l) (hctx : Relabels final s.context)
    {h : StructHead} (hh : h.Ready final) :
    Delivers EmitError.Excused refs [Symbol.struct h.ident] a a True h.emit s := by
  obtain ⟨ty, fields, hty, hlt, hget⟩ := hh
  obtain ⟨descriptors, hds, howed⟩ := StructHead.fieldDescriptors hfinal hlt hget
  have htable : s.context.table? (.fields ty) = some fields := by
    simp only [Context.table?, hctx.types, hget]
  rw [← hctx.types] at hds
  have hrun := StructHead.emit_run hty htable hds
  have hwrites := writes_items { s with context := s.context.freshLabel.2.freshLabel.2 }
    (StructHead.items h.ident s.context.freshLabel.1 s.context.freshLabel.2.freshLabel.1 descriptors)
  refine .done trivial (hrun.trans (sendAll_tape _ _)) ?_
    (StructHead.items_complete h.ident (fun l hl => hrefs l (howed l hl)) s.context.labels)
  exact ⟨⟨rfl, rfl, Nat.le_add_right _ 2⟩, rfl, rfl, hwrites.items⟩

def Decl.array? : Decl → Option ArrayDecl
  | .array _ v => some v
  | .var _ _ | .data _ _ | .struct _ _ _ | .function _ _ _ _ => none

def Stmt.array? : Stmt → Option ArrayDecl
  | .declare d => d.array?
  | .block _ _ | .goto _ _ _ | .label _ _ _ | .eval _ _ => none

/-- The arrays that a declaration declares, those among its fields or in its body included. -/
def Decl.arrays : Decl → List ArrayDecl
  | .array _ v => [v]
  | .struct _ _ fields => (fields.filterMap id).filterMap Decl.array?
  | .function _ _ _ body => (Stmt.atomsOfAll body).filterMap Stmt.array?
  | .var _ _ | .data _ _ => []

theorem Decl.emit_delivers_leaf (hfinal : Covered owed final)
    (hrefs : ∀ l, owed l ∨ l ∈ Symbol.provided → refs l) (hctx : Relabels final s.context)
    {d : Decl} (hd : d.LeafReady owed final s.frame) :
    Delivers EmitError.Excused refs (d.headLabels final) a a (∀ v ∈ d.array?, v.Small final) d.emit s := by
  cases d with
  | var site v =>
    rw [Decl.emit]
    exact (v.emit_delivers (fun l hl => hrefs l (Or.inl hl)) hctx hd).perm (List.Perm.refl _)
      (by simp [Decl.array?])
  | array site v =>
    rw [Decl.emit]
    exact (v.emit_delivers hfinal hrefs hctx hd).perm (List.Perm.refl _) (by simp [Decl.array?])
  | data site d =>
    rw [Decl.emit]
    exact (d.emit_delivers hd).perm (List.Perm.refl _) (by simp [Decl.array?])
  | struct | function => cases hd

theorem EmitError.Excused.mapDiagnostic {f : Diagnostic → Diagnostic} (hf : ∀ d, (f d).kind = d.kind)
    {e : EmitError} (h : e.Excused) : (e.mapDiagnostic f).Excused := by
  obtain ⟨d, rfl, hd⟩ := h
  refine ⟨f d, rfl, ?_⟩
  unfold Diagnostic.Excused at hd ⊢
  rwa [hf d]

def Stmt.targets (c : Context) : Stmt → List String
  | .goto name _ env => env.toList.map fun e => c.jumpSymbol e name
  | .declare _ | .block _ _ | .label _ _ _ | .eval _ _ => []

mutual

theorem Stmt.emit_delivers (hfinal : Covered owed final)
    (hrefs : ∀ l, owed l ∨ l ∈ Symbol.provided → refs l) {func : ScopeId} :
    ∀ (stmt : Stmt) (s : Emitter Tape), Relabels final s.context →
      (∀ x ∈ stmt.atoms, x.Ready owed final s.frame func) →
      (∀ x ∈ stmt.atoms, ∀ l ∈ x.targets final, refs l) →
      Delivers EmitError.Excused refs (stmt.atoms.flatMap (Stmt.labels final)) a a
        (∀ v ∈ stmt.atoms.filterMap Stmt.array?, v.Small final) stmt.emit s
  | .declare d, s, hctx, hready, hjumps => by
    rw [Stmt.emit]
    have hd := Decl.emit_delivers_leaf hfinal hrefs hctx (hready _ List.mem_cons_self) (a := a)
    have hstamp := hd.adaptExcept fun e he => he.mapDiagnostic (f := d.stamp) fun _ => rfl
    exact hstamp.perm (by simp [Stmt.atoms, Stmt.labels]) (by simp [Stmt.atoms, Stmt.array?])
  | .block body span, s, hctx, hready, hjumps => by
    rw [Stmt.emit]
    exact Stmt.emitAll_delivers hfinal hrefs body s hctx hready hjumps
  | .goto name span env, s, hctx, hready, hjumps => by
    obtain ⟨e, rfl, -⟩ := hready _ List.mem_cons_self
    -- the target is one of the labels that the function promises
    have htarget := hjumps _ List.mem_cons_self _ List.mem_cons_self
    refine .done (by simp [Stmt.atoms, Stmt.array?]) ?_
      (writes_items s [.code (.jump (s.context.jumpSymbol e name))]) (complete_of_eq _ rfl ?_ rfl)
    · rw [Stmt.emit]
      rfl
    · intro l hl
      rw [hctx.jumpSymbol] at hl
      rw [show l = final.jumpSymbol e name by simpa [referredBy, Emission.refers, Ir.labels] using hl]
      exact Or.inl htarget
  | .label name span env, s, hctx, hready, hjumps => by
    obtain ⟨e, rfl, -⟩ := hready _ List.mem_cons_self
    refine .done (by simp [Stmt.atoms, Stmt.array?]) ?_
      (writes_items s [.label (s.context.jumpSymbol e name)])
      (complete_of_eq _ ?_ (fun _ h => by cases h) rfl)
    · rw [Stmt.emit]
      rfl
    · rw [hctx.jumpSymbol]
      rfl
  | .eval e checked, s, hctx, hready, hjumps => by
    obtain ⟨value, rfl, hvalue⟩ := hready _ List.mem_cons_self
    obtain ⟨ir, t, es, hrun, hwrites, hes, hir⟩ :=
      Value.emit_delivers (fun l hl => hrefs l (Or.inl hl)) hctx hvalue
    refine .done (by simp [Stmt.atoms, Stmt.array?]) ?_ (hwrites.trans (writes_items t [.code ir]))
      ((hes a).code hir)
    rw [Stmt.emit, bind_of_ok _ hrun]
    rfl

theorem Stmt.emitAll_delivers (hfinal : Covered owed final)
    (hrefs : ∀ l, owed l ∨ l ∈ Symbol.provided → refs l) {func : ScopeId} :
    ∀ (body : List Stmt) (s : Emitter Tape), Relabels final s.context →
      (∀ x ∈ Stmt.atomsOfAll body, x.Ready owed final s.frame func) →
      (∀ x ∈ Stmt.atomsOfAll body, ∀ l ∈ x.targets final, refs l) →
      Delivers EmitError.Excused refs ((Stmt.atomsOfAll body).flatMap (Stmt.labels final)) a a
        (∀ v ∈ (Stmt.atomsOfAll body).filterMap Stmt.array?, v.Small final) (Stmt.emitAll body) s
  | [], s, hctx, hready, hjumps => by
    rw [Stmt.emitAll]
    exact delivers_pure.perm (List.Perm.refl _) (by simp [Stmt.atomsOfAll])
  | stmt :: rest, s, hctx, hready, hjumps => by
    rw [Stmt.atomsOfAll, List.forall_mem_append] at hready hjumps
    have hstmt := Stmt.emit_delivers hfinal hrefs stmt s hctx hready.1 hjumps.1
    have hpos := hstmt.adaptExcept fun e he =>
      he.mapDiagnostic (f := fun d => d.withPosition stmt.span) fun _ => rfl
    rw [Stmt.emitAll]
    refine (hpos.bind fun t es hwrites => ?_).perm
      (by rw [Stmt.atomsOfAll, List.flatMap_append])
      (by rw [Stmt.atomsOfAll, List.filterMap_append, List.forall_mem_append])
    have hrest := hready.2
    rw [← hwrites.frame] at hrest
    exact Stmt.emitAll_delivers hfinal hrefs rest t (hctx.trans hwrites.context) hrest hjumps.2

end

end UnitCompiler
