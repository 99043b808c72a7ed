import UnitCompiler.Proofs.CompleteRegistration
import UnitCompiler.Proofs.Emitted
import Mathlib.Algebra.Ring.Int.Defs

namespace UnitCompiler

open Context Emitter

def Expr.FoldsTo (c : Context) (env : ScopeId) (e : Expr) (d : Int32) : Prop :=
  ∃ value lit, e.check c env = .ok value ∧ value.fold? = some lit ∧ lit.toInt32 = d

namespace ArrayDecl

def size (d : Int32) : UInt32 := d.toUInt32 + 1

/-- The size of the largest dimension is no signed word any more, but it is still an unsigned one. -/
theorem toNat_size {d : Int32} (hd : 0 ≤ d) : ((size d).toNat : Int) = d.toInt + 1 := by
  have hnat : d.toUInt32.toNat = d.toInt.toNat := Int32.toNat_toUInt32_of_le hd
  have hle : 0 ≤ d.toInt := Int32.le_iff_toInt_le.mp hd
  have hlt : d.toInt < 2 ^ 31 := d.toInt_lt
  rw [size, UInt32.toNat_add, hnat, UInt32.toNat_one]
  omega

theorem size_ne_zero {d : Int32} (hd : 0 ≤ d) : size d ≠ 0 := by
  intro hzero
  have hsize := toNat_size hd
  have hle : 0 ≤ d.toInt := Int32.le_iff_toInt_le.mp hd
  rw [hzero, UInt32.toNat_zero] at hsize
  omega

def capacityOf (ds : List Int32) : Int := (ds.map fun d => d.toInt + 1).prod

theorem prod_sizes {ds : List Int32} (hds : ∀ d ∈ ds, 0 ≤ d) :
    (((ds.map size).map UInt32.toNat).prod : Int) = capacityOf ds := by
  induction ds with
  | nil => rfl
  | cons d ds ih =>
    obtain ⟨hd, hds⟩ := List.forall_mem_cons.mp hds
    have hrest := ih hds
    simp only [capacityOf, List.map_cons, List.prod_cons, Int.natCast_mul] at hrest ⊢
    rw [toNat_size hd, hrest]

theorem capacity?_sizes {ds : List Int32} (hds : ∀ d ∈ ds, 0 ≤ d) :
    (capacityOf ds ≤ maxInt32 → ∃ n, capacity? (ds.map size) = some n ∧ (Int32.ofNat n).toInt = capacityOf ds) ∧
    (maxInt32 < capacityOf ds → capacity? (ds.map size) = none) := by
  have hsizes : ∀ n ∈ ds.map size, n ≠ 0 := by
    intro n hn
    obtain ⟨d, hd, rfl⟩ := List.mem_map.mp hn
    exact size_ne_zero (hds d hd)
  rw [capacity?_eq hsizes, ← prod_sizes hds]
  refine ⟨fun hle => ?_, fun hlt => if_neg (Nat.not_le.mpr (Int.ofNat_lt.mp hlt))⟩
  have hle := Int.ofNat_le.mp hle
  exact ⟨_, if_pos hle, Int32.toInt_ofNat_of_lt (Nat.lt_succ_of_le hle)⟩

section Register

variable {c : Context} {env : ScopeId} {e : Expr} {es : List Expr} {d : Int32} {ds : List Int32}

theorem dimension_of_nonneg (h : e.FoldsTo c env d) (hd : 0 ≤ d) : dimension c env e = .ok (size d) := by
  obtain ⟨value, lit, hcheck, hfold, rfl⟩ := h
  simp only [dimension, hcheck, bind, Except.bind, hfold, if_neg (Int32.not_lt.mpr hd)]
  rfl

theorem dimension_of_neg (h : e.FoldsTo c env d) (hd : d < 0) :
    dimension c env e = .error (Diagnostic.negativeSize.located e.span) := by
  obtain ⟨value, lit, hcheck, hfold, rfl⟩ := h
  simp only [dimension, hcheck, bind, Except.bind, hfold, if_pos hd]

theorem dimensions_of_nonneg (h : List.Forall₂ (Expr.FoldsTo c env) es ds) (hds : ∀ d ∈ ds, 0 ≤ d) :
    es.mapM (dimension c env) = .ok (ds.map size) := by
  induction h with
  | nil => rfl
  | cons he _ ih =>
    obtain ⟨hd, hds⟩ := List.forall_mem_cons.mp hds
    rw [List.mapM_cons, dimension_of_nonneg he hd, ih hds]
    rfl

/-- The first negative dimension is reported. -/
theorem dimensions_of_neg (h : List.Forall₂ (Expr.FoldsTo c env) es ds) (hneg : ∃ d ∈ ds, d < 0) :
    ∃ e ∈ es, es.mapM (dimension c env) = .error (Diagnostic.negativeSize.located e.span) := by
  induction h with
  | nil =>
    obtain ⟨_, hd, -⟩ := hneg
    cases hd
  | @cons e d es ds he _ ih =>
    by_cases hd : d < 0
    · refine ⟨e, List.mem_cons_self, ?_⟩
      rw [List.mapM_cons, dimension_of_neg he hd]
      rfl
    · have hrest : ∃ d ∈ ds, d < 0 := by simpa [hd] using hneg
      obtain ⟨e', he', hmap⟩ := ih hrest
      refine ⟨e', List.mem_cons_of_mem _ he', ?_⟩
      rw [List.mapM_cons, dimension_of_nonneg he (Int32.not_lt.mp hd), hmap]
      rfl

variable {v : ArrayDecl} {target : Target} {table : Table} {element : TypeId}

/-- An array with a type for its elements and a free name is registered if all its sizes are known. -/
theorem register_of_sizes {sizes : List UInt32} (helement : c.declaredType v.tag env = .ok element)
    (htable : c.table? target = some table) (hname : table.contains v.ident = false)
    (hsizes : v.dims.mapM (dimension c env) = .ok sizes) : ∃ v' c', v.register env target c = .ok v' c' := by
  let c₁ := (c.freshLabel.2.addType env (.array c.freshLabel.1 element sizes)).2
  let r : Record := { name := v.ident, ty := c.types.size, kind := v.kind }
  let c₂ := c₁.setTable target ⟨table.records ++ [r]⟩
  have hinsert : c₁.insert target r "identifier" = .ok (table.size, c₂) := by
    have htable₁ : c₁.table? target = some table := table?_addType (c := c.freshLabel.2) htable env _
    simp only [Context.insert, htable₁, Table.insert, r, hname]
    rfl
  have hfinish : CheckM.insertOrRelease c.types.mark target r "identifier" c₁ = .ok () c₂ := by
    simp only [CheckM.insertOrRelease, hinsert]
  refine ⟨{ v with ty := some c.types.size }, c₂, ?_⟩
  have hty : CheckM.ofExcept (c.declaredType v.tag env) c = .ok element c := by rw [helement]; rfl
  have hdims : CheckM.ofExcept (v.dims.mapM (dimension c env)) c = .ok sizes c := by rw [hsizes]; rfl
  exact (bind_of_ok _ hty).trans ((bind_of_ok _ hdims).trans (bind_of_ok _ hfinish))

theorem register_of_error {d : Diagnostic} (helement : c.declaredType v.tag env = .ok element)
    (hsizes : v.dims.mapM (dimension c env) = .error d) : v.register env target c = .error d c := by
  have hty : CheckM.ofExcept (c.declaredType v.tag env) c = .ok element c := by rw [helement]; rfl
  have hdims : CheckM.ofExcept (v.dims.mapM (dimension c env)) c = .error d c := by rw [hsizes]; rfl
  exact (bind_of_ok _ hty).trans (bind_of_error _ hdims)

end Register

end ArrayDecl

/-- A type that a declaration can name has a descriptor, also in every later context. -/
theorem Arena.Declarable.descriptor {c c' : Context} {ty : TypeId} (h : c.types.Declarable ty)
    (htypes : c.types.Standard) (hext : Extends c c') : ∃ label, Symbol.descriptor c'.types ty = .ok label := by
  cases h with
  | int =>
    obtain ⟨_, hget, rfl⟩ := hext.types htypes.int
    exact ⟨Symbol.intType, by simp only [Symbol.descriptor, hget]⟩
  | float =>
    obtain ⟨_, hget, rfl⟩ := hext.types htypes.float
    exact ⟨Symbol.floatType, by simp only [Symbol.descriptor, hget]⟩
  | string =>
    obtain ⟨_, hget, rfl⟩ := hext.types htypes.string
    exact ⟨Symbol.stringType, by simp only [Symbol.descriptor, hget]⟩
  | struct hstruct =>
    obtain ⟨name, fields, hget₀⟩ := Arena.exists_of_isStruct hstruct
    obtain ⟨_, hget, fields', rfl⟩ := hext.types hget₀
    exact ⟨Symbol.struct name, by simp only [Symbol.descriptor, hget]⟩

/-- A backend that takes everything gets the items one after another. -/
theorem Emitter.sendAll_of_accepts {β : Type} [Backend β] (haccept : ∀ (b : β) e, (Backend.accept b e).1 = .ok ())
    (es : List Emission) (s : Emitter β) :
    sendAll es s = .ok () { s with backend := es.foldl (fun b e => (Backend.accept b e).2) s.backend } := by
  induction es generalizing s with
  | nil => rfl
  | cons e es ih =>
    have hsend : send e s = .ok () { s with backend := (Backend.accept s.backend e).2 } := by
      have hok := haccept s.backend e
      rcases haccepted : Backend.accept s.backend e with ⟨outcome, b⟩
      obtain rfl : outcome = .ok () := by rwa [haccepted] at hok
      simp only [send, haccepted]
    exact (bind_of_ok _ hsend).trans (ih _)

/-- The capacity of an array is exact or refused. The dimensions may be any constants: registration succeeds exactly
if none of them is negative, and stores for each the number of its indices. From then on, in any later state and into
any backend, the word behind the tag of the descriptor is the product of these numbers if that is a signed word;
otherwise the array is refused and nothing is emitted. -/
theorem array_capacity_exact {c : Context} (hc : Moves .initial c) {v : ArrayDecl} {env : ScopeId} {element : TypeId}
    (helement : c.declaredType v.tag env = .ok element) {target : Target} {table : Table}
    (htable : c.table? target = some table) (hname : table.contains v.ident = false) {ds : List Int32}
    (hdims : List.Forall₂ (Expr.FoldsTo c env) v.dims ds) :
    ((∃ v' c', v.register env target c = .ok v' c') ↔ ∀ d ∈ ds, 0 ≤ d) ∧
    ((∃ d ∈ ds, d < 0) → ∃ e ∈ v.dims,
      v.register env target c = .error (Diagnostic.negativeSize.located e.span) c) ∧
    ∀ v' c', v.register env target c = .ok v' c' → ∃ ty label sizes, v' = { v with ty := some ty } ∧
      c'.types.get? ty = some (.array label element sizes) ∧
      sizes.map (fun n => (n.toNat : Int)) = ds.map (fun d => d.toInt + 1) ∧
      ∀ {β : Type} [Backend β] (s : Emitter β), Extends c' s.context →
        let capacity := (ds.map fun d => d.toInt + 1).prod
        (capacity ≤ 2 ^ 31 - 1 → ∃ word pointer, word.toInt = capacity ∧
          Symbol.descriptor s.context.types element = .ok pointer ∧
          let items := [.align wordSize, .word RecordTag.arrayType.value (some label), .word word none,
            .pointer pointer] ++ v'.storage
          v'.emit s = sendAll items s ∧
          ((∀ (b : β) e, (Backend.accept b e).1 = .ok ()) → v'.emit s =
            .ok () { s with backend := items.foldl (fun b e => (Backend.accept b e).2) s.backend })) ∧
        (2 ^ 31 - 1 < capacity → v'.emit s =
          .error (.diagnostic ⟨.invalidArraySize, "array capacity overflows", none, none⟩) s) := by
  have hneg : (∃ d ∈ ds, d < 0) → ∃ e ∈ v.dims,
      v.register env target c = .error (Diagnostic.negativeSize.located e.span) c := by
    intro hneg
    obtain ⟨e, he, hsizes⟩ := ArrayDecl.dimensions_of_neg hdims hneg
    exact ⟨e, he, ArrayDecl.register_of_error helement hsizes⟩
  have hnonneg : (∃ v' c', v.register env target c = .ok v' c') → ∀ d ∈ ds, 0 ≤ d := by
    rintro ⟨v', c', hok⟩ d hd
    by_contra hlt
    obtain ⟨e, -, herror⟩ := hneg ⟨d, hd, Int32.not_le.mp hlt⟩
    cases hok.symm.trans herror
  refine ⟨⟨hnonneg, fun hds => ?_⟩, hneg, fun v' c' hok => ?_⟩
  · exact ArrayDecl.register_of_sizes helement htable hname (ArrayDecl.dimensions_of_nonneg hdims hds)
  -- from here on the array is registered, so no dimension is negative
  have hds := hnonneg ⟨v', c', hok⟩
  obtain ⟨element', sizes, i, helement', hsizes, hins, rfl⟩ := ArrayDecl.register_eq_ok hok
  obtain rfl : element = element' := Except.ok.inj (helement.symm.trans helement')
  obtain rfl : ds.map ArrayDecl.size = sizes :=
    Except.ok.inj ((ArrayDecl.dimensions_of_nonneg hdims hds).symm.trans hsizes)
  have hnew : (c.freshLabel.2.addType env (.array c.freshLabel.1 element (ds.map ArrayDecl.size))).2.types.get?
      c.types.size = some (.array c.freshLabel.1 element (ds.map ArrayDecl.size)) :=
    get?_addType_self c.freshLabel.2 env _
  obtain ⟨_, hget, rfl⟩ := (extends_insert hins).types hnew
  refine ⟨c.types.size, c.freshLabel.1, _, rfl, hget, ?_, fun s hs => ?_⟩
  · rw [List.map_map]
    exact List.map_congr_left fun d hd => ArrayDecl.toNat_size (hds d hd)
  -- a later context has the type of the array unchanged
  obtain ⟨_, hget, rfl⟩ := hs.types hget
  have hlater : Extends c s.context := (ArrayDecl.register_grows hok).extends.trans hs
  obtain ⟨pointer, hpointer⟩ := ((hc.typed).declaredType helement).descriptor hc.typed.types hlater
  obtain ⟨hsmall, hlarge⟩ := ArrayDecl.capacity?_sizes hds
  refine ⟨fun hle => ?_, fun hlt => ArrayDecl.emit_of_overflow rfl hget (hlarge hlt)⟩
  obtain ⟨n, hcapacity, hword⟩ := hsmall hle
  have hemit := ArrayDecl.emit_of_capacity (v := { v with ty := some c.types.size }) rfl hget hcapacity hpointer
  refine ⟨Int32.ofNat n, pointer, hword, hpointer, hemit, fun haccept => ?_⟩
  exact hemit.trans (sendAll_of_accepts haccept _ s)

def numberArray (ds : List Int32) : ArrayDecl :=
  { ident := "a", tag := .int, kind := .global, dims := ds.map fun d => .literal (.int d) {} }

theorem numberArray_foldsTo (c : Context) (env : ScopeId) (ds : List Int32) :
    List.Forall₂ (Expr.FoldsTo c env) (numberArray ds).dims ds := by
  rw [numberArray, List.forall₂_map_left_iff]
  exact List.forall₂_same.mpr fun d _ => ⟨_, .int d, rfl, rfl, rfl⟩

/-- The largest dimension is registered and refused afterwards, two dimensions whose product is just a signed word
are emitted, and a negative one is not registered. -/
theorem array_capacity_exact_numberArray :
    (∃ v c, (numberArray [2147483647]).register root (.scope root) .initial = .ok v c ∧
      v.emit { context := c, backend := Listing.empty false } =
        .error (.diagnostic .capacityOverflow) { context := c, backend := Listing.empty false }) ∧
    (∃ v c word label, (numberArray [46339, 46340]).register root (.scope root) .initial = .ok v c ∧
      word.toInt = 46340 * 46341 ∧
      v.emit { context := c, backend := Listing.empty false } =
        sendAll [.align 4, .word RecordTag.arrayType.value (some label), .word word none, .pointer Symbol.intType,
          .word 0 (some (Symbol.global "a"))] { context := c, backend := Listing.empty false }) ∧
    (numberArray [3, -1]).register root (.scope root) .initial =
      .error (Diagnostic.negativeSize.located {}) .initial := by
  have hexact := fun ds => @array_capacity_exact .initial .refl (numberArray ds) root .int rfl (.scope root) .empty
    rfl rfl ds (numberArray_foldsTo _ _ ds)
  refine ⟨?_, ?_, ?_⟩
  · obtain ⟨hiff, -, hok⟩ := hexact [2147483647]
    obtain ⟨v, c, hv⟩ := hiff.mpr (List.forall_mem_singleton.mpr (by decide))
    obtain ⟨ty, label, sizes, -, -, -, hemit⟩ := hok v c hv
    exact ⟨v, c, hv, (hemit { context := c, backend := Listing.empty false } (.refl c)).2 (by decide)⟩
  · obtain ⟨hiff, -, hok⟩ := hexact [46339, 46340]
    obtain ⟨v, c, hv⟩ := hiff.mpr (List.forall_mem_cons.mpr ⟨by decide, List.forall_mem_singleton.mpr (by decide)⟩)
    obtain ⟨ty, label, sizes, rfl, -, -, hemit⟩ := hok v c hv
    obtain ⟨word, pointer, hword, hpointer, hsend, -⟩ :=
      (hemit { context := c, backend := Listing.empty false } (.refl c)).1 (by decide)
    obtain ⟨_, hint, rfl⟩ := (ArrayDecl.register_grows hv).extends.types (Context.Moves.typed .refl).types.int
    obtain rfl : Symbol.intType = pointer := by
      simp only [Symbol.descriptor, hint] at hpointer
      exact Except.ok.inj hpointer
    have hstorage : ArrayDecl.storage { numberArray [46339, 46340] with ty := some ty } =
        [.word 0 (some (Symbol.global "a"))] := if_pos (show Kind.global.has .global = true by decide)
    rw [hstorage] at hsend
    exact ⟨_, c, word, label, hv, hword, hsend⟩
  · obtain ⟨-, hneg, -⟩ := hexact [3, -1]
    obtain ⟨e, he, herror⟩ := hneg ⟨-1, by decide, by decide⟩
    obtain rfl | rfl : e = .literal (.int 3) {} ∨ e = .literal (.int (-1)) {} := by
      simpa [numberArray] using he
    · exact herror
    · exact herror

end UnitCompiler
