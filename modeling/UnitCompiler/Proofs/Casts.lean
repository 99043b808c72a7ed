import UnitCompiler.Proofs.Covered

namespace UnitCompiler

/-- The literal is one of the type: null is one of every struct. -/
def Literal.Suits (types : Arena) (ty : TypeId) : Literal → Prop
  | .int _ => types.get? ty = some .int
  | .float _ => types.get? ty = some .float
  | .string _ => types.get? ty = some .string
  | .null => types.isStruct ty = true

def TypeId.basic : List TypeId := [.int, .float, .string]

namespace Arena

/-- The built-in types are at their places, and numbers and texts have no other types. -/
structure Standard (types : Arena) : Prop where
  int : types.get? .int = some .int
  float : types.get? .float = some .float
  string : types.get? .string = some .string
  null : types.isStruct .null = true
  basic : ∀ {ty : TypeId}, types.isPrimitive ty = true → ty ∈ TypeId.basic

inductive Declarable (types : Arena) : TypeId → Prop
  | int : Declarable types .int
  | float : Declarable types .float
  | string : Declarable types .string
  | struct {ty : TypeId} (h : types.isStruct ty = true) (hnull : ty ≠ .null) : Declarable types ty

variable {types : Arena} {ty : TypeId}

theorem Standard.isPrimitive_iff (h : types.Standard) : types.isPrimitive ty = true ↔ ty ∈ TypeId.basic := by
  refine ⟨h.basic, fun hty => ?_⟩
  simp only [TypeId.basic, List.mem_cons, List.not_mem_nil, or_false] at hty
  obtain rfl | rfl | rfl := hty
  · rw [isPrimitive, h.int]; rfl
  · rw [isPrimitive, h.float]; rfl
  · rw [isPrimitive, h.string]; rfl

theorem Standard.not_struct_of_basic (h : types.Standard) (hty : ty ∈ TypeId.basic) :
    types.isStruct ty = false := by
  have hprim := h.isPrimitive_iff.mpr hty
  unfold isPrimitive at hprim
  unfold isStruct
  cases hget : types.get? ty with
  | none => rfl
  | some t =>
    rw [hget] at hprim
    cases t with
    | int | float | string => rfl
    | struct | array | function | const => cases hprim

theorem Declarable.isConst (ht : types.Declarable ty) (h : types.Standard) : types.isConst ty = false := by
  unfold Arena.isConst
  cases ht with
  | int => rw [h.int]; rfl
  | float => rw [h.float]; rfl
  | string => rw [h.string]; rfl
  | struct hs _ =>
    obtain ⟨name, fields, hget⟩ := exists_of_isStruct hs
    rw [hget]
    rfl

theorem Declarable.basic_or_struct (ht : types.Declarable ty) :
    ty ∈ TypeId.basic ∨ types.isStruct ty = true := by
  cases ht with
  | int | float | string => exact Or.inl (by simp [TypeId.basic])
  | struct hs _ => exact Or.inr hs

theorem Declarable.ne_null (ht : types.Declarable ty) : ty ≠ .null := by
  cases ht with
  | int | float | string => decide
  | struct _ hnull => exact hnull

/-- A type that comes in is not the one of null. -/
theorem Standard.size_ne_null (h : types.Standard) : types.size ≠ TypeId.null := by
  obtain ⟨name, fields, hget⟩ := exists_of_isStruct h.null
  exact Nat.ne_of_gt (Context.lt_size_of_get? hget)

/-- Only constants are equal under two indices. -/
theorem same_eq_beq {x y : TypeId} (h : types.isConst x = false ∨ types.isConst y = false) :
    types.same x y = (x == y) := by
  unfold same
  unfold isConst at h
  cases hx : types.get? x with
  | none => simp
  | some t =>
    cases hy : types.get? y with
    | none => simp
    | some u =>
      rw [hx, hy] at h
      cases t with
      | const v =>
        cases u with
        | const w => simp [Ty.isConst] at h
        | int | float | string | struct | array | function => simp
      | int | float | string | struct | array | function => simp

end Arena

open Arena

/-- The one node that converts a value of the first type into one of the second. -/
inductive Ir.Conversion : TypeId → TypeId → (Ir → Ir) → Prop
  | intToFloat : Conversion .int .float .intToFloat
  | floatToInt : Conversion .float .int .floatToInt
  | stringFromInt : Conversion .int .string fun value => .call Symbol.stringFromInt [value]
  | stringFromFloat : Conversion .float .string fun value => .call Symbol.stringFromFloat [value]
  | stringToInt : Conversion .string .int fun value => .call Symbol.stringToInt [value]
  | stringToFloat : Conversion .string .float fun value => .call Symbol.stringToFloat [value]

/-- Two different basic types have a conversion, and it is the one that is emitted. -/
theorem Value.conversion_of_ne {source target : TypeId} (hsource : source ∈ TypeId.basic)
    (htarget : target ∈ TypeId.basic) (hne : source ≠ target) :
    Ir.Conversion source target (Value.conversion source target) := by
  simp only [TypeId.basic, List.mem_cons, List.not_mem_nil, or_false] at hsource htarget
  obtain rfl | rfl | rfl := hsource <;> obtain rfl | rfl | rfl := htarget
  · exact absurd rfl hne
  · exact .intToFloat
  · exact .stringFromInt
  · exact .floatToInt
  · exact absurd rfl hne
  · exact .stringFromFloat
  · exact .stringToInt
  · exact .stringToFloat
  · exact absurd rfl hne

namespace Value

/-- What an expression is checked to: a constant of a built-in type, or a value that is computed at run
time and has the type of a variable. -/
inductive Settled (types : Arena) : Value → Prop
  | const (lit : Literal) : Settled types (.const lit (.ofLiteral lit))
  | computed {v : Value} (hfold : v.fold? = none) (hconst : types.isConst v.ty = false)
      (hnull : v.ty ≠ .null) : Settled types v

/-- The value has the type, both types are numbers or texts, or the value is null and the type a struct. -/
def Coercible (types : Arena) (v : Value) (target : TypeId) : Prop :=
  v.ty = target ∨ (v.ty ∈ TypeId.basic ∧ target ∈ TypeId.basic) ∨
    (v.fold? = some .null ∧ types.isStruct target = true)

/-- What a value becomes: a literal of the type, itself, or its code under one conversion. -/
inductive Coerced (types : Arena) (v : Value) (target : TypeId) : Value → Prop
  | folded {w : Value} {lit : Literal} (hfold : w.fold? = some lit) (hlit : lit.Suits types target) :
      Coerced types v target w
  | unconverted (h : v.ty = target) : Coerced types v target v
  | converted {w : Value} {node : Ir → Ir} (hnode : Ir.Conversion v.ty target node)
      (hfold : w.fold? = none) (hemit : ∀ (β : Type) [Backend β],
        (w.emit : EmitM β Ir) = do
          let code ← v.emit
          pure (node code)) : Coerced types v target w

variable {types : Arena} {lit : Literal} {source target : TypeId}

theorem castLiteral_suits {w : Literal} (h : castLiteral types lit source target = .ok w) :
    w.Suits types target := by
  unfold castLiteral at h
  split at h
  · rename_i hget
    cases h
    simp only [Literal.Suits, isStruct, hget]
    rfl
  · cases h
  · rename_i hget
    cases h
    exact hget
  · rename_i hget
    cases h
    exact hget
  · rename_i hget
    cases h
    exact hget
  · cases h

theorem castLiteral_null (ht : types.isStruct target = true) :
    castLiteral types .null source target = .ok .null := by
  obtain ⟨name, fields, hget⟩ := exists_of_isStruct ht
  simp only [castLiteral, hget]

theorem castLiteral_null_error (ht : types.isStruct target = false) :
    castLiteral types .null source target =
      .error (.cannotConvert (types.name source) (types.name target)) := by
  unfold castLiteral
  unfold isStruct at ht
  cases hget : types.get? target with
  | none => rfl
  | some t =>
    rw [hget] at ht
    cases t with
    | struct => cases ht
    | int | float | string | array | function | const => rfl

theorem exists_castLiteral (h : types.Standard) (hlit : lit ≠ .null) (source : TypeId)
    (ht : target ∈ TypeId.basic) : ∃ w, castLiteral types lit source target = .ok w := by
  simp only [TypeId.basic, List.mem_cons, List.not_mem_nil, or_false] at ht
  cases lit with
  | null => exact absurd rfl hlit
  | int | float | string =>
    obtain rfl | rfl | rfl := ht
    · exact ⟨.int _, by simp only [castLiteral, h.int]; rfl⟩
    · exact ⟨.float _, by simp only [castLiteral, h.float]; rfl⟩
    · exact ⟨.string _, by simp only [castLiteral, h.string]; rfl⟩

theorem castLiteral_struct_error (hlit : lit ≠ .null) (ht : types.isStruct target = true) :
    castLiteral types lit source target =
      .error (.cannotConvert (types.name source) (types.name target)) := by
  obtain ⟨name, fields, hget⟩ := exists_of_isStruct ht
  cases lit with
  | null => exact absurd rfl hlit
  | int | float | string => simp only [castLiteral, hget]

theorem ofLiteral_mem_basic_iff : TypeId.ofLiteral lit ∈ TypeId.basic ↔ lit ≠ .null := by
  cases lit <;> simp [TypeId.ofLiteral, TypeId.basic, TypeId.int, TypeId.float, TypeId.string, TypeId.null]

theorem suits_ofLiteral (h : types.Standard) : lit.Suits types (.ofLiteral lit) := by
  cases lit with
  | int => exact h.int
  | float => exact h.float
  | string => exact h.string
  | null => exact h.null

def CastTo (types : Arena) (v : Value) (target : TypeId) : Prop :=
  (v.Coercible types target ∧
    ∃ w, v.cast types target = .ok w ∧ w.ty = target ∧ v.Coerced types target w) ∨
  (¬ v.Coercible types target ∧
    v.cast types target = .error (.cannotConvert (types.name v.ty) (types.name target)))

/-- The literal is converted unless it has the type already. -/
theorem cast_const (h : types.Standard) (lit : Literal) (ht : types.Declarable target) :
    CastTo types (.const lit (.ofLiteral lit)) target := by
  have hcast : Value.cast types (.const lit (.ofLiteral lit)) target =
      if TypeId.ofLiteral lit == target then .ok (.const lit (.ofLiteral lit))
      else (castLiteral types lit (.ofLiteral lit) target).map fun w => .const w target := by
    rw [Value.cast, same_eq_beq (Or.inr (ht.isConst h))]
  by_cases heq : TypeId.ofLiteral lit = target
  · subst heq
    rw [beq_self_eq_true, if_pos rfl] at hcast
    exact Or.inl ⟨Or.inl rfl, _, hcast, rfl, .folded rfl (suits_ofLiteral h)⟩
  rw [beq_eq_false_iff_ne.mpr heq, if_neg Bool.false_ne_true] at hcast
  -- null fits structs and nothing else, and any other literal fits the basic types
  by_cases hlit : lit = .null
  · subst hlit
    cases hs : types.isStruct target with
    | true =>
      rw [castLiteral_null hs] at hcast
      exact Or.inl ⟨Or.inr (Or.inr ⟨rfl, hs⟩), _, hcast, rfl, .folded rfl hs⟩
    | false =>
      rw [castLiteral_null_error hs] at hcast
      refine Or.inr ⟨?_, hcast⟩
      rintro (h | ⟨h, -⟩ | ⟨-, h⟩)
      · exact heq h
      · exact ofLiteral_mem_basic_iff.mp (show TypeId.ofLiteral .null ∈ TypeId.basic from h) rfl
      · exact Bool.false_ne_true (hs.symm.trans h)
  · obtain hbasic | hs := ht.basic_or_struct
    · obtain ⟨w, hw⟩ := exists_castLiteral h hlit (.ofLiteral lit) hbasic
      rw [hw] at hcast
      exact Or.inl ⟨Or.inr (Or.inl ⟨ofLiteral_mem_basic_iff.mpr hlit, hbasic⟩), _, hcast, rfl,
        .folded rfl (castLiteral_suits hw)⟩
    · rw [castLiteral_struct_error hlit hs] at hcast
      refine Or.inr ⟨?_, hcast⟩
      rintro (h' | ⟨-, h'⟩ | ⟨h', -⟩)
      · exact heq h'
      · exact Bool.false_ne_true ((h.not_struct_of_basic h').symm.trans hs)
      · exact hlit (Option.some.inj h')

/-- A value that is computed at run time is converted at run time. -/
theorem cast_computed (h : types.Standard) {v : Value} (hfold : v.fold? = none)
    (hconst : types.isConst v.ty = false) (hnull : v.ty ≠ .null) : CastTo types v target := by
  have hcast : v.cast types target =
      if v.ty == target then .ok v
      else if types.isPrimitive v.ty && types.isPrimitive target then .ok (.converted v v.ty target)
      else .error (.cannotConvert (types.name v.ty) (types.name target)) := by
    have hsame : (types.same v.ty target || (v.ty == TypeId.null && types.isStruct target)) =
        (v.ty == target) := by
      rw [same_eq_beq (Or.inl hconst), beq_eq_false_iff_ne.mpr hnull, Bool.false_and, Bool.or_false]
    cases v with
    | const => cases hfold
    | var | new | converted => simp only [Value.cast, hsame]
  by_cases heq : v.ty = target
  · rw [heq, beq_self_eq_true, if_pos rfl] at hcast
    exact Or.inl ⟨Or.inl heq, v, hcast, heq, .unconverted heq⟩
  rw [beq_eq_false_iff_ne.mpr heq, if_neg Bool.false_ne_true] at hcast
  by_cases hbasic : v.ty ∈ TypeId.basic ∧ target ∈ TypeId.basic
  · rw [h.isPrimitive_iff.mpr hbasic.1, h.isPrimitive_iff.mpr hbasic.2, Bool.and_self, if_pos rfl] at hcast
    exact Or.inl ⟨Or.inr (Or.inl hbasic), _, hcast, rfl,
      .converted (conversion_of_ne hbasic.1 hbasic.2 heq) rfl fun _ _ => rfl⟩
  · rw [if_neg (by rwa [Bool.and_eq_true, h.isPrimitive_iff, h.isPrimitive_iff])] at hcast
    refine Or.inr ⟨?_, hcast⟩
    rintro (h' | h' | ⟨h', -⟩)
    · exact heq h'
    · exact hbasic h'
    · rw [hfold] at h'
      cases h'

theorem Settled.castTo {v : Value} (hv : v.Settled types) (h : types.Standard)
    (ht : types.Declarable target) : CastTo types v target := by
  cases hv with
  | const lit => exact cast_const h lit ht
  | computed hfold hconst hnull => exact cast_computed h hfold hconst hnull

/-- A cast that folds gives a literal of the target. -/
theorem Settled.cast_suits {v w : Value} (hv : v.Settled types) (h : types.Standard)
    (ht : types.Declarable target) (hcast : v.cast types target = .ok w) (hfold : w.fold? = some lit) :
    lit.Suits types target := by
  obtain ⟨-, w', hcast', -, hw⟩ | ⟨-, herror⟩ := hv.castTo h ht
  · obtain rfl : w' = w := Except.ok.inj (hcast'.symm.trans hcast)
    cases hw with
    | folded hfold' hlit =>
      cases hfold'.symm.trans hfold
      exact hlit
    | unconverted heq =>
      cases hv with
      | const =>
        cases hfold
        exact heq ▸ suits_ofLiteral h
      | computed hnone => cases hnone.symm.trans hfold
    | converted _ hnone => cases hnone.symm.trans hfold
  · cases hcast.symm.trans herror

end Value

end UnitCompiler
