import UnitCompiler.Proofs.TypedRecords

namespace UnitCompiler

open Context

/-- Coercions are sound wherever the compiler has come to. The cast of a checked expression to a type that
is denoted there succeeds exactly for a coercible value, and else is a type mismatch. What it gives has the
type, and is a literal of the type, the value itself, or the code of the value under the one conversion
between the two types. -/
theorem coercion_sound {c : Context} (hc : Moves .initial c) {env : ScopeId} {e : Expr} {v : Value}
    (hv : e.check c env = .ok v) {tag : TypeTag} {target : TypeId}
    (htarget : c.declaredType tag env = .ok target) :
    ((∃ w, v.cast c.types target = .ok w) ↔ v.Coercible c.types target) ∧
    (¬ v.Coercible c.types target →
      ∃ d, v.cast c.types target = .error d ∧ d.kind = .typeMismatch) ∧
    ∀ w, v.cast c.types target = .ok w → w.ty = target ∧ v.Coerced c.types target w := by
  have htyped := hc.typed
  obtain ⟨hcoercible, w, hcast, hty, hcoerced⟩ | ⟨hnot, hcast⟩ :=
    (Expr.check_settled htyped hv).castTo htyped.types (htyped.declaredType htarget)
  · refine ⟨⟨fun _ => hcoercible, fun _ => ⟨w, hcast⟩⟩, fun hnot => absurd hcoercible hnot, fun w' hw' => ?_⟩
    obtain rfl : w = w' := Except.ok.inj (hcast.symm.trans hw')
    exact ⟨hty, hcoerced⟩
  · have herror : ∀ w, v.cast c.types target ≠ .ok w := by
      intro w hw
      cases hcast.symm.trans hw
    refine ⟨⟨?_, fun h => absurd h hnot⟩, fun _ => ⟨_, hcast, rfl⟩, fun w hw => absurd hw (herror w)⟩
    rintro ⟨w, hw⟩
    exact absurd hw (herror w)

def structAndFloat : DeclList :=
  [some (.var {} { ident := "x", tag := .float, kind := .global }), some (.struct {} { ident := "P" } [])]

def structAndFloatContext : Context :=
  (structAndFloat.register root (.scope root) {}).2.context

theorem coercion_sound_structAndFloat :
    Moves .initial structAndFloatContext ∧
    Expr.check structAndFloatContext root (.name "x" {}) = .ok (.var root "x" .float) ∧
    structAndFloatContext.declaredType .string root = .ok .string ∧
    (∃ w, (Value.var root "x" .float).cast structAndFloatContext.types .string = .ok w ∧
      w.ty = .string ∧ (Value.var root "x" .float).Coerced structAndFloatContext.types .string w) ∧
    structAndFloatContext.declaredType (.named "P") root = .ok 4 ∧
    ∃ d, (Value.var root "x" .float).cast structAndFloatContext.types 4 = .error d ∧
      d.kind = .typeMismatch := by
  have hc : Moves .initial structAndFloatContext := .single (.pass (.register {} root (.scope root) structAndFloat))
  have hx : Expr.check structAndFloatContext root (.name "x" {}) = .ok (.var root "x" .float) := by
    decide +kernel
  have hstring : structAndFloatContext.declaredType .string root = .ok .string := rfl
  have hstruct : structAndFloatContext.declaredType (.named "P") root = .ok 4 := by decide +kernel
  obtain ⟨hok, -, hresult⟩ := coercion_sound hc hx hstring
  obtain ⟨w, hw⟩ := hok.mpr (Or.inr (Or.inl (by decide)))
  obtain ⟨-, herror, -⟩ := coercion_sound hc hx hstruct
  refine ⟨hc, hx, hstring, ⟨w, hw, hresult w hw⟩, hstruct, herror ?_⟩
  rintro (h | ⟨-, h⟩ | ⟨h, -⟩)
  · cases h
  · revert h
    decide
  · cases h

end UnitCompiler
