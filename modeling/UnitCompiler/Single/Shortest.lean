import UnitCompiler.Single.Basic

namespace UnitCompiler.Single

/-- `digits * 10 ^ exponent`. -/
structure Decimal where
  digits : Nat
  exponent : Int
deriving DecidableEq, Repr

namespace Decimal

/-- Compares `d.digits * 10 ^ d.exponent` with `n / 2 ^ 151` through exact products. -/
def compareTo (d : Decimal) (n : Nat) : Ordering :=
  compare (d.digits * pow10 d.exponent.toNat * pow2 151) (n * pow10 (-d.exponent).toNat)

def stripZeros : Nat → Decimal → Decimal
  | 0, d => d
  | fuel + 1, d =>
    if d.digits % 10 = 0 then stripZeros fuel ⟨d.digits / 10, d.exponent + 1⟩ else d

end Decimal

/-- Four times the magnitude and the ends of the interval that rounds to it, all over `2 ^ 151`. The gap
below a power of two is half as wide. -/
def interval (x : Single) : Nat × Nat × Nat :=
  let unit := pow2 x.scale
  let v := 4 * x.significand * unit
  let below := if x.significand = pow2 23 ∧ 1 < x.exponentField then unit else 2 * unit
  (v - below, v, v + 2 * unit)

/-- The decimal reads back as `x`; the ends of the interval belong to an even significand. -/
def readsBack (x : Single) (d : Decimal) : Bool :=
  let (low, _, high) := x.interval
  let even := x.significand % 2 == 0
  match d.compareTo low, d.compareTo high with
  | .gt, .lt => true
  | .eq, .lt => even
  | .gt, .eq => even
  | _, _ => false

/-- The exponent of the leading decimal digit of `num / den`. -/
def leadingExponent (num den : Nat) : Int :=
  if den ≤ num then ((Nat.toDigits 10 (num / den)).length : Int) - 1
  else -((Nat.toDigits 10 ((den - 1) / num)).length : Int)

/-- The neighbour of the magnitude on the grid `10 ^ k` that reads back, the nearer of two, the upper of
two equally near. -/
def neighbour? (x : Single) (k : Int) : Option Decimal :=
  let (_, v, _) := x.interval
  let num := v * pow10 (-k).toNat
  let den := pow2 151 * pow10 k.toNat
  let low : Decimal := ⟨num / den, k⟩
  let high : Decimal := ⟨num / den + 1, k⟩
  match x.readsBack low, x.readsBack high with
  | true, true => some (if 2 * (num % den) < den then low else high)
  | true, false => some low
  | false, true => some high
  | false, false => none

/-- The fewest decimal digits that read back as the magnitude of `x`; nine always suffice. -/
def shortest (x : Single) : Decimal :=
  let e := leadingExponent x.magnitude (pow2 149)
  let found := (List.range 9).findSome? fun (i : Nat) => x.neighbour? (e - i)
  Decimal.stripZeros 10 (found.getD ⟨x.magnitude * Nat.pow 5 149, -149⟩)

end UnitCompiler.Single
