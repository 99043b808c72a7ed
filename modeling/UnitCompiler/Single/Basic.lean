import UnitCompiler.Text.Integer

namespace UnitCompiler

/-- A 32-bit floating point number, kept as its bit pattern so that the payload of a NaN survives. -/
structure Single where
  bits : UInt32
deriving DecidableEq, Repr, Inhabited

namespace Single

def pow2 (n : Nat) : Nat := Nat.pow 2 n

def pow10 (n : Nat) : Nat := Nat.pow 10 n

def zero : Single := ⟨0⟩

def negative (x : Single) : Bool :=
  decide (pow2 31 ≤ x.bits.toNat)

def exponentField (x : Single) : Nat :=
  x.bits.toNat / pow2 23 % pow2 8

def fractionField (x : Single) : Nat :=
  x.bits.toNat % pow2 23

def isNaN (x : Single) : Bool :=
  x.exponentField == 255 && x.fractionField != 0

def isInfinite (x : Single) : Bool :=
  x.exponentField == 255 && x.fractionField == 0

/-- The integer significand `m` of a finite number of magnitude `m * 2 ^ (scale - 149)`. -/
def significand (x : Single) : Nat :=
  if x.exponentField = 0 then x.fractionField else pow2 23 + x.fractionField

def scale (x : Single) : Nat :=
  x.exponentField - 1

/-- The magnitude of a finite number is this over `2 ^ 149`. -/
def magnitude (x : Single) : Nat :=
  x.significand * pow2 x.scale

/-- Equality of numbers: the two zeros are equal, and so are all NaNs. -/
def agrees (x y : Single) : Bool :=
  if x.isNaN then y.isNaN
  else x == y || (x.magnitude == 0 && y.magnitude == 0)

def ofSign (negative : Bool) (bits : Nat) : Single :=
  ⟨UInt32.ofNat (if negative then pow2 31 + bits else bits)⟩

/-- The quotient rounded to the nearest integer, a half to the even neighbour. -/
def roundDiv (num den : Nat) : Nat :=
  let q := num / den
  let r := num % den
  if 2 * r < den then q
  else if 2 * r = den then q + q % 2
  else q + 1

/-- The exponent of the largest power of two that is at most `num / den`. -/
def floorLog (num den : Nat) : Int :=
  let e : Int := (num.log2 : Int) - den.log2
  if den * pow2 e.toNat ≤ num * pow2 (-e).toNat then e else e - 1

/-- The number nearest to `num / den`, ties to the even significand, infinite above the range. -/
def ofRatio (negative : Bool) (num den : Nat) : Single :=
  if num = 0 then ofSign negative 0
  else
    let q := max (floorLog num den - 23) (-149)
    let m := roundDiv (num * pow2 (-q).toNat) (den * pow2 q.toNat)
    ofSign negative (min ((q + 149).toNat * pow2 23 + m) (255 * pow2 23))

def ofInt (i : Int) : Single :=
  ofRatio (decide (i < 0)) i.natAbs 1

/-- The nearest 32-bit integer to a number whose whole part has the given magnitude. -/
def clamp (negative : Bool) (n : Nat) : Int32 :=
  if negative then Int32.ofInt (max (-(n : Int)) (-2147483648))
  else Int32.ofInt (min (n : Int) 2147483647)

/-- Nearest integer, halves away from zero, saturating; a NaN gives 0. -/
def round (x : Single) : Int32 :=
  if x.isNaN then 0
  else clamp x.negative ((2 * x.magnitude + pow2 149) / pow2 150)

/-- Whole part, saturating; a NaN gives 0. -/
def truncate (x : Single) : Int32 :=
  if x.isNaN then 0
  else clamp x.negative (x.magnitude / pow2 149)

end Single

end UnitCompiler
