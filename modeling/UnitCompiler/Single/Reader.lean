import UnitCompiler.Single.Basic

namespace UnitCompiler.Single

/-- The number nearest to `digits * 10 ^ exponent`. Far outside the range the answer is known without
computing the power. -/
def ofDecimal (negative : Bool) (digits : Nat) (exponent : Int) : Single :=
  let top : Int := (Nat.toDigits 10 digits).length + exponent
  if digits = 0 ∨ top < -46 then ofSign negative 0
  else if 40 < top then ofSign negative (255 * pow2 23)
  else ofRatio negative (digits * pow10 exponent.toNat) (pow10 (-exponent).toNat)

/-- An exponent mark, an optional sign and at least one digit, or nothing at all. -/
def readExponent? : List Char → Option Int
  | [] => some 0
  | c :: cs =>
    if c = 'e' ∨ c = 'E' then
      let (negative, ds) := Text.takeSign cs
      if ds.isEmpty || !ds.all Char.isDigit then none
      else
        let n := Nat.ofDigitChars 10 ds 0
        some (if negative then -(n : Int) else n)
    else none

/-- Digits with an optional point, at least one digit in all, and an optional exponent. -/
def readNumber? (negative : Bool) (cs : List Char) : Option Single :=
  let whole := cs.takeWhile Char.isDigit
  let (fraction, rest) := match cs.dropWhile Char.isDigit with
    | '.' :: r => (r.takeWhile Char.isDigit, r.dropWhile Char.isDigit)
    | r => ([], r)
  let ds := whole ++ fraction
  if ds.isEmpty then none
  else (readExponent? rest).map fun e =>
    ofDecimal negative (Nat.ofDigitChars 10 ds 0) (e - fraction.length)

/-- A decimal number, an infinity or a NaN; the two words are read in any case. -/
def read? (cs : List Char) : Option Single :=
  let (negative, body) := Text.takeSign cs
  let word := String.ofList (body.map Char.toLower)
  if word = "inf" ∨ word = "infinity" then some (ofSign negative 0x7f800000)
  else if word = "nan" then some (ofSign negative 0x7fc00000)
  else readNumber? negative body

end UnitCompiler.Single
