import UnitCompiler.Single.Shortest

namespace UnitCompiler.Single

/-- Positional notation with at least one digit after the point. -/
def positional (digits : List Char) (exponent : Int) : List Char :=
  let n := digits.length
  if 0 ≤ exponent then digits ++ List.replicate exponent.toNat '0' ++ ['.', '0']
  else
    let places := (-exponent).toNat
    if places < n then digits.take (n - places) ++ '.' :: digits.drop (n - places)
    else '0' :: '.' :: List.replicate (places - n) '0' ++ digits

/-- One digit before the point, and the point only if more digits follow. -/
def scientific (digits : List Char) (leading : Int) : List Char :=
  let mantissa := match digits with
    | d :: e :: rest => d :: '.' :: e :: rest
    | _ => digits
  mantissa ++ 'e' :: (Text.integerText leading).toList

/-- Magnitudes from `10 ^ -4` up to `10 ^ 16` are positional. -/
def magnitudeText (x : Single) : List Char :=
  if x.magnitude = 0 then ['0', '.', '0']
  else
    let d := x.shortest
    let digits := Nat.toDigits 10 d.digits
    let leading := d.exponent + digits.length - 1
    if -4 ≤ leading ∧ leading < 16 then positional digits d.exponent else scientific digits leading

def text (x : Single) : String :=
  if x.isNaN then "NaN"
  else
    let body := if x.isInfinite then ['i', 'n', 'f'] else x.magnitudeText
    String.ofList (if x.negative then '-' :: body else body)

end UnitCompiler.Single
