namespace UnitCompiler.Text

/-- A leading sign; the flag says whether it is a minus. -/
def takeSign : List Char → Bool × List Char
  | '-' :: cs => (true, cs)
  | '+' :: cs => (false, cs)
  | cs => (false, cs)

def integerText (i : Int) : String :=
  if i < 0 then String.ofList ('-' :: Nat.toDigits 10 i.natAbs)
  else String.ofList (Nat.toDigits 10 i.natAbs)

/-- An optional sign and at least one decimal digit, in the range of a 32-bit integer. -/
def readInt32? (cs : List Char) : Option Int32 :=
  let (negative, ds) := takeSign cs
  if ds.isEmpty || !ds.all Char.isDigit then none
  else
    let n := Nat.ofDigitChars 10 ds 0
    let i : Int := if negative then -(n : Int) else n
    if -2147483648 ≤ i ∧ i ≤ 2147483647 then some (Int32.ofInt i) else none

end UnitCompiler.Text
