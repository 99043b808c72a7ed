import UnitCompiler.Text.Combining
import UnitCompiler.Text.Unprintable

namespace UnitCompiler.Text

/-- One character inside double quotes. Combining marks and characters without a glyph are written by
their code point. -/
def quoteChar (c : Char) : List Char :=
  if c = '"' then ['\\', '"']
  else if c = '\\' then ['\\', '\\']
  else if c = '\t' then ['\\', 't']
  else if c = '\n' then ['\\', 'n']
  else if c = '\r' then ['\\', 'r']
  else if c.toNat = 0 then ['\\', '0']
  else if c.toNat < 0x7f ∧ 0x20 ≤ c.toNat then [c]
  else if isCombining c || isUnprintable c then
    ['\\', 'u', '\x7b'] ++ Nat.toDigits 16 c.toNat ++ ['\x7d']
  else [c]

def quoted (s : String) : String :=
  String.ofList ('"' :: s.toList.flatMap quoteChar ++ ['"'])

end UnitCompiler.Text
