import Leasehold.Text.Glyph
import Leasehold.Text.Numeral

/-!
# Quoted text

A string between double quotes, with quotes, backslashes, the common controls
and every character without a glyph escaped.
-/

namespace Leasehold
namespace Quoted

/-- The written form of one character between double quotes. -/
def escape (c : Char) : List Char :=
  if c = '"' then ['\\', '"']
  else if c = '\\' then ['\\', '\\']
  else if c = '\n' then ['\\', 'n']
  else if c = '\t' then ['\\', 't']
  else if c = '\r' then ['\\', 'r']
  else if c.toNat = 0 then ['\\', '0']
  else if Glyph.isEscaped c then
    ['\\', 'u', '\x7b'] ++ Numeral.hexDigits c.toNat ++ ['\x7d']
  else [c]

def encode (s : String) : String :=
  "\"" ++ String.ofList (s.toList.flatMap escape) ++ "\""

end Quoted
end Leasehold
