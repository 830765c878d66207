import Leasehold.Text.Numeral

/-!
# Letters and digits of all scripts

ASCII letters and digits, and beyond ASCII the blocks that hold letters and
numbers; the blocks of punctuation, symbols and private use are left out.
-/

namespace Leasehold
namespace Alphanumeric

/-- Ranges of characters beyond ASCII that are neither letters nor numbers. -/
def otherRanges : List (Nat × Nat) :=
  [(0x80, 0xA9), (0xAB, 0xB1), (0xB4, 0xB4), (0xB6, 0xB8), (0xBB, 0xBB), (0xBF, 0xBF),
   (0xD7, 0xD7), (0xF7, 0xF7), (0x2C2, 0x2C5), (0x2D2, 0x2DF), (0x300, 0x344), (0x346, 0x36F),
   (0x37E, 0x37E), (0x387, 0x387), (0x2000, 0x206F), (0x207A, 0x207E), (0x208A, 0x208E),
   (0x20A0, 0x20FF), (0x2190, 0x245F), (0x2500, 0x2775), (0x2794, 0x2BFF), (0x2E00, 0x2E2E),
   (0x2E30, 0x3004), (0x3008, 0x3020), (0x302A, 0x3030), (0xD800, 0xF8FF), (0xFE00, 0xFE6F),
   (0xFEFF, 0xFF0F), (0xFF1A, 0xFF20), (0xFF3B, 0xFF40), (0xFF5B, 0xFF65), (0xFFE0, 0xFFFF),
   (0x1F000, 0x1F0FF), (0x1F10D, 0x1F12F), (0x1F200, 0x1FBEF), (0xE0000, 0x10FFFF)]

def isAlphanumeric (c : Char) : Bool :=
  let n := c.toNat
  c.isAlphanum || (0x80 ≤ n && !otherRanges.any fun (low, high) => low ≤ n && n ≤ high)

end Alphanumeric
end Leasehold
