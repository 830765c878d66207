/-!
# Numerals

Decimal digits of natural numbers, and the reading of fixed-width integers.
A numeral is an optional sign followed by at least one ASCII digit; leading
zeros carry no meaning and a value outside the width is refused.
-/

namespace Leasehold
namespace Numeral

/-- The digit character of a value below sixteen. -/
def digitChar (n : Nat) : Char :=
  if n < 10 then Char.ofNat (48 + n) else Char.ofNat (87 + n)

/-- The decimal digits of `n`, most significant first, without leading zeros. -/
def digits (n : Nat) : List Char :=
  if n < 10 then [digitChar n] else digits (n / 10) ++ [digitChar (n % 10)]
termination_by n
decreasing_by omega

def ofNat (n : Nat) : String := String.ofList (digits n)

def ofInt (n : Int) : String :=
  if n < 0 then "-" ++ ofNat n.natAbs else ofNat n.natAbs

/-- The decimal digits of `n`, filled with zeros on the left up to `width`. -/
def padded (width n : Nat) : List Char :=
  let ds := digits n
  List.replicate (width - ds.length) '0' ++ ds

/-- Exactly `width` digits of `n` in the given radix. -/
def fixed (radix : Nat) : Nat → Nat → List Char
  | 0, _ => []
  | width + 1, n => fixed radix width (n / radix) ++ [digitChar (n % radix)]

/-- The digits of `n` in base sixteen, without leading zeros. -/
def hexDigits (n : Nat) : List Char :=
  if n < 16 then [digitChar n] else hexDigits (n / 16) ++ [digitChar (n % 16)]
termination_by n
decreasing_by omega

/-- The value of a digit in bases up to thirty-six; letters count in both cases. -/
def digitValue? (c : Char) : Option Nat :=
  let n := c.toNat
  if 48 ≤ n ∧ n ≤ 57 then some (n - 48)
  else if 97 ≤ n ∧ n ≤ 122 then some (n - 87)
  else if 65 ≤ n ∧ n ≤ 90 then some (n - 55)
  else none

def isDigit (c : Char) : Bool := 48 ≤ c.toNat && c.toNat ≤ 57

/-- Reads digits of the given radix onto the value read so far. -/
def readOnto? (radix : Nat) : Nat → List Char → Option Nat
  | value, [] => some value
  | value, c :: rest =>
    match digitValue? c with
    | some v => if v < radix then readOnto? radix (value * radix + v) rest else none
    | none => none

/-- A non-empty row of digits of the given radix. -/
def readDigits? (radix : Nat) : List Char → Option Nat
  | [] => none
  | cs => readOnto? radix 0 cs

/-- An optional plus sign and digits, denoting a value below `2 ^ width`. -/
def readUnsigned? (width : Nat) (radix : Nat) (cs : List Char) : Option Nat :=
  let body := match cs with
    | '+' :: rest => rest
    | _ => cs
  match readDigits? radix body with
  | some n => if n < Nat.pow 2 width then some n else none
  | none => none

/-- An optional sign and digits, denoting a value of a two's complement word. -/
def readSigned? (width : Nat) (radix : Nat) (cs : List Char) : Option Int :=
  match cs with
  | '-' :: rest =>
    match readDigits? radix rest with
    | some n => if n ≤ Nat.pow 2 (width - 1) then some (-(n : Int)) else none
    | none => none
  | _ =>
    match readUnsigned? (width - 1) radix cs with
    | some n => some n
    | none => none

def u64? (s : String) : Option Nat := readUnsigned? 64 10 s.toList

def i64? (s : String) : Option Int := readSigned? 64 10 s.toList

@[simp] theorem readDigits?_nil (radix : Nat) : readDigits? radix [] = none := rfl

end Numeral
end Leasehold
