import Leasehold.Text.Numeral

/-!
# Binary floating point numbers

Numbers with 53 significant binary digits, decoded, and the rounding of a
fraction to the nearest of them, ties to even.
-/

namespace Leasehold

/-- A number in the format of 64 bits. A finite one is `± mantissa * 2 ^ exponent`, where the
mantissa has 53 binary digits unless the exponent is the least one. -/
inductive Binary64 where
  | nan
  | infinite (negative : Bool)
  | finite (negative : Bool) (mantissa : Nat) (exponent : Int)
deriving DecidableEq

namespace Binary64

def leastExponent : Int := -1074

def greatestExponent : Int := 971

/-- Whether the two compare as equal: zeros of either sign do, and here a NaN equals itself. -/
def same : Binary64 → Binary64 → Bool
  | nan, nan => true
  | infinite a, infinite b => a == b
  | finite a m e, finite b n f => (m == 0 && n == 0) || (a == b && m == n && e == f)
  | _, _ => false

/-- The nearest natural number to a fraction, the even one of two. -/
def roundDiv (num den : Nat) : Nat :=
  let q := num / den
  let r := num % den
  if 2 * r < den then q else if den < 2 * r then q + 1 else q + q % 2

/-- `num / (den * 2 ^ e)` as a fraction. -/
def scaled (num den : Nat) (e : Int) : Nat × Nat :=
  (num * Nat.pow 2 (-e).toNat, den * Nat.pow 2 e.toNat)

/-- The exponent at which the integer part of the scaled fraction has 53 digits, but not less than
the least one. -/
def exponentFor (num den : Nat) : Int :=
  let guess : Int := (Nat.log2 num : Int) - Nat.log2 den - 52
  let (n, d) := scaled num den guess
  let e := if n / d < Nat.pow 2 52 then guess - 1 else guess
  max e leastExponent

/-- The nearest number to a positive fraction. -/
def ofFraction (negative : Bool) (num den : Nat) : Binary64 :=
  if num = 0 then finite negative 0 leastExponent
  else
    let e := exponentFor num den
    let (n, d) := scaled num den e
    let m := roundDiv n d
    let (m, e) := if m = Nat.pow 2 53 then (Nat.pow 2 52, e + 1) else (m, e)
    if greatestExponent < e then infinite negative else finite negative m e

/-- The nearest number to `± digits * 10 ^ exponent`. Exponents far outside the range are settled
without writing the power out. -/
def ofDecimal (negative : Bool) (digits : Nat) (exponent : Int) : Binary64 :=
  let size : Int := (Numeral.digits digits).length + exponent
  if digits = 0 ∨ size < -400 then finite negative 0 leastExponent
  else if 400 < size then infinite negative
  else ofFraction negative (digits * Nat.pow 10 exponent.toNat) (Nat.pow 10 (-exponent).toNat)

/-- The digits of a number and how many of them stand after the point. -/
def mantissa? (cs : List Char) : Option (Nat × Nat × List Char) :=
  let whole := cs.takeWhile Numeral.isDigit
  let rest := cs.dropWhile Numeral.isDigit
  let (fraction, rest) := match rest with
    | '.' :: after => (after.takeWhile Numeral.isDigit, after.dropWhile Numeral.isDigit)
    | _ => ([], rest)
  (Numeral.readDigits? 10 (whole ++ fraction)).map fun n => (n, fraction.length, rest)

def exponent? (cs : List Char) : Option Int :=
  match cs with
  | '-' :: ds => (Numeral.readDigits? 10 ds).map fun n => -(n : Int)
  | '+' :: ds => (Numeral.readDigits? 10 ds).map fun n => (n : Int)
  | ds => (Numeral.readDigits? 10 ds).map fun n => (n : Int)

/-- Reads digits with an optional point and an optional exponent, after an optional minus sign. -/
def read? (cs : List Char) : Option Binary64 :=
  let (negative, cs) := match cs with
    | '-' :: rest => (true, rest)
    | _ => (false, cs)
  match mantissa? cs with
  | none => none
  | some (digits, places, rest) =>
    let exponent := match rest with
      | [] => some 0
      | 'e' :: e => exponent? e
      | 'E' :: e => exponent? e
      | _ => none
    exponent.map fun e => ofDecimal negative digits (e - places)

end Binary64
end Leasehold
