import Leasehold.Decimal.Binary64

/-!
# Shortest decimals

The decimal with the fewest digits among those that round to a binary number,
and of these the nearest to it.
-/

namespace Leasehold
namespace Shortest

/-- Which of two equally near decimals is taken. -/
inductive Tie where
  | toEven
  | up
deriving DecidableEq

/-- Compares `a * 10 ^ i` with `n * 2 ^ j`. -/
def compareScaled (a : Nat) (i : Int) (n : Nat) (j : Int) : Ordering :=
  compare (a * Nat.pow 10 i.toNat * Nat.pow 2 (-j).toNat) (n * Nat.pow 2 j.toNat * Nat.pow 10 (-i).toNat)

/-- Whether `digits * 10 ^ exponent` rounds to `m * 2 ^ q`: it lies between the points halfway to
the neighbours, which belong to the even mantissa. -/
def readsBack (m : Nat) (q : Int) (digits : Nat) (exponent : Int) : Bool :=
  let narrow := m == Nat.pow 2 52 && q != Binary64.leastExponent
  let low := if narrow then 4 * m - 1 else 4 * m - 2
  let atLow := compareScaled digits exponent low (q - 2)
  let atHigh := compareScaled digits exponent (4 * m + 2) (q - 2)
  let even := m % 2 == 0
  (atLow == .gt || (even && atLow == .eq)) && (atHigh == .lt || (even && atHigh == .eq))

/-- The least `k` from `guess` on with `m * 2 ^ q < 10 ^ k`. -/
def scaleFrom (m : Nat) (q : Int) : Nat → Int → Int
  | 0, k => k
  | fuel + 1, k => if compareScaled 1 k m q == .gt then k else scaleFrom m q fuel (k + 1)

/-- How many digits stand before the point; for numbers below one tenth it is negative. -/
def scale (m : Nat) (q : Int) : Int :=
  let bits : Int := Nat.log2 m + q
  scaleFrom m q 8 (bits * 30103 / 100000 - 2)

/-- Of the two points of the grid `10 ^ e` around the number, the one that rounds to it; of two
such the nearer. -/
def onGrid? (tie : Tie) (m : Nat) (q e : Int) : Option Nat :=
  let below :=
    (m * Nat.pow 2 q.toNat * Nat.pow 10 (-e).toNat) / (Nat.pow 2 (-q).toNat * Nat.pow 10 e.toNat)
  match readsBack m q below e, readsBack m q (below + 1) e with
  | true, false => some below
  | false, true => some (below + 1)
  | false, false => none
  | true, true =>
    match compareScaled (2 * below + 1) e (2 * m) q with
    | .gt => some below
    | .lt => some (below + 1)
    | .eq =>
      match tie with
      | .up => some (below + 1)
      | .toEven => some (below + below % 2)

/-- Tries longer and longer decimals; the exact one is the last resort. -/
def search (tie : Tie) (m : Nat) (q k : Int) : Nat → Nat → Nat × Int
  | 0, _ => (m * Nat.pow 2 q.toNat * Nat.pow 5 (-q).toNat, min q 0)
  | more + 1, n =>
    match onGrid? tie m q (k - n) with
    | some digits => (digits, k - n)
    | none => search tie m q k more (n + 1)

def strip : Nat → Nat → Int → Nat × Int
  | 0, digits, e => (digits, e)
  | fuel + 1, digits, e =>
    if digits % 10 = 0 ∧ digits ≠ 0 then strip fuel (digits / 10) (e + 1) else (digits, e)

def digitsOf (tie : Tie) (m : Nat) (q : Int) : Nat × Int :=
  if m = 0 then (0, 0)
  else
    let (digits, e) := search tie m q (scale m q) 18 1
    strip 20 digits e

/-- Digits with a point behind the first `point` of them; at least one digit stands on either
side. -/
def positional (digits : List Char) (point : Int) : List Char :=
  if point ≤ 0 then '0' :: '.' :: List.replicate (-point).toNat '0' ++ digits
  else
    let whole := digits.take point.toNat
    let fraction := digits.drop point.toNat
    whole ++ List.replicate (point.toNat - whole.length) '0' ++ '.' ::
      (if fraction.isEmpty then ['0'] else fraction)

/-- Digits with a point behind the first, and the power of ten. -/
def scientific (digits : List Char) (point : Int) : List Char :=
  let fraction := digits.drop 1
  digits.take 1 ++ (if fraction.isEmpty then [] else '.' :: fraction) ++
    'e' :: (Numeral.ofInt (point - 1)).toList

end Shortest
end Leasehold
