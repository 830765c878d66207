import Leasehold.Decimal.Shortest

/-!
# Plain scalars by meaning

What a scalar without quotes denotes: nothing, a truth value, a whole number in
base ten, sixteen, eight or two, a binary number, or else its own text. Digits
behind a leading zero are text.
-/

namespace Leasehold
namespace Yaml

/-- A number of a document. Whole numbers fit a word of 64 bits, with or without sign. -/
inductive Number where
  | natural (n : Nat)
  | negative (n : Int)
  | real (x : Binary64)
deriving DecidableEq

namespace Number

def ofInt (n : Int) : Number := if 0 ≤ n then natural n.toNat else negative n

/-- Whether two numbers are the same key. -/
def same : Number → Number → Bool
  | natural a, natural b => a == b
  | negative a, negative b => a == b
  | real a, real b => a.same b
  | _, _ => false

def text : Number → String
  | natural n => Numeral.ofNat n
  | negative n => Numeral.ofInt n
  | real .nan => ".nan"
  | real (.infinite false) => ".inf"
  | real (.infinite true) => "-.inf"
  | real (.finite minus m q) =>
    let (digits, e) := Shortest.digitsOf .toEven m q
    let ds := Numeral.digits digits
    let point : Int := ds.length + e
    let body :=
      if m = 0 then ['0', '.', '0']
      else if -5 < point ∧ point ≤ 16 then Shortest.positional ds point
      else Shortest.scientific ds point
    String.ofList (if minus then '-' :: body else body)

end Number

/-- What a plain scalar denotes. A whole number that needs more than 64 bits and fits 128 is told
apart, because nothing takes it. -/
inductive Meaning where
  | null
  | bool (b : Bool)
  | number (n : Number)
  | tooWide (n : Int)
  | text
deriving DecidableEq

namespace Meaning

def isNull (cs : List Char) : Bool :=
  cs == ['~'] || cs == "null".toList || cs == "Null".toList || cs == "NULL".toList

def bool? (cs : List Char) : Option Bool :=
  if cs == "true".toList || cs == "True".toList || cs == "TRUE".toList then some true
  else if cs == "false".toList || cs == "False".toList || cs == "FALSE".toList then some false
  else none

def withoutSign (cs : List Char) : List Char :=
  match cs with
  | '-' :: rest => rest
  | '+' :: rest => rest
  | _ => cs

/-- Digits behind a leading zero. -/
def isZeroPadded (cs : List Char) : Bool :=
  match withoutSign cs with
  | '0' :: d :: rest => (d :: rest).all Numeral.isDigit
  | _ => false

/-- The digits and their base, where the base is spelled out. -/
def based? (cs : List Char) : Option (Nat × List Char) :=
  match cs with
  | '0' :: 'x' :: ds => some (16, ds)
  | '0' :: 'o' :: ds => some (8, ds)
  | '0' :: 'b' :: ds => some (2, ds)
  | _ => none

/-- A whole number and whether it has a minus sign. -/
def whole? (cs : List Char) : Option (Bool × Nat) :=
  let (negative, body) := match cs with
    | '-' :: rest => (true, rest)
    | '+' :: rest => (false, rest)
    | _ => (false, cs)
  let (radix, digits) := (based? body).getD (10, body)
  if radix = 10 ∧ isZeroPadded cs then none
  else (Numeral.readDigits? radix digits).map fun n => (negative, n)

/-- The meaning of a whole number that fits some word. -/
def ofWhole? : Bool × Nat → Option Meaning
  | (false, n) =>
    if n < Nat.pow 2 64 then some (number (.natural n))
    else if n < Nat.pow 2 128 then some (tooWide n)
    else none
  | (true, n) =>
    if n ≤ Nat.pow 2 63 then some (number (.ofInt (-(n : Int))))
    else if n ≤ Nat.pow 2 127 then some (tooWide (-(n : Int)))
    else none

/-- A binary number, an infinity or the value that is no number. -/
def real? (cs : List Char) : Option Binary64 :=
  let unsigned := match cs with
    | '+' :: rest => rest
    | _ => cs
  if cs.head? == some '+' && (unsigned.head? == some '+' || unsigned.head? == some '-') then none
  else if unsigned == ".inf".toList || unsigned == ".Inf".toList || unsigned == ".INF".toList then
    some (.infinite false)
  else if cs == "-.inf".toList || cs == "-.Inf".toList || cs == "-.INF".toList then
    some (.infinite true)
  else if cs == ".nan".toList || cs == ".NaN".toList || cs == ".NAN".toList then some .nan
  else
    match Binary64.read? unsigned with
    | some (.finite s m e) => some (.finite s m e)
    | _ => none

def wholeNumber? (cs : List Char) : Option Meaning := (whole? cs).bind ofWhole?

def ofPlain (cs : List Char) : Meaning :=
  if cs.isEmpty || isNull cs then null
  else
    match bool? cs with
    | some b => bool b
    | none =>
      match wholeNumber? cs with
      | some m => m
      | none =>
        if isZeroPadded cs then text
        else
          match real? cs with
          | some x => number (.real x)
          | none => text

end Meaning
end Yaml
end Leasehold
