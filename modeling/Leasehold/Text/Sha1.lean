import Leasehold.Text.Numeral

/-!
# SHA-1

The message is padded to whole blocks of sixteen big-endian words; each block
is expanded to eighty words and mixed into a state of five.
-/

namespace Leasehold
namespace Sha1

/-- The five words of the running digest. -/
structure State where
  a : UInt32
  b : UInt32
  c : UInt32
  d : UInt32
  e : UInt32
deriving DecidableEq

def State.start : State := ⟨0x67452301, 0xEFCDAB89, 0x98BADCFE, 0x10325476, 0xC3D2E1F0⟩

def State.add (s t : State) : State := ⟨s.a + t.a, s.b + t.b, s.c + t.c, s.d + t.d, s.e + t.e⟩

def rotate (w : UInt32) (n : UInt32) : UInt32 := (w <<< n) ||| (w >>> (32 - n))

/-- The message, a one bit, zeros, and the bit length in eight bytes. -/
def pad (message : List UInt8) : List UInt8 :=
  let zeros := (119 - message.length % 64) % 64
  let bits := message.length * 8
  let lengthBytes := [56, 48, 40, 32, 24, 16, 8, 0].map fun shift => (bits >>> shift).toUInt8
  message ++ [0x80] ++ List.replicate zeros 0 ++ lengthBytes

/-- Big-endian words; an incomplete one at the end is dropped. -/
def words : List UInt8 → List UInt32
  | a :: b :: c :: d :: rest =>
    (a.toUInt32 <<< 24 ||| b.toUInt32 <<< 16 ||| c.toUInt32 <<< 8 ||| d.toUInt32) :: words rest
  | _ => []

/-- The message schedule, latest word first: each new word mixes four earlier ones. -/
def expand : Nat → List UInt32 → List UInt32
  | 0, schedule => schedule
  | n + 1, schedule =>
    let w := rotate (schedule.getD 2 0 ^^^ schedule.getD 7 0 ^^^ schedule.getD 13 0 ^^^ schedule.getD 15 0) 1
    expand n (w :: schedule)

/-- The mixing function and constant of a round. -/
def roundMix (round : Nat) (s : State) : UInt32 :=
  if round < 20 then ((s.b &&& s.c) ||| ((~~~ s.b) &&& s.d)) + 0x5A827999
  else if round < 40 then (s.b ^^^ s.c ^^^ s.d) + 0x6ED9EBA1
  else if round < 60 then ((s.b &&& s.c) ||| (s.b &&& s.d) ||| (s.c &&& s.d)) + 0x8F1BBCDC
  else (s.b ^^^ s.c ^^^ s.d) + 0xCA62C1D6

/-- Runs the rounds of one block from the given round on. -/
def rounds : Nat → List UInt32 → State → State
  | _, [], s => s
  | round, w :: rest, s =>
    rounds (round + 1) rest
      ⟨rotate s.a 5 + roundMix round s + s.e + w, s.a, rotate s.b 30, s.c, s.d⟩

/-- Mixes the blocks of sixteen words one after another. -/
def absorb : Nat → List UInt32 → State → State
  | 0, _, s => s
  | blocks + 1, ws, s =>
    let schedule := (expand 64 (ws.take 16).reverse).reverse
    absorb blocks (ws.drop 16) (s.add (rounds 0 schedule s))

def hex (message : List UInt8) : String :=
  let ws := words (pad message)
  let s := absorb (ws.length / 16) ws State.start
  String.ofList ([s.a, s.b, s.c, s.d, s.e].flatMap fun w => Numeral.fixed 16 8 w.toNat)

end Sha1
end Leasehold
