/-!
# Reading UTF-8

Bytes are read character by character. Where they form no character, the
longest start of one that is there counts as one bad part. The strict reader
refuses text with a bad part; the lossy reader puts a replacement character
in the place of each.
-/

namespace Leasehold
namespace Utf8

def continues (b : UInt8) : Bool := 0x80 ≤ b && b ≤ 0xBF

/-- The character of a code point put together from bytes that are in range. -/
def charOf (n : Nat) : Char := Char.ofNat n

def low6 (b : UInt8) : Nat := b.toNat % 64

/-- The bytes that may follow a first byte, if it starts a character of several bytes:
the number of further bytes and the range of the first of them. -/
def shape? (b : UInt8) : Option (Nat × UInt8 × UInt8) :=
  if 0xC2 ≤ b && b ≤ 0xDF then some (1, 0x80, 0xBF)
  else if b == 0xE0 then some (2, 0xA0, 0xBF)
  else if b == 0xED then some (2, 0x80, 0x9F)
  else if 0xE1 ≤ b && b ≤ 0xEF then some (2, 0x80, 0xBF)
  else if b == 0xF0 then some (3, 0x90, 0xBF)
  else if 0xF1 ≤ b && b ≤ 0xF3 then some (3, 0x80, 0xBF)
  else if b == 0xF4 then some (3, 0x80, 0x8F)
  else none

/-- Reads `count` continuation bytes onto a code point; `none` at the first byte that is not one. -/
def readTail : Nat → Nat → List UInt8 → Option Nat × List UInt8
  | 0, value, bs => (some value, bs)
  | _ + 1, _, [] => (none, [])
  | count + 1, value, b :: bs =>
    if continues b then readTail count (value * 64 + low6 b) bs else (none, b :: bs)

/-- The bits that a first byte of `count + 1` bytes contributes. -/
def leadBits (count : Nat) (b : UInt8) : Nat :=
  match count with
  | 1 => b.toNat % 32
  | 2 => b.toNat % 16
  | _ => b.toNat % 8

/-- The first character or bad part of the bytes `b :: bs`, and the bytes after it. -/
def head (b : UInt8) (bs : List UInt8) : Option Char × List UInt8 :=
  if b < 0x80 then (some (charOf b.toNat), bs)
  else
    match shape? b with
    | none => (none, bs)
    | some (count, lo, hi) =>
      match bs with
      | [] => (none, [])
      | c :: rest =>
        if lo ≤ c && c ≤ hi then
          let (value, rest') := readTail (count - 1) (leadBits count b * 64 + low6 c) rest
          (value.map charOf, rest')
        else (none, c :: rest)

theorem readTail_length (count value : Nat) (bs : List UInt8) :
    (readTail count value bs).2.length ≤ bs.length := by
  fun_induction readTail count value bs with
  | case1 => simp
  | case2 => simp
  | case3 value count b bs _ ih => simp only [List.length_cons]; omega
  | case4 => simp

theorem head_length (b : UInt8) (bs : List UInt8) : (head b bs).2.length ≤ bs.length := by
  unfold head
  split
  · simp
  · split
    · simp
    · split
      · simp
      · split
        · exact Nat.le_succ_of_le (readTail_length ..)
        · simp

/-- The characters and bad parts of the bytes, in order. -/
def parts : List UInt8 → List (Option Char)
  | [] => []
  | b :: bs => (head b bs).1 :: parts (head b bs).2
termination_by bs => bs.length
decreasing_by
  have := head_length b bs
  simp only [List.length_cons]
  omega

/-- The text, with a replacement character for each bad part. -/
def decodeLossy (bs : List UInt8) : String :=
  String.ofList ((parts bs).map fun p => p.getD (Char.ofNat 0xFFFD))

/-- The text, if there is no bad part. -/
def decode? (bs : List UInt8) : Option String :=
  ((parts bs).mapM id).map String.ofList

def encode (s : String) : List UInt8 := s.toUTF8.toList

end Utf8
end Leasehold
