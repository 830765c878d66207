/-!
# Packed files

A gzip member that keeps its content as it is, in blocks of limited length,
and ends in a checksum and the length.
-/

namespace Leasehold
namespace Gzip

/-- So many bytes of a number, the lowest first. -/
def number : Nat → Nat → List UInt8
  | 0, _ => []
  | width + 1, n => UInt8.ofNat n :: number width (n / 256)

/-- A step of the division by the polynomial of the checksum, bits reversed. -/
def shift (remainder : UInt32) : UInt32 :=
  if remainder &&& 1 = 1 then (remainder >>> 1) ^^^ 0xEDB88320 else remainder >>> 1

def absorb (remainder : UInt32) (byte : UInt8) : UInt32 :=
  (List.range 8).foldl (fun r _ => shift r) (remainder ^^^ byte.toUInt32)

/-- The cyclic checksum of thirty-two bits. -/
def checksum (content : List UInt8) : UInt32 := ~~~ (content.foldl absorb 0xFFFFFFFF)

example : checksum [49, 50, 51, 52, 53, 54, 55, 56, 57] = 0xCBF43926 := by decide +kernel

def blockLimit : Nat := 65535

/-- A block that keeps its bytes as they are. -/
def block (last : Bool) (bytes : List UInt8) : List UInt8 :=
  (if last then 1 else 0) :: number 2 bytes.length ++ number 2 (blockLimit - bytes.length) ++ bytes

/-- The content in blocks, at most so many before the last one. -/
def blocks : Nat → List UInt8 → List UInt8
  | 0, content => block true content
  | more + 1, content =>
    if content.length ≤ blockLimit then block true content
    else block false (content.take blockLimit) ++ blocks more (content.drop blockLimit)

/-- The mark, the method, and neither a name nor a time. -/
def header : List UInt8 := [0x1F, 0x8B, 8, 0, 0, 0, 0, 0, 0, 255]

def encode (content : List UInt8) : List UInt8 :=
  header ++ blocks (content.length / blockLimit) content ++ number 4 (checksum content).toNat ++
    number 4 content.length

end Gzip
end Leasehold
