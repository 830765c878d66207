import Leasehold.Redis.Fault
import Leasehold.Text.Blank

/-!
# The wire format

Commands go out as rows of byte strings with their lengths. Values come in as
lines and byte strings, the first byte telling which; a row of values that has
an error in it is an error.
-/

namespace Leasehold
namespace Redis

abbrev Command := List String

namespace Wire

def lineEnd : List UInt8 := [13, 10]

def sized (mark : Char) (n : Nat) : List UInt8 :=
  Utf8.encode (String.ofList [mark]) ++ Utf8.encode (Numeral.ofNat n) ++ lineEnd

def encodeBytes (bytes : List UInt8) : List UInt8 := sized '$' bytes.length ++ bytes ++ lineEnd

def encode (c : Command) : List UInt8 :=
  sized '*' c.length ++ c.flatMap fun argument => encodeBytes (Utf8.encode argument)

/-- What bytes begin with. -/
inductive Read (α : Type) where
  /-- The bytes end too early. -/
  | more
  | malformed
  | done (a : α) (rest : List UInt8)

abbrev Answer := Except ServerError Value

/-- The bytes up to the first line end, and those behind it. -/
def splitLine : List UInt8 → Option (List UInt8 × List UInt8)
  | 13 :: 10 :: rest => some ([], rest)
  | b :: rest => (splitLine rest).map fun (line, rest) => (b :: line, rest)
  | [] => none

def line (bytes : List UInt8) : Read String :=
  match splitLine bytes with
  | none => .more
  | some (line, rest) =>
    match Utf8.decode? line with
    | some s => .done s rest
    | none => .malformed

def number (bytes : List UInt8) : Read Int :=
  match line bytes with
  | .more => .more
  | .malformed => .malformed
  | .done s rest =>
    match Numeral.i64? (Blank.trim s) with
    | some n => .done n rest
    | none => .malformed

/-- So many bytes and a line end. -/
def byteString (size : Nat) (bytes : List UInt8) : Read Answer :=
  if bytes.length < size then .more
  else
    match bytes.drop size with
    | 13 :: 10 :: rest => .done (.ok (.data (bytes.take size))) rest
    | [] => .more
    | [13] => .more
    | _ => .malformed

/-- Rows may stand in rows this deep. -/
def depthLimit : Nat := 100

/-- Reads so many answers, at most as many as there are bytes; the first error stands for all. -/
def answers (read : List UInt8 → Read Answer) : Nat → Nat → List UInt8 → Read (Except ServerError (List Value))
  | _, 0, bytes => .done (.ok []) bytes
  | 0, _ + 1, _ => .more
  | fuel + 1, count + 1, bytes =>
    match read bytes with
    | .more => .more
    | .malformed => .malformed
    | .done a rest =>
      match answers read fuel count rest with
      | .more => .more
      | .malformed => .malformed
      | .done as rest => .done (a.bind fun v => as.map (v :: ·)) rest

/-- Reads an answer in which rows may stand so deep. -/
def answer : Nat → List UInt8 → Read Answer
  | _, [] => .more
  | depth, mark :: bytes =>
    if mark = 0x2B then
      match line bytes with
      | .more => .more
      | .malformed => .malformed
      | .done s rest => .done (.ok (if s = "OK" then .okay else .status s)) rest
    else if mark = 0x3A then
      match number bytes with
      | .more => .more
      | .malformed => .malformed
      | .done n rest => .done (.ok (.int n)) rest
    else if mark = 0x24 then
      match number bytes with
      | .more => .more
      | .malformed => .malformed
      | .done n rest => if n < 0 then .done (.ok .nil) rest else byteString n.toNat rest
    else if mark = 0x2D then
      match line bytes with
      | .more => .more
      | .malformed => .malformed
      | .done s rest => .done (.error (.ofLine s)) rest
    else if mark = 0x2A then
      match depth with
      | 0 => .malformed
      | depth + 1 =>
        match number bytes with
        | .more => .more
        | .malformed => .malformed
        | .done n rest =>
          if n < 0 then .done (.ok .nil) rest
          else
            match answers (answer depth) rest.length n.toNat rest with
            | .more => .more
            | .malformed => .malformed
            | .done as rest => .done (as.map .bulk) rest
    else .malformed

def read (bytes : List UInt8) : Read Answer := answer (depthLimit + 1) bytes

end Wire
end Redis
end Leasehold
