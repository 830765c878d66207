import Leasehold.Text.Numeral

/-!
# Positions in a document's text

A cursor stands before the text that is still to be read and knows its line
and column. A line ends at a line feed, a carriage return, both in this order,
or one of the three Unicode line ends.
-/

namespace Leasehold
namespace Yaml

/-- A space or a tab. -/
def isGap (c : Char) : Bool := c == ' ' || c == '\t'

/-- A character that ends a line. -/
def isBreak (c : Char) : Bool :=
  c == '\n' || c == '\r' || c.toNat == 0x85 || c.toNat == 0x2028 || c.toNat == 0x2029

/-- A letter, a digit, a hyphen or an underscore, all of ASCII. -/
def isNameChar (c : Char) : Bool := c.isAlphanum || c == '-' || c == '_'

/-- A character that a document may hold. -/
def isAdmitted (c : Char) : Bool :=
  let n := c.toNat
  n == 9 || n == 10 || n == 13 || (0x20 ≤ n && n ≤ 0x7E) || n == 0x85 ||
    (0xA0 ≤ n && n ≤ 0xD7FF) || (0xE000 ≤ n && n ≤ 0xFFFD) || 0x10000 ≤ n

def byteOrderMark : Char := Char.ofNat 0xFEFF

structure Cursor where
  rest : List Char
  index : Nat
  line : Nat
  column : Nat

namespace Cursor

def start (text : List Char) : Cursor := ⟨text, 0, 0, 0⟩

variable (c : Cursor)

def sees (ch : Char) : Bool := c.rest.head? == some ch

def seesAt (n : Nat) (ch : Char) : Bool := c.rest[n]? == some ch

def seesGap : Bool := c.rest.head?.any isGap

def seesBreak : Bool := c.rest.head?.any isBreak

def atEnd : Bool := c.rest.isEmpty

/-- Whether there is a line end or nothing `n` places on. -/
def stopsAt (n : Nat) : Bool :=
  match c.rest[n]? with
  | some ch => isBreak ch
  | none => true

/-- Whether there is a space, a tab, a line end or nothing `n` places on. -/
def partsAt (n : Nat) : Bool :=
  match c.rest[n]? with
  | some ch => isGap ch || isBreak ch
  | none => true

/-- Whether a document marker of three equal characters starts the line here. -/
def atMarker (ch : Char) : Bool :=
  c.column == 0 && c.seesAt 0 ch && c.seesAt 1 ch && c.seesAt 2 ch && c.partsAt 3

def atAnyMarker : Bool := c.atMarker '-' || c.atMarker '.'

def skip (n : Nat) : Cursor :=
  ⟨c.rest.drop n, c.index + n, c.line, c.column + n⟩

/-- The characters of the line that satisfy `p`, and the cursor after them. -/
def takeWhile (p : Char → Bool) : List Char × Cursor :=
  let taken := c.rest.takeWhile p
  (taken, c.skip taken.length)

def skipWhile (p : Char → Bool) : Cursor := (c.takeWhile p).2

/-- The line end here in its normal form, and the cursor on the next line. -/
def takeBreak : List Char × Cursor :=
  match c.rest with
  | '\r' :: '\n' :: rest => (['\n'], ⟨rest, c.index + 2, c.line + 1, 0⟩)
  | ch :: rest =>
    if ch == '\n' || ch == '\r' || ch.toNat == 0x85 then (['\n'], ⟨rest, c.index + 1, c.line + 1, 0⟩)
    else if isBreak ch then ([ch], ⟨rest, c.index + 1, c.line + 1, 0⟩)
    else ([], c)
  | [] => ([], c)

def skipBreak : Cursor := c.takeBreak.2

/-- Passes over the rest of the line if only a comment may follow on it. -/
def endLine? : Option Cursor :=
  let c := c.skipWhile isGap
  let c := if c.sees '#' then c.skipWhile (!isBreak ·) else c
  if c.stopsAt 0 then some c.skipBreak else none

end Cursor
end Yaml
end Leasehold
