import Leasehold.Yaml.Token

/-!
# Anchors, tags and directives

What may stand before a node or before a document. Tags may spell bytes as a
percent sign and two hexadecimal digits.
-/

namespace Leasehold
namespace Yaml
namespace Property

/-- The name after the mark of an anchor or an alias. -/
def name? (c : Cursor) : Option (String × Cursor) :=
  let (name, c) := (c.skip 1).takeWhile isNameChar
  let ends := c.partsAt 0 || c.rest.head?.any fun ch => "?:,]\x7d%@`".toList.contains ch
  if name.isEmpty || !ends then none else some (String.ofList name, c)

/-- A percent sign and two hexadecimal digits at the start. -/
def byte? (cs : List Char) : Option Nat :=
  match cs with
  | '%' :: a :: b :: _ => Numeral.readDigits? 16 [a, b]
  | _ => none

/-- How many bytes follow a first byte of UTF-8. -/
def followers? (b : Nat) : Option Nat :=
  if b < 0x80 then some 0
  else if b / 32 = 6 then some 1
  else if b / 16 = 14 then some 2
  else if b / 8 = 30 then some 3
  else none

/-- Reads `count` spelled bytes that continue a character. -/
def spelledTail : Nat → Cursor → Option (List UInt8 × Cursor)
  | 0, c => some ([], c)
  | count + 1, c =>
    match byte? c.rest with
    | some b =>
      if b / 64 = 2 then (spelledTail count (c.skip 3)).map fun (bs, c) => (UInt8.ofNat b :: bs, c)
      else none
    | none => none

/-- Reads one character that is spelled byte by byte. -/
def spelled (c : Cursor) : Option (List UInt8 × Cursor) :=
  match byte? c.rest with
  | some b =>
    match followers? b with
    | some count => (spelledTail count (c.skip 3)).map fun (bs, c) => (UInt8.ofNat b :: bs, c)
    | none => none
  | none => none

/-- Whether a tag may hold the character; some punctuation only where the tag is closed off. -/
def isTagChar (closed : Bool) (c : Char) : Bool :=
  isNameChar c || ";/?:@&=+$.!~*'()%".toList.contains c ||
    (closed && (c == ',' || c == '[' || c == ']'))

def charBytes (c : Char) : List UInt8 := (String.singleton c).toUTF8.toList

/-- Reads the characters of a tag. -/
def tagBytes (closed : Bool) : Nat → List UInt8 → Cursor → Option (List UInt8 × Cursor)
  | 0, _, _ => none
  | fuel + 1, acc, c =>
    match c.rest with
    | ch :: _ =>
      if ch == '%' then
        match spelled c with
        | some (bs, c) => tagBytes closed fuel (acc ++ bs) c
        | none => none
      else if isTagChar closed ch then tagBytes closed fuel (acc ++ charBytes ch) (c.skip 1)
      else some (acc, c)
    | [] => some (acc, c)

/-- Reads a non-empty run of tag characters. -/
def tagText? (closed : Bool) (c : Cursor) : Option (List UInt8 × Cursor) :=
  match tagBytes closed (c.rest.length + 1) [] c with
  | some (bs, c') => if c'.index = c.index then none else some (bs, c')
  | none => none

/-- Reads an exclamation mark, a name and perhaps a second mark. -/
def handle? (c : Cursor) : Option (List Char × Cursor) :=
  if c.sees '!' then
    let (name, c) := (c.skip 1).takeWhile isNameChar
    if c.sees '!' then some ('!' :: name ++ ['!'], c.skip 1) else some ('!' :: name, c)
  else none

/-- Whether the handle is closed by a second mark. -/
def isClosed (handle : List Char) : Bool := 1 < handle.length && handle.getLast? == some '!'

/-- The tag at the cursor: its handle, which is empty for a tag that is written in full, and the
rest of it. -/
def tag? (inFlow : Bool) (c : Cursor) : Option (Token × Cursor) :=
  let found :=
    if c.seesAt 1 '<' then
      match tagText? true (c.skip 2) with
      | some (bs, c) => if c.sees '>' then some (Token.tag "" bs, c.skip 1) else none
      | none => none
    else
      match handle? c with
      | none => none
      | some (handle, c') =>
        if isClosed handle then
          (tagText? false c').map fun (bs, c) => (Token.tag (String.ofList handle) bs, c)
        else
          let head := handle.tail.flatMap charBytes
          (tagBytes false (c'.rest.length + 1) head c').map fun (bs, c) =>
            if bs.isEmpty then (Token.tag "" (charBytes '!'), c) else (Token.tag "!" bs, c)
  match found with
  | some (token, c) =>
    if c.partsAt 0 || (inFlow && c.sees ',') then some (token, c) else none
  | none => none

/-- A number of at most nine digits. -/
def versionPart? (c : Cursor) : Option (Nat × Cursor) :=
  let (ds, c) := c.takeWhile Numeral.isDigit
  if ds.length ≤ 9 then (Numeral.readDigits? 10 ds).map fun n => (n, c) else none

def version? (c : Cursor) : Option (Token × Cursor) :=
  match versionPart? (c.skipWhile isGap) with
  | some (major, c) =>
    if c.sees '.' then (versionPart? (c.skip 1)).map fun (minor, c) => (.version major minor, c)
    else none
  | none => none

/-- A handle and what it stands for. -/
def shorthand? (c : Cursor) : Option (Token × Cursor) :=
  match handle? (c.skipWhile isGap) with
  | none => none
  | some (handle, c) =>
    if (isClosed handle || handle == ['!']) && c.seesGap then
      match tagText? true (c.skipWhile isGap) with
      | some (bs, c) => if c.partsAt 0 then some (.shorthand (String.ofList handle) bs, c) else none
      | none => none
    else none

/-- The directive whose percent sign is at the cursor. -/
def directive? (c : Cursor) : Option (Token × Cursor) :=
  let (name, c) := (c.skip 1).takeWhile isNameChar
  if !c.partsAt 0 then none
  else
    let found :=
      if name == "YAML".toList then version? c
      else if name == "TAG".toList then shorthand? c
      else none
    match found with
    | some (token, c) => c.endLine?.map fun c => (token, c)
    | none => none

end Property
end Yaml
end Leasehold
