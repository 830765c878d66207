import Leasehold.Yaml.Cursor
import Leasehold.Yaml.Value

/-!
# Writing values

Values are written in blocks, two columns deeper at each level; only empty
collections are written in brackets. A text stands without quotes where it
reads back as itself.
-/

namespace Leasehold
namespace Yaml

inductive Style where
  | plain
  | single
  | double
  | literal
deriving DecidableEq

/-- A text under way: what is written, the column, whether the last thing written was a blank, and
whether the line holds nothing but indentation and marks. -/
structure Pen where
  written : List Char
  column : Nat
  blank : Bool
  fresh : Bool

namespace Pen

def start : Pen := ⟨[], 0, true, true⟩

variable (p : Pen)

def text : String := String.ofList p.written.reverse

def put (c : Char) : Pen := { p with written := c :: p.written, column := p.column + 1 }

def newLine : Pen := { p with written := '\n' :: p.written, column := 0 }

/-- Writes a line end of the text itself. -/
def putBreak (c : Char) : Pen := { p with written := c :: p.written, column := 0 }

def putAll (cs : List Char) : Pen := cs.foldl put p

/-- Goes to the indentation, on a new line unless the line is still free. -/
def indent (column : Int) : Pen :=
  let n := column.toNat
  let p := if !p.fresh || n < p.column || (p.column == n && !p.blank) then p.newLine else p
  { p.putAll (List.replicate (n - p.column) ' ') with blank := true, fresh := true }

def gap : Pen := if p.blank then p else p.put ' '

/-- Writes a mark; `spaced` where a blank comes before it, `blank` where it counts as one, `keeps`
where the line stays free behind it. -/
def mark (cs : List Char) (spaced blank keeps : Bool) : Pen :=
  let p := if spaced then p.gap else p
  { p.putAll cs with blank, fresh := p.fresh && keeps }

/-- Leaves neither a blank nor a free line. -/
def closed : Pen := { p with blank := false, fresh := false }

end Pen

namespace Printer

/-- Whether the character stands for itself between double quotes. -/
def isPrintable (c : Char) : Bool :=
  let n := c.toNat
  n == 0x0A || (0x20 ≤ n && n ≤ 0x7E) || (0xA0 ≤ n && n ≤ 0xFFFD && n != 0xFEFF) || 0x10000 ≤ n

/-- What the characters of a text allow. -/
structure Traits where
  multiline : Bool
  plainAllowed : Bool
  singleAllowed : Bool
  literalAllowed : Bool
deriving DecidableEq

/-- Whether a text begins like a mark of the format. -/
def beginsLikeMark (cs : List Char) : Bool :=
  "---".toList.isPrefixOf cs || "...".toList.isPrefixOf cs ||
    match cs with
    | [] => false
    | c :: rest =>
      let parted := match rest with
        | [] => true
        | d :: _ => isGap d || isBreak d
      "#,[]\x7b\x7d&*!|>'\"%@`".toList.contains c || (parted && (c == '?' || c == ':' || c == '-'))

/-- Whether a colon before a blank, or a number sign after one, stands behind the first place;
`parted` says whether a blank comes before. -/
def holdsMark (parted : Bool) : List Char → Bool
  | [] => false
  | c :: rest =>
    let ends := match rest with
      | [] => true
      | d :: _ => isGap d || isBreak d
    (c == ':' && ends) || (c == '#' && parted) || holdsMark (isGap c || isBreak c) rest

def adjacent (p q : Char → Bool) : List Char → Bool
  | a :: b :: rest => (p a && q b) || adjacent p q (b :: rest)
  | _ => false

def isSpace (c : Char) : Bool := c == ' '

def traits (cs : List Char) : Traits :=
  if cs.isEmpty then ⟨false, true, true, false⟩
  else
    let ends (p : Char → Bool) := cs.head?.any p || cs.getLast?.any p
    let special := cs.any (!isPrintable ·)
    let breakSpace := adjacent isBreak isSpace cs
    let spaceBreak := adjacent isSpace isBreak cs
    let multiline := cs.any isBreak
    let first := cs.head?.any fun c => isGap c || isBreak c
    { multiline
      plainAllowed := !(ends isSpace || ends isBreak || breakSpace || spaceBreak || special ||
        multiline || beginsLikeMark cs || holdsMark first cs.tail)
      singleAllowed := !(breakSpace || spaceBreak || special)
      literalAllowed := !(cs.getLast?.any isSpace || spaceBreak || special) }

/-- The style that a text asks for: line ends stay line ends, and what would read back as something
else is quoted. -/
def wanted (s : String) : Style :=
  if s.toList.contains '\n' then .literal
  else if Meaning.ofPlain s.toList = .text ∧ ¬ Meaning.isZeroPadded s.toList then .plain
  else .single

/-- The style that a text gets. -/
def granted (style : Style) (inKey : Bool) (cs : List Char) : Style :=
  let t := traits cs
  let style := if inKey && t.multiline then .double else style
  let style :=
    if style = .plain ∧ (!t.plainAllowed || (cs.isEmpty && inKey)) then .single else style
  let style := if style = .single ∧ !t.singleAllowed then .double else style
  if style = .literal ∧ (!t.literalAllowed || inKey) then .double else style

def upperHex (c : Char) : Char := if 'a' ≤ c ∧ c ≤ 'f' then Char.ofNat (c.toNat - 32) else c

def hex (width n : Nat) : List Char := (Numeral.fixed 16 width n).map upperHex

def escaped (c : Char) : List Char :=
  let n := c.toNat
  if isPrintable c && !isBreak c && c != '"' && c != '\\' then [c]
  else if n = 0 then ['\\', '0']
  else if n = 7 then ['\\', 'a']
  else if n = 8 then ['\\', 'b']
  else if n = 9 then ['\\', 't']
  else if n = 10 then ['\\', 'n']
  else if n = 11 then ['\\', 'v']
  else if n = 12 then ['\\', 'f']
  else if n = 13 then ['\\', 'r']
  else if n = 27 then ['\\', 'e']
  else if c = '"' then ['\\', '"']
  else if c = '\\' then ['\\', '\\']
  else if n = 0x85 then ['\\', 'N']
  else if n = 0xA0 then ['\\', '_']
  else if n = 0x2028 then ['\\', 'L']
  else if n = 0x2029 then ['\\', 'P']
  else if n ≤ 0xFF then ['\\', 'x'] ++ hex 2 n
  else if n ≤ 0xFFFF then ['\\', 'u'] ++ hex 4 n
  else ['\\', 'U'] ++ hex 8 n

/-- The characters between single quotes; after line ends the text goes on at the indentation. -/
def singleBody (column : Int) : Bool → List Char → Pen → Pen
  | broken, [], p => if broken then p.indent column else p
  | broken, c :: rest, p =>
    if c == ' ' then singleBody column broken rest (p.put ' ')
    else if isBreak c then
      let p := if !broken && c == '\n' then p.newLine else p
      singleBody column true rest { p.putBreak c with fresh := true }
    else
      let p := if broken then p.indent column else p
      let p := if c == '\'' then p.put '\'' else p
      singleBody column false rest { p.put c with fresh := false }

/-- The marks behind the bar: the indentation, where the text would hide it, and what becomes of
the line ends at its end. -/
def literalHints (cs : List Char) : List Char :=
  let indentation := if cs.head?.any fun c => c == ' ' || isBreak c then ['2'] else []
  let chomping := match cs.reverse with
    | [] => ['-']
    | c :: before =>
      if !isBreak c then ['-']
      else
        match before with
        | [] => ['+']
        | d :: _ => if isBreak d then ['+'] else []
  indentation ++ chomping

def literalBody (column : Int) : Bool → List Char → Pen → Pen
  | _, [], p => p
  | broken, c :: rest, p =>
    if isBreak c then literalBody column true rest { p.putBreak c with fresh := true }
    else
      let p := if broken then p.indent column else p
      literalBody column false rest { p.put c with fresh := false }

def putTag (tag : Option String) (p : Pen) : Pen :=
  match tag with
  | none => p
  | some name =>
    let bytes := name.toUTF8.toList
    let body := bytes.flatMap fun b =>
      let c := Char.ofNat b.toNat
      if b < 0x80 && (isNameChar c || ";/?:@&=+$,.!~*'()[]".toList.contains c) then [c]
      else '%' :: hex 2 b.toNat
    (p.gap.putAll ('!' :: body)).closed

def deeper (column : Int) : Int := if column < 0 then 0 else column + 2

def putScalar (column : Int) (inKey : Bool) (tag : Option String) (style : Style) (s : String)
    (p : Pen) : Pen :=
  let cs := s.toList
  let p := putTag tag p
  let column := if column < 0 then 2 else column + 2
  match granted style inKey cs with
  | .plain => ((if cs.isEmpty then p else p.gap).putAll cs).closed
  | .single => ((singleBody column false cs (p.mark ['\''] true false false)).mark ['\''] false false false).closed
  | .double => ((p.mark ['"'] true false false).putAll (cs.flatMap escaped ++ ['"'])).closed
  | .literal =>
    let p := (p.mark ('|' :: literalHints cs) true false false).newLine
    literalBody column true cs { p with blank := true, fresh := true }

def scalar? : Value → Option (String × Style)
  | .null => some ("null", .plain)
  | .bool b => some (if b then "true" else "false", .plain)
  | .number n => some (n.text, .plain)
  | .string s => some (s, wanted s)
  | _ => none

def tagSize (tag : Option String) : Nat :=
  match tag with
  | some name => 1 + name.utf8ByteSize
  | none => 0

/-- Whether a key fits on the line of its value: a short scalar of one line, or an empty
collection. -/
def isSimpleKey (tag : Option String) : Value → Bool
  | .tagged t v => isSimpleKey (some t) v
  | .sequence items => items.isEmpty && tagSize tag ≤ 128
  | .mapping entries => entries.isEmpty && tagSize tag ≤ 128
  | v =>
    match scalar? v with
    | some (s, _) => !(traits s.toList).multiline && tagSize tag + s.utf8ByteSize ≤ 128
    | none => false

mutual

/-- Writes a value inside a block; a sequence in a mapping stands at the indentation of its key. -/
def putValue (column : Int) (inMapping inKey : Bool) (tag : Option String) : Value → Pen → Pen
  | .tagged t v, p => putValue column inMapping inKey (some t) v p
  | .sequence [], p => ((putTag tag p).mark ['['] true true false).mark [']'] false false false
  | .sequence (v :: vs), p =>
    let p := putTag tag p
    let inner := if inMapping && !p.fresh then max column 0 else deeper column
    putItems inner (v :: vs) p
  | .mapping [], p => ((putTag tag p).mark ['\x7b'] true true false).mark ['\x7d'] false false false
  | .mapping (e :: es), p => putEntries (deeper column) (e :: es) (putTag tag p)
  | .null, p => putScalar column inKey tag .plain "null" p
  | .bool b, p => putScalar column inKey tag .plain (if b then "true" else "false") p
  | .number n, p => putScalar column inKey tag .plain n.text p
  | .string s, p => putScalar column inKey tag (wanted s) s p

def putItems (column : Int) : List Value → Pen → Pen
  | [], p => p
  | v :: vs, p =>
    putItems column vs
      (putValue column false false none v ((p.indent column).mark ['-'] true false true))

def putEntries (column : Int) : List (Value × Value) → Pen → Pen
  | [], p => p
  | (k, v) :: rest, p =>
    let p := p.indent column
    let p :=
      if isSimpleKey none k then
        (putValue column true true none k p).mark [':'] false false false
      else
        ((putValue column true false none k (p.mark ['?'] true false true)).indent column).mark [':']
          true false true
    putEntries column rest (putValue column true false none v p)

end

end Printer

def Value.render (v : Value) : String :=
  ((Printer.putValue (-1) false false none v Pen.start).indent (-1)).text

end Yaml
end Leasehold
