import Leasehold.Yaml.Lexeme.Block
import Leasehold.Yaml.Lexeme.Plain
import Leasehold.Yaml.Lexeme.Property
import Leasehold.Yaml.Lexeme.Quoted

/-!
# From text to tokens

Indentation opens and closes blocks. A scalar or a collection turns out to be
a key only when a colon follows it on the same line; the key token is then put
in front of it after the fact.
-/

namespace Leasehold
namespace Yaml

/-- A place where a key may have begun. -/
structure KeyCandidate where
  /-- How many tokens stand before it. -/
  position : Nat
  index : Nat
  line : Nat
  column : Nat
  /-- Whether nothing but a key can stand here. -/
  required : Bool

structure Lexer where
  cursor : Cursor
  /-- The tokens so far, the latest first. -/
  tokens : List Token
  count : Nat
  /-- The column of the innermost block, and those of the blocks around it; `-1` outside blocks. -/
  indent : Int
  outer : List Int
  /-- The key candidate of the block and of each open flow collection, the innermost first. -/
  candidate : Option KeyCandidate
  enclosing : List (Option KeyCandidate)
  /-- Whether a key may begin here. -/
  keyAllowed : Bool

namespace Lexer

def start (text : List Char) : Lexer := ⟨Cursor.start text, [], 0, -1, [], none, [], true⟩

variable (l : Lexer)

def inFlow : Bool := !l.enclosing.isEmpty

def push (t : Token) : Lexer := { l with tokens := t :: l.tokens, count := l.count + 1 }

/-- Puts a token behind the first `position` tokens. -/
def insertAt (position : Nat) (t : Token) : Lexer :=
  let later := l.count - position
  { l with tokens := l.tokens.take later ++ t :: l.tokens.drop later, count := l.count + 1 }

/-- Passes over blanks, comments and line ends. Tabs may indent only where no key can begin. -/
def skipGaps : Nat → Lexer → Lexer
  | 0, l => l
  | fuel + 1, l =>
    let c := l.cursor
    let c := if c.column == 0 && c.sees byteOrderMark then c.skip 1 else c
    let tabs := l.inFlow || !l.keyAllowed
    let c := c.skipWhile fun ch => ch == ' ' || (tabs && ch == '\t')
    let c := if c.sees '#' then c.skipWhile (!isBreak ·) else c
    if c.seesBreak then
      skipGaps fuel { l with cursor := c.skipBreak, keyAllowed := l.keyAllowed || !l.inFlow }
    else { l with cursor := c }

/-- Whether the place of a key candidate has been left behind: keys stay on one line and are short. -/
def isStale (k : KeyCandidate) : Bool :=
  k.line < l.cursor.line || k.index + 1024 < l.cursor.index

/-- Drops the candidates that were left behind, unless one of them had to be a key. -/
def dropStale? : Option Lexer :=
  let all := l.candidate :: l.enclosing
  let stale := fun (k : Option KeyCandidate) => k.any l.isStale
  if all.any fun k => stale k && k.any (·.required) then none
  else
    let keep := fun (k : Option KeyCandidate) => if stale k then none else k
    some { l with candidate := keep l.candidate, enclosing := l.enclosing.map keep }

/-- Gives up the innermost candidate, unless it had to be a key. -/
def dropCandidate? : Option Lexer :=
  if l.candidate.any (·.required) then none else some { l with candidate := none }

def noteCandidate? : Option Lexer :=
  if l.keyAllowed then
    l.dropCandidate?.map fun l =>
      let c := l.cursor
      { l with candidate := some ⟨l.count, c.index, c.line, c.column,
          !l.inFlow && l.indent == (c.column : Int)⟩ }
  else some l

/-- Closes the blocks that are indented deeper than the column. -/
def closeBlocks (column : Int) : List Int → Lexer → Lexer
  | [], l => l
  | parent :: outer, l =>
    if column < l.indent then
      closeBlocks column outer { l.push .blockEnd with indent := parent, outer }
    else l

def unindent (column : Int) : Lexer :=
  if l.inFlow then l else closeBlocks column l.outer l

/-- Opens a block at a deeper column; its token stands behind the first `position` tokens. -/
def indentTo (column : Nat) (position : Nat) (opening : Token) : Lexer :=
  if !l.inFlow && l.indent < (column : Int) then
    { l.insertAt position opening with indent := column, outer := l.indent :: l.outer }
  else l

def take (n : Nat) (t : Token) : Lexer := { l.push t with cursor := l.cursor.skip n }

/-- Ends all blocks, for a marker or a directive. -/
def endBlocks? : Option Lexer :=
  (l.unindent (-1)).dropCandidate?.map fun l => { l with keyAllowed := false }

def openFlow? (t : Token) : Option Lexer :=
  l.noteCandidate?.map fun l =>
    { l.take 1 t with candidate := none, enclosing := l.candidate :: l.enclosing, keyAllowed := true }

def closeFlow? (t : Token) : Option Lexer :=
  l.dropCandidate?.map fun l =>
    match l.enclosing with
    | [] => { l.take 1 t with keyAllowed := false }
    | k :: rest => { l.take 1 t with candidate := k, enclosing := rest, keyAllowed := false }

def flowEntry? : Option Lexer :=
  l.dropCandidate?.map fun l => { l.take 1 .flowEntry with keyAllowed := true }

/-- Where a block construct of its own may begin, the block that holds it is opened. -/
def beginBlock? (opening : Token) : Option Lexer :=
  if l.inFlow then some l
  else if l.keyAllowed then some (l.indentTo l.cursor.column l.count opening)
  else none

def blockEntry? : Option Lexer :=
  match l.beginBlock? .blockSequence with
  | none => none
  | some l => l.dropCandidate?.map fun l => { l.take 1 .blockEntry with keyAllowed := true }

def explicitKey? : Option Lexer :=
  match l.beginBlock? .blockMapping with
  | none => none
  | some l => l.dropCandidate?.map fun l => { l.take 1 .key with keyAllowed := !l.inFlow }

/-- A colon: either what began at the candidate was a key, or the key was explicit. -/
def value? : Option Lexer :=
  match l.candidate with
  | some k =>
    let l := (l.insertAt k.position .key).indentTo k.column k.position .blockMapping
    some { l.take 1 .value with candidate := none, keyAllowed := false }
  | none =>
    (l.beginBlock? .blockMapping).map fun l => { l.take 1 .value with keyAllowed := !l.inFlow }

/-- A node that may be or begin a key. -/
def node? (read : Cursor → Option (Token × Cursor)) : Option Lexer :=
  match l.noteCandidate? with
  | none => none
  | some l =>
    (read l.cursor).map fun (t, cursor) => { l.push t with cursor, keyAllowed := false }

def plain? : Option Lexer :=
  match l.noteCandidate? with
  | none => none
  | some l =>
    (Plain.read l.inFlow (l.indent + 1) l.cursor).map fun (text, broken, cursor) =>
      { l.push (.scalar (String.ofList text) .plain) with cursor, keyAllowed := broken }

def blockScalar? (literal : Bool) : Option Lexer :=
  match l.dropCandidate? with
  | none => none
  | some l =>
    (BlockScalar.read literal l.indent l.cursor).map fun (text, cursor) =>
      { l.push (.scalar (String.ofList text) (if literal then .literal else .other)) with
        cursor, keyAllowed := true }

def quoted? (quote : Char) : Option Lexer :=
  l.node? fun c => (Quotation.read quote c).map fun (text, c) => (.scalar (String.ofList text) .other, c)

def marker? (t : Token) : Option Lexer := l.endBlocks?.map (·.take 3 t)

def directive? : Option Lexer :=
  match l.endBlocks? with
  | none => none
  | some l => (Property.directive? l.cursor).map fun (t, cursor) => { l.push t with cursor }

def finish? : Option Lexer := l.endBlocks?.map fun l => l.push .streamEnd

def next? : Option Lexer :=
  let c := l.cursor
  match c.rest with
  | [] => l.finish?
  | ch :: _ =>
    let parts := l.inFlow || c.partsAt 1
    if c.column == 0 && ch == '%' then l.directive?
    else if c.atMarker '-' then l.marker? .documentStart
    else if c.atMarker '.' then l.marker? .documentEnd
    else if ch == '[' then l.openFlow? .flowSequence
    else if ch == '\x7b' then l.openFlow? .flowMapping
    else if ch == ']' then l.closeFlow? .flowSequenceEnd
    else if ch == '\x7d' then l.closeFlow? .flowMappingEnd
    else if ch == ',' then l.flowEntry?
    else if ch == '-' && c.partsAt 1 then l.blockEntry?
    else if ch == '?' && parts then l.explicitKey?
    else if ch == ':' && parts then l.value?
    else if ch == '*' then
      l.node? fun c => (Property.name? c).map fun (name, c) => (.alias name, c)
    else if ch == '&' then
      l.node? fun c => (Property.name? c).map fun (name, c) => (.anchor name, c)
    else if ch == '!' then l.node? (Property.tag? l.inFlow)
    else if ch == '|' && !l.inFlow then l.blockScalar? true
    else if ch == '>' && !l.inFlow then l.blockScalar? false
    else if ch == '\'' || ch == '"' then l.quoted? ch
    else if Plain.starts l.inFlow c then l.plain?
    else none

def run : Nat → Lexer → Option (List Token)
  | 0, _ => none
  | fuel + 1, l =>
    match (skipGaps (l.cursor.rest.length + 1) l).dropStale? with
    | none => none
    | some l =>
      let l := l.unindent l.cursor.column
      if l.cursor.atEnd then l.finish?.map fun l => l.tokens.reverse
      else
        match l.next? with
        | none => none
        | some l => run fuel l

end Lexer

def tokens? (text : String) : Option (List Token) :=
  let cs := text.toList
  let cs := if cs.head? == some byteOrderMark then cs.tail else cs
  if cs.all isAdmitted then Lexer.run (cs.length + 2) (Lexer.start cs) else none

end Yaml
end Leasehold
