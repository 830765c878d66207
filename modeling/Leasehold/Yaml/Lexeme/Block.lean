import Leasehold.Yaml.Cursor

/-!
# Block scalars

Indented text under a bar, which keeps its line ends, or under an angle, which
folds them. The header may fix the indentation and says what becomes of the
line ends after the text.
-/

namespace Leasehold
namespace Yaml
namespace BlockScalar

/-- What becomes of the line ends after the text. -/
inductive Chomping where
  | clip
  | strip
  | keep
deriving DecidableEq

def chompingOf? (c : Cursor) : Option Chomping :=
  if c.sees '+' then some .keep else if c.sees '-' then some .strip else none

/-- A digit that gives the indentation; nothing where a zero stands. -/
def indentOf? (c : Cursor) : Option (Option Nat × Cursor) :=
  match c.rest.head? with
  | some d =>
    if Numeral.isDigit d then
      if d == '0' then none else some (some (d.toNat - 48), c.skip 1)
    else some (none, c)
  | none => some (none, c)

/-- The two marks of a header, in either order. -/
def header? (c : Cursor) : Option (Chomping × Option Nat × Cursor) :=
  match chompingOf? c with
  | some chomping => (indentOf? (c.skip 1)).map fun (indent, c) => (chomping, indent, c)
  | none =>
    match indentOf? c with
    | none => none
    | some (none, c) => some (.clip, none, c)
    | some (some indent, c) =>
      match chompingOf? c with
      | some chomping => some (chomping, some indent, c.skip 1)
      | none => some (.clip, some indent, c)

/-- Reads empty lines and the indentation of the next line: the line ends, the column that the
deepest of these lines reaches, and the cursor on the first character that counts. -/
def emptyLines (indent : Option Nat) : Nat → List Char → Nat → Cursor →
    Option (List Char × Nat × Cursor)
  | 0, _, _, _ => none
  | fuel + 1, ends, deepest, c =>
    let spaces := (c.rest.takeWhile (· == ' ')).length
    let c := c.skip <| match indent with
      | some n => min spaces (n - c.column)
      | none => spaces
    let deepest := max deepest c.column
    let inMargin := match indent with
      | some n => c.column < n
      | none => true
    if inMargin && c.sees '\t' then none
    else if c.seesBreak then
      let (e, c) := c.takeBreak
      emptyLines indent fuel (ends ++ e) deepest c
    else some (ends, deepest, c)

/-- The indentation of the text, when the header does not give it. -/
def detected (parent : Int) (deepest : Nat) : Nat := max 1 (max deepest (parent + 1).toNat)

/-- The text read so far: its characters, the line end after them, the empty lines after that, and
whether the last line began with a blank. -/
structure Draft where
  text : List Char
  lineEnd : List Char
  empty : List Char
  blankStart : Bool

/-- Adds a line. Folding turns a line end between two lines that do not begin with a blank into a
space, or into nothing where empty lines follow it. -/
def Draft.addLine (d : Draft) (literal : Bool) (line ends empty : List Char) : Draft :=
  let blankStart := line.head?.any isGap
  let joint :=
    if !literal && d.lineEnd.head? == some '\n' && !d.blankStart && !blankStart then
      if d.empty.isEmpty then [' '] else []
    else d.lineEnd
  ⟨d.text ++ joint ++ d.empty ++ line, ends, empty, blankStart⟩

/-- Reads the lines at the indentation. -/
def lines (literal : Bool) (indent fuel : Nat) : Nat → Draft → Cursor → Option (Draft × Cursor)
  | 0, _, _ => none
  | more + 1, d, c =>
    if c.column == indent && !c.atEnd then
      let (line, c) := c.takeWhile (!isBreak ·)
      let (ends, c) := c.takeBreak
      match emptyLines (some indent) fuel [] 0 c with
      | none => none
      | some (empty, _, c) => lines literal indent fuel more (d.addLine literal line ends empty) c
    else some (d, c)

/-- The scalar whose bar or angle is at the cursor, inside a block of the given indentation. -/
def read (literal : Bool) (parent : Int) (c : Cursor) : Option (List Char × Cursor) :=
  let fuel := c.rest.length + 1
  match header? (c.skip 1) with
  | none => none
  | some (chomping, increment, c) =>
    match c.endLine? with
    | none => none
    | some c =>
      let given := increment.map fun n => if 0 ≤ parent then parent.toNat + n else n
      match emptyLines given fuel [] 0 c with
      | none => none
      | some (empty, deepest, c) =>
        let indent := given.getD (detected parent deepest)
        match lines literal indent fuel fuel ⟨[], [], empty, false⟩ c with
        | none => none
        | some (d, c) =>
          let tail := match chomping with
            | .strip => []
            | .clip => d.lineEnd
            | .keep => d.lineEnd ++ d.empty
          some (d.text ++ tail, c)

end BlockScalar
end Yaml
end Leasehold
