import Leasehold.Yaml.Lexeme.Folding

/-!
# Plain scalars

Text without quotes. It ends at a colon before a blank, at a comment, at the
punctuation of a flow collection inside one, and where the indentation falls
back.
-/

namespace Leasehold
namespace Yaml
namespace Plain

/-- The characters that cannot start a plain scalar. -/
def isIndicator (c : Char) : Bool :=
  "-?:,[]\x7b\x7d#&*!|>'\"%@`".toList.contains c

def isFlowEnd (c : Char) : Bool := ",[]\x7b\x7d".toList.contains c

/-- Whether a plain scalar starts at the cursor. -/
def starts (inFlow : Bool) (c : Cursor) : Bool :=
  match c.rest with
  | [] => false
  | ch :: _ =>
    !(isGap ch || isBreak ch || isIndicator ch) ||
      (ch == '-' && !(c.rest[1]?.any isGap)) ||
      (!inFlow && (ch == '?' || ch == ':') && !c.partsAt 1)

/-- Reads the characters up to the next blank or the end of the scalar. -/
def word (inFlow : Bool) : Nat → List Char → Cursor → Option (List Char × Cursor)
  | 0, _, _ => none
  | fuel + 1, acc, c =>
    match c.rest with
    | [] => some (acc.reverse, c)
    | ch :: rest =>
      if isGap ch || isBreak ch then some (acc.reverse, c)
      else if inFlow && ch == ':' && rest.head?.any (fun d => d == '?' || isFlowEnd d) then none
      else if (ch == ':' && c.partsAt 1) || (inFlow && isFlowEnd ch) then some (acc.reverse, c)
      else word inFlow fuel (ch :: acc) (c.skip 1)

/-- Reads words and the gaps between them. The answer says whether a line ended after the last
word. -/
def words (inFlow : Bool) (indent : Int) (fuel : Nat) :
    Nat → List Char → Gap → Cursor → Option (List Char × Bool × Cursor)
  | 0, _, _, _ => none
  | more + 1, acc, gap, c =>
    if c.atAnyMarker || c.sees '#' then some (acc, gap.broken, c)
    else
      match word inFlow fuel [] c with
      | none => none
      | some (w, c) =>
        let acc := if w.isEmpty then acc else acc ++ gap.fold ++ w
        let gap := if w.isEmpty then gap else Gap.none
        if c.seesGap || c.seesBreak then
          match Gap.read (fun c => !(c.sees '\t' && (c.column : Int) < indent)) fuel gap c with
          | none => none
          | some (gap, c) =>
            if !inFlow && (c.column : Int) < indent then some (acc, gap.broken, c)
            else words inFlow indent fuel more acc gap c
        else some (acc, gap.broken, c)

/-- The scalar at the cursor, whether a line ended after it, and the cursor past it. -/
def read (inFlow : Bool) (indent : Int) (c : Cursor) : Option (List Char × Bool × Cursor) :=
  let fuel := c.rest.length + 1
  words inFlow indent fuel fuel [] Gap.none c

end Plain
end Yaml
end Leasehold
