import Leasehold.Yaml.Cursor

/-!
# Folded line ends

In a scalar that runs over several lines one line end becomes a space, and of
several the first is dropped. A line end that is not a line feed stays.
-/

namespace Leasehold
namespace Yaml

/-- The blanks between two words: spaces of one line, or line ends. -/
structure Gap where
  spaces : List Char
  /-- Whether a line has ended. -/
  broken : Bool
  first : List Char
  more : List Char

namespace Gap

def none : Gap := ⟨[], false, [], []⟩

/-- What the gap contributes to the scalar. -/
def fold (g : Gap) : List Char :=
  if g.broken then
    if g.first.head? == some '\n' then
      if g.more.isEmpty then [' '] else g.more
    else g.first ++ g.more
  else g.spaces

/-- Reads blanks and line ends; `admits` says which blanks of a later line are in order. -/
def read (admits : Cursor → Bool) : Nat → Gap → Cursor → Option (Gap × Cursor)
  | 0, _, _ => Option.none
  | fuel + 1, g, c =>
    match c.rest with
    | ch :: _ =>
      if isGap ch then
        if g.broken then
          if admits c then read admits fuel g (c.skip 1) else Option.none
        else read admits fuel { g with spaces := g.spaces ++ [ch] } (c.skip 1)
      else if isBreak ch then
        let (ends, c) := c.takeBreak
        if g.broken then read admits fuel { g with more := g.more ++ ends } c
        else read admits fuel { g with spaces := [], broken := true, first := ends } c
      else some (g, c)
    | [] => some (g, c)

end Gap
end Yaml
end Leasehold
