/-!
# Pieces of text

A text cut at every separator, and a text with one part replaced by another
wherever it occurs.
-/

namespace Leasehold
namespace Pieces

/-- The pieces between the separators; there is always at least one. -/
def split (separator : Char) : List Char → List (List Char)
  | [] => [[]]
  | c :: cs =>
    if c = separator then [] :: split separator cs
    else
      match split separator cs with
      | [] => [[c]]
      | p :: ps => (c :: p) :: ps

theorem split_ne_nil (separator : Char) (cs : List Char) : split separator cs ≠ [] := by
  cases cs with
  | nil => simp [split]
  | cons c cs =>
    unfold split
    split
    · simp
    · split <;> simp

def texts (separator : Char) (s : String) : List String :=
  (split separator s.toList).map String.ofList

/-- Replaces a part after passing over so many characters. -/
def replaceFrom (part other : List Char) : Nat → List Char → List Char
  | _, [] => []
  | skip + 1, _ :: cs => replaceFrom part other skip cs
  | 0, c :: cs =>
    if part.isPrefixOf (c :: cs) then other ++ replaceFrom part other (part.length - 1) cs
    else c :: replaceFrom part other 0 cs

/-- The text with every occurrence of a part, from the left, replaced by another. -/
def replace (part other text : String) : String :=
  if part.isEmpty then text else String.ofList (replaceFrom part.toList other.toList 0 text.toList)

end Pieces
end Leasehold
