import Leasehold.Text.Pieces

/-!
# Module paths

The path of a module is made of names between double colons. A path governs
the paths that continue it by whole names.
-/

namespace Leasehold
namespace Logging
namespace ModulePath

/-- The names between double colons, taken from the left; there is always at least one. -/
def names : List Char → List (List Char)
  | [] => [[]]
  | ':' :: ':' :: rest => [] :: names rest
  | c :: rest =>
    match names rest with
    | [] => [[c]]
    | n :: ns => (c :: n) :: ns

theorem names_ne_nil (cs : List Char) : names cs ≠ [] := by
  fun_cases names cs <;> simp

/-- Whether a path is another one or an ancestor of it. -/
def governs (path other : String) : Bool := (names path.toList).isPrefixOf (names other.toList)

/-- Whether colons stand in pairs, and names behind them, after so many colons in a row. -/
def pairsFrom : Nat → List Char → Bool
  | streak, [] => streak == 0
  | streak, c :: rest =>
    if c = ':' then streak < 2 && pairsFrom (streak + 1) rest
    else (streak == 0 || streak == 2) && pairsFrom 0 rest

def isValid (path : String) : Bool := !path.isEmpty && pairsFrom 0 path.toList

/-- Of two values the one with the longer path, the first of equally long ones. -/
def longer (path : α → String) : Option α → α → Option α
  | none, b => some b
  | some a, b =>
    if (names (path a).toList).length < (names (path b).toList).length then some b else some a

/-- The value whose path is the nearest ancestor of a path. -/
def nearest? (path : α → String) (values : List α) (target : String) : Option α :=
  (values.filter fun a => governs (path a) target).foldl (longer path) none

end ModulePath
end Logging
end Leasehold
