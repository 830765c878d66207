import Leasehold.Journal

/-!
# Thresholds

A threshold lets lines of some levels through: those that matter at least as
much as it says, or none.
-/

namespace Leasehold
namespace Logging

inductive Threshold where
  | off
  | upTo (level : Level)
deriving DecidableEq

namespace Threshold

def name : Threshold → String
  | off => "OFF"
  | upTo level => level.name

/-- Zero lets nothing through, five everything. -/
def rank : Threshold → Nat
  | off => 0
  | upTo level => level.rank

def admits (t : Threshold) (level : Level) : Bool := level.rank ≤ t.rank

/-- The threshold that lets more through. -/
def max (a b : Threshold) : Threshold := if a.rank < b.rank then b else a

/-- Reads the name of a threshold in any case; any other word stands for `info`. -/
def read (word : String) : Threshold :=
  match String.ofList (word.toList.map Char.toLower) with
  | "trace" => upTo .trace
  | "debug" => upTo .debug
  | "info" => upTo .info
  | "warn" => upTo .warn
  | "error" => upTo .error
  | "off" => off
  | _ => upTo .info

end Threshold
end Logging
end Leasehold
