import Leasehold.Calendar
import Leasehold.Journal

/-!
# Records

What a program hands to its log, and the line that is written of it.
-/

namespace Leasehold
namespace Logging

structure Record where
  level : Level
  /-- The path by which the record finds its logger. -/
  target : String
  module : Option String
  line : Option Nat
  message : String
deriving DecidableEq

namespace Record

def unknown : String := "???"

def render (now : Instant) (r : Record) : String :=
  (Calendar.ofInstant now).text ++ " " ++ r.level.name ++ " [" ++ r.module.getD unknown ++ ":" ++
    (r.line.map Numeral.ofNat).getD unknown ++ "] - " ++ r.message ++ "\n"

end Record
end Logging
end Leasehold
