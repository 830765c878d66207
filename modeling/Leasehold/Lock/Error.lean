import Leasehold.Store.Error

/-!
# Failures of locks and limits
-/

namespace Leasehold

inductive LockError where
  /-- The store could not be reached, or answered out of form. -/
  | transport (why : StoreError)
  /-- Polling ran out of time. -/
  | unavailable (key : String) (attempts : Nat) (waited : Duration)
  /-- The record holds another owner's token, or is gone. -/
  | notHeld (key : String)
  /-- The limit holds another value, or is gone. -/
  | limitMismatch (key : String)
  | invalidArgument (text : String)

def LockError.message : LockError → String
  | transport why => "Redis operation failed: " ++ why.message
  | unavailable key attempts waited =>
    "Lock " ++ key ++ " unavailable after " ++ Numeral.ofNat attempts ++ " attempt(s) in " ++ waited.text
  | notHeld key => "Lock " ++ key ++ " is not held by this owner"
  | limitMismatch key => "Limit " ++ key ++ " does not hold the expected value"
  | invalidArgument text => "Parameter error: " ++ text

end Leasehold
