import Leasehold.Duration
import Leasehold.Redis.Fault

/-!
# Failures of a store
-/

namespace Leasehold

inductive StoreError where
  | connection (fault : Redis.Fault)
  | timeout (limit : Duration)
  | unexpectedReply (text : String)
  | configuration (text : String)

def StoreError.message : StoreError → String
  | connection fault => "Redis connect error: " ++ fault.message
  | timeout limit => "Redis did not answer within " ++ limit.text
  | unexpectedReply text => "Redis returned an unexpected reply: " ++ text
  | configuration text => "Redis configuration error: " ++ text

/-- How an operation ends: with a value, with an error of its own kind, or because it asked for
an instant past the end of the clock. -/
inductive Outcome (ε α : Type) where
  | ok (value : α)
  | error (why : ε)
  | clockOverflow

namespace Outcome

variable {ε ε' α β : Type}

def mapError (f : ε → ε') : Outcome ε α → Outcome ε' α
  | ok value => ok value
  | error why => error (f why)
  | clockOverflow => clockOverflow

def map (f : α → β) : Outcome ε α → Outcome ε β
  | ok value => ok (f value)
  | error why => error why
  | clockOverflow => clockOverflow

def ofExcept : Except ε α → Outcome ε α
  | .ok value => ok value
  | .error why => error why

def overflowMessage : String := "overflow when adding duration to instant"

end Outcome
end Leasehold
