import Leasehold.Policy

/-!
# Overrides

Settings in milliseconds that each take the place of one setting of a policy.
-/

namespace Leasehold
namespace Policy

structure Override where
  lease : Option Nat
  wait : Option Nat
  retry : Option Nat
deriving DecidableEq

namespace Override

/-- The policy with the given settings, without zeros. -/
def apply (o : Override) (p : Policy) : Policy :=
  { lease := (o.lease.map Duration.ofMillis).getD p.lease
    wait := (o.wait.map Duration.ofMillis).getD p.wait
    retry := (o.retry.map Duration.ofMillis).getD p.retry : Policy }.normalized

end Override
end Policy
end Leasehold
