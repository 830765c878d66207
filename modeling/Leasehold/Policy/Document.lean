import Leasehold.Policy
import Leasehold.Yaml.Value

/-!
# Policies in documents

The section `lock` of a document sets lease, wait and pause in milliseconds;
what it does not set keeps its default.
-/

namespace Leasehold
namespace Policy

/-- The duration that a path leads to, or the default. -/
def millisAt (document : Yaml.Value) (path : String) (default : Duration) : Duration :=
  match (document.lookup? path).bind Yaml.Value.natural? with
  | some n => .ofMillis n
  | none => default

def ofDocument (document : Yaml.Value) : Policy :=
  { lease := millisAt document "lock.lease_ms" standard.lease
    wait := millisAt document "lock.wait_timeout_ms" standard.wait
    retry := millisAt document "lock.retry_interval_ms" standard.retry : Policy }.normalized

end Policy
end Leasehold
