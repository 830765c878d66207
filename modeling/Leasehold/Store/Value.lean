import Leasehold.Script
import Leasehold.Store.Error

/-!
# Replies of scripts

A script's answer is one of few shapes; a row of values is none of them.
-/

namespace Leasehold
namespace Reply

def ofValue : Redis.Value → Except StoreError Reply
  | .nil => .ok .nil
  | .okay => .ok (.status "OK")
  | .status text => .ok (.status text)
  | .data bytes => .ok (.status (Utf8.decodeLossy bytes))
  | .int n => .ok (.int n)
  | .bulk items => .error (.unexpectedReply (Redis.Value.bulk items).describe)

end Reply
end Leasehold
