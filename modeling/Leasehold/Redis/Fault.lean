import Leasehold.Redis.Value

/-!
# Faults

Why a call to the server came to nothing, one constructor per cause, and the
text of each.
-/

namespace Leasehold
namespace Redis

inductive AddressFault where
  | unreadable
  | noHost
  | noPath
  | badDatabase
  | badUser
  | badPassword
  | encrypted
deriving DecidableEq

def AddressFault.message : AddressFault → String
  | unreadable => "Redis URL did not parse"
  | noHost => "Missing hostname"
  | noPath => "Missing path"
  | badDatabase => "Invalid database number"
  | badUser => "Username is not valid UTF-8 string"
  | badPassword => "Password is not valid UTF-8 string"
  | encrypted => "can't connect with TLS, the feature is not enabled"

/-- The error classes that a server's error line can start with. -/
inductive ErrorKind where
  | response
  | transactionAborted
  | loading
  | noScript
  | moved
  | ask
  | tryAgain
  | clusterDown
  | crossSlot
  | masterDown
  | readOnly
  | other (code : String)
deriving DecidableEq

namespace ErrorKind

def ofCode (code : String) : ErrorKind :=
  match code with
  | "ERR" => response
  | "EXECABORT" => transactionAborted
  | "LOADING" => loading
  | "NOSCRIPT" => noScript
  | "MOVED" => moved
  | "ASK" => ask
  | "TRYAGAIN" => tryAgain
  | "CLUSTERDOWN" => clusterDown
  | "CROSSSLOT" => crossSlot
  | "MASTERDOWN" => masterDown
  | "READONLY" => readOnly
  | _ => other code

def name? : ErrorKind → Option String
  | response => some "ResponseError"
  | transactionAborted => some "ExecAbortError"
  | loading => some "BusyLoadingError"
  | noScript => some "NoScriptError"
  | moved => some "Moved"
  | ask => some "Ask"
  | tryAgain => some "TryAgain"
  | clusterDown => some "ClusterDown"
  | crossSlot => some "CrossSlot"
  | masterDown => some "MasterDown"
  | readOnly => some "ReadOnly"
  | other _ => none

end ErrorKind

/-- An error line: its class and what follows the first space. -/
structure ServerError where
  kind : ErrorKind
  detail : Option String
deriving DecidableEq

namespace ServerError

/-- Reads an error line without its leading minus sign. -/
def ofLine (line : String) : ServerError :=
  let cs := line.toList
  let code := String.ofList (cs.takeWhile (· != ' '))
  match cs.dropWhile (· != ' ') with
  | [] => ⟨ErrorKind.ofCode code, none⟩
  | _ :: rest => ⟨ErrorKind.ofCode code, some (String.ofList rest)⟩

def message (e : ServerError) : String :=
  match e.kind, e.kind.name?, e.detail with
  | .other code, _, some detail => code ++ ": " ++ detail
  | .other code, _, none => code ++ ": Unknown extension error encountered"
  | _, some name, some detail => "An error was signalled by the server - " ++ name ++ ": " ++ detail
  | _, some name, none => "An error was signalled by the server- " ++ name
  | _, none, _ => "An error was signalled by the server"

end ServerError

/-- Why a value is not of the kind that was asked for. -/
inductive Mismatch where
  | notText
  | notNumeric
  | notNumeral
  | wrongDimension
  | notArray
deriving DecidableEq

def Mismatch.message : Mismatch → String
  | notText => "Response type not string compatible."
  | notNumeric => "Response type not convertible to numeric."
  | notNumeral => "Could not convert from string."
  | wrongDimension => "Bulk response of wrong dimension"
  | notArray => "Not a bulk response"

/-- Why a call came to nothing. -/
inductive Fault where
  | address (why : AddressFault)
  | unreachable
  | refused
  | noSocket
  | noConnection
  | zeroTimeout
  | timedOut
  | streamEnded
  | malformed
  | authentication
  | databaseRefused
  | transactionReply
  | server (error : ServerError)
  | mismatch (why : Mismatch) (value : Value)
  | notUtf8
  /-- Anything else that the machine reports. -/
  | machine (text : String)

namespace Fault

def message : Fault → String
  | address why => why.message ++ "- InvalidClientConfig"
  | unreachable => "Network is unreachable (os error 101)"
  | refused => "Connection refused (os error 111)"
  | noSocket => "No such file or directory (os error 2)"
  | noConnection => "connection refused- IoError"
  | zeroTimeout => "cannot set a 0 duration timeout"
  | timedOut => "Resource temporarily unavailable (os error 11)"
  | streamEnded => "unexpected end of file"
  | malformed => "parse error- ResponseError"
  | authentication => "Password authentication failed- AuthenticationFailed"
  | databaseRefused => "Redis server refused to switch database- ResponseError"
  | transactionReply => "Invalid response when parsing multi response- ResponseError"
  | server error => error.message
  | mismatch why value =>
    "Response was of incompatible type - TypeError: " ++ Quoted.encode why.message ++
      " (response was " ++ value.describe ++ ")"
  | notUtf8 => "Invalid UTF-8- TypeError"
  | machine text => text

/-- Whether the server was too slow, as opposed to wrong or away. -/
def isTimeout : Fault → Bool
  | timedOut => true
  | _ => false

end Fault
end Redis
end Leasehold
