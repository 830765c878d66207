import Leasehold.Redis.Transport
import Leasehold.Script

/-!
# Dialogues

What a client says for each operation, and how it takes the answers. A
comparing operation watches its key, so that the server refuses the write when
the key has changed in between; then the operation starts over.
-/

namespace Leasehold
namespace Redis

namespace Value

def text : Value → Except Fault String
  | okay => .ok "OK"
  | status s => .ok s
  | data bytes =>
    match Utf8.decode? bytes with
    | some s => .ok s
    | none => .error .notUtf8
  | v => .error (.mismatch .notText v)

def text? : Value → Except Fault (Option String)
  | nil => .ok none
  | v => v.text.map some

def numeral (v : Value) (s : String) : Except Fault Int :=
  match Numeral.i64? s with
  | some n => .ok n
  | none => .error (.mismatch .notNumeral v)

def number : Value → Except Fault Int
  | int n => .ok n
  | status s => numeral (status s) s
  | data bytes =>
    match Utf8.decode? bytes with
    | some s => numeral (data bytes) s
    | none => .error .notUtf8
  | v => .error (.mismatch .notNumeric v)

/-- The only number in a row, unless there is no row. -/
def single? : Value → Except Fault (Option Int)
  | nil => .ok none
  | bulk [v] => v.number.map some
  | bulk items => .error (.mismatch .wrongDimension (bulk items))
  | v => .error (.mismatch .notArray v)

end Value

def Fault.isError (kind : ErrorKind) : Fault → Bool
  | .server e => e.kind == kind
  | _ => false

namespace Dialogue

variable {σ : Type} (t : Transport σ)

/-- What a server of an early version says to a user name. -/
def oldServerText : List Char := "wrong number of arguments for 'auth' command".toList

def occursIn (part : List Char) : List Char → Bool
  | [] => part.isEmpty
  | c :: cs => part.isPrefixOf (c :: cs) || occursIn part cs

def wantsPasswordAlone (user : Option String) : Fault → Bool
  | .server e => user.isSome && occursIn oldServerText ((e.detail.getD "").toList)
  | _ => false

/-- Sends the password, with the user name if there is one. -/
def authenticate (user : Option String) (password : String) : Dialogue σ Unit := do
  match ← (t.ask ("AUTH" :: user.toList ++ [password])).attempt with
  | .ok .okay => return
  | .ok _ => throw .authentication
  | .error why =>
    unless wantsPasswordAlone user why do throw .authentication
    match ← (t.ask ["AUTH", password]).attempt with
    | .ok .okay => return
    | _ => throw .authentication

def choose (database : Int) : Dialogue σ Unit := do
  match ← (t.ask ["SELECT", Numeral.ofInt database]).attempt with
  | .ok .okay => return
  | _ => throw .databaseRefused

/-- Opens a connection to an address, makes itself known and chooses the database. -/
def enter (a : Address) (timeout : Option Duration) : Dialogue σ Unit := do
  t.opening a.endpoint timeout
  match a.password with
  | some password => authenticate t a.user password
  | none => pure ()
  if a.database ≠ 0 then choose t a.database

/-- Runs a script that the server knows by its digest, and teaches it the script if it must. -/
def runScript (s : LockScript) (key : String) (arguments : List String) : Dialogue σ Value := do
  let run := t.ask ("EVALSHA" :: s.digest :: "1" :: key :: arguments)
  match ← run.attempt with
  | .ok v => return v
  | .error why =>
    unless why.isError .noScript do throw why
    let _ ← t.ask ["SCRIPT", "LOAD", s.source]
    run

def remaining (key : String) : Dialogue σ Int := do
  (← t.ask ["PTTL", key]).number

def set (key value : String) (ttl : Duration) (onlyIfAbsent : Bool) : Dialogue σ Bool := do
  let condition := if onlyIfAbsent then ["NX"] else []
  let reply ← t.ask (["SET", key, value] ++ condition ++ ["PX", Numeral.ofNat ttl.wholeMillis])
  return (← reply.text?).isSome

/-- The write of a round, as a transaction: whether it changed the key, unless it was refused. -/
def commit (write : Command) : Dialogue σ (Option Bool) := do
  let answers ← t.askAll [["MULTI"], write, ["EXEC"]]
  match answers.getLast? with
  | some .nil => return none
  | some (.bulk items) => return (← (Value.bulk items).single?).map (· == 1)
  | _ => throw .transactionReply

/-- One round: the write is made only if the key holds the expected text. -/
def round (key expected : String) (write : Command) : Dialogue σ (Option Bool) := do
  let _ ← t.ask ["WATCH", key]
  let current ← (← t.ask ["GET", key]).text?
  if current = some expected then commit t write else return some false

/-- Rounds until one is not refused, at most so many. -/
def transact (key expected : String) (write : Command) : Nat → Dialogue σ Bool
  | 0 => throw .timedOut
  | rounds + 1 => do
    match ← round t key expected write with
    | none => transact key expected write rounds
    | some changed =>
      let _ ← t.ask ["UNWATCH"]
      return changed

/-- Writes if the key holds the expected text; says whether it did. -/
def compareAndWrite (key expected : String) (write : Command) : Dialogue σ Bool := do
  transact t key expected write (t.rounds (← get))

def compareAndDelete (key expected : String) : Dialogue σ Bool :=
  compareAndWrite t key expected ["DEL", key]

def compareAndExpire (key expected : String) (ttl : Duration) : Dialogue σ Bool :=
  compareAndWrite t key expected ["PEXPIRE", key, Numeral.ofNat ttl.wholeMillis]

end Dialogue
end Redis
end Leasehold
