import Leasehold.CommandLine
import Leasehold.Logging.Facility

/-!
# Processes

A process installs a log and then does what its request asks for. Without a
log it goes on and says so.
-/

namespace Leasehold
namespace CommandLine

open Logging

/-- The runs of characters in a text that can be names of variables. -/
def words (isPart : Char → Bool) (text : String) : List String :=
  ((text.toList.splitBy fun a b => isPart a && isPart b).filter (·.all isPart)).map String.ofList

/-- The names of the variables that can matter: the known ones, and all that the texts may refer to. -/
def variableNames (texts : List String) : List String :=
  let isPart := fun (c : Char) => Alphanumeric.isAlphanumeric c || c == '_'
  ["REDIS_URL", "REDIS_CONNECT_TIMEOUT_MS", "LOG_OUTPUT_DIR"] ++
    texts.flatMap fun text => words isPart text ++ words (fun c => isPart c || c == '.') text

def Request.files (r : Request) : List String := r.config.toList ++ r.logConfig.toList ++ [".env"]

def Request.logFiles (s : Surroundings) (r : Request) : List String :=
  match r.logConfig.map (Settings.ofFile s.disk) with
  | some (.ok settings) => Facility.paths s.env settings
  | _ => []

/-- Installs the log that the request names, or one that writes to the console. -/
def Request.installLog (s : Surroundings) (now : Instant) (r : Request) :
    Except InstallFault Unit × Installation × Files.Disk :=
  match r.logConfig with
  | some path => Installation.start.installFile s.env now path s.disk
  | none => Installation.start.install s.env now ⟨none, []⟩ s.disk

def installFailure : Except InstallFault Unit → String
  | .ok _ => ""
  | .error why => "Failed to initialize logger: " ++ why.message ++ "\n"

variable {σ : Type}

def Request.process (t : Redis.Transport σ) (s : Surroundings) (token : Token) (r : Request) (w : Session σ) :
    Ended σ :=
  let (installed, _, disk) := r.installLog s w.now
  let e := (r.run t { s with disk } token w).reported
  { e with printed := { e.printed with err := installFailure installed ++ e.printed.err } }

end CommandLine
end Leasehold
