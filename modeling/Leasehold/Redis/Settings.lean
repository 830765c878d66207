import Leasehold.Environment.EnvFile
import Leasehold.Store.Error
import Leasehold.Yaml.Value

/-!
# Server settings

Where the server is and how long a connection may take, from a document or
from the environment.
-/

namespace Leasehold
namespace Redis

structure Settings where
  url : String
  connectTimeout : Duration
deriving DecidableEq

namespace Settings

def defaultTimeoutMillis : Nat := 5000

def ofUrl (url : String) : Settings := ⟨url, .ofMillis defaultTimeoutMillis⟩

/-- Settings from the section `redis` of a document. -/
def ofDocument (document : Yaml.Value) : Except StoreError Settings :=
  match (document.lookup? "redis.url").bind Yaml.Value.string? with
  | none => .error (.configuration "redis.url is not configured")
  | some url =>
    let millis := ((document.lookup? "redis.connect_timeout_ms").bind Yaml.Value.natural?).getD
      defaultTimeoutMillis
    .ok ⟨url, .ofMillis millis⟩

def urlMissing : String := "REDIS_URL environment variable not set"

def ofEnvironment (env : Environment) : Except StoreError Settings × List Line :=
  match env.read "REDIS_URL" with
  | (none, lines) => (.error (.configuration urlMissing), lines ++ [.error urlMissing])
  | (some url, lines) =>
    let (millis, more) := env.readWith "REDIS_CONNECT_TIMEOUT_MS" Numeral.u64? defaultTimeoutMillis
    (.ok ⟨url, .ofMillis millis⟩, lines ++ more)

/-- Takes over the environment file of a directory, if there is one. -/
def loadEnvFile (env : Environment) (directory : String) (file : Option (List UInt8)) :
    Environment × List Line :=
  match file with
  | none => (env, [])
  | some content =>
    let (env, complete) := EnvFile.load env content
    (env, if complete then [.info ("load .env file: " ++ directory ++ "/.env")] else [])

end Settings
end Redis
end Leasehold
