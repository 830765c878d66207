import Leasehold.Policy.Override

/-!
# Arguments

What a user can ask for on the command line, and how the words are read.
Options take one value, in the next word or behind an equals sign; a word that
starts with a hyphen is never a value by itself.
-/

namespace Leasehold
namespace CommandLine

inductive Task where
  | ping
  | run (key : String) (policy : Policy.Override) (holdMillis : Nat)
  | ttl (key : String)
deriving DecidableEq

structure Request where
  config : Option String
  redisUrl : Option String
  logConfig : Option String
  task : Task
deriving DecidableEq

/-- Why words are no request; help and the version are asked for in the same way. -/
inductive UsageFault where
  | missingRequired
  | missingTask
  | unknown
  | unknownTask
  | malformedValue
  | missingValue
  | needlessValue
  | repeated
  | help
  | helpForNothing
  | version
deriving DecidableEq

def UsageFault.name : UsageFault → String
  | missingRequired => "MissingRequiredArgument"
  | missingTask => "MissingSubcommand"
  | unknown => "UnknownArgument"
  | unknownTask => "InvalidSubcommand"
  | malformedValue => "ValueValidation"
  | missingValue => "InvalidValue"
  | needlessValue => "TooManyValues"
  | repeated => "ArgumentConflict"
  | help => "DisplayHelp"
  | helpForNothing => "DisplayHelpOnMissingArgumentOrSubcommand"
  | version => "DisplayVersion"

def UsageFault.code : UsageFault → Nat
  | help => 0
  | version => 0
  | _ => 2

def usage : String :=
  "Usage: leasehold [OPTIONS] <TASK>\n\n" ++
  "  ping                    show that the server answers\n" ++
  "  run --key <KEY>         hold a lock for a while\n" ++
  "  ttl --key <KEY>         show what is left of the life of a key\n\n" ++
  "Options: -c, --config <FILE>  --redis-url <URL>  --log-config <FILE>\n" ++
  "Options of run: --lease-ms <N>  --wait-ms <N>  --retry-ms <N>  --hold-ms <N>\n"

def versionLine : String := "leasehold 0.1.0\n"

/-- What an option takes. -/
inductive Content where
  | text
  | path
  | millis
deriving DecidableEq

/-- An option, by its long name and perhaps a letter. -/
structure Choice where
  name : String
  letter : Option Char
  content : Content
deriving DecidableEq

/-- Options under way: those that have a value, and the one whose value is not looked at yet. -/
structure Reading where
  given : List (String × String)
  held : Option (Choice × Option String)

namespace Reading

def empty : Reading := ⟨[], none⟩

def keep (r : Reading) (c : Choice) (value : String) : Except UsageFault Reading :=
  if (r.given.lookup c.name).isSome then .error .repeated
  else
    match c.content with
    | .text => .ok { r with given := (c.name, value) :: r.given }
    | .path =>
      if value.isEmpty then .error .missingValue
      else .ok { r with given := (c.name, value) :: r.given }
    | .millis =>
      if (Numeral.u64? value).isNone then .error .malformedValue
      else .ok { r with given := (c.name, value) :: r.given }

def settle (r : Reading) : Except UsageFault Reading :=
  match r.held with
  | none => .ok r
  | some (_, none) => .error .missingValue
  | some (c, some value) => { r with held := none }.keep c value

/-- Takes in an option with the value that is attached to it, if there is one. -/
def take (r : Reading) (c : Choice) (attached : Option String) : Except UsageFault Reading := do
  let r ← r.settle
  match attached with
  | some value => r.keep c value
  | none => .ok { r with held := some (c, none) }

/-- Asks for help or the version, once what is held is in order. -/
def ask (r : Reading) (what : UsageFault) : Except UsageFault Reading :=
  match r.settle with
  | .ok _ => .error what
  | .error why => .error why

/-- Takes in a word of two hyphens and a name. -/
def long (choices : List Choice) (versioned : Bool) (body : List Char) (r : Reading) : Except UsageFault Reading :=
  let name := String.ofList (body.takeWhile (· != '='))
  let attached := match body.dropWhile (· != '=') with
    | _ :: value => some (String.ofList value)
    | [] => none
  match choices.find? (·.name == name) with
  | some c => r.take c attached
  | none =>
    if name = "help" || (versioned && name = "version") then
      if attached.isSome then .error .needlessValue
      else r.ask (if name = "help" then .help else .version)
    else .error .unknown

/-- Takes in a word of one hyphen and a letter. -/
def short (choices : List Choice) (versioned : Bool) (body : List Char) (r : Reading) : Except UsageFault Reading :=
  match body with
  | [] => .error .unknown
  | letter :: rest =>
    match choices.find? (·.letter == some letter) with
    | some c =>
      match rest with
      | [] => r.take c none
      | '=' :: value => r.take c (some (String.ofList value))
      | value => r.take c (some (String.ofList value))
    | none =>
      if letter == 'h' then r.ask .help
      else if versioned && letter == 'V' then r.ask .version
      else .error .unknown

end Reading

/-- Reads words up to the first one that is neither an option nor a value; says whether that one
stands behind two bare hyphens. -/
def readOptions (choices : List Choice) (versioned : Bool) :
    Reading → List String → Except UsageFault (Reading × Option (Bool × String × List String))
  | r, [] => (r.settle).map (·, none)
  | r, word :: rest =>
    match word.toList with
    | ['-', '-'] =>
      match rest with
      | [] => (r.settle).map (·, none)
      | word :: rest => .ok (r, some (true, word, rest))
    | '-' :: '-' :: body =>
      match r.long choices versioned body with
      | .ok r => readOptions choices versioned r rest
      | .error why => .error why
    | '-' :: c :: body =>
      match r.short choices versioned (c :: body) with
      | .ok r => readOptions choices versioned r rest
      | .error why => .error why
    | _ =>
      match r.held with
      | some (c, none) => readOptions choices versioned { r with held := some (c, some word) } rest
      | _ => (r.settle).map (·, some (false, word, rest))

def mainChoices : List Choice :=
  [⟨"config", some 'c', .path⟩, ⟨"redis-url", none, .text⟩, ⟨"log-config", none, .path⟩]

def keyChoice : Choice := ⟨"key", some 'k', .text⟩

def runChoices : List Choice :=
  [keyChoice, ⟨"lease-ms", none, .millis⟩, ⟨"wait-ms", none, .millis⟩, ⟨"retry-ms", none, .millis⟩,
   ⟨"hold-ms", none, .millis⟩]

def defaultHold : Nat := 1000

/-- The options of a task, behind which nothing else may stand. -/
def readAll (choices : List Choice) (words : List String) : Except UsageFault (List (String × String)) :=
  match readOptions choices false .empty words with
  | .error why => .error why
  | .ok (r, none) => .ok r.given
  | .ok (_, some _) => .error .unknown

def millis (given : List (String × String)) (name : String) : Option Nat :=
  (given.lookup name).bind Numeral.u64?

/-- Words after the word for help name tasks. -/
def helpFor : List String → UsageFault
  | [] => .help
  | [word] => if ["ping", "run", "ttl", "help"].contains word then .help else .unknownTask
  | _ => .unknownTask

def readTask (name : String) (words : List String) : Except UsageFault Task :=
  match name with
  | "ping" => (readAll [] words).map fun _ => .ping
  | "run" => do
    let given ← readAll runChoices words
    let some key := given.lookup "key" | throw .missingRequired
    return .run key ⟨millis given "lease-ms", millis given "wait-ms", millis given "retry-ms"⟩
      ((millis given "hold-ms").getD defaultHold)
  | "ttl" => do
    let given ← readAll [keyChoice] words
    let some key := given.lookup "key" | throw .missingRequired
    return .ttl key
  | "help" => .error (helpFor words)
  | _ => .error .unknownTask

def Request.ofWords (words : List String) : Except UsageFault Request := do
  match ← readOptions mainChoices true .empty words with
  | (r, none) => if r.given.isEmpty then throw .helpForNothing else throw .missingTask
  | (r, some (hidden, name, rest)) =>
    if hidden then
      throw (if ["ping", "run", "ttl", "help"].contains name then .unknown else .unknownTask)
    let task ← readTask name rest
    let value := fun name => r.given.lookup name
    return ⟨value "config", value "redis-url", value "log-config", task⟩

end CommandLine
end Leasehold
