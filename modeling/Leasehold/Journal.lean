/-!
# Journal

The lines that operations leave for whoever watches them, each with a level.
-/

namespace Leasehold

/-- How much a line matters, most first. -/
inductive Level where
  | error | warn | info | debug | trace
deriving DecidableEq

namespace Level

def name : Level → String
  | error => "ERROR"
  | warn => "WARN"
  | info => "INFO"
  | debug => "DEBUG"
  | trace => "TRACE"

/-- One for errors, five for traces. -/
def rank : Level → Nat
  | error => 1
  | warn => 2
  | info => 3
  | debug => 4
  | trace => 5

end Level

structure Line where
  level : Level
  text : String
deriving DecidableEq

namespace Line

def error (text : String) : Line := ⟨.error, text⟩

def warn (text : String) : Line := ⟨.warn, text⟩

def info (text : String) : Line := ⟨.info, text⟩

def debug (text : String) : Line := ⟨.debug, text⟩

def render (l : Line) : String := l.level.name ++ " " ++ l.text

end Line
end Leasehold
