import Leasehold.Journal
import Leasehold.Text.Blank
import Leasehold.Text.Numeral
import Leasehold.Text.Utf8

/-!
# Environments

Named values of a process. A value that is no text counts as absent, and so
does one that is blank; either leaves a line in the journal.
-/

namespace Leasehold

structure Environment where
  entries : List (String × List UInt8)

namespace Environment

def empty : Environment := ⟨[]⟩

variable (e : Environment) (name : String)

def find? : Option String := (e.entries.lookup name).bind Utf8.decode?

def set (text : String) : Environment := ⟨(name, Utf8.encode text) :: e.entries⟩

/-- Keeps a text that is there, and else puts the given one under the name. -/
def setDefault (text : String) : Environment :=
  match e.find? name with
  | some _ => e
  | none => e.set name text

/-- The text under a name without the white space around it, unless it is blank. -/
def read : Option String × List Line :=
  match e.find? name with
  | none => (none, [.debug ("environment variable " ++ name ++ " is not set")])
  | some text =>
    let trimmed := Blank.trim text
    if trimmed.isEmpty then (none, [.debug ("environment variable " ++ name ++ " is blank")])
    else (some trimmed, [])

/-- What a parser makes of the text under a name, or else the default. -/
def readWith {α : Type} (parse : String → Option α) (default : α) : α × List Line :=
  match e.read name with
  | (none, lines) => (default, lines)
  | (some text, lines) =>
    match parse text with
    | some a => (a, lines)
    | none =>
      (default, lines ++ [.warn
        ("environment variable " ++ name ++ " has invalid value '" ++ text ++ "', using default")])

def bool? (text : String) : Option Bool :=
  if text = "true" then some true else if text = "false" then some false else none

end Environment
end Leasehold
