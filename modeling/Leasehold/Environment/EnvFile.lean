import Leasehold.Environment
import Leasehold.Text.Alphanumeric

/-!
# Environment files

Lines of the form `NAME=value`, with comments, quotes, escapes and references
to other names. Names that are set already keep their value. The first line
that is out of form ends the reading; the lines before it count.
-/

namespace Leasehold
namespace EnvFile

/-- A reference under way: behind the dollar sign, or between braces. -/
inductive Reference where
  | none
  | bare
  | braced
deriving DecidableEq

/-- What a dollar sign and the characters after it were read as. -/
structure Reading where
  output : List Char
  inSingle : Bool
  inDouble : Bool
  escaped : Bool
  /-- Whether a blank has ended the value. -/
  ended : Bool
  reference : Reference
  name : List Char

def Reading.start : Reading := ⟨[], false, false, false, false, .none, []⟩

/-- What a name refers to: a variable of the process, or else an earlier line. -/
def referred (env : Environment) (earlier : List (String × String)) (name : List Char) : List Char :=
  let name := String.ofList name
  ((env.find? name).getD ((earlier.lookup name).getD "")).toList

def escape? (c : Char) : Option Char :=
  if c == 'n' then some '\n'
  else if "\\'\"$ ".toList.contains c then some c
  else none

namespace Reading

variable (env : Environment) (earlier : List (String × String)) (r : Reading)

def push (c : Char) : Reading := { r with output := r.output ++ [c] }

def substitute : Reading :=
  { r with output := r.output ++ referred env earlier r.name, name := [], reference := .none }

def inReference (c : Char) : Reading :=
  if Alphanumeric.isAlphanumeric c then { r with name := r.name ++ [c] }
  else
    match r.reference with
    | .braced => if c == '\x7d' then r.substitute env earlier else { r with name := r.name ++ [c] }
    | _ =>
      if c == '\x7b' && r.name.isEmpty then { r with reference := .braced }
      else
        let r := r.substitute env earlier
        if c == '$' then { r with reference := .bare } else r.push c

/-- Reads a character outside references, escapes and single quotes. -/
def plain (c : Char) : Reading :=
  if c == '$' then { r with reference := .bare }
  else if c == '\\' then { r with escaped := true }
  else if c == '"' then { r with inDouble := !r.inDouble }
  else if r.inDouble then r.push c
  else if c == '\'' then { r with inSingle := true }
  else if c == ' ' || c == '\t' then { r with ended := true }
  else r.push c

end Reading

def readValue (env : Environment) (earlier : List (String × String)) :
    Reading → List Char → Option (List Char)
  | r, [] =>
    if r.reference = .braced || r.inSingle || r.inDouble then none
    else some (r.substitute env earlier).output
  | r, c :: rest =>
    if r.ended then
      if c == ' ' || c == '\t' then readValue env earlier r rest
      else if c == '#' then readValue env earlier r []
      else none
    else if r.escaped then
      match escape? c with
      | some e => readValue env earlier { r.push e with escaped := false } rest
      | none => none
    else if r.inSingle then
      if c == '\'' then readValue env earlier { r with inSingle := false } rest
      else readValue env earlier (r.push c) rest
    else if r.reference ≠ .none then readValue env earlier (r.inReference env earlier c) rest
    else readValue env earlier (r.plain c) rest

/-- A name at the start of the characters, and what follows it and the blanks after it. -/
def readName (cs : List Char) : Option (String × List Char) :=
  match cs with
  | [] => none
  | c :: _ =>
    if c.isAlpha || c == '_' then
      let isPart := fun (d : Char) => d.isAlphanum || d == '_' || d == '.'
      some (String.ofList (cs.takeWhile isPart), (cs.dropWhile isPart).dropWhile Blank.isBlank)
    else none

/-- A name and the characters behind its equals sign; the word `export` may come before. -/
def readSide (cs : List Char) : Option (String × List Char) :=
  match readName cs with
  | none => none
  | some (name, '=' :: rest) => some (name, rest)
  | some (name, rest) =>
    if name = "export" then
      match readName rest with
      | some (name, '=' :: rest) => some (name, rest)
      | _ => none
    else none

/-- Reads a line: nothing at all, or a name and its value. -/
def readLine (env : Environment) (earlier : List (String × String)) (line : List Char) :
    Option (Option (String × String)) :=
  let isOver := fun (cs : List Char) => cs.isEmpty || cs.head? == some '#'
  let cs := (Blank.trim (String.ofList line)).toList
  if isOver cs then some none
  else
    match readSide cs with
    | none => none
    | some (name, rest) =>
      let rest := rest.dropWhile Blank.isBlank
      if isOver rest then some (some (name, ""))
      else
        (readValue env earlier Reading.start rest).map fun value => some (name, String.ofList value)

def lines : List UInt8 → List (List UInt8)
  | [] => []
  | b :: bs =>
    if b = 10 then [] :: lines bs
    else
      match lines bs with
      | [] => [[b]]
      | l :: ls => (b :: l) :: ls

/-- Takes over line after line; says whether all of them were in form. -/
def loadLines : Environment → List (String × String) → List (List UInt8) → Environment × Bool
  | env, _, [] => (env, true)
  | env, earlier, line :: rest =>
    match (Utf8.decode? line).map fun s => readLine env earlier s.toList with
    | some (some none) => loadLines env earlier rest
    | some (some (some (name, value))) =>
      loadLines (env.setDefault name value) ((name, value) :: earlier) rest
    | _ => (env, false)

/-- The environment with the names of a file, and whether the whole file was in form. -/
def load (env : Environment) (content : List UInt8) : Environment × Bool :=
  loadLines env [] (lines content)

end EnvFile
end Leasehold
