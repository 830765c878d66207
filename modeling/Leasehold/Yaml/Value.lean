import Leasehold.Journal
import Leasehold.Text.Pieces
import Leasehold.Yaml.Scalar

/-!
# Values

What a document says, and the ways to ask it. Look-ups see through tags, and a
dotted path leads through mappings from key to key.
-/

namespace Leasehold
namespace Yaml

inductive Value where
  | null
  | bool (b : Bool)
  | number (n : Number)
  | string (s : String)
  | sequence (items : List Value)
  | mapping (entries : List (Value × Value))
  | tagged (tag : String) (value : Value)

namespace Value

instance : Inhabited Value := ⟨null⟩

mutual

/-- Whether two values are the same key. The order of entries does not count. -/
def same : Value → Value → Bool
  | null, null => true
  | bool a, bool b => a == b
  | number a, number b => a.same b
  | string a, string b => a == b
  | sequence as, sequence bs => sameAll as bs
  | mapping as, mapping bs => as.length == bs.length && sameEntries as bs
  | tagged t a, tagged u b => t == u && same a b
  | _, _ => false

def sameAll : List Value → List Value → Bool
  | [], [] => true
  | a :: as, b :: bs => same a b && sameAll as bs
  | _, _ => false

def sameEntries : List (Value × Value) → List (Value × Value) → Bool
  | [], _ => true
  | (k, v) :: rest, bs =>
    (match bs.find? fun (k', _) => same k k' with
      | some (_, v') => same v v'
      | none => false) && sameEntries rest bs

end

def untagged : Value → Value
  | tagged _ v => v.untagged
  | v => v

def kind : Value → String
  | null => "null"
  | bool _ => "bool"
  | number _ => "number"
  | string _ => "string"
  | sequence _ => "sequence"
  | mapping _ => "mapping"
  | tagged .. => "tagged"

/-- The value of the first entry with the given text as its key. -/
def entry? (key : String) : List (Value × Value) → Option Value
  | [] => none
  | (string k, v) :: rest => if k = key then some v else entry? key rest
  | _ :: rest => entry? key rest

def get? (v : Value) (key : String) : Option Value :=
  match v.untagged with
  | mapping entries => entry? key entries
  | _ => none

def string? (v : Value) : Option String :=
  match v.untagged with
  | string s => some s
  | _ => none

def bool? (v : Value) : Option Bool :=
  match v.untagged with
  | bool b => some b
  | _ => none

/-- A whole number without a minus sign. -/
def natural? (v : Value) : Option Nat :=
  match v.untagged with
  | number (.natural n) => some n
  | _ => none

/-- The parts of a path between its dots; there is always at least one. -/
def segments (path : List Char) : List (List Char) := Pieces.split '.' path

def follow? (v : Value) : List (List Char) → Option Value
  | [] => some v
  | key :: keys =>
    match v.get? (String.ofList key) with
    | some v => follow? v keys
    | none => none

/-- The value that a dotted path leads to. -/
def lookup? (v : Value) (path : String) : Option Value := v.follow? (segments path.toList)

/-- The line for a key that leads nowhere. -/
def missing (key : String) : Line := .warn ("Yaml parse Missing key: " ++ key)

/-- An answer together with the line that its absence leaves. -/
def noting (key : String) (answer : Option Value) : Option Value × List Line :=
  (answer, if answer.isNone then [missing key] else [])

/-- The value under a key, noting its absence. -/
def get (v : Value) (key : String) : Option Value × List Line := noting key (v.get? key)

/-- The value that a dotted path leads to, noting its absence. -/
def lookup (v : Value) (path : String) : Option Value × List Line := noting path (v.lookup? path)

end Value
end Yaml
end Leasehold
