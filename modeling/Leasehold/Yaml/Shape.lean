import Leasehold.Text.Quoted
import Leasehold.Yaml.Document

/-!
# Documents of a fixed shape

Reading a node as what a program wants in its place: a text, a word, a truth
value, a row of parts or a record. Where the node is something else, the
misfit says what was found and where. Parts that a record does not know are
passed over unread.
-/

namespace Leasehold
namespace Yaml

/-- A step from a collection to one of its parts; a key that is no scalar has no name. -/
inductive Step where
  | key (name : String)
  | item (index : Nat)
  | unnamed
deriving DecidableEq

/-- What stands in a place. -/
inductive Found where
  | unit
  | truth (b : Bool)
  | whole (n : Int)
  | real (x : Binary64)
  | text (s : String)
  | sequence
  | mapping
deriving DecidableEq

namespace Found

/-- A number in positional notation, always with a point when it is finite. -/
def realText : Binary64 → String
  | .nan => "NaN"
  | .infinite false => "inf"
  | .infinite true => "-inf"
  | .finite minus m q =>
    let (digits, e) := Shortest.digitsOf .up m q
    let ds := Numeral.digits digits
    let body := if m = 0 then ['0', '.', '0'] else Shortest.positional ds (ds.length + e)
    String.ofList (if minus then '-' :: body else body)

def marked (s : String) : String := "`" ++ s ++ "`"

def describe : Found → String
  | unit => "unit value"
  | truth b => "boolean " ++ marked (if b then "true" else "false")
  | whole n => "integer " ++ marked (Numeral.ofInt n)
  | real x => "floating point " ++ marked (realText x)
  | text s => "string " ++ Quoted.encode s
  | sequence => "sequence"
  | mapping => "map"

def ofValue : Value → Found
  | .null => unit
  | .bool b => truth b
  | .number (.natural n) => whole n
  | .number (.negative n) => whole n
  | .number (.real x) => real x
  | .string s => text s
  | .sequence _ => sequence
  | .mapping _ => mapping
  | .tagged _ v => ofValue v

end Found

inductive Complaint where
  | mismatch (found : Found) (wanted : String)
  | outOfRange (n : Nat) (wanted : String)
  | missing (field : String)
  | repeated (field : String)
  /-- The node cannot be read at all. -/
  | unreadable
deriving DecidableEq

def Complaint.message : Complaint → String
  | mismatch found wanted => "invalid type: " ++ found.describe ++ ", expected " ++ wanted
  | outOfRange n wanted => "invalid value: " ++ (Found.whole n).describe ++ ", expected " ++ wanted
  | missing field => "missing field " ++ Found.marked field
  | repeated field => "duplicate field " ++ Found.marked field
  | unreadable => "unreadable"

structure Misfit where
  path : List Step
  complaint : Complaint
deriving DecidableEq

namespace Misfit

def render (written : String) : List Step → String
  | [] => written
  | .key name :: rest => render (if written.isEmpty then name else written ++ "." ++ name) rest
  | .item index :: rest =>
    render ((if written.isEmpty then "." else written) ++ "[" ++ Numeral.ofNat index ++ "]") rest
  | .unnamed :: rest => render (if written.isEmpty then "?" else written ++ ".?") rest

def message (m : Misfit) : String :=
  if m.path.isEmpty then m.complaint.message
  else render "" m.path ++ ": " ++ m.complaint.message

/-- The misfit as seen from the collection that the step starts from. -/
def under (step : Step) (m : Misfit) : Misfit := { m with path := step :: m.path }

end Misfit

/-- An outcome of reading a node. -/
abbrev Fitted := Except Misfit

namespace Document

variable (d : Document)

/-- The node itself, or the one that an alias stands for. -/
def behind (node : Node) : Option Node :=
  match node with
  | .alias number => d.target? number
  | _ => some node

/-- What a node is, at its surface. -/
def surface? (node : Node) : Option Found :=
  match d.behind node with
  | some (.scalar tag text form) => (Node.scalarValue? false tag text form).map Found.ofValue
  | some (.sequence ..) => some .sequence
  | some (.mapping ..) => some .mapping
  | _ => none

/-- The complaint that a node is not what was wanted. -/
def refuse (wanted : String) (node : Node) : Misfit :=
  match d.surface? node with
  | some found => ⟨[], .mismatch found wanted⟩
  | none => ⟨[], .unreadable⟩

/-- Any scalar is a text, whatever it looks like. -/
def text (node : Node) : Fitted String :=
  match d.behind node with
  | some (.scalar _ text _) => .ok text
  | _ => .error (d.refuse "a string" node)

/-- Whether a scalar may stand for something other than text: without quotes it may, and in a block
kept as it is it may under the given tag. -/
def isOpen (common : Node.CommonTag) (tag : Option (List UInt8)) : Form → Bool
  | .plain => true
  | .literal => tag.bind Node.commonTag? == some common
  | .other => false

def truth (node : Node) : Fitted Bool :=
  match d.behind node with
  | some (.scalar tag text form) =>
    match if isOpen .bool tag form then Meaning.bool? text.toList else none with
    | some b => .ok b
    | none => .error (d.refuse "a boolean" node)
  | _ => .error (d.refuse "a boolean" node)

/-- A whole number without a minus sign that fits a word of so many bits. Words of up to 64 bits
are told from other scalars first and then from greater numbers. -/
def word (width : Nat) (node : Node) : Fitted Nat :=
  let wanted := "u" ++ Numeral.ofNat width
  match d.behind node with
  | some (.scalar tag text form) =>
    match if isOpen .int tag form then Meaning.whole? text.toList else none with
    | some (false, n) =>
      if n < Nat.pow 2 width then .ok n
      else if n < Nat.pow 2 64 then .error ⟨[], .outOfRange n wanted⟩
      else .error (d.refuse wanted node)
    | _ => .error (d.refuse wanted node)
  | _ => .error (d.refuse wanted node)

/-- Whether a node says that there is nothing: an empty plain scalar or a word for null. -/
def isVoid (node : Node) : Bool :=
  match d.behind node with
  | some (.scalar tag text .plain) =>
    match tag with
    | none => text.isEmpty || Meaning.isNull text.toList
    | some tag => Node.commonTag? tag == some .null && Meaning.isNull text.toList
  | _ => false

def optional (read : Node → Fitted α) (node : Node) : Fitted (Option α) :=
  if d.isVoid node then .ok none else (read node).map some

def isLeftOut (node : Node) : Bool :=
  match d.behind node with
  | some (.scalar _ text .plain) => text.isEmpty
  | _ => false

/-- Reads the items of a row, counting from an index. -/
def itemsFrom (read : Node → Fitted α) : Nat → List Node → Fitted (List α)
  | _, [] => .ok []
  | index, node :: rest =>
    match (read node).mapError (Misfit.under (.item index)) with
    | .error m => .error m
    | .ok a => (itemsFrom read (index + 1) rest).map (a :: ·)

/-- A row of parts; a node that is left out is an empty one. -/
def row (read : Node → Fitted α) (node : Node) : Fitted (List α) :=
  match d.behind node with
  | some (.sequence _ items) => itemsFrom read 0 items
  | _ => if d.isLeftOut node then .ok [] else .error (d.refuse "a sequence" node)

def fieldName (key : Node) : Fitted (String × Step) :=
  match d.behind key with
  | some (.scalar _ text _) =>
    .ok (text, match key with
      | .scalar .. => .key text
      | _ => .unnamed)
  | _ => .error (d.refuse "field identifier" key)

/-- Takes one field after another into a record under way. -/
def fields (put : β → String → Step → Node → Fitted β) : β → List (Node × Node) → Fitted β
  | b, [] => .ok b
  | b, (key, node) :: rest =>
    match d.fieldName key with
    | .error m => .error m
    | .ok (name, step) =>
      match put b name step node with
      | .error m => .error m
      | .ok b => fields put b rest

/-- A record; a node that is left out has no fields. -/
def record (wanted : String) (put : β → String → Step → Node → Fitted β) (start : β) (node : Node) :
    Fitted β :=
  match d.behind node with
  | some (.mapping _ entries) => d.fields put start entries
  | _ => if d.isLeftOut node then .ok start else .error (d.refuse wanted node)

end Document

def setOnce (field : Option α) (name : String) (step : Step) (value : Fitted α) : Fitted α :=
  if field.isSome then .error ⟨[], .repeated name⟩ else value.mapError (Misfit.under step)

def require (name : String) (field : Option α) : Fitted α :=
  match field with
  | some a => .ok a
  | none => .error ⟨[], .missing name⟩

end Yaml
end Leasehold
