import Leasehold.Text.Utf8
import Leasehold.Yaml.Reader
import Leasehold.Yaml.Value

/-!
# From nodes to values

Plain scalars are told apart, aliases are replaced by what they stand for, and
keys must differ. Nesting has a limit, and so has the number of replacements.
-/

namespace Leasehold
namespace Yaml

namespace Node

/-- Which value a tag of the common vocabulary asks for. -/
inductive CommonTag where
  | bool
  | int
  | float
  | null
deriving DecidableEq

def tagBytes (s : String) : List UInt8 := Utf8.encode s

def commonTag? (tag : List UInt8) : Option CommonTag :=
  if tag == tagBytes "tag:yaml.org,2002:bool" then some .bool
  else if tag == tagBytes "tag:yaml.org,2002:int" then some .int
  else if tag == tagBytes "tag:yaml.org,2002:float" then some .float
  else if tag == tagBytes "tag:yaml.org,2002:null" then some .null
  else none

/-- A second exclamation mark belongs to the mark, not to the name. -/
def unmarked (name : String) : String :=
  match name.toList with
  | '!' :: c :: rest => String.ofList (c :: rest)
  | _ => name

/-- The name of a tag of the document's own, which starts with an exclamation mark. -/
def ownTag? (tag : Option (List UInt8)) : Option String :=
  match tag with
  | some (b :: rest) => if b = 0x21 then (Utf8.decode? rest).map unmarked else none
  | _ => none

def plainValue? (text : String) : Option Value :=
  match Meaning.ofPlain text.toList with
  | .null => some .null
  | .bool b => some (.bool b)
  | .number n => some (.number n)
  | .tooWide _ => none
  | .text => some (.string text)

/-- The value of a scalar with a tag of the common vocabulary. -/
def commonValue? (text : String) : CommonTag → Option Value
  | .bool => (Meaning.bool? text.toList).map .bool
  | .int =>
    match Meaning.wholeNumber? text.toList with
    | some (.number n) => some (.number n)
    | _ => none
  | .float => (Meaning.real? text.toList).map fun x => .number (.real x)
  | .null => if Meaning.isNull text.toList then some .null else none

/-- The value of a scalar; `named` where its own tag has been seen to. -/
def scalarValue? (named : Bool) (tag : Option (List UInt8)) (text : String) (form : Form) :
    Option Value :=
  match if named then none else tag with
  | none => if form = .plain then plainValue? text else some (.string text)
  | some tag =>
    match commonTag? tag with
    | some c => commonValue? text c
    | none =>
      if tag.head? = some 0x21 ∧ form = .plain then plainValue? text else some (.string text)

end Node

namespace Document

def depthLimit : Nat := 128

variable (d : Document)

/-- The node itself or the one that it stands for, and the number of replacements so far. -/
def dereference? (node : Node) (jumps : Nat) : Option (Node × Nat) :=
  match node with
  | .alias number =>
    if d.size * 100 < jumps + 1 then none
    else (d.target? number).map fun node => (node, jumps + 1)
  | node => some (node, jumps)

/-- The value of the items or entries of a collection, by the value of a node. -/
def itemValues? (value? : Node → Nat → Option (Value × Nat)) :
    List Node → Nat → Option (List Value × Nat)
  | [], jumps => some ([], jumps)
  | n :: rest, jumps =>
    match value? n jumps with
    | none => none
    | some (v, jumps) => (itemValues? value? rest jumps).map fun (vs, jumps) => (v :: vs, jumps)

def entryValues? (value? : Node → Nat → Option (Value × Nat)) :
    List (Node × Node) → List (Value × Value) → Nat → Option (List (Value × Value) × Nat)
  | [], entries, jumps => some (entries, jumps)
  | (k, n) :: rest, entries, jumps =>
    match value? k jumps with
    | none => none
    | some (key, jumps) =>
      if entries.any fun (k, _) => k.same key then none
      else
        match value? n jumps with
        | none => none
        | some (v, jumps) => entryValues? value? rest (entries ++ [(key, v)]) jumps

def underTag? (tag : Option String) (value : Value × Nat) : Option (Value × Nat) :=
  match tag with
  | none => some value
  | some "" => none
  | some name => some (.tagged name value.1, value.2)

/-- The value of a node inside collections that leave so much depth. -/
def nodeValue? : Nat → Node → Nat → Option (Value × Nat)
  | depth, node, jumps =>
    match d.dereference? node jumps with
    | none => none
    | some (.alias _, _) => none
    | some (.scalar tag text form, jumps) =>
      let name := Node.ownTag? tag
      match Node.scalarValue? name.isSome tag text form with
      | none => none
      | some v => underTag? name (v, jumps)
    | some (.sequence tag items, jumps) =>
      match depth with
      | 0 => none
      | depth + 1 =>
        match itemValues? (nodeValue? depth) items jumps with
        | none => none
        | some (vs, jumps) => underTag? (Node.ownTag? tag) (.sequence vs, jumps)
    | some (.mapping tag entries, jumps) =>
      match depth with
      | 0 => none
      | depth + 1 =>
        match entryValues? (nodeValue? depth) entries [] jumps with
        | none => none
        | some (vs, jumps) => underTag? (Node.ownTag? tag) (.mapping vs, jumps)

/-- The value of the document; an empty text is null. -/
def value? : Option Value :=
  match d.root with
  | none => some .null
  | some root => (d.nodeValue? depthLimit root 0).map (·.1)

end Document

/-- The value that a text says, if it is a document. -/
def value? (text : String) : Option Value :=
  match document? text with
  | some d => d.value?
  | none => none

end Yaml
end Leasehold
