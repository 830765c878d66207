import Leasehold.Yaml.Token

/-!
# Nodes

The structure of a document before its scalars are told apart. An alias stands
for the node that carries its anchor's number; numbers, not names, tell
anchored nodes apart once the document is read.
-/

namespace Leasehold
namespace Yaml

inductive Node where
  | alias (number : Nat)
  | scalar (tag : Option (List UInt8)) (text : String) (form : Form)
  | sequence (tag : Option (List UInt8)) (items : List Node)
  | mapping (tag : Option (List UInt8)) (entries : List (Node × Node))

/-- A node with an anchor: the number of the anchor and the rank of the node among the anchored
nodes, in the order in which they begin. -/
structure Anchored where
  number : Nat
  rank : Nat
  node : Node

/-- What a text holds. An empty text has no root. -/
structure Document where
  root : Option Node
  anchored : List Anchored
  /-- How many scalars, aliases and ends of collections there are. -/
  size : Nat

namespace Document

def later : Option Anchored → Anchored → Option Anchored
  | none, a => some a
  | some b, a => if b.rank ≤ a.rank then some a else some b

/-- The node that an alias stands for: of the nodes with its number, the one that begins last. -/
def target? (d : Document) (number : Nat) : Option Node :=
  ((d.anchored.filter (·.number == number)).foldl later none).map (·.node)

end Document

/-- An empty plain scalar, for a node that is left out. -/
def Node.omitted : Node := .scalar none "" .plain

end Yaml
end Leasehold
