import Leasehold.Yaml.Cursor

/-!
# Tokens

The pieces of a document's text. The extent of blocks, which the text shows by
indentation alone, is marked by tokens of their own.
-/

namespace Leasehold
namespace Yaml

/-- How a scalar was written, as far as its meaning depends on it. -/
inductive Form where
  | plain
  | literal
  | other
deriving DecidableEq

inductive Token where
  | version (major minor : Nat)
  | shorthand (handle : String) (meaning : List UInt8)
  | documentStart
  | documentEnd
  | streamEnd
  | blockSequence
  | blockMapping
  | blockEnd
  | flowSequence
  | flowSequenceEnd
  | flowMapping
  | flowMappingEnd
  | blockEntry
  | flowEntry
  | key
  | value
  | alias (name : String)
  | anchor (name : String)
  | tag (handle : String) (suffix : List UInt8)
  | scalar (text : String) (form : Form)
deriving DecidableEq

end Yaml
end Leasehold
