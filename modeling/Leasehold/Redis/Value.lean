import Leasehold.Text.Quoted
import Leasehold.Text.Utf8

/-!
# Server values

What a server answers when it answers at all: nothing, a number, bytes, a
status word or a row of values. The status `OK` is a value of its own.
-/

namespace Leasehold
namespace Redis

inductive Value where
  | nil
  | okay
  | int (n : Int)
  | status (text : String)
  | data (bytes : List UInt8)
  | bulk (items : List Value)

namespace Value

instance : Inhabited Value := ⟨nil⟩

/-- Bytes as text between quotes, or as numbers where they are no text. -/
def describeData (bytes : List UInt8) : String :=
  match Utf8.decode? bytes with
  | some s => "string-data('" ++ Quoted.encode s ++ "')"
  | none => "binary-data([" ++ ", ".intercalate (bytes.map fun b => Numeral.ofNat b.toNat) ++ "])"

mutual

def describe : Value → String
  | nil => "nil"
  | okay => "ok"
  | int n => "int(" ++ Numeral.ofInt n ++ ")"
  | status s => "status(" ++ Quoted.encode s ++ ")"
  | data bytes => describeData bytes
  | bulk items => "bulk(" ++ ", ".intercalate (describeAll items) ++ ")"

def describeAll : List Value → List String
  | [] => []
  | v :: vs => describe v :: describeAll vs

end

end Value
end Redis
end Leasehold
