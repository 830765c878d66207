import Leasehold.Text.Quoted
import Leasehold.Text.Sha1
import Leasehold.Text.Utf8

/-!
# Lock scripts

The two atomic operations on a lock record, as programs that a server runs:
each calls commands on one key and its arguments, and answers a value. The
text sent to a server is the written form of the program.
-/

namespace Leasehold

namespace Script

inductive Term where
  | key
  | argument (index : Nat)
  | text (s : String)
deriving DecidableEq

/-- A command of the server and what it is given. -/
structure Call where
  command : String
  terms : List Term
deriving DecidableEq

inductive Statement where
  /-- Runs the body when the call answers the term. -/
  | whenEqual (call : Call) (term : Term) (body : List Statement)
  | perform (call : Call)
  | answer (call : Call)
  | answerText (s : String)
  | answerNumber (n : Nat)

namespace Term

def render : Term → String
  | key => "KEYS[1]"
  | argument index => "ARGV[" ++ Numeral.ofNat index ++ "]"
  | text s => "'" ++ s ++ "'"

end Term

def Call.render (c : Call) : String :=
  "redis.call(" ++ ", ".intercalate (("'" ++ c.command ++ "'") :: c.terms.map Term.render) ++ ")"

mutual

/-- The statement on lines of its own, behind the margin. -/
def Statement.render (margin : String) : Statement → String
  | .whenEqual call term body =>
    margin ++ "if " ++ call.render ++ " == " ++ term.render ++ " then\n" ++
      Statement.renderAll (margin ++ "    ") body ++ margin ++ "end\n"
  | .perform call => margin ++ call.render ++ "\n"
  | .answer call => margin ++ "return " ++ call.render ++ "\n"
  | .answerText s => margin ++ "return '" ++ s ++ "'\n"
  | .answerNumber n => margin ++ "return " ++ Numeral.ofNat n ++ "\n"

def Statement.renderAll (margin : String) : List Statement → String
  | [] => ""
  | s :: rest => s.render margin ++ Statement.renderAll margin rest

end

end Script

/-- The two scripts. Acquiring takes the token and the expiry in milliseconds and answers `OK`
when the key holds the token; releasing takes the token and answers the number of keys deleted. -/
inductive LockScript where
  | acquire
  | release
deriving DecidableEq

namespace LockScript

open Script

/-- Acquiring renews a record that holds the token and else writes only an absent key; releasing
deletes a record that holds the token. -/
def program : LockScript → List Statement
  | acquire =>
    [.whenEqual ⟨"get", [.key]⟩ (.argument 1)
      [.perform ⟨"set", [.key, .argument 1, .text "PX", .argument 2]⟩, .answerText "OK"],
     .answer ⟨"set", [.key, .argument 1, .text "NX", .text "PX", .argument 2]⟩]
  | release =>
    [.whenEqual ⟨"get", [.key]⟩ (.argument 1) [.answer ⟨"del", [.key]⟩],
     .answerNumber 0]

def name : LockScript → String
  | acquire => "Acquire"
  | release => "Release"

def source (s : LockScript) : String := "\n" ++ Statement.renderAll "    " s.program

def digest (s : LockScript) : String := Sha1.hex (Utf8.encode s.source)

end LockScript

/-- What a script can answer. -/
inductive Reply where
  | nil
  | status (text : String)
  | int (n : Int)
deriving DecidableEq

namespace Reply

def isOk : Reply → Bool
  | status text => text == "OK"
  | _ => false

def describe : Reply → String
  | nil => "Nil"
  | status text => "Status(" ++ Quoted.encode text ++ ")"
  | int n => "Int(" ++ Numeral.ofInt n ++ ")"

theorem isOk_iff {r : Reply} : r.isOk = true ↔ r = status "OK" := by
  cases r <;> simp [isOk]

end Reply
end Leasehold
