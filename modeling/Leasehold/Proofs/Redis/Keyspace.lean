import Leasehold.Proofs.Store.View
import Leasehold.Proofs.Text.Utf8
import Leasehold.Redis.Wire

/-!
# Keyspaces

What the server is taken to do with the commands that scripts and clients
send. An entry holds bytes, or a collection that is no text to anybody, and
may have a deadline; once that has come, no command sees the entry. A script
spells a command in small letters, a client in capitals.
-/

namespace Leasehold
namespace Redis

inductive Content where
  | text (bytes : List UInt8)
  | collection (items : List (List UInt8))
deriving DecidableEq

structure Entry where
  content : Content
  /-- When the entry expires, if it does. -/
  deadline : Option Instant
deriving DecidableEq

def Entry.isLive (now : Instant) (e : Entry) : Bool := e.deadline.all fun d => now < d

def Entry.ofRecord (r : Record) : Entry := ⟨.text (Utf8.encode r.value), some r.deadline⟩

theorem Entry.filter_isLive {now later : Instant} (h : now ≤ later) (o : Option Entry) :
    (o.filter (isLive now)).filter (isLive later) = o.filter (isLive later) := by
  rw [Option.filter_filter]
  congr 1
  funext e
  unfold isLive
  cases e.deadline with
  | none => rfl
  | some d =>
    by_cases hd : later < d
    · have hn : now < d := Nat.lt_of_le_of_lt h hd
      simp [hd, hn]
    · simp [hd]

theorem Entry.ofRecord_injective : Function.Injective Entry.ofRecord := by
  intro r r' h
  cases r
  cases r'
  simpa [ofRecord] using h

abbrev Keyspace := String → Option Entry

/-- A command that reads or writes one key. -/
inductive Order where
  | get (key : String)
  | set (key value : String) (onlyIfAbsent : Bool) (millis : String)
  | delete (key : String)
  | expire (key millis : String)

def Order.ofCommand? : Command → Option Order
  | ["GET", key] | ["get", key] => some (.get key)
  | ["SET", key, value, "PX", millis] | ["set", key, value, "PX", millis] =>
    some (.set key value false millis)
  | ["SET", key, value, "NX", "PX", millis] | ["set", key, value, "NX", "PX", millis] =>
    some (.set key value true millis)
  | ["DEL", key] | ["del", key] => some (.delete key)
  | ["PEXPIRE", key, millis] | ["pexpire", key, millis] => some (.expire key millis)
  | _ => none

namespace Keyspace

def empty : Keyspace := fun _ => none

def wrongType : ServerError :=
  ⟨.other "WRONGTYPE", some "Operation against a key holding the wrong kind of value"⟩

def notAnInteger : ServerError := ⟨.response, some "value is not an integer or out of range"⟩

def invalidExpiry : ServerError := ⟨.response, some "invalid expire time in 'set' command"⟩

def unknownCommand : ServerError := ⟨.response, some "unknown command"⟩

/-- Reads a number that is written without a sign or leading zeros. -/
def millis? (text : String) : Option Nat := (Numeral.u64? text).filter fun n => text = Numeral.ofNat n

variable (ks : Keyspace) (now : Instant) (key : String)

def live : Option Entry := (ks key).filter (Entry.isLive now)

def after (millis : Nat) : Instant := now + millis * 1000000

def get : Except ServerError Value :=
  match ks.live now key with
  | none => .ok .nil
  | some ⟨.text bytes, _⟩ => .ok (.data bytes)
  | some ⟨.collection _, _⟩ => .error wrongType

/-- Writes text, which ends whatever was under the key and its deadline. -/
def set (value : String) (onlyIfAbsent : Bool) (text : String) : Except ServerError Value × Keyspace :=
  match millis? text with
  | none => (.error notAnInteger, ks)
  | some millis =>
    if 9223372036854775808 ≤ millis then (.error notAnInteger, ks)
    else if millis = 0 then (.error invalidExpiry, ks)
    else if onlyIfAbsent && (ks.live now key).isSome then (.ok .nil, ks)
    else
      (.ok .okay,
        Function.update ks key (some ⟨.text (Utf8.encode value), some (after now millis)⟩))

def delete : Value × Keyspace :=
  match ks.live now key with
  | none => (.int 0, ks)
  | some _ => (.int 1, Function.update ks key none)

/-- Moves the deadline of whatever is under the key. -/
def expire (text : String) : Except ServerError Value × Keyspace :=
  match millis? text with
  | none => (.error notAnInteger, ks)
  | some millis =>
    match ks.live now key with
    | none => (.ok (.int 0), ks)
    | some e => (.ok (.int 1), Function.update ks key (some { e with deadline := some (after now millis) }))

def perform : Order → Except ServerError Value × Keyspace
  | .get key => (ks.get now key, ks)
  | .set key value onlyIfAbsent text => ks.set now key value onlyIfAbsent text
  | .delete key => (.ok (ks.delete now key).1, (ks.delete now key).2)
  | .expire key text => ks.expire now key text

def execute (c : Command) : Except ServerError Value × Keyspace :=
  match Order.ofCommand? c with
  | some order => ks.perform now order
  | none => (.error unknownCommand, ks)

/-- The clock reaches every deadline. -/
def Bounded : Prop :=
  ∀ key e d, ks key = some e → e.deadline = some d → d < Instant.clockEnd

theorem millis?_ofNat {n : Nat} (h : n < 18446744073709551616) : millis? (Numeral.ofNat n) = some n := by
  simp [millis?, Numeral.u64?_ofNat h]

/-- Later a command sees what is left of what it sees now. -/
theorem live_later {now later : Instant} (h : now ≤ later) :
    ks.live later key = (ks.live now key).filter (Entry.isLive later) :=
  (Entry.filter_isLive h (ks key)).symm

theorem set_ofNat {millis : Nat} (hpos : 0 < millis) (hlt : millis < 9223372036854775808)
    (value : String) (onlyIfAbsent : Bool) :
    ks.set now key value onlyIfAbsent (Numeral.ofNat millis) =
      if onlyIfAbsent && (ks.live now key).isSome then (.ok .nil, ks)
      else
        (.ok .okay,
          Function.update ks key (some ⟨.text (Utf8.encode value), some (after now millis)⟩)) := by
  have hread := millis?_ofNat (Nat.lt_trans hlt (by decide : 9223372036854775808 < 18446744073709551616))
  simp only [set, hread, if_neg (Nat.not_le.mpr hlt), if_neg (Nat.ne_of_gt hpos)]

@[simp] theorem live_update_of_ne {k : String} (h : k ≠ key) (e : Option Entry) :
    live (Function.update ks key e) now k = ks.live now k := by
  simp [live, h]

variable {ks}

theorem Bounded.update (hb : ks.Bounded) (content : Content) {deadline : Instant}
    (h : deadline < Instant.clockEnd) :
    Bounded (Function.update ks key (some ⟨content, some deadline⟩)) := by
  intro k e d he hd
  by_cases hk : k = key
  · subst hk
    rw [Function.update_self] at he
    cases he
    cases hd
    exact h
  · rw [Function.update_of_ne hk] at he
    exact hb k e d he hd

theorem Bounded.delete (hb : ks.Bounded) : (ks.delete now key).2.Bounded := by
  unfold Keyspace.delete
  cases ks.live now key with
  | none => exact hb
  | some e =>
    intro k e d he hd
    by_cases hk : k = key
    · subst hk
      simp at he
    · simp only [Function.update_of_ne hk] at he
      exact hb k e d he hd

end Keyspace
end Redis
end Leasehold
