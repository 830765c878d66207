import Leasehold.Store

/-!
# The memory store

Records are kept in memory, each with a deadline. A record whose deadline has
come counts as absent, and is dropped when its key is next touched.
-/

namespace Leasehold

/-- A value and the instant at which it is gone. -/
structure Record where
  value : String
  deadline : Instant
deriving DecidableEq

structure MemoryStore where
  records : List (String × Record)
deriving DecidableEq

namespace MemoryStore

def empty : MemoryStore := ⟨[]⟩

variable (s : MemoryStore) (now : Instant) (key : String)

/-- The record kept under the key, whatever its deadline. -/
def find? : Option Record := s.records.lookup key

def erase : MemoryStore := ⟨s.records.filter fun r => r.1 != key⟩

def insert (record : Record) : MemoryStore := ⟨(key, record) :: (s.erase key).records⟩

theorem lookup_filter_ne {records : List (String × Record)} {key k : String} (h : k ≠ key) :
    (records.filter fun r => r.1 != key).lookup k = records.lookup k := by
  induction records with
  | nil => rfl
  | cons r rest ih =>
    obtain ⟨name, record⟩ := r
    by_cases hr : name = key
    · subst hr
      have hk : (k == name) = false := by simp [h]
      simp [List.lookup_cons, ih, hk]
    · cases hk : k == name <;> simp [List.lookup_cons, hr, hk, ih]

theorem lookup_filter_self {records : List (String × Record)} {key : String} :
    (records.filter fun r => r.1 != key).lookup key = none := by
  induction records with
  | nil => rfl
  | cons r rest ih =>
    obtain ⟨name, record⟩ := r
    by_cases hr : name = key
    · rw [List.filter_cons_of_neg (by simp [hr])]
      exact ih
    · have hk : (key == name) = false := by simp [Ne.symm hr]
      rw [List.filter_cons_of_pos (by simp [hr]), List.lookup_cons, hk]
      exact ih

@[simp] theorem find?_erase_self : (s.erase key).find? key = none := lookup_filter_self

theorem find?_erase {k : String} (h : k ≠ key) : (s.erase key).find? k = s.find? k :=
  lookup_filter_ne h

@[simp] theorem find?_insert_self (record : Record) :
    (s.insert key record).find? key = some record := by
  simp [insert, find?]

theorem find?_insert {k : String} (h : k ≠ key) (record : Record) :
    (s.insert key record).find? k = s.find? k := by
  have hk : (k == key) = false := by simp [h]
  simp only [insert, find?, List.lookup_cons, hk]
  exact s.find?_erase key h

/-- The record under the key, if its deadline is still to come. -/
def live? : Option Record :=
  match s.find? key with
  | some r => if r.deadline ≤ now then none else some r
  | none => none

/-- Drops the record under the key if its deadline has come. -/
def purge : MemoryStore :=
  match s.find? key with
  | some r => if r.deadline ≤ now then s.erase key else s
  | none => s

theorem find?_purge_self : (s.purge now key).find? key = s.live? now key := by
  unfold purge live?
  cases h : s.find? key with
  | none => simp [h]
  | some r =>
    by_cases hd : r.deadline ≤ now
    · simp [hd]
    · simp [hd, h]

theorem find?_purge {k : String} (h : k ≠ key) : (s.purge now key).find? k = s.find? k := by
  unfold purge
  split
  · split
    · exact s.find?_erase key h
    · rfl
  · rfl

def get : Option String × MemoryStore :=
  let s := s.purge now key
  ((s.find? key).map Record.value, s)

/-- Writes the value until `ttl` from now and gives the answer, if the clock reaches that far. -/
def write {α : Type} (value : String) (ttl : Duration) (answer : α) :
    Outcome StoreError α × MemoryStore :=
  match Instant.after? now ttl with
  | some deadline => (.ok answer, s.insert key ⟨value, deadline⟩)
  | none => (.clockOverflow, s)

def missingArgument (index : Nat) (script : LockScript) : StoreError :=
  .unexpectedReply ("ERR missing ARGV[" ++ Numeral.ofNat index ++ "] for " ++ script.name)

def notAnInteger : StoreError := .unexpectedReply "ERR value is not an integer or out of range"

def invalidExpiry : StoreError := .unexpectedReply "ERR invalid expire time in 'set' command"

/-- Acquiring: the expiry is read before the owner is looked at, so a bad one is an error whoever
holds the key. -/
def acquire (token : String) (arguments : List String) : Outcome StoreError Reply × MemoryStore :=
  match arguments with
  | [] => (.error (missingArgument 2 .acquire), s)
  | text :: _ =>
    match Numeral.u64? text with
    | none => (.error notAnInteger, s)
    | some millis =>
      if millis = 0 then (.error invalidExpiry, s)
      else
        match s.find? key with
        | some record =>
          if record.value = token then
            s.write now key token (Duration.ofMillis millis) (.status "OK")
          else (.ok .nil, s)
        | none => s.write now key token (Duration.ofMillis millis) (.status "OK")

def release (token : String) : Outcome StoreError Reply × MemoryStore :=
  match s.find? key with
  | some record => if record.value = token then (.ok (.int 1), s.erase key) else (.ok (.int 0), s)
  | none => (.ok (.int 0), s)

def eval (script : LockScript) (arguments : List String) : Outcome StoreError Reply × MemoryStore :=
  match arguments with
  | [] => (.error (missingArgument 1 script), s)
  | token :: rest =>
    match script with
    | .acquire => (s.purge now key).acquire now key token rest
    | .release => (s.purge now key).release key token

def remaining : Option Duration × MemoryStore :=
  let s := s.purge now key
  ((s.find? key).map fun r => Instant.since r.deadline now, s)

def setIfAbsent (value : String) (ttl : Duration) : Outcome StoreError Bool × MemoryStore :=
  let s := s.purge now key
  match s.find? key with
  | some _ => (.ok false, s)
  | none => s.write now key value ttl true

def deleteIfEqual (expected : String) : Bool × MemoryStore :=
  let s := s.purge now key
  match s.find? key with
  | some record => if record.value = expected then (true, s.erase key) else (false, s)
  | none => (false, s)

/-- Moves the deadline of a record that holds the expected value. -/
def expireIfEqual (expected : String) (ttl : Duration) : Outcome StoreError Bool × MemoryStore :=
  let s := s.purge now key
  match s.find? key with
  | some record =>
    if record.value = expected then s.write now key expected ttl true else (.ok false, s)
  | none => (.ok false, s)

def leases : LeaseStore MemoryStore where
  eval script key arguments w := w.onStore fun now s => s.eval now key script arguments
  remaining key w := w.onStore fun now s => ((.ok (s.remaining now key).1), (s.remaining now key).2)

def limits : LimitStore MemoryStore where
  setIfAbsent key value ttl w := w.onStore fun now s => s.setIfAbsent now key value ttl
  deleteIfEqual key expected w :=
    w.onStore fun now s => (.ok (s.deleteIfEqual now key expected).1, (s.deleteIfEqual now key expected).2)
  expireIfEqual key expected ttl w := w.onStore fun now s => s.expireIfEqual now key expected ttl

end MemoryStore
end Leasehold
