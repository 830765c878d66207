import Leasehold.Proofs.Text.Numeral
import Leasehold.Store.Access
import Mathlib.Logic.Function.Basic

/-!
# Ledgers

A ledger is a store that forgets a record the moment its deadline comes. Its
operations look for no deadline, and need not: `current` is applied after each
of them and after every move of the clock. A memory store, which drops an
expired record only when its key is touched, shows at every instant the ledger
of its unexpired records, and answers every access as that ledger does. So
what holds of all runs is proved of ledgers.
-/

namespace Leasehold

/-- The record kept under each key. -/
abbrev Ledger := String → Option Record

namespace Ledger

variable (m : Ledger) (now : Instant) (key : String)

/-- The ledger without the records whose deadline has come. -/
def current : Ledger := fun k => (m k).filter fun r => now < r.deadline

def write {α : Type} (value : String) (ttl : Duration) (answer : α) :
    Outcome StoreError α × Ledger :=
  match Instant.after? now ttl with
  | some deadline => (.ok answer, Function.update m key (some ⟨value, deadline⟩))
  | none => (.clockOverflow, m)

def acquire (token : String) (arguments : List String) : Outcome StoreError Reply × Ledger :=
  match arguments with
  | [] => (.error (MemoryStore.missingArgument 2 .acquire), m)
  | text :: _ =>
    match Numeral.u64? text with
    | none => (.error MemoryStore.notAnInteger, m)
    | some millis =>
      if millis = 0 then (.error MemoryStore.invalidExpiry, m)
      else
        match m key with
        | some record =>
          if record.value = token then
            m.write now key token (Duration.ofMillis millis) (.status "OK")
          else (.ok .nil, m)
        | none => m.write now key token (Duration.ofMillis millis) (.status "OK")

def release (token : String) : Outcome StoreError Reply × Ledger :=
  match m key with
  | some record =>
    if record.value = token then (.ok (.int 1), Function.update m key none) else (.ok (.int 0), m)
  | none => (.ok (.int 0), m)

def eval (script : LockScript) (arguments : List String) : Outcome StoreError Reply × Ledger :=
  match arguments with
  | [] => (.error (MemoryStore.missingArgument 1 script), m)
  | token :: rest =>
    match script with
    | .acquire => m.acquire now key token rest
    | .release => m.release key token

def get : Option String := (m key).map Record.value

def remaining : Option Duration := (m key).map fun r => Instant.since r.deadline now

def setIfAbsent (value : String) (ttl : Duration) : Outcome StoreError Bool × Ledger :=
  match m key with
  | some _ => (.ok false, m)
  | none => m.write now key value ttl true

def deleteIfEqual (expected : String) : Bool × Ledger :=
  match m key with
  | some record => if record.value = expected then (true, Function.update m key none) else (false, m)
  | none => (false, m)

def expireIfEqual (expected : String) (ttl : Duration) : Outcome StoreError Bool × Ledger :=
  match m key with
  | some record =>
    if record.value = expected then m.write now key expected ttl true else (.ok false, m)
  | none => (.ok false, m)

/-- An access before expired records are dropped. -/
def perform : Access → Outcome StoreError Answer × Instant × Ledger
  | .advance d => (.ok .done, now + d.nanos, m)
  | .eval script key arguments =>
    let r := m.eval now key script arguments
    (r.1.map .reply, now, r.2)
  | .remaining key => (.ok (.life (m.remaining now key)), now, m)
  | .get key => (.ok (.text (m.get key)), now, m)
  | .setIfAbsent key value ttl =>
    let r := m.setIfAbsent now key value ttl
    (r.1.map .flag, now, r.2)
  | .deleteIfEqual key expected =>
    let r := m.deleteIfEqual key expected
    (.ok (.flag r.1), now, r.2)
  | .expireIfEqual key expected ttl =>
    let r := m.expireIfEqual now key expected ttl
    (r.1.map .flag, now, r.2)

def run (a : Access) : Outcome StoreError Answer × Instant × Ledger :=
  let r := m.perform now a
  (r.1, r.2.1, r.2.2.current r.2.1)

theorem current_apply (k : String) : m.current now k = (m k).filter fun r => now < r.deadline := rfl

theorem current_later {later : Instant} (h : now ≤ later) :
    (m.current now).current later = m.current later := by
  funext k
  simp only [current, Option.filter_filter]
  congr 1
  funext r
  by_cases hl : later < r.deadline
  · have hn : now < r.deadline := Nat.lt_of_le_of_lt h hl
    simp [hn, hl]
  · simp [hl]

@[simp] theorem current_current : (m.current now).current now = m.current now :=
  m.current_later now (Nat.le_refl now)

/-- Whether expired records are dropped before a record is changed makes no difference after it. -/
@[simp] theorem current_update_current (r : Option Record) :
    current (Function.update (m.current now) key r) now =
      current (Function.update m key r) now := by
  funext k
  by_cases hk : k = key
  · subst hk
    simp [current]
  · simp [current, hk, Option.filter_filter]

/-- Records under one key do not show under another. -/
theorem current_update {k : String} (hk : k ≠ key) (r : Option Record) :
    current (Function.update m key r) now k = m.current now k := by
  simp [current, hk]

theorem run_eval (script : LockScript) (arguments : List String) :
    m.run now (.eval script key arguments) =
      ((m.eval now key script arguments).1.map .reply, now,
        (m.eval now key script arguments).2.current now) := rfl

variable {m now key}

theorem write_of_lt {α : Type} {value : String} {ttl : Duration} {answer : α}
    (h : now + ttl.nanos < Instant.clockEnd) :
    m.write now key value ttl answer =
      (.ok answer, Function.update m key (some ⟨value, now + ttl.nanos⟩)) := by
  unfold write
  rw [Instant.after?_eq_some.mpr ⟨h, rfl⟩]

theorem write_of_le {α : Type} {value : String} {ttl : Duration} {answer : α}
    (h : Instant.clockEnd ≤ now + ttl.nanos) :
    m.write now key value ttl answer = (.clockOverflow, m) := by
  unfold write
  rw [Instant.after?_eq_none.mpr h]

variable (m now key)

theorem acquire_cases (token : String) {millis : Nat} (hpos : 0 < millis)
    (hlt : millis < 18446744073709551616) :
    (∃ r, m key = some r ∧ r.value ≠ token ∧
      m.eval now key .acquire [token, Numeral.ofNat millis] = (.ok .nil, m)) ∨
    ((∀ r, m key = some r → r.value = token) ∧
      m.eval now key .acquire [token, Numeral.ofNat millis] =
        m.write now key token (Duration.ofMillis millis) (.status "OK")) := by
  have hne : millis ≠ 0 := Nat.ne_of_gt hpos
  simp only [eval, acquire, Numeral.u64?_ofNat hlt, hne, if_false]
  cases m key with
  | none => exact Or.inr ⟨by simp, rfl⟩
  | some r =>
    by_cases hv : r.value = token
    · exact Or.inr ⟨by simp [hv], by simp only [hv, if_true]⟩
    · exact Or.inl ⟨r, rfl, hv, by simp only [hv, if_false]⟩

theorem setIfAbsent_cases (value : String) (ttl : Duration) :
    (m key = none ∧ m.setIfAbsent now key value ttl = m.write now key value ttl true) ∨
    ((∃ r, m key = some r) ∧ m.setIfAbsent now key value ttl = (.ok false, m)) := by
  simp only [setIfAbsent]
  cases m key with
  | none => exact Or.inl ⟨rfl, rfl⟩
  | some r => exact Or.inr ⟨⟨r, rfl⟩, rfl⟩

theorem deleteIfEqual_cases (expected : String) :
    (∃ r, m key = some r ∧ r.value = expected ∧
      m.deleteIfEqual key expected = (true, Function.update m key none)) ∨
    ((∀ r, m key = some r → r.value ≠ expected) ∧ m.deleteIfEqual key expected = (false, m)) := by
  simp only [deleteIfEqual]
  cases m key with
  | none => exact Or.inr ⟨by simp, rfl⟩
  | some r =>
    by_cases hv : r.value = expected
    · exact Or.inl ⟨r, rfl, hv, by simp only [hv, if_true]⟩
    · exact Or.inr ⟨by simp [hv], by simp only [hv, if_false]⟩

theorem expireIfEqual_cases (expected : String) (ttl : Duration) :
    (∃ r, m key = some r ∧ r.value = expected ∧
      m.expireIfEqual now key expected ttl = m.write now key expected ttl true) ∨
    ((∀ r, m key = some r → r.value ≠ expected) ∧
      m.expireIfEqual now key expected ttl = (.ok false, m)) := by
  simp only [expireIfEqual]
  cases m key with
  | none => exact Or.inr ⟨by simp, rfl⟩
  | some r =>
    by_cases hv : r.value = expected
    · exact Or.inl ⟨r, rfl, hv, by simp only [hv, if_true]⟩
    · exact Or.inr ⟨by simp [hv], by simp only [hv, if_false]⟩

theorem release_cases (token : String) :
    (∃ r, m key = some r ∧ r.value = token ∧
      m.eval now key .release [token] = (.ok (.int 1), Function.update m key none)) ∨
    ((∀ r, m key = some r → r.value ≠ token) ∧
      m.eval now key .release [token] = (.ok (.int 0), m)) := by
  simp only [eval, release]
  cases m key with
  | none => exact Or.inr ⟨by simp, rfl⟩
  | some r =>
    by_cases hv : r.value = token
    · exact Or.inl ⟨r, rfl, hv, by simp only [hv, if_true]⟩
    · exact Or.inr ⟨by simp [hv], by simp only [hv, if_false]⟩

end Ledger
end Leasehold
