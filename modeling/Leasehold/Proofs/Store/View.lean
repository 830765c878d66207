import Leasehold.Proofs.Store.Ledger
import Mathlib.Tactic.SplitIfs

/-!
# What a memory store shows

The ledger of a store at an instant holds its unexpired records. Touching a
key, which may drop its record, shows nothing new; each access is answered
from the ledger and leaves the ledger of the access. Hence whole runs of a
memory store are runs of its ledger.
-/

namespace Leasehold
namespace MemoryStore

variable (s : MemoryStore) (now : Instant) (key : String)

/-- The records whose deadline is still to come. -/
def ledger : Ledger := fun k => s.live? now k

theorem ledger_apply (k : String) :
    s.ledger now k = (s.find? k).filter fun r => now < r.deadline := by
  unfold ledger live?
  cases s.find? k with
  | none => rfl
  | some r =>
    by_cases h : r.deadline ≤ now
    · simp [h, Option.filter_some, Nat.not_lt.mpr h]
    · simp [h, Option.filter_some, Nat.lt_of_not_le h]

theorem ledger_eq : s.ledger now = Ledger.current s.find? now :=
  funext fun k => s.ledger_apply now k

@[simp] theorem ledger_current : (s.ledger now).current now = s.ledger now := by
  rw [ledger_eq, Ledger.current_current]

/-- Later the store shows what is left of what it shows now. -/
theorem ledger_later {later : Instant} (h : now ≤ later) :
    s.ledger later = (s.ledger now).current later := by
  rw [ledger_eq, ledger_eq, Ledger.current_later _ _ h]

@[simp] theorem ledger_purge : (s.purge now key).ledger now = s.ledger now := by
  funext k
  by_cases hk : k = key
  · subst hk
    rw [ledger_apply, find?_purge_self]
    exact congrFun (s.ledger_current now) k
  · rw [ledger_apply, ledger_apply, s.find?_purge now key hk]

theorem find?_insert_eq (r : Record) :
    (s.insert key r).find? = Function.update s.find? key (some r) := by
  funext k
  by_cases hk : k = key
  · subst hk
    simp
  · rw [s.find?_insert key hk, Function.update_of_ne hk]

theorem find?_erase_eq : (s.erase key).find? = Function.update s.find? key none := by
  funext k
  by_cases hk : k = key
  · subst hk
    simp
  · rw [s.find?_erase key hk, Function.update_of_ne hk]

theorem ledger_insert (r : Record) :
    (s.insert key r).ledger now =
      Ledger.current (Function.update (s.ledger now) key (some r)) now := by
  rw [ledger_eq, ledger_eq, find?_insert_eq, Ledger.current_update_current]

theorem ledger_erase :
    (s.erase key).ledger now = Ledger.current (Function.update (s.ledger now) key none) now := by
  rw [ledger_eq, ledger_eq, find?_erase_eq, Ledger.current_update_current]

/-- An operation on a store comes to the same as one on a ledger. -/
structure Agrees {α : Type} (now : Instant) (x : α × MemoryStore) (y : α × Ledger) : Prop where
  answer : x.1 = y.1
  shows : x.2.ledger now = y.2.current now

variable {s now key} {m : Ledger}

theorem agrees_keep {α : Type} (h : s.ledger now = m) (answer : α) :
    Agrees now (answer, s) (answer, m) := by
  subst h
  exact ⟨rfl, (s.ledger_current now).symm⟩

theorem agrees_erase {α : Type} (h : s.ledger now = m) (answer : α) :
    Agrees now (answer, s.erase key) (answer, Function.update m key none) := by
  subst h
  exact ⟨rfl, s.ledger_erase now key⟩

theorem agrees_write {α : Type} (h : s.ledger now = m) (value : String) (ttl : Duration)
    (answer : α) :
    Agrees now (s.write now key value ttl answer) (m.write now key value ttl answer) := by
  subst h
  unfold write Ledger.write
  cases Instant.after? now ttl with
  | none => exact agrees_keep rfl _
  | some deadline => exact ⟨rfl, s.ledger_insert now key _⟩

variable (s now key)

theorem find?_purge_eq : (s.purge now key).find? key = s.ledger now key := s.find?_purge_self now key

theorem eval_agrees (script : LockScript) (arguments : List String) :
    Agrees now (s.eval now key script arguments) ((s.ledger now).eval now key script arguments) := by
  have hp := s.ledger_purge now key
  cases arguments with
  | nil => exact agrees_keep rfl _
  | cons token rest =>
    cases script with
    | release =>
      simp only [eval, release, Ledger.eval, Ledger.release, find?_purge_eq]
      cases s.ledger now key with
      | none => exact agrees_keep hp _
      | some r =>
        dsimp only
        split_ifs
        · exact agrees_erase hp _
        · exact agrees_keep hp _
    | acquire =>
      simp only [eval, acquire, Ledger.eval, Ledger.acquire, find?_purge_eq]
      cases rest with
      | nil => exact agrees_keep hp _
      | cons text rest =>
        dsimp only
        cases Numeral.u64? text with
        | none => exact agrees_keep hp _
        | some millis =>
          dsimp only
          split_ifs
          · exact agrees_keep hp _
          · cases s.ledger now key with
            | none => exact agrees_write hp _ _ _
            | some r =>
              dsimp only
              split_ifs
              · exact agrees_write hp _ _ _
              · exact agrees_keep hp _

theorem get_agrees : Agrees now (s.get now key) ((s.ledger now).get key, s.ledger now) := by
  simp only [get, Ledger.get, find?_purge_eq]
  exact agrees_keep (s.ledger_purge now key) _

theorem remaining_agrees :
    Agrees now (s.remaining now key) ((s.ledger now).remaining now key, s.ledger now) := by
  simp only [remaining, Ledger.remaining, find?_purge_eq]
  exact agrees_keep (s.ledger_purge now key) _

theorem setIfAbsent_agrees (value : String) (ttl : Duration) :
    Agrees now (s.setIfAbsent now key value ttl) ((s.ledger now).setIfAbsent now key value ttl) := by
  have hp := s.ledger_purge now key
  simp only [setIfAbsent, Ledger.setIfAbsent, find?_purge_eq]
  cases s.ledger now key with
  | none => exact agrees_write hp _ _ _
  | some r => exact agrees_keep hp _

theorem deleteIfEqual_agrees (expected : String) :
    Agrees now (s.deleteIfEqual now key expected) ((s.ledger now).deleteIfEqual key expected) := by
  have hp := s.ledger_purge now key
  simp only [deleteIfEqual, Ledger.deleteIfEqual, find?_purge_eq]
  cases s.ledger now key with
  | none => exact agrees_keep hp _
  | some r =>
    dsimp only
    split_ifs
    · exact agrees_erase hp _
    · exact agrees_keep hp _

theorem expireIfEqual_agrees (expected : String) (ttl : Duration) :
    Agrees now (s.expireIfEqual now key expected ttl)
      ((s.ledger now).expireIfEqual now key expected ttl) := by
  have hp := s.ledger_purge now key
  simp only [expireIfEqual, Ledger.expireIfEqual, find?_purge_eq]
  cases s.ledger now key with
  | none => exact agrees_keep hp _
  | some r =>
    dsimp only
    split_ifs
    · exact agrees_write hp _ _ _
    · exact agrees_keep hp _

theorem leases_eval (script : LockScript) (key : String) (arguments : List String)
    (w : Session MemoryStore) :
    let r := leases.eval script key arguments w
    let m := (w.store.ledger w.now).eval w.now key script arguments
    r.1 = m.1 ∧ r.2.now = w.now ∧ r.2.store.ledger w.now = m.2.current w.now :=
  have h := w.store.eval_agrees w.now key script arguments
  ⟨h.answer, rfl, h.shows⟩

end MemoryStore

open MemoryStore

/-- A memory store answers an access as its ledger does, and shows the ledger of the access
afterwards. -/
theorem Access.run_ledger (a : Access) (now : Instant) (s : MemoryStore) :
    (a.run now s).1 = ((s.ledger now).run now a).1 ∧
      (a.run now s).2.1 = ((s.ledger now).run now a).2.1 ∧
      (a.run now s).2.2.ledger (a.run now s).2.1 = ((s.ledger now).run now a).2.2 := by
  cases a with
  | advance d => exact ⟨rfl, rfl, s.ledger_later now (Nat.le_add_right now d.nanos)⟩
  | eval script key arguments =>
    have h := s.eval_agrees now key script arguments
    exact ⟨by simp only [run, Ledger.run, Ledger.perform, h.answer], rfl, h.shows⟩
  | remaining key =>
    have h := s.remaining_agrees now key
    exact ⟨by simp only [run, Ledger.run, Ledger.perform, h.answer], rfl, h.shows⟩
  | get key =>
    have h := s.get_agrees now key
    exact ⟨by simp only [run, Ledger.run, Ledger.perform, h.answer], rfl, h.shows⟩
  | setIfAbsent key value ttl =>
    have h := s.setIfAbsent_agrees now key value ttl
    exact ⟨by simp only [run, Ledger.run, Ledger.perform, h.answer], rfl, h.shows⟩
  | deleteIfEqual key expected =>
    have h := s.deleteIfEqual_agrees now key expected
    exact ⟨by simp only [run, Ledger.run, Ledger.perform, h.answer], rfl, h.shows⟩
  | expireIfEqual key expected ttl =>
    have h := s.expireIfEqual_agrees now key expected ttl
    exact ⟨by simp only [run, Ledger.run, Ledger.perform, h.answer], rfl, h.shows⟩

end Leasehold
