import Leasehold.Lock
import Leasehold.Proofs.Store.View
import Leasehold.Proofs.Text.Denotation

/-!
# Arguments of scripts

Whether a memory store runs a script is settled by the script and its
arguments alone: there must be a token, and to acquire there must also be an
expiry of at least one and at most `2 ^ 64 - 1` milliseconds. What is on the
key decides only what a script does that is run. How an expiry is spelled makes
no difference, so nothing is lost by looking at plain spellings.
-/

namespace Leasehold

namespace LockScript

/-- How many arguments a script reads. -/
def arity : LockScript → Nat
  | acquire => 2
  | release => 1

def refusal? : LockScript → List String → Option StoreError
  | script, [] => some (MemoryStore.missingArgument 1 script)
  | release, _ :: _ => none
  | acquire, [_] => some (MemoryStore.missingArgument 2 .acquire)
  | acquire, _ :: text :: _ =>
    match Numeral.u64? text with
    | none => some MemoryStore.notAnInteger
    | some millis => if millis = 0 then some MemoryStore.invalidExpiry else none

/-- The text is a numeral of so many milliseconds, at least one and at most `2 ^ 64 - 1`. -/
structure Expiry (text : String) (millis : Nat) : Prop where
  denotes : Numeral.Denotes text millis
  pos : 1 ≤ millis
  le : millis ≤ 18446744073709551615

theorem Expiry.u64? {text : String} {millis : Nat} (h : Expiry text millis) :
    Numeral.u64? text = some millis :=
  Numeral.u64?_eq_some.mpr ⟨h.denotes, Nat.lt_succ_of_le h.le⟩

theorem expiry_ofNat {millis : Nat} (hpos : 1 ≤ millis) (hle : millis ≤ 18446744073709551615) :
    Expiry (Numeral.ofNat millis) millis :=
  ⟨Numeral.denotes_ofNat millis, hpos, hle⟩

theorem refusal?_expiry (token text : String) (more : List String) :
    (∃ why, refusal? acquire (token :: text :: more) = some why) ↔ ∀ millis, ¬ Expiry text millis := by
  simp only [refusal?]
  cases hread : Numeral.u64? text with
  | none =>
    refine iff_of_true ⟨_, rfl⟩ fun millis h => ?_
    cases hread.symm.trans h.u64?
  | some millis =>
    obtain ⟨hdenotes, hlt⟩ := Numeral.u64?_eq_some.mp hread
    by_cases hzero : millis = 0
    · refine iff_of_true ⟨MemoryStore.invalidExpiry, if_pos hzero⟩ fun millis' h => ?_
      cases hread.symm.trans h.u64?
      exact absurd hzero (Nat.ne_of_gt h.pos)
    · refine iff_of_false ?_ fun h => h millis ⟨hdenotes, Nat.pos_of_ne_zero hzero, Nat.le_of_lt_succ hlt⟩
      simp [hzero]

theorem refusal?_iff (script : LockScript) (arguments : List String) :
    (∃ why, script.refusal? arguments = some why) ↔
      arguments = [] ∨ script = .acquire ∧ (arguments[1]? = none ∨
        ∃ text, arguments[1]? = some text ∧ ∀ millis, ¬ Expiry text millis) := by
  match script, arguments with
  | script, [] => simp [refusal?]
  | release, _ :: _ => simp [refusal?]
  | acquire, [_] => simp [refusal?]
  | acquire, token :: text :: more =>
    rw [refusal?_expiry]
    simp

end LockScript

open LockScript

namespace MemoryStore

variable (s : MemoryStore) (now : Instant) (key : String)

theorem write_ne_error {α : Type} (value : String) (ttl : Duration) (answer : α) (why : StoreError) :
    (s.write now key value ttl answer).1 ≠ .error why := by
  unfold write
  cases Instant.after? now ttl <;> nofun

theorem eval_eq_error (script : LockScript) (arguments : List String) (why : StoreError) :
    (s.eval now key script arguments).1 = .error why ↔ script.refusal? arguments = some why := by
  match script, arguments with
  | script, [] => simp [eval, refusal?]
  | .release, token :: rest =>
    simp only [eval, release, refusal?]
    split
    · split_ifs <;> simp
    · simp
  | .acquire, [token] => simp [eval, acquire, refusal?]
  | .acquire, token :: text :: more =>
    simp only [eval, acquire, refusal?]
    cases Numeral.u64? text with
    | none => simp
    | some millis =>
      by_cases hzero : millis = 0
      · simp [hzero]
      · cases (s.purge now key).find? key with
        | none => simp [hzero, write_ne_error]
        | some record => by_cases hown : record.value = token <;> simp [hzero, hown, write_ne_error]

theorem eval_take (script : LockScript) (arguments : List String) :
    s.eval now key script (arguments.take script.arity) = s.eval now key script arguments := by
  match script, arguments with
  | .acquire, [] => rfl
  | .release, [] => rfl
  | .release, _ :: _ => rfl
  | .acquire, [_] => rfl
  | .acquire, _ :: _ :: _ => rfl

/-- An expiry may as well be spelled plainly. -/
theorem eval_spelled {text : String} {millis : Nat} (h : Expiry text millis) (token : String)
    (more : List String) :
    s.eval now key .acquire (token :: text :: more) = s.eval now key .acquire [token, Numeral.ofNat millis] := by
  simp only [eval, acquire, h.u64?, (expiry_ofNat h.pos h.le).u64?]

theorem current_update_ledger {r : Record} (h : now < r.deadline) :
    Ledger.current (Function.update (s.ledger now) key (some r)) now =
      Function.update (s.ledger now) key (some r) := by
  funext k
  by_cases hk : k = key
  · subst hk
    simp [Ledger.current_apply, h]
  · rw [Ledger.current_update _ _ _ hk, ledger_current, Function.update_of_ne hk]

/-- What an accepted acquisition does: nothing on a key of another token, and else it writes its
record for just the expiry, if the clock has room. -/
theorem eval_accepted {text : String} {millis : Nat} (h : Expiry text millis) (token : String)
    (more : List String) :
    let r := s.eval now key .acquire (token :: text :: more)
    (∃ other, s.live? now key = some other ∧ other.value ≠ token ∧ r.1 = .ok .nil ∧
      r.2.ledger now = s.ledger now) ∨
    ((∀ own, s.live? now key = some own → own.value = token) ∧
      (now + millis * 1000000 < Instant.clockEnd → r.1 = .ok (.status "OK") ∧
        r.2.ledger now = Function.update (s.ledger now) key (some ⟨token, now + millis * 1000000⟩)) ∧
      (Instant.clockEnd ≤ now + millis * 1000000 → r.1 = .clockOverflow ∧
        r.2.ledger now = s.ledger now)) := by
  intro r
  have hlt : millis < 18446744073709551616 := Nat.lt_succ_of_le h.le
  have hterm := Duration.nanos_ofMillis hlt
  have hr : r = s.eval now key .acquire [token, Numeral.ofNat millis] := s.eval_spelled now key h token more
  obtain ⟨hanswer, hshows⟩ := s.eval_agrees now key .acquire [token, Numeral.ofNat millis]
  rw [← hr] at hanswer hshows
  rcases (s.ledger now).acquire_cases now key token h.pos hlt with ⟨other, hother, hne, he⟩ | ⟨hfree, he⟩
  · rw [he] at hanswer hshows
    exact Or.inl ⟨other, hother, hne, hanswer, by rw [hshows, ledger_current]⟩
  · rw [he] at hanswer hshows
    refine Or.inr ⟨hfree, fun hfits => ?_, fun hfar => ?_⟩
    · rw [← hterm] at hfits ⊢
      rw [Ledger.write_of_lt hfits] at hanswer hshows
      refine ⟨hanswer, hshows.trans (s.current_update_ledger now key ?_)⟩
      have hpos : 0 < millis * 1000000 := Nat.mul_pos h.pos (by decide)
      exact Nat.lt_add_of_pos_right (hterm ▸ hpos)
    · rw [← hterm] at hfar
      rw [Ledger.write_of_le hfar] at hanswer hshows
      exact ⟨hanswer, by rw [hshows, ledger_current]⟩

end MemoryStore

theorem Lock.expiry_told (l : Lock) : Expiry (Numeral.ofNat l.expiryMillis) l.expiryMillis :=
  expiry_ofNat l.policy.expiry.wholeMillis_pos (Nat.le_of_lt_succ l.policy.expiry.wholeMillis_lt)

/-- A memory store refuses a call just when there are no arguments, or when to acquire there is no sound
expiry; it does so whatever it keeps, and looks at no further arguments. An accepted acquisition writes
just the expiry that it was told; and every number that an expiry can be is told by its decimal text, as
locks do. -/
theorem MemoryStore.eval_settled_by_arguments :
    (∀ (s : MemoryStore) now key script arguments,
      (∃ why, (s.eval now key script arguments).1 = .error why) ↔
        arguments = [] ∨ script = .acquire ∧ (arguments[1]? = none ∨
          ∃ text, arguments[1]? = some text ∧ ∀ millis, ¬ Expiry text millis)) ∧
    (∀ (s s' : MemoryStore) now now' key key' script arguments why,
      (s.eval now key script arguments).1 = .error why ↔ (s'.eval now' key' script arguments).1 = .error why) ∧
    (∀ (s : MemoryStore) now key script arguments,
      s.eval now key script (arguments.take script.arity) = s.eval now key script arguments) ∧
    (∀ (s : MemoryStore) now key token text more millis, Expiry text millis →
      let r := s.eval now key .acquire (token :: text :: more)
      (∃ other, s.live? now key = some other ∧ other.value ≠ token ∧ r.1 = .ok .nil ∧
        r.2.ledger now = s.ledger now) ∨
      ((∀ own, s.live? now key = some own → own.value = token) ∧
        (now + millis * 1000000 < Instant.clockEnd → r.1 = .ok (.status "OK") ∧
          r.2.ledger now = Function.update (s.ledger now) key (some ⟨token, now + millis * 1000000⟩)) ∧
        (Instant.clockEnd ≤ now + millis * 1000000 → r.1 = .clockOverflow ∧
          r.2.ledger now = s.ledger now))) ∧
    (∀ millis, 1 ≤ millis → millis ≤ 18446744073709551615 → Expiry (Numeral.ofNat millis) millis) ∧
    ∀ l : Lock, Expiry (Numeral.ofNat l.expiryMillis) l.expiryMillis := by
  refine ⟨fun s now key script arguments => ?_, fun s s' now now' key key' script arguments why => ?_,
    fun s now key script arguments => s.eval_take now key script arguments,
    fun s now key token text more millis h => s.eval_accepted now key h token more,
    fun millis hpos hle => expiry_ofNat hpos hle, fun l => l.expiry_told⟩
  · simp only [eval_eq_error]
    exact refusal?_iff script arguments
  · rw [eval_eq_error, eval_eq_error]

end Leasehold
