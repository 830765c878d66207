import Leasehold.Lock
import Leasehold.Proofs.Text.Lossy
import Leasehold.Redis.Client

/-!
# Which values say yes

A server's value is read as the reply of a script, and only the status `OK`
says that a lock was had. There are three ways to send it: the value of its
own, the status word, and two bytes. No other bytes come to it, because bytes
that are no text leave a replacement character behind.
-/

namespace Leasehold

/-- The values that stand for the status `OK`. -/
def Redis.Value.SaysOk (v : Redis.Value) : Prop :=
  v = .okay ∨ v = .status "OK" ∨ v = .data [0x4F, 0x4B]

theorem Utf8.encode_ok : encode "OK" = [0x4F, 0x4B] := by
  rw [encode_eq]
  decide

theorem Utf8.decodeLossy_eq_ok {bytes : List UInt8} : decodeLossy bytes = "OK" ↔ bytes = [0x4F, 0x4B] := by
  rw [decodeLossy_eq_iff (by decide), encode_ok]

namespace Reply

theorem ofValue_eq_ok {v : Redis.Value} : ofValue v = .ok (.status "OK") ↔ v.SaysOk := by
  unfold Redis.Value.SaysOk
  cases v <;> simp [ofValue, Utf8.decodeLossy_eq_ok]

theorem ofValue_eq_error {v : Redis.Value} {why : StoreError} :
    ofValue v = .error why ↔ (∃ items, v = .bulk items) ∧ why = .unexpectedReply v.describe := by
  cases v <;> simp [ofValue, eq_comm]

end Reply

theorem Outcome.ofExcept_eq_ok {ε α : Type} {r : Except ε α} {a : α} : ofExcept r = .ok a ↔ r = .ok a := by
  cases r <;> simp [ofExcept]

section Attempt

variable {σ : Type} (l : Lock) (w : Session σ)

theorem Lock.acquire_eq_ok (store : LeaseStore σ) :
    (l.acquire store w).1 = .ok true ↔
      (store.eval .acquire l.key [l.token.text, Numeral.ofNat l.expiryMillis] w).1 = .ok (.status "OK") := by
  unfold acquire
  split <;> rename_i heq <;> simp [heq, Reply.isOk_iff]

theorem Redis.Client.eval_eq_ok (t : Transport σ) (c : Client) (script : LockScript) (key : String)
    (arguments : List String) (reply : Reply) :
    ((c.leases t).eval script key arguments w).1 = .ok reply ↔
      ∃ v, (c.invoke t w script key arguments).1 = .ok v ∧ Reply.ofValue v = .ok reply := by
  change Outcome.ofExcept ((c.invoke t w script key arguments).1.bind Reply.ofValue) = _ ↔ _
  rw [Outcome.ofExcept_eq_ok]
  cases (c.invoke t w script key arguments).1 <;> simp [Except.bind]

end Attempt

/-- Only the exact answer counts as a lock. Whatever a server answers, it is read as the status `OK`
just when it is one of three values, and not read at all just when it is a row; the reader replaces
each bad part of bytes and does nothing else; and a lock is had from a server just when the server
answers such a value. -/
theorem Reply.only_ok_acquires :
    (∀ v, (∃ reply, ofValue v = .ok reply ∧ reply.isOk = true) ↔
      v = .okay ∨ v = .status "OK" ∨ v = .data [0x4F, 0x4B]) ∧
    (∀ v, (∃ why, ofValue v = .error why) ↔ ∃ items, v = .bulk items) ∧
    (∀ bytes text, Utf8.decodeLossy bytes = text ↔ Utf8.Patched bytes text.toList) ∧
    (∀ text, Utf8.decodeLossy (Utf8.encode text) = text) ∧
    (∀ bytes, (∀ text, bytes ≠ Utf8.encode text) →
      Utf8.replacement ∈ (Utf8.decodeLossy bytes).toList ∧
        ∀ reply, ofValue (.data bytes) = .ok reply → reply.isOk = false) ∧
    ∀ {σ : Type} (t : Redis.Transport σ) (c : Redis.Client) (l : Lock) (w : Session σ),
      (l.acquire (c.leases t) w).1 = .ok true ↔
        ∃ v, (c.invoke t w .acquire l.key [l.token.text, Numeral.ofNat l.expiryMillis]).1 = .ok v ∧
          v.SaysOk := by
  refine ⟨fun v => ?_, fun v => ?_, fun bytes text => Utf8.decodeLossy_eq_iff_patched,
    Utf8.decodeLossy_encode, fun bytes hbytes => ?_, fun t c l w => ?_⟩
  · rw [← Redis.Value.SaysOk, ← ofValue_eq_ok]
    simp [isOk_iff]
  · simp [ofValue_eq_error]
  · refine ⟨Utf8.replacement_mem_decodeLossy hbytes, fun reply hreply => ?_⟩
    by_contra hok
    rw [Bool.not_eq_false, isOk_iff] at hok
    rw [hok, ofValue_eq_ok] at hreply
    have hdata : bytes = [0x4F, 0x4B] := by simpa [Redis.Value.SaysOk] using hreply
    exact hbytes "OK" (hdata.trans Utf8.encode_ok.symm)
  · rw [l.acquire_eq_ok, Redis.Client.eval_eq_ok]
    simp only [ofValue_eq_ok]

end Leasehold
