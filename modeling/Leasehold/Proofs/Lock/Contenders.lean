import Leasehold.Proofs.Lock.Calls
import Leasehold.Proofs.Store.Frame
import Leasehold.Proofs.Text.Numeral

/-!
# Contenders

Locks that compete for keys are told apart by their tokens and by nothing
else. What a lock does to a ledger is a choice between two cases: another
token is on its key, and nothing happens; or none is, and the lock writes its
own with a new deadline.
-/

namespace Leasehold

namespace Lock

variable (l : Lock)

def term : Duration := Duration.ofMillis l.expiryMillis

theorem nanos_term : l.term.nanos = l.expiryMillis * 1000000 :=
  Duration.nanos_ofMillis l.policy.expiry.wholeMillis_lt

theorem term_pos : 0 < l.term.nanos := by
  have h : 0 < l.expiryMillis := l.policy.expiry.wholeMillis_pos
  rw [l.nanos_term]
  omega

variable (w : Session MemoryStore)

theorem perform_leases (s : LockScript) :
    let r := l.perform MemoryStore.leases w s
    let m := (w.store.ledger w.now).eval w.now l.key s (l.arguments s)
    r.1 = (m.1.map s.succeeded).mapError .transport ∧ r.2.now = w.now ∧
      r.2.store.ledger w.now = m.2.current w.now := by
  obtain ⟨hanswer, hnow, hledger⟩ := MemoryStore.leases_eval s l.key (l.arguments s) w
  obtain ⟨hverdict, hstate⟩ := l.perform_eq MemoryStore.leases w s
  obtain ⟨hclock, hstore⟩ := Prod.mk.inj hstate
  exact ⟨by rw [hverdict, hanswer], hclock.trans hnow, by rw [hstore, hledger]⟩

theorem acquire_leases :
    let r := l.acquire MemoryStore.leases w
    let m := (w.store.ledger w.now).eval w.now l.key .acquire
      [l.token.text, Numeral.ofNat l.expiryMillis]
    r.1 = (m.1.map Reply.isOk).mapError .transport ∧ r.2.now = w.now ∧
      r.2.store.ledger w.now = m.2.current w.now :=
  l.perform_leases w .acquire

theorem release_leases :
    let r := l.release MemoryStore.leases w
    let m := (w.store.ledger w.now).eval w.now l.key .release [l.token.text]
    r.1 = (m.1.map fun reply => decide (reply = .int 1)).mapError .transport ∧ r.2.now = w.now ∧
      r.2.store.ledger w.now = m.2.current w.now :=
  l.perform_leases w .release

end Lock

namespace Ledger

variable (m : Ledger) (now : Instant) (l : Lock)

theorem lock_acquire_cases :
    (∃ r, m l.key = some r ∧ r.value ≠ l.token.text ∧
      m.eval now l.key .acquire [l.token.text, Numeral.ofNat l.expiryMillis] = (.ok .nil, m)) ∨
    ((∀ r, m l.key = some r → r.value = l.token.text) ∧
      m.eval now l.key .acquire [l.token.text, Numeral.ofNat l.expiryMillis] =
        m.write now l.key l.token.text l.term (.status "OK")) :=
  m.acquire_cases now l.key l.token.text l.policy.expiry.wholeMillis_pos
    l.policy.expiry.wholeMillis_lt

/-- An attempt is granted and writes the lock's record for a term, or it is not granted and changes
nothing. -/
theorem lock_acquire_ends :
    let e := m.eval now l.key .acquire [l.token.text, Numeral.ofNat l.expiryMillis]
    (e.1.map Reply.isOk = .ok true ∧
      e.2 = Function.update m l.key (some ⟨l.token.text, now + l.term.nanos⟩)) ∨
    (e.1.map Reply.isOk ≠ .ok true ∧ e.2 = m) := by
  intro e
  rcases m.lock_acquire_cases now l with ⟨r, -, -, he⟩ | ⟨-, he⟩
  · have he : e = (.ok .nil, m) := he
    rw [he]
    exact Or.inr ⟨by simp [Reply.isOk], rfl⟩
  · have he : e = m.write now l.key l.token.text l.term (.status "OK") := he
    rw [he]
    rcases Nat.lt_or_ge (now + l.term.nanos) Instant.clockEnd with hfits | hfits
    · rw [write_of_lt hfits]
      exact Or.inl ⟨rfl, rfl⟩
    · rw [write_of_le hfits]
      exact Or.inr ⟨by simp, rfl⟩

variable {m now l}

theorem record_of_acquire {reply : Reply}
    (h : (m.eval now l.key .acquire [l.token.text, Numeral.ofNat l.expiryMillis]).1 = .ok reply)
    (hok : reply.isOk = true) :
    (m.eval now l.key .acquire [l.token.text, Numeral.ofNat l.expiryMillis]).2 l.key =
      some ⟨l.token.text, now + l.term.nanos⟩ := by
  rcases m.lock_acquire_ends now l with ⟨-, hwritten⟩ | ⟨hrefused, -⟩
  · rw [hwritten, Function.update_self]
  · rw [h, Outcome.map_ok, hok] at hrefused
    exact absurd rfl hrefused

theorem lasts_of_acquire {reply : Reply}
    (h : (m.eval now l.key .acquire [l.token.text, Numeral.ofNat l.expiryMillis]).1 = .ok reply)
    (hok : reply.isOk = true) :
    (m.eval now l.key .acquire [l.token.text, Numeral.ofNat l.expiryMillis]).2.Lasts l.key
      l.token.text (now + l.term.nanos) :=
  ⟨_, record_of_acquire h hok, rfl, Nat.le_refl _⟩

theorem Lasts.acquire {deadline : Instant} (h : m.Lasts l.key l.token.text deadline)
    (hdeadline : deadline ≤ now + l.term.nanos) :
    (m.eval now l.key .acquire [l.token.text, Numeral.ofNat l.expiryMillis]).2.Lasts l.key
      l.token.text deadline := by
  rcases m.lock_acquire_ends now l with ⟨-, hwritten⟩ | ⟨-, hkept⟩
  · rw [hwritten]
    exact ⟨_, Function.update_self .., rfl, hdeadline⟩
  · rw [hkept]
    exact h

end Ledger

/-- Locks with any keys and any policies, and with tokens that differ. -/
structure Contenders (ι : Type) where
  key : ι → String
  token : ι → Token
  policy : ι → Policy
  key_ne_empty : ∀ i, key i ≠ ""
  eq_of_token_eq : ∀ i j, (token i).text = (token j).text → i = j

namespace Contenders

variable {ι : Type} (c : Contenders ι) (i : ι)

def lock : Lock where
  key := c.key i
  token := c.token i
  policy := (c.policy i).normalized
  key_ne_empty := c.key_ne_empty i
  lease_pos := (c.policy i).lease_normalized_pos
  retry_pos := (c.policy i).retry_normalized_pos

theorem make_eq : Lock.make (c.key i) (c.token i) (c.policy i) = .ok (c.lock i) :=
  dif_neg (c.key_ne_empty i)

theorem token_ne {i j : ι} (h : i ≠ j) : (c.token i).text ≠ (c.token j).text :=
  fun he => h (c.eq_of_token_eq i j he)

def pair : Contenders Bool where
  key _ := "door"
  token i := Token.ofNumber i.toNat
  policy _ := .standard
  key_ne_empty _ := by decide
  eq_of_token_eq := by
    intro i j h
    have hletters : Token.letters 16 i.toNat = Token.letters 16 j.toNat := String.ofList_inj.mp h
    revert hletters
    cases i <;> cases j <;> decide

end Contenders
end Leasehold
