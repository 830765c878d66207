import Leasehold.Proofs.Limiter.Window
import Leasehold.Proofs.Lock.Coverage
import Leasehold.Redis.Client

/-!
# Windows that outrun the clock

A lock tells a store its term in whole milliseconds of at most 64 bits, and a
client tells a server a window likewise. A memory store takes the window of a
limiter as it is, so a window may end where the clock does not reach. Just the
call that would start such a window has no answer; it leaves every record as it
was. A window cut off as others cut it off always ends on the clock.
-/

namespace Leasehold

theorem Outcome.mapError_eq_clockOverflow {ε ε' α : Type} (f : ε → ε') (o : Outcome ε α) :
    o.mapError f = .clockOverflow ↔ o = .clockOverflow := by
  cases o <;> simp [Outcome.mapError]

theorem Ledger.write_eq_clockOverflow {m : Ledger} {now : Instant} {key value : String}
    {ttl : Duration} {α : Type} {answer : α} :
    (m.write now key value ttl answer).1 = .clockOverflow ↔ Instant.clockEnd ≤ now + ttl.nanos := by
  rcases Nat.lt_or_ge (now + ttl.nanos) Instant.clockEnd with hfits | hfar
  · rw [write_of_lt hfits]
    exact iff_of_false nofun (Nat.not_le.mpr hfits)
  · rw [write_of_le hfar]
    exact iff_of_true rfl hfar

theorem Redis.Client.settle_ne_clockOverflow {σ α : Type} (r : Except StoreError α × Session σ) :
    (settle r).1 ≠ .clockOverflow := by
  rcases r with ⟨_ | _, w⟩ <;> exact nofun

namespace Limiter

theorem verdict_eq_clockOverflow {key : String} {o : Outcome StoreError Bool} :
    verdict key o = .clockOverflow ↔ o = .clockOverflow := by
  rcases o with (_ | _) | _ | _ <;> simp [verdict]

/-- The clock ends before a window that starts now. -/
def Outruns (l : Limiter) (now : Instant) : Prop := Instant.clockEnd ≤ now + l.expiry.nanos

theorem nanos_withExpiry (expiry : Duration) :
    (withExpiry expiry).expiry.nanos = if expiry.nanos = 0 then 15000000000 else expiry.nanos := by
  unfold withExpiry
  split_ifs <;> rfl

theorem Outruns.longestTerm_lt {expiry : Duration} {now : Instant}
    (h : (withExpiry expiry).Outruns now) (hroom : now + Lock.longestTerm < Instant.clockEnd) :
    Lock.longestTerm < expiry.nanos := by
  rw [Outruns, nanos_withExpiry] at h
  rw [Lock.longestTerm] at hroom ⊢
  split_ifs at h <;> lia

theorem nanos_clamped_le (d : Duration) : (Duration.ofMillis d.wholeMillis).nanos ≤ Lock.longestTerm := by
  have hlt := d.wholeMillis_lt
  rw [Duration.nanos_ofMillis hlt, Lock.longestTerm]
  lia

section Memory

variable (l : Limiter) (key value : String) (w : Session MemoryStore)

theorem set_limits_overflows :
    (l.set MemoryStore.limits key value w).1 = .clockOverflow ↔
      w.store.live? w.now key = none ∧ l.Outruns w.now := by
  rw [set_limits, Outcome.mapError_eq_clockOverflow]
  rcases (w.store.ledger w.now).setIfAbsent_cases w.now key value l.expiry with
    ⟨hnone, he⟩ | ⟨⟨r, hr⟩, he⟩
  · rw [he, Ledger.write_eq_clockOverflow]
    exact (and_iff_right hnone).symm
  · rw [he]
    exact iff_of_false nofun fun h => Option.some_ne_none r (hr.symm.trans h.1)

theorem refresh_limits_overflows :
    (l.refresh MemoryStore.limits key value w).1 = .clockOverflow ↔
      (∃ r, w.store.live? w.now key = some r ∧ r.value = value) ∧ l.Outruns w.now := by
  rw [refresh_limits, verdict_eq_clockOverflow]
  rcases (w.store.ledger w.now).expireIfEqual_cases w.now key value l.expiry with
    ⟨r, hr, hvalue, he⟩ | ⟨hother, he⟩
  · rw [he, Ledger.write_eq_clockOverflow]
    exact (and_iff_right ⟨r, hr, hvalue⟩).symm
  · rw [he]
    exact iff_of_false nofun fun ⟨⟨r, hr, hvalue⟩, _⟩ => hother r hr hvalue

theorem ledger_of_failed {claim : Claim}
    (h : claim.succeeds MemoryStore.limits l key value w = false) :
    (claim.run w MemoryStore.limits l key value).store.ledger w.now = w.store.ledger w.now := by
  rcases claim.perform_cases l key value (w.store.ledger w.now) w.now with ⟨hok, -, -⟩ | ⟨-, hkept⟩
  · have hsucceeds := (claim.succeeds_iff l key value w).mpr hok
    exact absurd (hsucceeds.symm.trans h) nofun
  · rw [(claim.run_ledger l key value w).2, hkept, MemoryStore.ledger_current]

end Memory

/-- A limiter in memory leaves a call unanswered just when it would start a window that outruns the
clock, and no record changes then. Where the clock has room for the longest term, the window is longer
than that; and none is left unanswered if the window is cut off to what a server is told, or is asked of
a server, nor is an attempt of a lock. -/
theorem unanswered_iff_outruns (expiry : Duration) (key value : String) (w : Session MemoryStore) :
    let l := withExpiry expiry
    let clamped := withExpiry (Duration.ofMillis expiry.wholeMillis)
    let set (l : Limiter) := l.set MemoryStore.limits key value w
    let refresh (l : Limiter) := l.refresh MemoryStore.limits key value w
    ((set l).1 = .clockOverflow ↔ w.store.live? w.now key = none ∧ l.Outruns w.now) ∧
    ((refresh l).1 = .clockOverflow ↔
      (∃ r, w.store.live? w.now key = some r ∧ r.value = value) ∧ l.Outruns w.now) ∧
    ((set l).1 = .clockOverflow → (set l).2.store.ledger w.now = w.store.ledger w.now) ∧
    ((refresh l).1 = .clockOverflow → (refresh l).2.store.ledger w.now = w.store.ledger w.now) ∧
    (w.now + Lock.longestTerm < Instant.clockEnd →
      (l.Outruns w.now → Lock.longestTerm < expiry.nanos) ∧
      (set clamped).1 ≠ .clockOverflow ∧ (refresh clamped).1 ≠ .clockOverflow ∧
      ∀ lock : Lock, (lock.acquire MemoryStore.leases w).1 ≠ .clockOverflow) ∧
    ∀ {σ : Type} (t : Redis.Transport σ) (c : Redis.Client) (w' : Session σ),
      (l.set (c.limits t) key value w').1 ≠ .clockOverflow ∧
        (l.refresh (c.limits t) key value w').1 ≠ .clockOverflow := by
  intro l clamped set refresh
  refine ⟨set_limits_overflows l key value w, refresh_limits_overflows l key value w,
    fun hover => ?_, fun hover => ?_, fun hroom => ?_, fun t c w' => ⟨?_, ?_⟩⟩
  · have hfailed : Claim.set.succeeds MemoryStore.limits l key value w = false :=
      congrArg Outcome.isGranted hover
    exact ledger_of_failed l key value w hfailed
  · have hfailed : Claim.refresh.succeeds MemoryStore.limits l key value w = false :=
      congrArg (fun o => (o.map fun _ => true).isGranted) hover
    exact ledger_of_failed l key value w hfailed
  · have hclamped : ¬ clamped.Outruns w.now := by
      intro houtruns
      exact Nat.not_lt.mpr (nanos_clamped_le expiry) (houtruns.longestTerm_lt hroom)
    refine ⟨fun houtruns => houtruns.longestTerm_lt hroom, ?_, ?_, ?_⟩
    · exact fun hover => hclamped ((set_limits_overflows clamped key value w).mp hover).2
    · exact fun hover => hclamped ((refresh_limits_overflows clamped key value w).mp hover).2
    · intro lock hover
      have hfits := Nat.lt_of_le_of_lt (Nat.add_le_add_left lock.nanos_term_le w.now) hroom
      obtain ⟨held, hheld, -⟩ := lock.acquire_answered hfits
      cases hheld.symm.trans hover
  · rw [set_fst, ne_eq, Outcome.mapError_eq_clockOverflow]
    exact Redis.Client.settle_ne_clockOverflow _
  · rw [Limiter.refresh, expectHeld_fst, ne_eq, verdict_eq_clockOverflow]
    exact Redis.Client.settle_ne_clockOverflow _

/-- At the start of the clock there is room for the longest term; yet a set and a refresh of the longest
window are left unanswered. -/
theorem longest_window_unanswered :
    let l := withExpiry .longest
    let w := Session.start MemoryStore.empty
    let held := (standard.set MemoryStore.limits "door" "a" w).2
    0 + Lock.longestTerm < Instant.clockEnd ∧ held.now = 0 ∧
      (l.set MemoryStore.limits "door" "a" w).1 = .clockOverflow ∧
      (l.refresh MemoryStore.limits "door" "a" held).1 = .clockOverflow := by
  exact ⟨by decide, rfl, rfl, rfl⟩

end Limiter
end Leasehold
