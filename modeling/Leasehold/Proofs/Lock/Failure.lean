import Leasehold.Proofs.Limiter.Window
import Leasehold.Proofs.Lock.Schedule
import Leasehold.Proofs.Store.Transcript

/-!
# Failures leave no trace

Whoever asks a memory store for something and does not get it has at most
spent time. The failed call may have dropped a record that was over, and it may
have found out about a bad argument or the end of the clock only after that;
neither shows, for the store tells of every key at every later instant what it
would have told without the call. A lock that waits in vain makes many such
calls, and the pauses between them are all that is left of it.
-/

namespace Leasehold

/-- What can be asked of a memory store, directly or through a lock, a guard or a limiter. -/
inductive Errand where
  | access (a : Access)
  | acquire (l : Lock)
  | acquireWithin (l : Lock)
  | acquireGuard (l : Lock)
  | release (l : Lock)
  | releaseStrict (l : Lock)
  | releaseGuard (g : Guard)
  | set (l : Limiter) (key value : String)
  | delete (key value : String)
  | refresh (l : Limiter) (key value : String)

inductive Errand.Verdict where
  | answer (o : Outcome StoreError Answer)
  | flag (o : Outcome LockError Bool)
  | done (o : Outcome LockError Unit)
  | guarded (o : Outcome LockError Guard)

/-- The errand was refused, or failed, or asked for an instant past the end of the clock. -/
def Errand.Verdict.isFailure : Errand.Verdict → Bool
  | answer (.ok (.reply r)) => r = .nil || r = .int 0
  | answer (.ok (.flag b)) => !b
  | answer (.ok _) => false
  | answer _ => true
  | flag (.ok b) => !b
  | flag _ => true
  | done (.ok _) => false
  | done _ => true
  | guarded (.ok _) => false
  | guarded _ => true

namespace Errand

def tell {α : Type} (f : α → Verdict) (r : α × Session MemoryStore) :
    Verdict × Session MemoryStore := (f r.1, r.2)

-- Rewriting by these, and not by computation, keeps the calls behind an errand from being run.
@[simp] theorem tell_fst {α : Type} (f : α → Verdict) (r : α × Session MemoryStore) :
    (tell f r).1 = f r.1 := rfl

@[simp] theorem tell_snd {α : Type} (f : α → Verdict) (r : α × Session MemoryStore) :
    (tell f r).2 = r.2 := rfl

def run (w : Session MemoryStore) : Errand → Verdict × Session MemoryStore
  | access a =>
    let r := a.run w.now w.store
    (.answer r.1, { w with now := r.2.1, store := r.2.2 })
  | acquire l => tell .flag (l.acquire MemoryStore.leases w)
  | acquireWithin l => tell .done (l.acquireWithin MemoryStore.leases w)
  | acquireGuard l => tell .guarded (l.acquireGuard MemoryStore.leases w)
  | release l => tell .flag (l.release MemoryStore.leases w)
  | releaseStrict l => tell .done (l.releaseStrict MemoryStore.leases w)
  | releaseGuard g => tell .done (g.release MemoryStore.leases w)
  | set l key value => tell .flag (l.set MemoryStore.limits key value w)
  | delete key value => tell .done (Limiter.delete MemoryStore.limits key value w)
  | refresh l key value => tell .done (l.refresh MemoryStore.limits key value w)

def pause : Errand → Nat
  | acquireWithin l => l.policy.retry.nanos
  | acquireGuard l => l.policy.retry.nanos
  | _ => 0

end Errand

/-- Between the two sessions nothing has happened but some pauses. -/
structure Session.Idled (pause : Nat) (w w' : Session MemoryStore) : Prop where
  clock : ∃ pauses, w'.now = w.now + pauses * pause
  shows : w'.store.ledger w'.now = w.store.ledger w'.now

namespace Session

variable {pause : Nat} {w w' w'' : Session MemoryStore}

theorem Idled.le (h : Idled pause w w') : w.now ≤ w'.now := by
  obtain ⟨pauses, hclock⟩ := h.clock
  rw [hclock]
  exact Nat.le_add_right ..

theorem Idled.later (h : Idled pause w w') {later : Instant} (hlater : w'.now ≤ later) :
    w'.store.ledger later = w.store.ledger later := by
  rw [w'.store.ledger_later w'.now hlater, h.shows, ← w.store.ledger_later w'.now hlater]

theorem Idled.trans (h : Idled pause w w') (h' : Idled pause w' w'') : Idled pause w w'' := by
  obtain ⟨pauses, hclock⟩ := h.clock
  obtain ⟨pauses', hclock'⟩ := h'.clock
  constructor
  · refine ⟨pauses + pauses', ?_⟩
    rw [hclock', hclock, Nat.add_mul, Nat.add_assoc]
  · rw [h'.shows, h.later h'.le]

theorem idled_refl (w : Session MemoryStore) : Idled pause w w := ⟨⟨0, by simp⟩, rfl⟩

theorem idled_sleep (w : Session MemoryStore) (d : Duration) : Idled d.nanos w (w.sleep d) :=
  ⟨⟨1, by rw [Nat.one_mul, now_sleep]⟩, rfl⟩

theorem idled_of_ledger (hnow : w'.now = w.now)
    (hledger : w'.store.ledger w.now = (w.store.ledger w.now).current w.now) : Idled pause w w' := by
  rw [MemoryStore.ledger_current] at hledger
  refine ⟨⟨0, by simp [hnow]⟩, ?_⟩
  rw [hnow, hledger]

theorem Idled.congr (h : Idled pause w w') (hstate : w''.state = w'.state) : Idled pause w w'' := by
  obtain ⟨hnow, hstore⟩ := Prod.mk.inj hstate
  exact ⟨hnow ▸ h.clock, by rw [hnow, hstore, h.shows]⟩

end Session

open Session

theorem Ledger.lock_eval_of_failed {m : Ledger} {now : Instant} {l : Lock} {s : LockScript}
    (h : (m.eval now l.key s (l.arguments s)).1.map s.succeeded ≠ .ok true) :
    (m.eval now l.key s (l.arguments s)).2 = m := by
  cases s with
  | acquire =>
    rcases m.lock_acquire_ends now l with ⟨hgranted, -⟩ | ⟨-, hkept⟩
    · exact absurd hgranted h
    · exact hkept
  | release =>
    rcases m.release_cases now l.key l.token.text with ⟨r, -, -, he⟩ | ⟨-, he⟩
    · rw [Lock.arguments, he] at h
      exact absurd rfl h
    · exact congrArg Prod.snd he

namespace Lock

variable {l : Lock} {w : Session MemoryStore} (pause : Nat)

theorem perform_idled {s : LockScript} (h : (l.perform MemoryStore.leases w s).1 ≠ .ok true) :
    Idled pause w (l.perform MemoryStore.leases w s).2 := by
  obtain ⟨hverdict, hnow, hledger⟩ := l.perform_leases w s
  refine idled_of_ledger hnow ?_
  rw [hledger, Ledger.lock_eval_of_failed]
  intro hok
  apply h
  rw [hverdict, hok]
  rfl

theorem acquire_idled (h : (l.acquire MemoryStore.leases w).1 ≠ .ok true) :
    Idled pause w (l.acquire MemoryStore.leases w).2 :=
  perform_idled pause (s := .acquire) h

theorem release_idled (h : (l.release MemoryStore.leases w).1 ≠ .ok true) :
    Idled pause w (l.release MemoryStore.leases w).2 :=
  perform_idled pause (s := .release) h

theorem releaseStrict_idled (h : (l.releaseStrict MemoryStore.leases w).1 ≠ .ok ()) :
    Idled pause w (l.releaseStrict MemoryStore.leases w).2 := by
  rw [releaseStrict_eq] at h ⊢
  refine release_idled pause fun hok => h ?_
  rw [hok]

theorem attempt_idled (count : Nat) (h : (l.attempt MemoryStore.leases count w).1 ≠ .ok true) :
    Idled pause w (l.attempt MemoryStore.leases count w).2 := by
  rw [Ne, attempt_eq_ok_true] at h
  refine (acquire_idled pause h).congr ?_
  rw [attempt_state, acquire_state]

theorem refused_idled {count : Nat} {w' : Session MemoryStore}
    (h : l.attempt MemoryStore.leases count w = (.ok false, w')) :
    Idled l.policy.retry.nanos w (w'.sleep l.policy.retry) := by
  have hattempt : Idled l.policy.retry.nanos w (l.attempt MemoryStore.leases count w).2 := by
    apply attempt_idled
    simp [h]
  rw [h] at hattempt
  exact hattempt.trans (idled_sleep w' l.policy.retry)

theorem acquireWithin_idled (h : (l.acquireWithin MemoryStore.leases w).1 ≠ .ok ()) :
    Idled l.policy.retry.nanos w (l.acquireWithin MemoryStore.leases w).2 := by
  obtain ⟨count, w', answer, hw', hattempt, hverdict⟩ :=
    acquireWithin_last (P := Idled l.policy.retry.nanos w) (idled_refl w)
      fun _ _ _ hbefore hrefused => hbefore.trans (refused_idled hrefused)
  have hlast : Idled l.policy.retry.nanos w' (l.attempt MemoryStore.leases count w').2 := by
    apply attempt_idled
    rw [hattempt]
    exact fun hgranted => h (hverdict.mpr hgranted)
  rw [hattempt] at hlast
  exact hw'.trans hlast

end Lock

theorem Claim.run_idled (claim : Claim) {l : Limiter} {key value : String} {w : Session MemoryStore}
    (h : claim.succeeds MemoryStore.limits l key value w = false) :
    Idled 0 w (claim.run w MemoryStore.limits l key value) := by
  obtain ⟨hnow, hledger⟩ := claim.run_ledger l key value w
  refine idled_of_ledger hnow ?_
  rcases claim.perform_cases l key value (w.store.ledger w.now) w.now with ⟨hok, -⟩ | ⟨-, hm⟩
  · rw [(claim.succeeds_iff l key value w).mpr hok] at h
    cases h
  · rw [hledger, hm]

theorem Outcome.isGranted_of_ne {ε : Type} {o : Outcome ε Unit} (h : o ≠ .ok ()) :
    (o.map fun _ => true).isGranted = false := by
  rcases o with _ | _ | _
  · exact absurd rfl h
  · rfl
  · rfl

theorem affirms_of_isFailure {answer : Answer}
    (h : (Errand.Verdict.answer (.ok answer)).isFailure = true) : answer.affirms = false := by
  cases answer with
  | reply r =>
    cases r with
    | nil => rfl
    | status text => simp [Errand.Verdict.isFailure] at h
    | int n =>
      simp only [Errand.Verdict.isFailure, reduceCtorEq, decide_false, Bool.false_or,
        decide_eq_true_eq] at h
      rw [h]
      rfl
  | flag b => simpa [Errand.Verdict.isFailure, Answer.affirms] using h
  | _ => rfl

theorem Access.run_idled {a : Access} {w : Session MemoryStore}
    (h : (Errand.Verdict.answer (a.run w.now w.store).1).isFailure = true) :
    Idled 0 w { w with now := (a.run w.now w.store).2.1, store := (a.run w.now w.store).2.2 } := by
  obtain ⟨hanswer, hclock, hshows⟩ := a.run_ledger w.now w.store
  have hnow : (a.run w.now w.store).2.1 = w.now := by
    cases a with
    | advance d => cases h
    | _ => rfl
  refine idled_of_ledger hnow ?_
  rw [hnow] at hclock hshows
  have hm : ((w.store.ledger w.now).perform w.now a).2.2 = w.store.ledger w.now := by
    apply Ledger.perform_of_denied
    intro answer hok
    rw [hanswer.trans hok] at h
    exact affirms_of_isFailure h
  have hpass : ((w.store.ledger w.now).perform w.now a).2.1 = w.now := hclock.symm
  rw [hshows]
  simp only [Ledger.run, hm, hpass]

namespace Errand

variable {w : Session MemoryStore}

theorem isFailure_flag {o : Outcome LockError Bool} (h : (Verdict.flag o).isFailure = true) :
    o ≠ .ok true := by
  rintro rfl
  cases h

theorem isFailure_done {o : Outcome LockError Unit} (h : (Verdict.done o).isFailure = true) :
    o ≠ .ok () := by
  rintro rfl
  cases h

theorem run_idled (errand : Errand) (h : (errand.run w).1.isFailure = true) :
    Idled errand.pause w (errand.run w).2 := by
  cases errand with
  | access a => exact Access.run_idled h
  | acquire l =>
    rw [run, tell_fst] at h
    rw [run, tell_snd]
    exact Lock.acquire_idled 0 (isFailure_flag h)
  | acquireWithin l =>
    rw [run, tell_fst] at h
    rw [run, tell_snd]
    exact Lock.acquireWithin_idled (isFailure_done h)
  | acquireGuard l =>
    rw [run, tell_fst] at h
    rw [run, tell_snd]
    refine Lock.acquireWithin_idled fun hok => ?_
    rw [Lock.acquireGuard, hok] at h
    cases h
  | release l =>
    rw [run, tell_fst] at h
    rw [run, tell_snd]
    exact Lock.release_idled 0 (isFailure_flag h)
  | releaseStrict l =>
    rw [run, tell_fst] at h
    rw [run, tell_snd]
    exact Lock.releaseStrict_idled 0 (isFailure_done h)
  | releaseGuard g =>
    rw [run, tell_fst, Guard.release_eq] at h
    rw [run, tell_snd, Guard.release_eq]
    exact Lock.releaseStrict_idled 0 (isFailure_done h)
  | set l key value =>
    rw [run, tell_fst] at h
    rw [run, tell_snd]
    refine Claim.run_idled .set ?_
    exact Bool.eq_false_iff.mpr (mt Outcome.isGranted_iff.mp (isFailure_flag h))
  | delete key value =>
    rw [run, tell_fst] at h
    rw [run, tell_snd]
    refine Claim.run_idled .delete (l := .standard) ?_
    exact Outcome.isGranted_of_ne (isFailure_done h)
  | refresh l key value =>
    rw [run, tell_fst] at h
    rw [run, tell_snd]
    refine Claim.run_idled .refresh ?_
    exact Outcome.isGranted_of_ne (isFailure_done h)

/-- A failure leaves no trace. Whatever was asked of a memory store, if it was refused, if it failed
or if it asked for an instant past the end of the clock, only the pauses that were made have passed:
of every key the store tells the same value and the same time from then on as it would have told
without the errand. -/
theorem failure_without_trace (errand : Errand) (w : Session MemoryStore)
    (h : (errand.run w).1.isFailure = true) :
    let w' := (errand.run w).2
    (∃ pauses, w'.now = w.now + pauses * errand.pause) ∧
      ∀ (key : String) (later : Instant), w'.now ≤ later →
        (w'.store.get later key).1 = (w.store.get later key).1 ∧
          (w'.store.remaining later key).1 = (w.store.remaining later key).1 := by
  intro w'
  have hidled : Idled errand.pause w w' := run_idled errand h
  refine ⟨hidled.clock, ?_⟩
  intro key later hlater
  have hshows := congrFun (hidled.later hlater) key
  constructor
  · rw [MemoryStore.get_fst, MemoryStore.get_fst, hshows]
  · rw [MemoryStore.remaining_fst, MemoryStore.remaining_fst, hshows]

/-- A lock waits in vain for a key that another owner holds for too long. -/
theorem failure_without_trace_waiting :
    let w := Session.start (MemoryStore.empty.insert "gate" ⟨"other", 900000000⟩)
    let w' := ((acquireWithin Lock.patient).run w).2
    ((acquireWithin Lock.patient).run w).1.isFailure = true ∧
      (∃ pauses, w'.now = w.now + pauses * Lock.patient.policy.retry.nanos) ∧
      ∀ (key : String) (later : Instant), w'.now ≤ later →
        (w'.store.get later key).1 = (w.store.get later key).1 ∧
          (w'.store.remaining later key).1 = (w.store.remaining later key).1 := by
  intro w w'
  have hfailure : ((acquireWithin Lock.patient).run w).1.isFailure = true := by decide +kernel
  exact ⟨hfailure, failure_without_trace (acquireWithin Lock.patient) w hfailure⟩

end Errand
end Leasehold
