import Leasehold.Proofs.Lock.Contenders
import Leasehold.Proofs.Lock.Schedule
import Leasehold.Proofs.Store.View
import Mathlib.Algebra.Order.Floor.Div

/-!
# Taking over an expired lease

A lock that waits for a key in a memory store is refused for as long as the
record of another owner lives, and granted at its first attempt after that. When
nobody else touches the key, the attempts come one retry interval apart, so the
number of intervals that cover what is left of the record decides whether the
lock is had in time, and when.
-/

namespace Leasehold
namespace Lock

variable {l : Lock}

def shown (w : Session (Watched MemoryStore)) : Ledger := w.store.store.ledger w.now

theorem shown_sleep (w : Session (Watched MemoryStore)) (d : Duration) :
    shown (w.sleep d) = (shown w).current (w.now + d.nanos) :=
  w.store.store.ledger_later w.now (Nat.le_add_right ..)

theorem attempt_leases (count : Nat) {w : Session (Watched MemoryStore)}
    {m : Outcome StoreError Reply × Ledger}
    (hm : (shown w).eval w.now l.key .acquire (l.arguments .acquire) = m) :
    ∃ w', l.attempt MemoryStore.leases.watched count w = (heard m.1, w') ∧ w'.now = w.now ∧
      shown w' = m.2.current w.now ∧ w'.store.visits.length = w.store.visits.length + 1 := by
  obtain ⟨hanswer, hnow, hledger⟩ :=
    MemoryStore.leases_eval .acquire l.key (l.arguments .acquire) w.unwatched
  obtain ⟨hheard, hclock, hstore, hvisits⟩ := l.attempt_watched_eq MemoryStore.leases count w
  -- from here on neither the attempt nor the run of its script is opened
  generalize MemoryStore.leases.eval .acquire l.key (l.arguments .acquire) w.unwatched = r at *
  generalize l.attempt MemoryStore.leases.watched count w = attempted at *
  obtain ⟨answer, w'⟩ := attempted
  dsimp only at hheard hclock hstore hvisits
  rw [hnow, Session.now_unwatched] at hclock
  rw [Session.store_unwatched, Session.now_unwatched, ← shown, hm] at hanswer hledger
  refine ⟨w', ?_, hclock, ?_, ?_⟩
  · rw [hheard, hanswer]
  · rw [shown, hclock, hstore, hledger]
  · rw [hvisits, List.length_append]
    rfl

theorem attempt_of_other {w : Session (Watched MemoryStore)} {record : Record}
    (hrecord : shown w l.key = some record) (hother : record.value ≠ l.token.text) (count : Nat) :
    ∃ w', l.attempt MemoryStore.leases.watched count w = (.ok false, w') ∧ w'.now = w.now ∧
      shown w' = shown w ∧ w'.store.visits.length = w.store.visits.length + 1 := by
  rcases (shown w).lock_acquire_cases w.now l with ⟨_, -, -, he⟩ | ⟨hmine, -⟩
  · obtain ⟨w', hattempt, hnow, hshown, hvisits⟩ := attempt_leases count he
    exact ⟨w', hattempt, hnow, hshown.trans (w.store.store.ledger_current w.now), hvisits⟩
  · exact absurd (hmine record hrecord) hother

theorem attempt_of_free {w : Session (Watched MemoryStore)} (hfree : shown w l.key = none)
    (hfits : w.now + l.term.nanos < Instant.clockEnd) (count : Nat) :
    ∃ w', l.attempt MemoryStore.leases.watched count w = (.ok true, w') ∧ w'.now = w.now ∧
      shown w' l.key = some ⟨l.token.text, w.now + l.term.nanos⟩ ∧
      w'.store.visits.length = w.store.visits.length + 1 := by
  rcases (shown w).lock_acquire_cases w.now l with ⟨record, hrecord, -, -⟩ | ⟨-, he⟩
  · rw [hfree] at hrecord
    cases hrecord
  · rw [Ledger.write_of_lt hfits] at he
    obtain ⟨w', hattempt, hnow, hshown, hvisits⟩ := attempt_leases count he
    have hlives := Nat.lt_add_of_pos_right (n := w.now) l.term_pos
    refine ⟨w', hattempt, hnow, ?_, hvisits⟩
    rw [hshown, Ledger.current_apply]
    simp [hlives]

section Waiting

variable {w : Session (Watched MemoryStore)} {record : Record}

theorem lt_deadline_of_shown (h : shown w l.key = some record) : w.now < record.deadline := by
  rw [shown, MemoryStore.ledger_apply, Option.filter_eq_some_iff] at h
  exact of_decide_eq_true h.2

/-- So many attempts as come before the deadline of another owner's record are refused, and each
is followed by a pause. -/
theorem poll_while_held (hrecord : shown w l.key = some record) (hother : record.value ≠ l.token.text)
    (pauses tried k : Nat) (hpauses : k ≤ pauses)
    (hlive : w.now + k * l.policy.retry.nanos < record.deadline + l.policy.retry.nanos)
    (htime : k * l.policy.retry.nanos ≤ l.policy.wait.nanos) :
    let poll := l.poll MemoryStore.leases.watched w.now (some (w.now + l.policy.wait.nanos))
    ∃ tried' w', poll pauses tried w = poll (pauses - k) tried' w' ∧
      w'.now = w.now + k * l.policy.retry.nanos ∧
      shown w' l.key = (if w'.now < record.deadline then some record else none) ∧
      w'.store.visits.length = w.store.visits.length + k := by
  intro poll
  induction k with
  | zero =>
    have hnow := lt_deadline_of_shown hrecord
    exact ⟨tried, w, rfl, by simp, by rw [hrecord, if_pos hnow], rfl⟩
  | succ k ih =>
    rw [Nat.succ_mul] at hlive htime
    obtain ⟨tried', w', hpoll, hnow, hshown, hvisits⟩ := ih (by lia) (by lia) (by lia)
    have hbefore : w'.now < record.deadline := by lia
    rw [if_pos hbefore] at hshown
    obtain ⟨w'', hattempt, hnow', hshown', hvisits'⟩ :=
      attempt_of_other hshown hother (min (tried' + 1) attemptLimit)
    have hmore : l.hasTime (some (w.now + l.policy.wait.nanos)) w''.now = true :=
      hasTime_of_le (by lia) (by lia)
    obtain ⟨fewer, hfewer⟩ : ∃ fewer, pauses - k = fewer + 1 := ⟨pauses - k - 1, by lia⟩
    refine ⟨min (tried' + 1) attemptLimit, w''.sleep l.policy.retry, ?_, ?_, ?_, ?_⟩
    · have hleft : pauses - (k + 1) = fewer := by lia
      rw [hpoll, hleft, hfewer]
      exact poll_succ_of_refused hattempt hmore
    · rw [Session.now_sleep, Nat.succ_mul]
      lia
    · rw [shown_sleep, Ledger.current_apply, hshown', hshown, Option.filter_some]
      exact if_congr decide_eq_true_iff rfl rfl
    · rw [Session.store_sleep]
      lia

/-- The wait reaches beyond the deadline of the record: the first attempt after it is granted. -/
theorem poll_takes_over (hrecord : shown w l.key = some record) (hother : record.value ≠ l.token.text)
    {turns : Nat} (hcover : record.deadline ≤ w.now + turns * l.policy.retry.nanos)
    (hturns : w.now + turns * l.policy.retry.nanos < record.deadline + l.policy.retry.nanos)
    (htime : turns * l.policy.retry.nanos ≤ l.policy.wait.nanos)
    (hterm : w.now + turns * l.policy.retry.nanos + l.term.nanos < Instant.clockEnd) :
    ∃ w', l.poll MemoryStore.leases.watched w.now (some (w.now + l.policy.wait.nanos))
        (l.policy.wait.nanos / l.policy.retry.nanos) 0 w = (.ok (), w') ∧
      w'.now = w.now + turns * l.policy.retry.nanos ∧
      shown w' l.key = some ⟨l.token.text, w'.now + l.term.nanos⟩ ∧
      w'.store.visits.length = w.store.visits.length + turns + 1 := by
  have hpauses := (Nat.le_div_iff_mul_le l.retry_pos).mpr htime
  obtain ⟨tried, w', hpoll, hnow, hshown, hvisits⟩ :=
    poll_while_held hrecord hother (l.policy.wait.nanos / l.policy.retry.nanos) 0 turns hpauses hturns htime
  rw [hnow, if_neg (Nat.not_lt.mpr hcover)] at hshown
  rw [← hnow] at hterm
  obtain ⟨w'', hattempt, hnow', hshown', hvisits'⟩ :=
    attempt_of_free hshown hterm (min (tried + 1) attemptLimit)
  refine ⟨w'', ?_, hnow'.trans hnow, ?_, ?_⟩
  · rw [hpoll]
    exact poll_of_granted hattempt
  · rw [hnow']
    exact hshown'
  · rw [hvisits', hvisits]

/-- The wait ends before the deadline of the record: all attempts are refused. -/
theorem poll_stays_out (hrecord : shown w l.key = some record) (hother : record.value ≠ l.token.text)
    (hlive : w.now + l.policy.wait.nanos / l.policy.retry.nanos * l.policy.retry.nanos < record.deadline) :
    ∃ attempts waited w', l.poll MemoryStore.leases.watched w.now (some (w.now + l.policy.wait.nanos))
        (l.policy.wait.nanos / l.policy.retry.nanos) 0 w = (.error (.unavailable l.key attempts waited), w') ∧
      w'.now = w.now + l.policy.wait.nanos / l.policy.retry.nanos * l.policy.retry.nanos ∧
      shown w' l.key = some record := by
  have hshort : l.policy.wait.nanos / l.policy.retry.nanos * l.policy.retry.nanos ≤ l.policy.wait.nanos :=
    Nat.div_mul_le_self ..
  obtain ⟨tried, w', hpoll, hnow, hshown, -⟩ :=
    poll_while_held hrecord hother (l.policy.wait.nanos / l.policy.retry.nanos) 0 _ (Nat.le_refl _)
      (by lia) hshort
  rw [Nat.sub_self] at hpoll
  rw [hnow, if_pos hlive] at hshown
  obtain ⟨w'', hattempt, hnow', hshown', -⟩ :=
    attempt_of_other hshown hother (min (tried + 1) attemptLimit)
  have hmore := Nat.lt_div_mul_add (a := l.policy.wait.nanos) l.retry_pos
  have hlate : w.now + l.policy.wait.nanos < w''.now + l.policy.retry.nanos := by lia
  have hend := hpoll.trans (poll_of_refused hattempt (hasTime_eq_false hlate))
  exact ⟨_, _, w'', hend, hnow'.trans hnow, hshown'.symm ▸ hshown⟩

end Waiting

section Cover

variable (l) (left : Nat)

theorem le_ceilDiv_retry : left ≤ left ⌈/⌉ l.policy.retry.nanos * l.policy.retry.nanos := by
  have hmore := Nat.lt_div_mul_add (a := left + l.policy.retry.nanos - 1) l.retry_pos
  rw [← Nat.ceilDiv_eq_add_pred_div] at hmore
  omega

theorem ceilDiv_retry_lt :
    left ⌈/⌉ l.policy.retry.nanos * l.policy.retry.nanos < left + l.policy.retry.nanos := by
  have hretry := l.retry_pos
  have hless := Nat.div_mul_le_self (left + l.policy.retry.nanos - 1) l.policy.retry.nanos
  rw [← Nat.ceilDiv_eq_add_pred_div] at hless
  omega

theorem wait_pauses_lt
    (hshort : l.policy.wait.nanos < left ⌈/⌉ l.policy.retry.nanos * l.policy.retry.nanos) :
    l.policy.wait.nanos / l.policy.retry.nanos * l.policy.retry.nanos < left := by
  have hfew := (Nat.div_lt_iff_lt_mul l.retry_pos).mpr hshort
  have hpauses := Nat.mul_le_mul_right l.policy.retry.nanos (Nat.succ_le_of_lt hfew)
  have hcover := l.ceilDiv_retry_lt left
  rw [Nat.succ_mul] at hpauses
  omega

end Cover

theorem remaining_of_live {s : MemoryStore} {now : Instant}
    (h : s.live? now l.key = some ⟨l.token.text, now + l.term.nanos⟩) :
    (s.remaining now l.key).1 = some l.term := by
  rw [(s.remaining_agrees now l.key).answer]
  change Option.map _ (s.live? now l.key) = _
  rw [h, Option.map_some]
  have hnanos : (Instant.since (now + l.term.nanos) now).nanos = l.term.nanos := by
    rw [Instant.since, Nat.add_sub_cancel_left, Duration.nanos_ofNanos l.term.nanos_lt]
  exact congrArg some (Duration.ext hnanos)

/-- How a lock waits for a key that another owner holds in a memory store, when nobody else acts.
It has the key if and only if the pauses that cover what is left of the record fit into the wait;
then it takes the key over after just these pauses, else it leaves the record alone. -/
theorem acquireWithin_takeover {w : Session MemoryStore} {value : String} {deadline : Instant}
    (hheld : w.store.live? w.now l.key = some ⟨value, deadline⟩) (hother : value ≠ l.token.text)
    (hclock : w.now + l.policy.wait.nanos < Instant.clockEnd)
    (hterm : (deadline - w.now) ⌈/⌉ l.policy.retry.nanos * l.policy.retry.nanos ≤ l.policy.wait.nanos →
      w.now + (deadline - w.now) ⌈/⌉ l.policy.retry.nanos * l.policy.retry.nanos + l.term.nanos <
        Instant.clockEnd) :
    let wait := l.policy.wait.nanos
    let retry := l.policy.retry.nanos
    let turns := (deadline - w.now) ⌈/⌉ retry
    let r := l.acquireWithin MemoryStore.leases.watched (w.watched [])
    (r.1, r.2.unwatched) = l.acquireWithin MemoryStore.leases w ∧
    (r.1 = .ok () ↔ turns * retry ≤ wait) ∧
    (r.1 = .ok () →
      r.2.now = w.now + turns * retry ∧ r.2.store.visits.length = turns + 1 ∧
      r.2.store.store.live? r.2.now l.key = some ⟨l.token.text, r.2.now + l.term.nanos⟩ ∧
      (r.2.store.store.remaining r.2.now l.key).1 = some l.term ∧
      deadline ≤ r.2.now ∧ r.2.now < deadline + retry) ∧
    (r.1 ≠ .ok () →
      (∃ attempts waited, r.1 = .error (.unavailable l.key attempts waited)) ∧
      r.2.now = w.now + wait / retry * retry ∧
      r.2.store.store.live? r.2.now l.key = some ⟨value, deadline⟩) := by
  intro wait retry turns r
  refine ⟨acquireWithin_watched MemoryStore.leases w [], ?_⟩
  have hr : r = l.poll MemoryStore.leases.watched w.now (some (w.now + wait)) (wait / retry) 0
      (w.watched []) := by
    have hpauses : l.pauses w.now (some (w.now + wait)) = wait / retry := pauses_of_deadline
    rw [← hpauses, ← Instant.after?_eq_some.mpr ⟨hclock, rfl⟩]
    rfl
  have hrecord : shown (w.watched []) l.key = some ⟨value, deadline⟩ := hheld
  have hlive : w.now < deadline := lt_deadline_of_shown hrecord
  have hcover : deadline ≤ w.now + turns * retry := by
    have hleft := l.le_ceilDiv_retry (deadline - w.now)
    lia
  have hturns : w.now + turns * retry < deadline + retry := by
    have hleft := l.ceilDiv_retry_lt (deadline - w.now)
    lia
  rcases Nat.lt_or_ge wait (turns * retry) with hlate | htime
  · have hstay : w.now + wait / retry * retry < deadline := by
      have hleft := l.wait_pauses_lt (deadline - w.now) hlate
      lia
    obtain ⟨attempts, waited, w', hpoll, hnow, hshown⟩ := poll_stays_out hrecord hother hstay
    rw [hr.trans hpoll]
    refine ⟨⟨?_, ?_⟩, ?_, fun _ => ⟨⟨attempts, waited, rfl⟩, hnow, hshown⟩⟩
    · rintro ⟨⟩
    · intro htime
      exact absurd htime (Nat.not_le.mpr hlate)
    · rintro ⟨⟩
  · obtain ⟨w', hpoll, hnow, hshown, hvisits⟩ :=
      poll_takes_over hrecord hother hcover hturns htime (hterm htime)
    rw [Session.now_watched] at hnow
    rw [Session.store_watched, List.length_nil, Nat.zero_add] at hvisits
    rw [hr.trans hpoll]
    refine ⟨iff_of_true rfl htime, ?_, fun hfailed => absurd rfl hfailed⟩
    intro _
    refine ⟨hnow, hvisits, hshown, remaining_of_live hshown, ?_, ?_⟩
    · rw [hnow]
      exact hcover
    · rw [hnow]
      exact hturns

/-- A record that expires just when an attempt is due is taken over by this attempt. -/
theorem acquireWithin_takeover_at_expiry :
    let w := Session.start (MemoryStore.empty.insert "gate" ⟨"other", 200000000⟩)
    let r := patient.acquireWithin MemoryStore.leases.watched (w.watched [])
    w.store.live? w.now patient.key = some ⟨"other", 200000000⟩ ∧ "other" ≠ patient.token.text ∧
      r.1 = .ok () ∧ r.2.now = 200000000 ∧ r.2.store.visits.length = 3 := by
  intro w r
  have hheld : w.store.live? w.now patient.key = some ⟨"other", 200000000⟩ := by decide
  have hother : "other" ≠ patient.token.text := by decide
  obtain ⟨-, hiff, hgranted, -⟩ := acquireWithin_takeover hheld hother (by decide) (by decide)
  have hok : r.1 = .ok () := hiff.mpr (by decide)
  obtain ⟨hnow, hvisits, -⟩ := hgranted hok
  exact ⟨hheld, hother, hok, hnow.trans (by decide), hvisits.trans (by decide)⟩

end Lock
end Leasehold
