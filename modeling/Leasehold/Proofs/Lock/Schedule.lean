import Leasehold.Proofs.Lock.Watch

/-!
# The schedule of a lock that waits

A lock that waits makes attempts, and between two attempts it pauses for
exactly one retry interval. Which attempts there are is decided by the answers
and by the clock at the end of each. The schedule is read off the visits that a
watched store has had, by one induction on the pauses that are left; the bounds
on the number of attempts and on the time they take follow from the schedule
alone.
-/

namespace Leasehold

namespace Lock

variable {σ : Type} (store : LeaseStore σ) (l : Lock)

/-- Attempts from an instant on, the last of them apart. The others are refused, and each ends
while there is time for a pause. -/
inductive Schedule (inTime : Instant → Prop) : Instant → List Visit → Visit → Prop
  | last {start : Instant} {v : Visit} (attempt : l.Visits store .acquire v) (sent : v.sent = start) :
      Schedule inTime start [] v
  | again {start : Instant} {v last : Visit} {earlier : List Visit}
      (attempt : l.Visits store .acquire v) (sent : v.sent = start) (refused : v.Refused)
      (time : inTime v.answered)
      (rest : Schedule inTime (v.answered + l.policy.retry.nanos) earlier last) :
      Schedule inTime start (v :: earlier) last

namespace Schedule

variable {store l} {inTime : Instant → Prop} {start : Instant} {earlier : List Visit} {last : Visit}

theorem mono {inTime' : Instant → Prop} (himp : ∀ now, inTime now → inTime' now)
    (h : l.Schedule store inTime start earlier last) : l.Schedule store inTime' start earlier last := by
  induction h with
  | last attempt sent => exact .last attempt sent
  | again attempt sent refused time _ ih => exact .again attempt sent refused (himp _ time) ih

theorem attempts (h : l.Schedule store inTime start earlier last) :
    ∀ v ∈ earlier ++ [last], l.Visits store .acquire v := by
  induction h with
  | last attempt sent => simpa using attempt
  | again attempt sent refused time rest ih =>
    intro v hv
    rw [List.cons_append, List.mem_cons] at hv
    rcases hv with rfl | hv
    · exact attempt
    · exact ih v hv

theorem refused (h : l.Schedule store inTime start earlier last) : ∀ v ∈ earlier, v.Refused := by
  induction h with
  | last => exact nofun
  | again attempt sent refused time rest ih => exact List.forall_mem_cons.mpr ⟨refused, ih⟩

/-- When no answer comes before its call, the pauses alone have passed at the end. -/
theorem pauses_le (h : l.Schedule store inTime start earlier last)
    (hclock : ∀ v ∈ earlier ++ [last], v.sent ≤ v.answered) :
    start + earlier.length * l.policy.retry.nanos ≤ last.answered := by
  induction h with
  | last attempt sent =>
    have hlast := hclock _ (List.mem_singleton_self _)
    simp only [List.length_nil]
    lia
  | again attempt sent refused time rest ih =>
    have hfirst := hclock _ List.mem_cons_self
    have hrest := ih fun v hv => hclock v (List.mem_cons_of_mem _ hv)
    simp only [List.length_cons, Nat.succ_mul]
    lia

theorem pauses_eq (h : l.Schedule store inTime start earlier last)
    (hclock : ∀ v ∈ earlier ++ [last], v.answered = v.sent) :
    last.answered = start + earlier.length * l.policy.retry.nanos := by
  induction h with
  | last attempt sent =>
    have hlast := hclock _ (List.mem_singleton_self _)
    simp only [List.length_nil]
    lia
  | again attempt sent refused time rest ih =>
    have hfirst := hclock _ List.mem_cons_self
    have hrest := ih fun v hv => hclock v (List.mem_cons_of_mem _ hv)
    simp only [List.length_cons, Nat.succ_mul]
    lia

theorem pauses_le_bound {bound : Instant}
    (h : l.Schedule store (fun now => now + l.policy.retry.nanos ≤ bound) start earlier last)
    (hclock : ∀ v ∈ earlier ++ [last], v.sent ≤ v.answered) (hstart : start ≤ bound) :
    start + earlier.length * l.policy.retry.nanos ≤ bound := by
  induction h with
  | last attempt sent => simpa using hstart
  | again attempt sent refused time rest ih =>
    have hfirst := hclock _ List.mem_cons_self
    have hrest := ih (fun v hv => hclock v (List.mem_cons_of_mem _ hv)) time
    simp only [List.length_cons, Nat.succ_mul]
    lia

end Schedule

variable {l}

/-- How polling ends after the last visit: the lock is granted, or there is no time for another
pause, or the clock runs out, in the store or in the pause. -/
inductive Ending (l : Lock) (start : Instant) (deadline : Option Instant) (pauses tried : Nat)
    (paused : Nat) (last : Visit) : Outcome LockError Unit → Prop
  | granted (granted : last.Granted) : Ending l start deadline pauses tried paused last (.ok ())
  | late (refused : last.Refused) (late : l.hasTime deadline last.answered = false) :
      Ending l start deadline pauses tried paused last
        (.error (.unavailable l.key (min (tried + paused + 1) attemptLimit)
          (Instant.since last.answered start)))
  | overflow (overflow : last.answer = .clockOverflow) :
      Ending l start deadline pauses tried paused last .clockOverflow
  | spent (refused : last.Refused) (time : l.hasTime deadline last.answered = true)
      (spent : paused = pauses) : Ending l start deadline pauses tried paused last .clockOverflow

theorem Ending.step {start : Instant} {deadline : Option Instant} {pauses tried paused : Nat}
    {last : Visit} {result : Outcome LockError Unit}
    (h : Ending l start deadline pauses (min (tried + 1) attemptLimit) paused last result) :
    Ending l start deadline (pauses + 1) tried (paused + 1) last result := by
  cases h with
  | granted hgranted => exact .granted hgranted
  | late hrefused hlate =>
    have hcount : min (min (tried + 1) attemptLimit + paused + 1) attemptLimit =
        min (tried + (paused + 1) + 1) attemptLimit := by
      simp only [attemptLimit]
      omega
    rw [hcount]
    exact .late hrefused hlate
  | overflow hoverflow => exact .overflow hoverflow
  | spent hrefused htime hspent => exact .spent hrefused htime (congrArg (· + 1) hspent)

theorem Ending.eq_unavailable {start : Instant} {deadline : Option Instant} {pauses tried paused : Nat}
    {last : Visit} {why : LockError} (h : Ending l start deadline pauses tried paused last (.error why)) :
    ∃ attempts waited, why = .unavailable l.key attempts waited := by
  cases h
  exact ⟨_, _, rfl⟩

section Polling

variable (start : Instant) (deadline : Option Instant) (pauses tried : Nat) (w : Session (Watched σ))

theorem poll_step :
    ∃ v w', l.Visits store .acquire v ∧ Session.Visited w w' v ∧
      ((∃ result, l.poll store.watched start deadline pauses tried w = (result, w') ∧
          Ending l start deadline pauses tried 0 v result) ∨
        (v.Refused ∧ l.hasTime deadline v.answered = true ∧ ∃ fewer, pauses = fewer + 1 ∧
          l.poll store.watched start deadline pauses tried w =
            l.poll store.watched start deadline fewer (min (tried + 1) attemptLimit)
              (w'.sleep l.policy.retry))) := by
  obtain ⟨v, w', hv, hattempt, hvisit⟩ := l.attempt_watched store (min (tried + 1) attemptLimit) w
  refine ⟨v, w', hv, hvisit, ?_⟩
  rcases v.granted_or_refused with hgranted | hrefused | hover
  · rw [heard_of_granted hgranted] at hattempt
    exact Or.inl ⟨_, poll_of_granted hattempt, .granted hgranted⟩
  · rw [heard_of_refused hrefused] at hattempt
    cases htime : l.hasTime deadline v.answered with
    | false =>
      refine Or.inl ⟨_, poll_of_refused hattempt (hvisit.answered ▸ htime), ?_⟩
      rw [hvisit.answered]
      exact .late hrefused htime
    | true =>
      cases pauses with
      | zero => exact Or.inl ⟨_, poll_zero_of_refused hattempt (hvisit.answered ▸ htime),
          .spent hrefused htime rfl⟩
      | succ fewer =>
        exact Or.inr ⟨hrefused, rfl, fewer, rfl,
          poll_succ_of_refused hattempt (hvisit.answered ▸ htime)⟩
  · rw [hover] at hattempt
    exact Or.inl ⟨_, poll_of_overflow hattempt, .overflow hover⟩

/-- The visits of a lock that polls are a schedule, and the last of them decides. -/
theorem poll_schedule :
    let r := l.poll store.watched start deadline pauses tried w
    ∃ earlier last, r.2.store.visits = w.store.visits ++ (earlier ++ [last]) ∧
      r.2.now = last.answered ∧
      l.Schedule store (fun now => l.hasTime deadline now = true) w.now earlier last ∧
      Ending l start deadline pauses tried earlier.length last r.1 := by
  induction pauses generalizing tried w with
  | zero =>
    obtain ⟨v, w', hv, hvisit, ⟨result, hpoll, hend⟩ | ⟨-, -, fewer, hzero, -⟩⟩ :=
      poll_step store (l := l) start deadline 0 tried w
    · rw [hpoll]
      exact ⟨[], v, hvisit.visits, hvisit.answered, .last hv hvisit.sent, hend⟩
    · cases hzero
  | succ pauses ih =>
    obtain ⟨v, w', hv, hvisit, ⟨result, hpoll, hend⟩ | ⟨hrefused, htime, fewer, hfewer, hpoll⟩⟩ :=
      poll_step store (l := l) start deadline (pauses + 1) tried w
    · rw [hpoll]
      exact ⟨[], v, hvisit.visits, hvisit.answered, .last hv hvisit.sent, hend⟩
    · cases hfewer
      rw [hpoll]
      obtain ⟨earlier, last, hvisits, hnow, hschedule, hend⟩ :=
        ih (min (tried + 1) attemptLimit) (w'.sleep l.policy.retry)
      refine ⟨v :: earlier, last, ?_, hnow, ?_, hend.step⟩
      · rw [hvisits, Session.store_sleep, hvisit.visits, List.append_assoc]
        rfl
      · rw [Session.now_sleep, hvisit.answered] at hschedule
        exact .again hv hvisit.sent hrefused htime hschedule

end Polling

theorem acquireWithin_visits (w : Session σ) :
    let deadline := Instant.after? w.now l.policy.wait
    let r := l.acquireWithin store.watched (w.watched [])
    ∃ earlier last, r.2.store.visits = earlier ++ [last] ∧
      r.2.now = last.answered ∧
      l.Schedule store (fun now => l.hasTime deadline now = true) w.now earlier last ∧
      Ending l w.now deadline (l.pauses w.now deadline) 0 earlier.length last r.1 :=
  poll_schedule store ..

section Deadlines

variable {start now : Instant}

theorem pauses_of_deadline :
    l.pauses start (some (start + l.policy.wait.nanos)) = l.policy.wait.nanos / l.policy.retry.nanos := by
  simp only [pauses, Option.getD_some, Nat.add_sub_cancel_left]

theorem le_of_hasTime {deadline : Instant} (h : l.hasTime (some deadline) now = true) :
    now + l.policy.retry.nanos ≤ deadline := by
  have hretry := l.retry_pos
  simp only [hasTime, Bool.and_eq_true, decide_eq_true_eq] at h
  lia

/-- A pause that ends before the deadline is begun, for a wait that has room for one is not zero. -/
theorem hasTime_of_le (hnow : start ≤ now)
    (h : now + l.policy.retry.nanos ≤ start + l.policy.wait.nanos) :
    l.hasTime (some (start + l.policy.wait.nanos)) now = true := by
  have hretry := l.retry_pos
  simp only [hasTime, Duration.isZero, Bool.and_eq_true, Bool.not_eq_true', beq_eq_false_iff_ne,
    decide_eq_true_eq]
  constructor <;> lia

theorem lt_of_not_hasTime (hnow : start ≤ now)
    (h : l.hasTime (some (start + l.policy.wait.nanos)) now = false) :
    start + l.policy.wait.nanos < now + l.policy.retry.nanos := by
  apply Nat.lt_of_not_le
  intro hle
  rw [hasTime_of_le hnow hle] at h
  cases h

theorem hasTime_eq_false {deadline : Instant} (h : deadline < now + l.policy.retry.nanos) :
    l.hasTime (some deadline) now = false := by
  rw [← Bool.not_eq_true]
  intro htime
  exact Nat.lt_irrefl _ (Nat.lt_of_lt_of_le h (le_of_hasTime htime))

/-- Without a deadline there is always time, for a wait that goes past the end of the clock is not
zero. -/
theorem hasTime_none (hstart : start < Instant.clockEnd)
    (hend : Instant.clockEnd ≤ start + l.policy.wait.nanos) : l.hasTime none now = true := by
  simp only [hasTime, Duration.isZero, Bool.and_true, Bool.not_eq_true', beq_eq_false_iff_ne]
  lia

end Deadlines

section Bounds

variable {store} {start : Instant} {earlier : List Visit} {last : Visit}
  {result : Outcome LockError Unit}

theorem wait_lt_since (hlate : start + l.policy.wait.nanos < last.answered + l.policy.retry.nanos) :
    l.policy.wait.nanos < (Instant.since last.answered start).nanos + l.policy.retry.nanos := by
  have hretry := l.retry_pos
  have hwait := l.policy.wait.nanos_lt
  simp only [Instant.since, Duration.ofNanos, Duration.limit]
  lia

theorem Ending.of_deadline {inTime : Instant → Prop}
    (h : Ending l start (some (start + l.policy.wait.nanos)) (l.policy.wait.nanos / l.policy.retry.nanos)
      0 earlier.length last result)
    (hschedule : l.Schedule store inTime start earlier last)
    (hclock : ∀ v ∈ earlier ++ [last], v.sent ≤ v.answered) (hanswer : last.answer ≠ .clockOverflow) :
    (last.Granted ∧ result = .ok ()) ∨
    (last.Refused ∧ start + l.policy.wait.nanos < last.answered + l.policy.retry.nanos ∧
      result = .error (.unavailable l.key (min (earlier.length + 1) attemptLimit)
        (Instant.since last.answered start))) := by
  have hpauses := hschedule.pauses_le hclock
  cases h with
  | granted hgranted => exact Or.inl ⟨hgranted, rfl⟩
  | late hrefused hlate =>
    have hstart : start ≤ last.answered := Nat.le_trans (Nat.le_add_right ..) hpauses
    exact Or.inr ⟨hrefused, lt_of_not_hasTime hstart hlate, by rw [Nat.zero_add]⟩
  | overflow hoverflow => exact absurd hoverflow hanswer
  | spent hrefused htime hspent =>
    -- one more pause than fit into the wait would have fitted
    exfalso
    have hroom := le_of_hasTime htime
    have hmore := Nat.lt_div_mul_add (a := l.policy.wait.nanos) l.retry_pos
    rw [hspent] at hpauses
    lia

theorem Ending.of_no_deadline {inTime : Instant → Prop}
    (h : Ending l start none (l.pauses start none) 0 earlier.length last result)
    (hstart : start < Instant.clockEnd) (hend : Instant.clockEnd ≤ start + l.policy.wait.nanos)
    (hschedule : l.Schedule store inTime start earlier last)
    (hclock : ∀ v ∈ earlier ++ [last], v.sent ≤ v.answered) (hanswer : last.answer ≠ .clockOverflow) :
    (last.Granted ∧ result = .ok ()) ∨
    (last.Refused ∧ Instant.clockEnd < last.answered + l.policy.retry.nanos ∧
      result = .clockOverflow) := by
  cases h with
  | granted hgranted => exact Or.inl ⟨hgranted, rfl⟩
  | late hrefused hlate =>
    rw [hasTime_none hstart hend] at hlate
    cases hlate
  | overflow hoverflow => exact absurd hoverflow hanswer
  | spent hrefused htime hspent =>
    have hpauses := hschedule.pauses_le hclock
    have hmore := Nat.lt_div_mul_add (a := Instant.clockEnd - start) l.retry_pos
    rw [hspent] at hpauses
    simp only [pauses, Option.getD_none] at hpauses
    exact Or.inr ⟨hrefused, by lia, rfl⟩

end Bounds

theorem acquireWithin_watched (w : Session σ) (visits : List Visit) :
    let r := l.acquireWithin store.watched (w.watched visits)
    (r.1, r.2.unwatched) = l.acquireWithin store w :=
  (store.watched_alike.acquireWithin l rfl).unwatched

/-- The visits of a lock that waits in a responsive store are answered in order of time. -/
theorem Schedule.clock {store : LeaseStore σ} {inTime : Instant → Prop} {start : Instant}
    {earlier : List Visit} {last : Visit} (hstore : store.Responsive)
    (h : l.Schedule store inTime start earlier last) :
    ∀ v ∈ earlier ++ [last], v.sent ≤ v.answered ∧ v.answer ≠ .clockOverflow := by
  intro v hv
  obtain ⟨w, rfl⟩ := h.attempts v hv
  exact ⟨hstore.clock .acquire l.key _ w, hstore.answers .acquire l.key _ w⟩

theorem Schedule.length_eq {store : LeaseStore σ} {start : Instant} {earlier : List Visit}
    {last : Visit} {inTime : Instant → Prop} (h : l.Schedule store inTime start earlier last)
    (hinstant : ∀ v ∈ earlier ++ [last], v.answered = v.sent)
    (hroom : earlier.length ≤ l.policy.wait.nanos / l.policy.retry.nanos)
    (hlate : start + l.policy.wait.nanos < last.answered + l.policy.retry.nanos) :
    earlier.length = l.policy.wait.nanos / l.policy.retry.nanos := by
  have hpauses := h.pauses_eq hinstant
  have hmore : l.policy.wait.nanos < (earlier.length + 1) * l.policy.retry.nanos := by
    rw [Nat.succ_mul]
    lia
  exact Nat.le_antisymm hroom (Nat.le_of_lt_succ ((Nat.div_lt_iff_lt_mul l.retry_pos).mpr hmore))

/-- How a lock waits in a store that answers. Its attempts and pauses take turns; when the clock
reaches its deadline, a pause is begun if and only if it ends in time, and polling ends with the
first attempt that is granted or else when no pause is begun. When the clock does not reach that
far, polling never ends because time is over. -/
theorem acquireWithin_schedule (hstore : store.Responsive) (w : Session σ) :
    let r := l.acquireWithin store.watched (w.watched [])
    let wait := l.policy.wait.nanos
    let retry := l.policy.retry.nanos
    (r.1, r.2.unwatched) = l.acquireWithin store w ∧
    ∃ earlier last, r.2.store.visits = earlier ++ [last] ∧ r.2.now = last.answered ∧
      let waited := Instant.since last.answered w.now
      (w.now + wait < Instant.clockEnd →
        l.Schedule store (fun now => now + retry ≤ w.now + wait) w.now earlier last ∧
        ((last.Granted ∧ r.1 = .ok ()) ∨
          (last.Refused ∧ w.now + wait < last.answered + retry ∧
            r.1 = .error (.unavailable l.key (min (earlier.length + 1) attemptLimit) waited) ∧
            wait < waited.nanos + retry)) ∧
        earlier.length + 1 ≤ wait / retry + 1 ∧
        ((∀ v ∈ earlier ++ [last], v.Refused ∧ v.answered = v.sent) →
          earlier.length + 1 = wait / retry + 1 ∧ waited.nanos = wait / retry * retry)) ∧
      (w.now < Instant.clockEnd → Instant.clockEnd ≤ w.now + wait →
        l.Schedule store (fun _ => True) w.now earlier last ∧
        ((last.Granted ∧ r.1 = .ok ()) ∨
          (last.Refused ∧ Instant.clockEnd < last.answered + retry ∧ r.1 = .clockOverflow))) := by
  intro r wait retry
  refine ⟨acquireWithin_watched store w [], ?_⟩
  obtain ⟨earlier, last, hvisits, hnow, hschedule, hend⟩ := acquireWithin_visits store (l := l) w
  change Ending l w.now _ _ 0 earlier.length last r.1 at hend
  have hclock v hv := (hschedule.clock hstore v hv).1
  have hanswer := (hschedule.clock hstore last (by simp)).2
  refine ⟨earlier, last, hvisits, hnow, ?_, ?_⟩
  · intro hfits
    rw [Instant.after?_eq_some.mpr ⟨hfits, rfl⟩] at hschedule hend
    rw [pauses_of_deadline] at hend
    have htimely := hschedule.mono fun _ => le_of_hasTime
    have hroom : earlier.length ≤ wait / retry := by
      rw [Nat.le_div_iff_mul_le l.retry_pos]
      have hbound := htimely.pauses_le_bound hclock (Nat.le_add_right ..)
      exact Nat.add_le_add_iff_left.mp hbound
    have hends := hend.of_deadline hschedule hclock hanswer
    refine ⟨htimely, ?_, Nat.succ_le_succ hroom, ?_⟩
    · rcases hends with hgranted | ⟨hrefused, hlate, hresult⟩
      · exact Or.inl hgranted
      · exact Or.inr ⟨hrefused, hlate, hresult, wait_lt_since hlate⟩
    · intro hall
      have hinstant v hv := (hall v hv).2
      rcases hends with ⟨hgranted, -⟩ | ⟨-, hlate, -⟩
      · exact absurd hgranted (hall last (by simp)).1.1
      · have hlength := htimely.length_eq hinstant hroom hlate
        have hlast := htimely.pauses_eq hinstant
        have hshort : wait / retry * retry ≤ wait := Nat.div_mul_le_self ..
        rw [hlength] at hlast
        refine ⟨congrArg (· + 1) hlength, ?_⟩
        rw [Instant.nanos_since (by lia), hlast]
        exact Nat.add_sub_cancel_left ..
  · intro hstart hfar
    rw [Instant.after?_eq_none.mpr hfar] at hschedule hend
    exact ⟨hschedule.mono fun _ _ => trivial,
      hend.of_no_deadline hstart hfar hschedule hclock hanswer⟩

/-- A store in which every key is somebody else's, and that answers at once. -/
def busy : LeaseStore Unit where
  eval _ _ _ w := (.ok .nil, w)
  remaining _ w := (.ok none, w)

theorem busy_responsive : busy.Responsive where
  answers _ _ _ _ := by simp [busy]
  clock _ _ _ _ := Nat.le_refl _

/-- A lock that waits for a quarter of a second and tries ten times a second. -/
def patient : Lock where
  key := "gate"
  token := Token.ofNumber 0
  policy := ⟨Policy.defaultLease, .ofMillis 250, .ofMillis 100⟩
  key_ne_empty := by decide
  lease_pos := by decide
  retry_pos := by decide

/-- Three attempts in a busy store. -/
theorem acquireWithin_schedule_busy :
    let r := patient.acquireWithin busy.watched ((Session.start ()).watched [])
    busy.Responsive ∧ r.2.store.visits.length = 3 ∧
      ∃ waited : Duration, waited.nanos = 200000000 ∧ r.1 = .error (.unavailable "gate" 3 waited) := by
  obtain ⟨-, earlier, last, hvisits, -, hfits, -⟩ :=
    acquireWithin_schedule (l := patient) busy busy_responsive (Session.start ())
  obtain ⟨hschedule, hends, -, hall⟩ := hfits (by decide)
  have hbusy : ∀ v ∈ earlier ++ [last], v.Refused ∧ v.answered = v.sent := by
    intro v hv
    obtain ⟨w, rfl⟩ := hschedule.attempts v hv
    exact ⟨⟨by simp [LeaseStore.visit, busy], by simp [LeaseStore.visit, busy]⟩, rfl⟩
  obtain ⟨hcount, hwaited⟩ := hall hbusy
  have hlength : earlier.length = 2 := Nat.succ.inj (hcount.trans (by decide))
  refine ⟨busy_responsive, ?_, ?_⟩
  · rw [hvisits, List.length_append, hlength]
    rfl
  · rcases hends with ⟨hgranted, -⟩ | ⟨-, -, hresult, -⟩
    · exact absurd hgranted (hbusy last (by simp)).1.1
    · rw [hlength] at hresult
      exact ⟨_, hwaited.trans (by decide), hresult⟩

end Lock
end Leasehold
