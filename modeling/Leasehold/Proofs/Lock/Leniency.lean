import Leasehold.Proofs.Lock.Schedule

/-!
# Failures count as refusals

A lock that waits takes a call that fails for one that is refused: it counts
the attempt, looks at the clock and pauses all the same. So nothing but its
journal changes when every failure is turned into a refusal. The responses that
it asks for are those of the attempts that fit before its deadline, and it is
held just when one of them is `OK`.
-/

namespace Leasehold

/-- How long a call takes, and what is answered. -/
structure Response where
  delay : Duration
  answer : Except StoreError Reply

/-- The response with a refusal in the place of a failure. -/
def Response.lenient (r : Response) : Response :=
  match r.answer with
  | .ok _ => r
  | .error _ => { r with answer := .ok .nil }

def Response.Granted (r : Response) : Prop := r.answer = .ok (.status "OK")

def Visit.lenient (v : Visit) : Visit :=
  match v.answer with
  | .error _ => { v with answer := .ok .nil }
  | _ => v

/-- A store with prepared responses, which counts the scripts that it has run. -/
def LeaseStore.prepared (responses : Nat → Response) : LeaseStore Nat where
  eval _ _ _ w :=
    let r := responses w.store
    (.ofExcept r.answer, { w with now := w.now + r.delay.nanos, store := w.store + 1 })
  remaining _ w := (.ok none, w)

/-- Two watched sessions that differ in their journals, and in that failures are refusals. -/
structure Session.Pardons (w w' : Session (Watched Nat)) : Prop where
  now : w.now = w'.now
  count : w'.store.store = w.store.store
  visits : w'.store.visits = w.store.visits.map Visit.lenient

theorem Session.link_pardons : Link Pardons where
  now h := h.now
  note _ h := ⟨h.now, h.count, h.visits⟩
  sleep d h := ⟨congrArg (· + d.nanos) h.now, h.count, h.visits⟩

theorem LeaseStore.visit_lenient (responses : Nat → Response) (script : LockScript) (key : String)
    (arguments : List String) (w w' : Session Nat) (hnow : w.now = w'.now) (hcount : w'.store = w.store) :
    (prepared fun k => (responses k).lenient).visit script key arguments w' =
      ((prepared responses).visit script key arguments w).lenient := by
  rcases h : responses w.store with ⟨delay, answer⟩
  simp only [visit, prepared, Visit.lenient, Response.lenient, hcount, h, hnow]
  cases answer <;> rfl

theorem LeaseStore.prepared_responsive (responses : Nat → Response) : (prepared responses).Responsive where
  answers script key arguments w := by
    cases h : (responses w.store).answer <;> simp [prepared, Outcome.ofExcept, h]
  clock _ _ _ _ := Nat.le_add_right ..

namespace Lock

open LeaseStore Session

variable {l : Lock} {responses : Nat → Response}

theorem heard_lenient (v : Visit) : heard v.lenient.answer = heard v.answer := by
  obtain ⟨script, key, arguments, sent, answer, answered⟩ := v
  cases answer <;> rfl

theorem answered_lenient (v : Visit) : v.lenient.answered = v.answered := by
  obtain ⟨script, key, arguments, sent, answer, answered⟩ := v
  cases answer <;> rfl

/-- A failed attempt and a refused one do the same, but for the line that they leave. -/
theorem attempt_lenient (count : Nat) {w w' : Session (Watched Nat)} (h : Pardons w w') :
    Same Pardons (l.attempt (prepared responses).watched count w)
      (l.attempt (prepared fun k => (responses k).lenient).watched count w') := by
  obtain ⟨hanswer, hnow, hcount, hvisits⟩ := l.attempt_watched_eq (prepared responses) count w
  obtain ⟨hanswer', hnow', hcount', hvisits'⟩ :=
    l.attempt_watched_eq (prepared fun k => (responses k).lenient) count w'
  have hvisit := visit_lenient responses .acquire l.key (l.arguments .acquire) w.unwatched w'.unwatched
    h.now h.count
  refine ⟨?_, ?_, ?_, ?_⟩
  · rw [hanswer, hanswer']
    exact (heard_lenient _).symm.trans (congrArg (fun v => heard v.answer) hvisit.symm)
  · rw [hnow, hnow']
    exact (answered_lenient _).symm.trans (congrArg Visit.answered hvisit.symm)
  · rw [hcount, hcount']
    exact congrArg (· + 1) h.count
  · rw [hvisits, hvisits', hvisit, h.visits, List.map_append]
    rfl

variable (l responses)

/-- When an attempt begins that comes after so many others, all of which are refused. -/
def begins (start : Instant) : Nat → Instant
  | 0 => start
  | k + 1 => begins start k + (responses k).delay.nanos + l.policy.retry.nanos

/-- The attempt begins before the deadline or, where the clock does not reach that far, no more
pauses precede it than the clock has room for. -/
def Scheduled (start : Instant) (k : Nat) : Prop :=
  match Instant.after? start l.policy.wait with
  | some deadline => l.begins responses start k ≤ deadline
  | none => k * l.policy.retry.nanos ≤ Instant.clockEnd - start

variable {l responses} {start : Instant} {deadline : Option Instant}

theorem begins_add_le (l : Lock) (responses : Nat → Response) (start : Instant) (k : Nat) :
    start + k * l.policy.retry.nanos ≤ l.begins responses start k := by
  induction k with
  | zero => simp [begins]
  | succ k ih =>
    rw [begins, Nat.succ_mul]
    lia

theorem begins_mono {j k : Nat} (h : j ≤ k) : l.begins responses start j ≤ l.begins responses start k := by
  induction h with
  | refl => exact Nat.le_refl _
  | step _ ih =>
    rw [begins]
    lia

theorem attempt_prepared (l : Lock) (responses : Nat → Response) (count : Nat) (w : Session Nat) :
    ∃ w', l.attempt (prepared responses) count w =
        (heard (.ofExcept (responses w.store).answer), w') ∧
      w'.now = w.now + (responses w.store).delay.nanos ∧ w'.store = w.store + 1 := by
  obtain ⟨hnow, hstore⟩ := Prod.mk.inj (l.attempt_state (prepared responses) count w)
  exact ⟨_, Prod.ext (l.attempt_fst (prepared responses) count w) rfl, hnow, hstore⟩

theorem heard_of_not_granted {r : Response} (h : ¬ r.Granted) : heard (.ofExcept r.answer) = .ok false := by
  cases ha : r.answer with
  | error why => rfl
  | ok reply =>
    have hreply : reply.isOk = false := by
      rw [← Bool.not_eq_true, Reply.isOk_iff]
      rintro rfl
      exact h ha
    exact congrArg Outcome.ok hreply

theorem poll_prepared_step (l : Lock) (deadline : Option Instant) (pauses tried k : Nat)
    {w : Session Nat} (hcount : w.store = k) (hnow : w.now = l.begins responses start k) :
    let r := l.poll (prepared responses) start deadline pauses tried w
    let time := l.hasTime deadline (l.begins responses start k + (responses k).delay.nanos)
    ((responses k).Granted ∧ r.1 = .ok ()) ∨
      (¬ (responses k).Granted ∧ r.1 ≠ .ok () ∧ (time = true → pauses = 0)) ∨
      (¬ (responses k).Granted ∧ time = true ∧ ∃ fewer w', pauses = fewer + 1 ∧ w'.store = k + 1 ∧
        w'.now = l.begins responses start (k + 1) ∧
        r = l.poll (prepared responses) start deadline fewer (min (tried + 1) attemptLimit) w') := by
  intro r time
  obtain ⟨w', hattempt, hnow', hcount'⟩ :=
    l.attempt_prepared responses (min (tried + 1) attemptLimit) w
  rw [hcount] at hattempt hnow' hcount'
  rw [hnow] at hnow'
  by_cases hgranted : (responses k).Granted
  · rw [hgranted] at hattempt
    exact Or.inl ⟨hgranted, congrArg Prod.fst (poll_of_granted hattempt)⟩
  · rw [heard_of_not_granted hgranted] at hattempt
    cases htime : time with
    | false =>
      have hr : r = _ := poll_of_refused hattempt (hnow' ▸ htime)
      exact Or.inr (Or.inl ⟨hgranted, by simp [hr], nofun⟩)
    | true =>
      cases pauses with
      | zero =>
        have hr : r = _ := poll_zero_of_refused hattempt (hnow' ▸ htime)
        exact Or.inr (Or.inl ⟨hgranted, by simp [hr], fun _ => rfl⟩)
      | succ fewer =>
        refine Or.inr (Or.inr ⟨hgranted, rfl, fewer, w'.sleep l.policy.retry, rfl, hcount', ?_,
          poll_succ_of_refused hattempt (by rw [hnow']; exact htime)⟩)
        rw [now_sleep, hnow']
        rfl

theorem poll_prepared_eq_ok (pauses tried k : Nat) {w : Session Nat} (hcount : w.store = k)
    (hnow : w.now = l.begins responses start k) :
    (l.poll (prepared responses) start deadline pauses tried w).1 = .ok () ↔
      ∃ m, k ≤ m ∧ m ≤ k + pauses ∧ (∀ i, k ≤ i → i < m → l.hasTime deadline
          (l.begins responses start i + (responses i).delay.nanos) = true) ∧
        (responses m).Granted := by
  induction pauses using Nat.strongRecOn generalizing tried k w with
  | ind pauses ih =>
    rcases l.poll_prepared_step deadline pauses tried k hcount hnow with
      ⟨hgranted, hr⟩ | ⟨hnot, hr, htime⟩ | ⟨hnot, htime, fewer, w', rfl, hcount', hnow', hr⟩
    · exact iff_of_true hr ⟨k, Nat.le_refl k, Nat.le_add_right .., by lia, hgranted⟩
    · refine iff_of_false hr ?_
      rintro ⟨m, hk, hm, hall, hgranted⟩
      rcases Nat.eq_or_lt_of_le hk with rfl | hlt
      · exact hnot hgranted
      · have hzero := htime (hall k (Nat.le_refl k) hlt)
        lia
    · rw [hr, ih fewer (Nat.lt_succ_self fewer) _ _ hcount' hnow']
      constructor
      · rintro ⟨m, hk, hm, hall, hgranted⟩
        refine ⟨m, by lia, by lia, ?_, hgranted⟩
        intro i hi him
        rcases Nat.eq_or_lt_of_le hi with rfl | hlt
        · exact htime
        · exact hall i hlt him
      · rintro ⟨m, hk, hm, hall, hgranted⟩
        rcases Nat.eq_or_lt_of_le hk with rfl | hlt
        · exact absurd hgranted hnot
        · exact ⟨m, hlt, by lia, fun i hi him => hall i (by lia) him, hgranted⟩

theorem scheduled_iff (k : Nat) :
    let deadline := Instant.after? start l.policy.wait
    l.Scheduled responses start k ↔ k ≤ l.pauses start deadline ∧
      ∀ i < k, l.hasTime deadline (l.begins responses start i + (responses i).delay.nanos) = true := by
  intro deadline
  have hfirst := l.begins_add_le responses start
  unfold Scheduled
  rcases Nat.lt_or_ge (start + l.policy.wait.nanos) Instant.clockEnd with hfits | hfar
  · simp only [deadline, Instant.after?_eq_some.mpr ⟨hfits, rfl⟩, pauses_of_deadline,
      Nat.le_div_iff_mul_le l.retry_pos]
    constructor
    · intro hk
      refine ⟨Nat.add_le_add_iff_left.mp (Nat.le_trans (hfirst k) hk), ?_⟩
      intro i hi
      have hstart := hfirst i
      have hnext : l.begins responses start (i + 1) ≤ start + l.policy.wait.nanos :=
        Nat.le_trans (begins_mono (Nat.succ_le_of_lt hi)) hk
      exact hasTime_of_le (by lia) hnext
    · rintro ⟨-, hall⟩
      cases k with
      | zero => exact Nat.le_add_right ..
      | succ k => exact le_of_hasTime (hall k (Nat.lt_succ_self k))
  · simp only [deadline, Instant.after?_eq_none.mpr hfar, pauses, Option.getD_none,
      Nat.le_div_iff_mul_le l.retry_pos]
    refine (and_iff_left_of_imp ?_).symm
    intro hk i hi
    have hpause : 0 < k * l.policy.retry.nanos := Nat.mul_pos (Nat.zero_lt_of_lt hi) l.retry_pos
    exact hasTime_none (Nat.lt_of_sub_pos (Nat.lt_of_lt_of_le hpause hk)) hfar

theorem acquireWithin_prepared_eq_ok {journal : Array Line} :
    (l.acquireWithin (prepared responses) ⟨start, 0, journal⟩).1 = .ok () ↔
      ∃ k, l.Scheduled responses start k ∧ (responses k).Granted := by
  unfold acquireWithin
  rw [poll_prepared_eq_ok _ 0 0 rfl rfl]
  simp [scheduled_iff, and_assoc]

theorem acquireWithin_pardons {w : Session (Watched Nat)} (hvisits : w.store.visits = []) :
    Same Pardons (l.acquireWithin (prepared responses).watched w)
      (l.acquireWithin (prepared fun k => (responses k).lenient).watched w) :=
  link_pardons.poll (fun count _ _ => attempt_lenient count) _ 0 ⟨rfl, rfl, by rw [hvisits]; rfl⟩

/-- A lock that waits in a store with prepared responses fails in one way only, and never because of
the clock when its deadline is on the clock. -/
theorem acquireWithin_prepared_fails (l : Lock) (responses : Nat → Response) (start : Instant)
    (journal : Array Line) :
    let r := l.acquireWithin (prepared responses) ⟨start, 0, journal⟩
    (∀ why, r.1 = .error why → ∃ attempts waited, why = .unavailable l.key attempts waited) ∧
      (start + l.policy.wait.nanos < Instant.clockEnd → r.1 ≠ .clockOverflow) := by
  intro r
  have hwatched := l.acquireWithin_watched (prepared responses) ⟨start, 0, journal⟩ []
  obtain ⟨earlier, last, -, -, hschedule, hend⟩ :=
    acquireWithin_visits (prepared responses) (l := l) ⟨start, 0, journal⟩
  rw [congrArg Prod.fst hwatched] at hend
  have hclock := hschedule.clock (prepared_responsive responses)
  constructor
  · intro why hwhy
    rw [hwhy] at hend
    exact hend.eq_unavailable
  · intro hfits hover
    rw [hover, Instant.after?_eq_some.mpr ⟨hfits, rfl⟩, pauses_of_deadline] at hend
    rcases hend.of_deadline hschedule (fun v hv => (hclock v hv).1) (hclock last (by simp)).2 with
      ⟨-, hresult⟩ | ⟨-, -, hresult⟩
    · cases hresult
    · cases hresult

theorem guarded_cases (o : Outcome LockError Unit) :
    (o.map (fun _ => Guard.mk l false) = .ok ⟨l, false⟩ ↔ o = .ok ()) ∧
      (∀ why, o.map (fun _ => Guard.mk l false) = .error why ↔ o = .error why) ∧
      (o.map (fun _ => Guard.mk l false) = .clockOverflow ↔ o = .clockOverflow) := by
  cases o <;> simp

/-- To a lock that waits a failure is a refusal. Whatever the responses, in their order, and whenever
it starts: if every failure among them is turned into a refusal, the lock hears the same, it makes the
same calls at the same times, and it ends at the same time; and so does a guard. It is held just when
a scheduled response is `OK`; else all it says is that the lock is unavailable, and it does say so
when its deadline is on the clock. -/
theorem failure_counts_as_refusal (l : Lock) (responses : Nat → Response) (start : Instant)
    (journal : Array Line) :
    let w := (Session.mk start 0 journal).watched []
    let lenient := prepared fun k => (responses k).lenient
    let granted := ∃ k, l.Scheduled responses start k ∧ (responses k).Granted
    let r := l.acquireWithin (prepared responses).watched w
    let g := l.acquireGuard (prepared responses).watched w
    Same Pardons r (l.acquireWithin lenient.watched w) ∧
      Same Pardons g (l.acquireGuard lenient.watched w) ∧
      (r.1 = .ok () ↔ granted) ∧ (g.1 = .ok ⟨l, false⟩ ↔ granted) ∧
      (∀ why, r.1 = .error why ∨ g.1 = .error why →
        ∃ attempts waited, why = .unavailable l.key attempts waited) ∧
      (start + l.policy.wait.nanos < Instant.clockEnd → r.1 ≠ .clockOverflow ∧ g.1 ≠ .clockOverflow) := by
  intro w lenient granted r g
  have hsame : Same Pardons r (l.acquireWithin lenient.watched w) := acquireWithin_pardons rfl
  have hr : r.1 = (l.acquireWithin (prepared responses) ⟨start, 0, journal⟩).1 :=
    congrArg Prod.fst (l.acquireWithin_watched (prepared responses) ⟨start, 0, journal⟩ [])
  have hgranted : r.1 = .ok () ↔ granted := by
    rw [hr]
    exact acquireWithin_prepared_eq_ok
  obtain ⟨hfails, hclock⟩ := l.acquireWithin_prepared_fails responses start journal
  rw [← hr] at hfails hclock
  obtain ⟨hok, herror, hover⟩ := guarded_cases (l := l) r.1
  refine ⟨hsame, ⟨?_, hsame.linked⟩, hgranted, hok.trans hgranted, ?_, ?_⟩
  · rw [l.acquireGuard_fst lenient.watched w, ← hsame.answer]
    rfl
  · rintro why (hwhy | hwhy)
    · exact hfails why hwhy
    · exact hfails why ((herror why).mp hwhy)
  · intro hfits
    exact ⟨hclock hfits, mt hover.mp (hclock hfits)⟩

end Lock
end Leasehold
