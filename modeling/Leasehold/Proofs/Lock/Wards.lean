import Leasehold.Proofs.Lock.Schedule
import Leasehold.Proofs.Lock.Verdict

/-!
# A guard gives back once

Owners use their locks with and without guards, in any order, at a store that
may answer anything. What they ask of it is kept in a register, each call with
the deed it was made in. A guard asks for nothing until it is ended, and to end
it is one release of its lock. A guard that has been released still has its
destructor to run; the flag that the release has set makes that do nothing.
-/

namespace Leasehold

inductive Handling where
  | acquire
  | wait
  | release
  | strict
  | remaining

inductive Closing where
  | release
  | drop

/-- What is done with locks, and with the guards in the order in which they were obtained. -/
inductive Deed (ι : Type) where
  | handle (how : Handling) (who : ι)
  | guard (who : ι)
  | close (how : Closing) (n : Nat)
  | pause (d : Duration)

def Deed.ward? {ι : Type} : Deed ι → Option Nat
  | close _ n => some n
  | _ => none

/-- A guard that has been obtained, and whether it is gone. -/
structure Ward where
  guard : Guard
  dropped : Bool

namespace Ward

variable (ward : Ward)

/-- The guard has been released, or it is gone. -/
def ended : Bool := ward.guard.released || ward.dropped

/-- What a guard has asked of the store by now. -/
def asked : List (LockScript × String × List String) :=
  if ward.ended then [(.release, ward.guard.lock.key, [ward.guard.lock.token.text])] else []

def ofAnswer : Outcome LockError Guard → List Ward
  | .ok g => [⟨g, false⟩]
  | _ => []

variable {σ : Type} (store : LeaseStore σ) (w : Session σ)

/-- Ends a guard. One that has been released can only be dropped, and one that is gone can do
nothing. -/
def close : Closing → Ward × Session σ
  | .release =>
    if ward.ended then (ward, w)
    else (⟨⟨ward.guard.lock, true⟩, false⟩, (ward.guard.release store w).2)
  | .drop => if ward.dropped then (ward, w) else (⟨ward.guard, true⟩, ward.guard.drop store w)

theorem close_fst (how : Closing) :
    (ward.close store w how).1.guard.lock = ward.guard.lock ∧
      (ward.close store w how).1.ended = true := by
  obtain ⟨⟨l, _ | _⟩, _ | _⟩ := ward <;> cases how <;> exact ⟨rfl, rfl⟩

variable {ward}

theorem close_of_ended (h : ward.ended = true) (how : Closing) : (ward.close store w how).2 = w := by
  obtain ⟨⟨l, _ | _⟩, _ | _⟩ := ward <;> cases how
  · cases h
  · cases h
  all_goals rfl

/-- The first end of a guard is one release of its lock, however it comes about. -/
theorem close_of_live (h : ward.ended = false) (how : Closing) :
    (ward.close store w how).2.state = (ward.guard.lock.releaseCall store w).2.state := by
  obtain ⟨⟨l, released⟩, dropped⟩ := ward
  obtain ⟨rfl, rfl⟩ := Bool.or_eq_false_iff.mp h
  cases how with
  | release => exact Guard.release_state store w ⟨l, false⟩
  | drop => exact Guard.drop_state store l w

end Ward

/-- A session in a store, and the guards that were obtained in it. -/
structure Custody (σ : Type) where
  session : Session σ
  wards : List Ward

section Steps

variable {σ ι : Type} (store : LeaseStore σ) (locks : ι → Lock)

def Handling.run (l : Lock) (w : Session σ) : Handling → Session σ
  | acquire => (l.acquire store w).2
  | wait => (l.acquireWithin store w).2
  | release => (l.release store w).2
  | strict => (l.releaseStrict store w).2
  | remaining => (l.remainingLease store w).2

namespace Custody

def start (w : Session σ) : Custody σ := ⟨w, []⟩

def step (s : Custody σ) : Deed ι → Custody σ
  | .handle how who => { s with session := how.run store (locks who) s.session }
  | .guard who =>
    let r := (locks who).acquireGuard store s.session
    ⟨r.2, s.wards ++ Ward.ofAnswer r.1⟩
  | .close how n =>
    match s.wards[n]? with
    | some ward =>
      let r := ward.close store s.session how
      ⟨r.2, s.wards.set n r.1⟩
    | none => s
  | .pause d => { s with session := s.session.sleep d }

def run (s : Custody σ) (deeds : List (Deed ι)) : Custody σ := deeds.foldl (step store locks) s

end Custody
end Steps

/-- Custody at a store with a witness, and the calls that the witness has seen, each with the deed
it was made in. -/
structure Register (ι σ : Type) where
  custody : Custody (Watched σ)
  calls : List (Deed ι × Visit)

namespace Register

variable {σ ι : Type}

def start (w : Session σ) : Register ι σ := ⟨.start (w.watched []), []⟩

def step (store : LeaseStore σ) (locks : ι → Lock) (r : Register ι σ) (deed : Deed ι) :
    Register ι σ :=
  let s := r.custody.step store.watched locks deed
  let made := s.session.store.visits.drop r.custody.session.store.visits.length
  ⟨s, r.calls ++ made.map (deed, ·)⟩

def run (store : LeaseStore σ) (locks : ι → Lock) (r : Register ι σ) (deeds : List (Deed ι)) :
    Register ι σ :=
  deeds.foldl (step store locks) r

def callsOf (r : Register ι σ) (n : Nat) : List Visit :=
  (r.calls.filter fun call => call.1.ward? == some n).map Prod.snd

end Register

def Visit.request (v : Visit) : LockScript × String × List String := (v.script, v.key, v.arguments)

namespace Custody

section Likeness

variable {σ τ ι : Type} {R : Session σ → Session τ → Prop} {store : LeaseStore σ}
  {store' : LeaseStore τ}

theorem handle_alike (h : LeaseStore.Alike R store store') (l : Lock) (how : Handling)
    {w : Session σ} {w' : Session τ} (hw : R w w') : R (how.run store l w) (how.run store' l w') := by
  cases how with
  | acquire => exact (h.acquire l hw).linked
  | wait => exact (h.acquireWithin l hw).linked
  | release => exact (h.release l hw).linked
  | strict => exact (h.releaseStrict l hw).linked
  | remaining => exact (h.remainingLease l hw).linked

theorem close_alike (h : LeaseStore.Alike R store store') (ward : Ward) (how : Closing)
    {w : Session σ} {w' : Session τ} (hw : R w w') :
    Session.Same R (ward.close store w how) (ward.close store' w' how) := by
  cases how with
  | release =>
    unfold Ward.close
    dsimp only
    split
    · exact ⟨rfl, hw⟩
    · exact ⟨rfl, (h.releaseGuard ward.guard hw).linked⟩
  | drop =>
    unfold Ward.close
    dsimp only
    split
    · exact ⟨rfl, hw⟩
    · exact ⟨rfl, h.drop ward.guard hw⟩

theorem step_alike (h : LeaseStore.Alike R store store') (locks : ι → Lock) (deed : Deed ι)
    {w : Session σ} {w' : Session τ} (hw : R w w') (wards : List Ward) :
    R (step store locks ⟨w, wards⟩ deed).session (step store' locks ⟨w', wards⟩ deed).session ∧
      (step store locks ⟨w, wards⟩ deed).wards = (step store' locks ⟨w', wards⟩ deed).wards := by
  cases deed with
  | handle how who => exact ⟨handle_alike h (locks who) how hw, rfl⟩
  | guard who =>
    obtain ⟨hanswer, hlinked⟩ := h.acquireGuard (locks who) hw
    exact ⟨hlinked, by simp only [step, hanswer]⟩
  | close how n =>
    simp only [step]
    cases wards[n]? with
    | none => exact ⟨hw, rfl⟩
    | some ward =>
      obtain ⟨hanswer, hlinked⟩ := close_alike h ward how hw
      exact ⟨hlinked, by dsimp only; rw [hanswer]⟩
  | pause d => exact ⟨h.link.sleep d hw, rfl⟩

end Likeness

variable {σ ι : Type} (store : LeaseStore σ) (locks : ι → Lock)

def unwatched (s : Custody (Watched σ)) : Custody σ := ⟨s.session.unwatched, s.wards⟩

theorem step_unwatched (s : Custody (Watched σ)) (deed : Deed ι) :
    (s.step store.watched locks deed).unwatched = s.unwatched.step store locks deed := by
  obtain ⟨hsession, hwards⟩ := step_alike store.watched_alike locks deed
    (rfl : Session.Unwatches s.session s.session.unwatched) s.wards
  unfold unwatched
  rw [hwards, show Session.unwatched _ = _ from hsession]

theorem visits_prefix (s : Custody (Watched σ)) (deed : Deed ι) :
    s.session.store.visits <+: (s.step store.watched locks deed).session.store.visits :=
  (step_alike (store.watched_grows s.session.store.visits) locks deed ⟨rfl, List.prefix_rfl⟩
    s.wards).1.2

section Wards

variable {s : Custody σ} {n : Nat}

theorem step_ward {ward : Ward} (h : s.wards[n]? = some ward) (deed : Deed ι) :
    ∃ ward', (s.step store locks deed).wards[n]? = some ward' ∧
      ward'.guard.lock = ward.guard.lock ∧
      (ward'.ended = true ↔ ward.ended = true ∨ deed.ward? = some n) := by
  cases deed with
  | handle how who => exact ⟨ward, h, rfl, by simp [Deed.ward?]⟩
  | guard who =>
    refine ⟨ward, ?_, rfl, by simp [Deed.ward?]⟩
    exact (List.getElem?_append_left (List.getElem?_eq_some_iff.mp h).1).trans h
  | close how m =>
    by_cases hm : m = n
    · subst hm
      obtain ⟨hlock, hended⟩ := ward.close_fst store s.session how
      refine ⟨_, ?_, hlock, by simp [hended, Deed.ward?]⟩
      simp only [step, h]
      exact List.getElem?_set_self (List.getElem?_eq_some_iff.mp h).1
    · refine ⟨ward, ?_, rfl, by simp [Deed.ward?, hm]⟩
      simp only [step]
      cases s.wards[m]? with
      | none => exact h
      | some other => exact (List.getElem?_set_ne hm).trans h
  | pause d => exact ⟨ward, h, rfl, by simp [Deed.ward?]⟩

theorem acquireGuard_wards (l : Lock) (w : Session σ) :
    ∀ ward ∈ Ward.ofAnswer (l.acquireGuard store w).1, ward = ⟨⟨l, false⟩, false⟩ := by
  rw [l.acquireGuard_fst]
  cases (l.acquireWithin store w).1 <;> simp [Ward.ofAnswer]

theorem step_new (h : s.wards[n]? = none) (deed : Deed ι) {ward : Ward}
    (hward : (s.step store locks deed).wards[n]? = some ward) :
    ∃ who, deed = .guard who ∧ ward = ⟨⟨locks who, false⟩, false⟩ := by
  cases deed with
  | handle how who => cases h.symm.trans hward
  | guard who =>
    refine ⟨who, rfl, ?_⟩
    have hlength : s.wards.length ≤ n := List.getElem?_eq_none_iff.mp h
    have hlast := (List.getElem?_append_right hlength).symm.trans hward
    exact acquireGuard_wards store _ _ ward (List.mem_of_getElem? hlast)
  | close how m =>
    simp only [step] at hward
    cases hm : s.wards[m]? with
    | none =>
      rw [hm] at hward
      cases h.symm.trans hward
    | some other =>
      rw [hm] at hward
      have hlength := List.length_set ▸ (List.getElem?_eq_some_iff.mp hward).1
      exact absurd hlength (Nat.not_lt.mpr (List.getElem?_eq_none_iff.mp h))
  | pause d => cases h.symm.trans hward

theorem wards_guard (s : Custody σ) (who : ι) :
    match ((locks who).acquireGuard store s.session).1 with
    | .ok _ => (s.step store locks (.guard who)).wards = s.wards ++ [⟨⟨locks who, false⟩, false⟩]
    | _ => (s.step store locks (.guard who)).wards = s.wards := by
  simp only [step, Lock.acquireGuard_fst]
  cases ((locks who).acquireWithin store s.session).1 with
  | ok _ => rfl
  | error why => exact List.append_nil _
  | clockOverflow => exact List.append_nil _

theorem run_ward {ward : Ward} (h : s.wards[n]? = some ward) (deeds : List (Deed ι)) :
    ∃ ward', (s.run store locks deeds).wards[n]? = some ward' ∧
      ward'.guard.lock = ward.guard.lock ∧
      (ward'.ended = true ↔ ward.ended = true ∨ ∃ deed ∈ deeds, deed.ward? = some n) := by
  induction deeds generalizing s ward with
  | nil => exact ⟨ward, h, rfl, by simp⟩
  | cons deed deeds ih =>
    obtain ⟨next, hnext, hlock, hended⟩ := step_ward store locks h deed
    obtain ⟨last, hlast, hlock', hended'⟩ := ih hnext
    refine ⟨last, hlast, hlock'.trans hlock, ?_⟩
    rw [hended', hended, or_assoc]
    simp only [List.mem_cons, exists_eq_or_imp]

theorem close_ended {ward : Ward} (h : s.wards[n]? = some ward) (hended : ward.ended = true)
    (how : Closing) : (s.step store locks (.close how n)).session = s.session := by
  simp only [step, h]
  exact ward.close_of_ended store s.session hended how

theorem close_live {ward : Ward} (h : s.wards[n]? = some ward) (hlive : ward.ended = false)
    (how : Closing) :
    (s.step store locks (.close how n)).session.state =
      (ward.guard.lock.releaseCall store s.session).2.state := by
  simp only [step, h]
  exact ward.close_of_live store s.session hlive how

end Wards

section Visits

variable (w : Session (Watched σ))

theorem acquireGuard_visits (l : Lock) :
    ∃ made, (l.acquireGuard store.watched w).2.store.visits = w.store.visits ++ made ∧
      ∀ v ∈ made, v.script = .acquire := by
  let deadline := Instant.after? w.now l.policy.wait
  obtain ⟨earlier, last, hvisits, -, hschedule, -⟩ :=
    Lock.poll_schedule store (l := l) w.now deadline (l.pauses w.now deadline) 0 w
  refine ⟨earlier ++ [last], hvisits, ?_⟩
  intro v hv
  obtain ⟨w', rfl⟩ := hschedule.attempts v hv
  rfl

/-- To end a guard makes the one call that it has not made yet. -/
theorem close_visits (ward : Ward) (how : Closing) :
    ∃ made, (ward.close store.watched w how).2.store.visits = w.store.visits ++ made ∧
      ward.asked ++ made.map Visit.request = (ward.close store.watched w how).1.asked := by
  obtain ⟨hlock, hended⟩ := ward.close_fst store.watched w how
  have hafter : (ward.close store.watched w how).1.asked =
      [(.release, ward.guard.lock.key, [ward.guard.lock.token.text])] := by
    rw [Ward.asked, if_pos hended, hlock]
  cases hward : ward.ended with
  | true =>
    refine ⟨[], ?_, ?_⟩
    · rw [ward.close_of_ended _ _ hward, List.append_nil]
    · rw [hafter, Ward.asked, if_pos hward]
      rfl
  | false =>
    have hstate := ward.close_of_live store.watched w hward how
    refine ⟨[store.visit .release ward.guard.lock.key [ward.guard.lock.token.text] w.unwatched],
      congrArg (fun state => state.2.visits) hstate, ?_⟩
    rw [hafter, Ward.asked, hward]
    rfl

/-- What a guard has asked of the store by now; nothing if there is no such guard. -/
def asked (s : Custody σ) (n : Nat) : List (LockScript × String × List String) :=
  s.wards[n]?.elim [] Ward.asked

theorem asked_of_some {s : Custody σ} {n : Nat} {ward : Ward} (h : s.wards[n]? = some ward) :
    s.asked n = ward.asked := by
  rw [asked, h]
  rfl

theorem asked_of_none {s : Custody σ} {n : Nat} (h : s.wards[n]? = none) : s.asked n = [] := by
  rw [asked, h]
  rfl

theorem asked_step_of_ne (s : Custody σ) {deed : Deed ι} {n : Nat} (hdeed : deed.ward? ≠ some n) :
    (s.step store locks deed).asked n = s.asked n := by
  cases hbefore : s.wards[n]? with
  | some before =>
    obtain ⟨after, hafter, hlock, hended⟩ := step_ward store locks hbefore deed
    rw [asked_of_some hbefore, asked_of_some hafter, Ward.asked, Ward.asked, hlock]
    simp only [hended, hdeed, or_false]
  | none =>
    rw [asked_of_none hbefore]
    cases hafter : (s.step store locks deed).wards[n]? with
    | none => exact asked_of_none hafter
    | some after =>
      obtain ⟨who, -, rfl⟩ := step_new store locks hbefore deed hafter
      exact asked_of_some hafter

/-- The calls of a deed are those of the guard that it ends; and to wait for a guard gives nothing
back. -/
theorem step_visits (s : Custody (Watched σ)) (deed : Deed ι) :
    ∃ made, (s.step store.watched locks deed).session.store.visits =
        s.session.store.visits ++ made ∧
      (∀ n, deed.ward? = some n →
        s.asked n ++ made.map Visit.request = (s.step store.watched locks deed).asked n) ∧
      ∀ who, deed = .guard who → ∀ v ∈ made, v.script = .acquire := by
  cases deed with
  | handle how who =>
    obtain ⟨made, hmade⟩ := visits_prefix store locks s (.handle how who)
    exact ⟨made, hmade.symm, nofun, nofun⟩
  | guard who =>
    obtain ⟨made, hmade, hacquire⟩ := acquireGuard_visits store s.session (locks who)
    exact ⟨made, hmade, nofun, fun _ _ => hacquire⟩
  | close how n =>
    cases hward : s.wards[n]? with
    | none =>
      have hstep : s.step store.watched locks (.close how n) = s := by simp only [step, hward]
      refine ⟨[], by rw [hstep, List.append_nil], ?_, nofun⟩
      rintro _ ⟨⟩
      rw [hstep, asked_of_none hward]
      rfl
    | some ward =>
      obtain ⟨made, hmade, hasked⟩ := close_visits store s.session ward how
      have hstep : s.step store.watched locks (.close how n) =
          ⟨(ward.close store.watched s.session how).2,
            s.wards.set n (ward.close store.watched s.session how).1⟩ := by
        simp only [step, hward]
      refine ⟨made, by rw [hstep, hmade], ?_, nofun⟩
      rintro _ ⟨⟩
      rw [hstep, asked_of_some hward, hasked]
      exact (asked_of_some (List.getElem?_set_self (List.getElem?_eq_some_iff.mp hward).1)).symm
  | pause d => exact ⟨[], (List.append_nil _).symm, nofun, nofun⟩

end Visits
end Custody

namespace Register

variable {σ ι : Type} {store : LeaseStore σ} {locks : ι → Lock}

theorem step_calls (r : Register ι σ) (deed : Deed ι) {made : List Visit}
    (h : (r.custody.step store.watched locks deed).session.store.visits =
      r.custody.session.store.visits ++ made) :
    (r.step store locks deed).calls = r.calls ++ made.map (deed, ·) := by
  simp only [step, h, List.drop_left]

theorem callsOf_step (r : Register ι σ) (deed : Deed ι) (n : Nat) {made : List Visit}
    (h : (r.custody.step store.watched locks deed).session.store.visits =
      r.custody.session.store.visits ++ made) :
    (r.step store locks deed).callsOf n =
      r.callsOf n ++ if deed.ward? = some n then made else [] := by
  unfold callsOf
  rw [step_calls r deed h, List.filter_append, List.map_append, List.filter_map, List.map_map]
  congr 1
  split_ifs with hward <;> simp [Function.comp_def, hward]

/-- What is true of a register at all times: it is complete, a guard has called once if it has ended
and else not at all, and nothing was given back while a guard was waited for. -/
structure Sound (r : Register ι σ) : Prop where
  complete : r.calls.map Prod.snd = r.custody.session.store.visits
  asked : ∀ n, (r.callsOf n).map Visit.request = r.custody.asked n
  guarding : ∀ who v, (Deed.guard who, v) ∈ r.calls → v.script = .acquire

theorem Sound.start (w : Session σ) : Sound (start w : Register ι σ) where
  complete := rfl
  asked _ := rfl
  guarding _ _ h := nomatch h

theorem Sound.step {r : Register ι σ} (hr : Sound r) (deed : Deed ι) :
    Sound (r.step store locks deed) := by
  obtain ⟨made, hmade, hasked, hacquire⟩ := Custody.step_visits store locks r.custody deed
  have hcalls := step_calls r deed hmade
  constructor
  · rw [hcalls, List.map_append, hr.complete, List.map_map]
    exact (congrArg _ (List.map_id made)).trans hmade.symm
  · intro n
    rw [callsOf_step r deed n hmade]
    -- the calls of a deed are the guard's only if the deed ends this guard
    by_cases hdeed : deed.ward? = some n
    · rw [if_pos hdeed, List.map_append, hr.asked]
      exact hasked n hdeed
    · rw [if_neg hdeed, List.append_nil, hr.asked]
      exact (r.custody.asked_step_of_ne _ _ hdeed).symm
  · intro who v hv
    rw [hcalls, List.mem_append, List.mem_map] at hv
    rcases hv with hv | ⟨v', hv', hsame⟩
    · exact hr.guarding who v hv
    · obtain ⟨rfl, rfl⟩ := Prod.mk.inj hsame
      exact hacquire who rfl v' hv'

theorem Sound.run {r : Register ι σ} (hr : Sound r) (deeds : List (Deed ι)) :
    Sound (r.run store locks deeds) := by
  induction deeds generalizing r with
  | nil => exact hr
  | cons deed deeds ih => exact ih (hr.step deed)

theorem run_unwatched (r : Register ι σ) (deeds : List (Deed ι)) :
    (r.run store locks deeds).custody.unwatched = r.custody.unwatched.run store locks deeds := by
  induction deeds generalizing r with
  | nil => rfl
  | cons deed deeds ih =>
    refine (ih (r.step store locks deed)).trans ?_
    rw [Custody.run, Custody.run, List.foldl_cons, ← Custody.step_unwatched]
    rfl

/-- A guard gives back once, in every run and at every store, whatever that answers. The calls of a
guard are one release with the key and the token of its lock if it has ended, and else there are
none. It has ended when it was released or dropped; after that it leaves everything as it is, a
record that its own lock has taken again included. Nothing is given back while a guard is waited
for, and whoever does not obtain one has none to end. -/
theorem one_release_per_guard (store : LeaseStore σ) (locks : ι → Lock) (w : Session σ)
    (deeds : List (Deed ι)) :
    let r := (start w).run store locks deeds
    let s := (Custody.start w).run store locks deeds
    r.custody.unwatched = s ∧ r.calls.map Prod.snd = r.custody.session.store.visits ∧
    (∀ n ward, s.wards[n]? = some ward → (r.callsOf n).map Visit.request =
      if ward.ended then [(.release, ward.guard.lock.key, [ward.guard.lock.token.text])] else []) ∧
    (∀ n, s.wards[n]? = none → r.callsOf n = []) ∧
    (∀ who v, (Deed.guard who, v) ∈ r.calls → v.script = .acquire) ∧
    (∀ who, match ((locks who).acquireGuard store s.session).1 with
      | .ok _ => (s.step store locks (.guard who)).wards = s.wards ++ [⟨⟨locks who, false⟩, false⟩]
      | _ => (s.step store locks (.guard who)).wards = s.wards) ∧
    ∀ n ward, s.wards[n]? = some ward → ∀ later : List (Deed ι),
      let s' := s.run store locks later
      (∃ ward', s'.wards[n]? = some ward' ∧ ward'.guard.lock = ward.guard.lock ∧
        (ward'.ended = true ↔ ward.ended = true ∨ ∃ deed ∈ later, deed.ward? = some n)) ∧
      ∀ how, let after := (s'.step store locks (.close how n)).session
        (ward.ended = true → after = s'.session) ∧
        (ward.ended = false → (∀ deed ∈ later, deed.ward? ≠ some n) → after.state =
          (store.eval .release ward.guard.lock.key [ward.guard.lock.token.text] s'.session).2.state) := by
  intro r s
  have hsound : Sound r := (Sound.start w).run deeds
  have hrun : r.custody.unwatched = s := run_unwatched (start w) deeds
  have hwards : r.custody.wards = s.wards := congrArg Custody.wards hrun
  refine ⟨hrun, hsound.complete, ?_, ?_, hsound.guarding, s.wards_guard store locks, ?_⟩
  · intro n ward hward
    rw [hsound.asked, Custody.asked_of_some (hwards ▸ hward), Ward.asked]
  · intro n hnone
    have hasked := hsound.asked n
    rw [Custody.asked_of_none (hwards ▸ hnone)] at hasked
    exact List.map_eq_nil_iff.mp hasked
  · intro n ward hward later s'
    obtain ⟨ward', hward', hlock, hended⟩ := Custody.run_ward store locks hward later
    refine ⟨⟨ward', hward', hlock, hended⟩, ?_⟩
    intro how after
    constructor
    · intro h
      exact Custody.close_ended store locks hward' (hended.mpr (Or.inl h)) how
    · intro hlive hleft
      have hlive' : ward'.ended = false := by
        rw [← Bool.not_eq_true, hended, hlive]
        simpa using hleft
      rw [← hlock]
      exact Custody.close_live store locks hward' hlive' how

/-- A guard is released, its lock is taken again, and then the destructor runs. -/
theorem one_release_per_guard_taken_again :
    let locks := Contenders.pair.lock
    let w := Session.start MemoryStore.empty
    let deeds : List (Deed Bool) := [.guard false, .close .release 0]
    let before := (Custody.start w).run MemoryStore.leases locks deeds
    let s := before.run MemoryStore.leases locks [.handle .acquire false]
    let after := s.step MemoryStore.leases locks (.close .drop 0)
    (((start w).run MemoryStore.leases locks deeds).callsOf 0).map Visit.request =
      [(.release, "door", [(Contenders.pair.token false).text])] ∧
    s.session.store.live? s.session.now "door" =
      some ⟨(Contenders.pair.token false).text, 10500000000⟩ ∧
    after.session.store.live? after.session.now "door" =
      some ⟨(Contenders.pair.token false).text, 10500000000⟩ := by
  intro locks w deeds before s after
  have hgranted : ((locks false).acquire MemoryStore.leases w).1.isGranted = true := by
    decide +kernel
  have hguard := Lock.acquireGuard_of_acquire (Outcome.isGranted_iff.mp hgranted)
  obtain ⟨-, -, -, -, -, hobtain, -⟩ := one_release_per_guard MemoryStore.leases locks w []
  have hobtained := hobtain false
  rw [show ((Custody.start w).run MemoryStore.leases locks []).session = w from rfl, hguard] at hobtained
  obtain ⟨-, -, -, -, -, -, hlater⟩ := one_release_per_guard MemoryStore.leases locks w [.guard false]
  obtain ⟨⟨ward, hward, hlock, hiff⟩, -⟩ :=
    hlater 0 ⟨⟨locks false, false⟩, false⟩ (congrArg (·[0]?) hobtained) [.close .release 0]
  have hended : ward.ended = true := hiff.mpr (Or.inr ⟨_, List.mem_singleton_self _, rfl⟩)
  obtain ⟨-, -, hcalls, -, -, -, hagain⟩ := one_release_per_guard MemoryStore.leases locks w deeds
  have hrecord : s.session.store.live? s.session.now "door" =
      some ⟨(Contenders.pair.token false).text, 10500000000⟩ := by decide +kernel
  have hafter : after.session = s.session :=
    ((hagain 0 ward hward [.handle .acquire false]).2 .drop).1 hended
  refine ⟨?_, hrecord, ?_⟩
  · rw [hcalls 0 ward hward, if_pos hended, hlock]
    rfl
  · rw [hafter]
    exact hrecord

end Register
end Leasehold
