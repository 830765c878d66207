import Leasehold.CommandLine
import Leasehold.Proofs.Lock.Schedule

/-!
# The exit code of a held lock

A task that holds a lock polls, holds, and gives back once. Its course is read
off the visits of a watched store: either polling ends without the lock, and
the lock is never given back, or the last visit of all gives it back, and the
answer to this visit is the exit code.
-/

namespace Leasehold
namespace CommandLine

section Alike

variable {σ τ : Type} {R : Session σ → Session τ → Prop} {w : Session σ} {w' : Session τ}

structure Ended.Same (R : Session σ → Session τ → Prop) (e : Ended σ) (e' : Ended τ) : Prop where
  result : e.result = e'.result
  printed : e.printed = e'.printed
  linked : R e.session e'.session

variable {store : LeaseStore σ} {store' : LeaseStore τ}

theorem finish_alike (h : LeaseStore.Alike R store store') (guard : Guard) (hold : Duration)
    (printed : Printed) (hw : R w w') :
    Ended.Same R (Holding.mk store guard hold printed w).finish
      (Holding.mk store' guard hold printed w').finish := by
  unfold Holding.finish
  refine (h.releaseGuard guard (h.link.sleep hold hw)).split fun answer w w' hw => ?_
  rcases answer with _ | why | _
  · exact ⟨rfl, rfl, hw⟩
  · cases why with
    | notHeld key => exact ⟨rfl, rfl, h.link.note _ hw⟩
    | _ => exact ⟨rfl, rfl, hw⟩
  · exact ⟨rfl, rfl, hw⟩

theorem holdLock_alike (h : LeaseStore.Alike R store store') (l : Lock) (hold : Duration)
    (hw : R w w') : Ended.Same R (holdLock store l hold w) (holdLock store' l hold w') := by
  unfold holdLock takeLock
  refine (h.acquireGuard l hw).split fun answer w w' hw => ?_
  rcases answer with guard | why | _
  · exact finish_alike h guard hold _ (h.link.note _ hw)
  · cases why <;> exact ⟨rfl, rfl, hw⟩
  · exact ⟨rfl, rfl, hw⟩

def Ended.unwatched (e : Ended (Watched σ)) : Ended σ := ⟨e.result, e.printed, e.session.unwatched⟩

theorem holdLock_watched (store : LeaseStore σ) (l : Lock) (hold : Duration) (w : Session σ)
    (visits : List Visit) :
    (holdLock store.watched l hold (w.watched visits)).unwatched = holdLock store l hold w := by
  obtain ⟨hresult, hprinted, hsession⟩ :=
    holdLock_alike store.watched_alike l hold (w := w.watched visits) rfl
  unfold Ended.unwatched
  rw [hresult, hprinted, hsession]
  rfl

end Alike

section Course

variable {σ : Type} (store : LeaseStore σ) (l : Lock) (hold : Duration) (start : Instant)
  (visits : List Visit)

/-- The attempts of a lock that waits from an instant on. -/
def Attempts (earlier : List Visit) (last : Visit) : Prop :=
  l.Schedule store (fun now => l.hasTime (Instant.after? start l.policy.wait) now = true) start
    earlier last

/-- Polling has ended without the lock, and nothing has been asked since. -/
def GaveUp : Prop :=
  ∃ earlier last, visits = earlier ++ [last] ∧ Attempts store l start earlier last ∧
    last.Refused ∧ l.hasTime (Instant.after? start l.policy.wait) last.answered = false

/-- Polling has ended with the lock, which was given back once, after it was held for so long. -/
def GaveBack (back : Visit) : Prop :=
  ∃ earlier last, visits = earlier ++ [last, back] ∧ Attempts store l start earlier last ∧
    last.Granted ∧ l.Visits store .release back ∧ last.answered + hold.nanos ≤ back.sent

/-- The clock has run out while the lock was waited for. -/
def RanOut : Prop :=
  ∃ earlier last, visits = earlier ++ [last] ∧ Attempts store l start earlier last ∧
    (last.answer = .clockOverflow ∨
      last.Refused ∧ l.hasTime (Instant.after? start l.policy.wait) last.answered = true)

/-- What the answer to the last visit makes of the run. -/
def verdict : Outcome StoreError Reply → Outcome RunFault Exit
  | .ok reply => .ok (if reply = .int 1 then .success else .lost)
  | .error why => .error (.lock (.transport why))
  | .clockOverflow => .clockOverflow

/-- The three courses of a task that holds a lock. -/
inductive Course : Outcome RunFault Exit → Prop
  | gaveUp (h : GaveUp store l start visits) : Course (.ok .unavailable)
  | ranOut (h : RanOut store l start visits) : Course .clockOverflow
  | gaveBack {back : Visit} (h : GaveBack store l hold start visits back) : Course (verdict back.answer)

/-- The guard of a lock that is held is released, and the answer is the verdict. -/
theorem finish_watched (printed : Printed) (w : Session (Watched σ)) :
    let e := (Holding.mk store.watched ⟨l, false⟩ hold printed w).finish
    ∃ back, l.Visits store .release back ∧ back.sent = w.now + hold.nanos ∧
      e.result = verdict back.answer ∧ e.session.store.visits = w.store.visits ++ [back] := by
  obtain ⟨back, w', hback, hrelease, hvisit⟩ := l.releaseStrict_watched store (w.sleep hold)
  refine ⟨back, hback, hvisit.sent, ?_⟩
  simp only [Holding.finish, Guard.release_eq, hrelease]
  cases back.answer with
  | ok reply =>
    by_cases hreply : reply = .int 1
    · simp only [Lock.returned, verdict, hreply, if_true]
      exact ⟨trivial, hvisit.visits⟩
    · simp only [Lock.returned, verdict, hreply, if_false]
      exact ⟨trivial, hvisit.visits⟩
  | error why => exact ⟨rfl, hvisit.visits⟩
  | clockOverflow => exact ⟨rfl, hvisit.visits⟩

theorem holdLock_course (w : Session σ) :
    let e := holdLock store.watched l hold (w.watched [])
    Course store l hold w.now e.session.store.visits e.result := by
  obtain ⟨earlier, last, hvisits, hnow, hschedule, hend⟩ := Lock.acquireWithin_visits store (l := l) w
  unfold holdLock takeLock Lock.acquireGuard
  generalize l.acquireWithin store.watched (w.watched []) = r at *
  obtain ⟨result, w'⟩ := r
  dsimp only at hvisits hnow hend
  cases hend with
  | granted hgranted =>
    obtain ⟨back, hback, hsent, hverdict, hlast⟩ :=
      finish_watched store l hold (Printed.nothing.say ("acquired " ++ l.key ++ " as " ++ l.token.text))
        (w'.note (.info ("Holding lock " ++ l.key ++ " for " ++ hold.text)))
    rw [Session.now_note, hnow] at hsent
    rw [Session.store_note, hvisits, List.append_assoc] at hlast
    dsimp only [Outcome.map_ok, Progress.finish]
    rw [hverdict]
    exact .gaveBack ⟨earlier, last, hlast, hschedule, hgranted, hback, Nat.le_of_eq hsent.symm⟩
  | late hrefused hlate => exact .gaveUp ⟨earlier, last, hvisits, hschedule, hrefused, hlate⟩
  | overflow hoverflow => exact .ranOut ⟨earlier, last, hvisits, hschedule, Or.inl hoverflow⟩
  | spent hrefused htime hspent =>
    exact .ranOut ⟨earlier, last, hvisits, hschedule, Or.inr ⟨hrefused, htime⟩⟩

variable {store l hold start visits}

theorem GaveBack.getLast? {back : Visit} (h : GaveBack store l hold start visits back) :
    visits.getLast? = some back ∧ back.script = .release := by
  obtain ⟨earlier, last, rfl, -, -, ⟨w, rfl⟩, -⟩ := h
  exact ⟨by simp, rfl⟩

theorem GaveBack.unique {back back' : Visit} (h : GaveBack store l hold start visits back)
    (h' : GaveBack store l hold start visits back') : back = back' :=
  Option.some.inj (h.getLast?.1.symm.trans h'.getLast?.1)

theorem attempts_script {earlier : List Visit} {last : Visit}
    (h : Attempts store l start earlier last) : ∀ v ∈ earlier ++ [last], v.script = .acquire := by
  intro v hv
  obtain ⟨w, rfl⟩ := h.attempts v hv
  rfl

theorem GaveUp.script (h : GaveUp store l start visits) : ∀ v ∈ visits, v.script = .acquire := by
  obtain ⟨earlier, last, rfl, hattempts, -⟩ := h
  exact attempts_script hattempts

theorem RanOut.script (h : RanOut store l start visits) : ∀ v ∈ visits, v.script = .acquire := by
  obtain ⟨earlier, last, rfl, hattempts, -⟩ := h
  exact attempts_script hattempts

theorem GaveBack.not_all_acquire {back : Visit} (h : GaveBack store l hold start visits back)
    (hall : ∀ v ∈ visits, v.script = .acquire) : False := by
  obtain ⟨hlast, hscript⟩ := h.getLast?
  have hacquire := hall back (List.mem_of_getLast? hlast)
  rw [hscript] at hacquire
  cases hacquire

/-- Who gave up had no time left, and who ran out of the clock had, or was not answered. -/
theorem GaveUp.not_ranOut (h : GaveUp store l start visits) : ¬RanOut store l start visits := by
  rintro ⟨earlier', last', hvisits', -, hout⟩
  obtain ⟨earlier, last, rfl, -, hrefused, hlate⟩ := h
  obtain ⟨-, hlast⟩ := List.append_inj' hvisits' rfl
  cases hlast
  rcases hout with hover | ⟨-, htime⟩
  · exact hrefused.2 hover
  · rw [htime] at hlate
    cases hlate

theorem attempts_not_granted {earlier : List Visit} {last : Visit}
    (h : Attempts store l start earlier last) (hlast : ¬ last.Granted) :
    ∀ v ∈ earlier ++ [last], ¬ v.Granted := by
  intro v hv
  rcases List.mem_append.mp hv with hv | hv
  · exact (h.refused v hv).1
  · exact List.mem_singleton.mp hv ▸ hlast

theorem GaveUp.not_granted (h : GaveUp store l start visits) : ∀ v ∈ visits, ¬ v.Granted := by
  obtain ⟨earlier, last, rfl, hattempts, hrefused, -⟩ := h
  exact attempts_not_granted hattempts hrefused.1

theorem RanOut.not_granted (h : RanOut store l start visits) : ∀ v ∈ visits, ¬ v.Granted := by
  obtain ⟨earlier, last, rfl, hattempts, hout⟩ := h
  apply attempts_not_granted hattempts
  intro hgranted
  rcases hout with hover | ⟨hrefused, -⟩
  · rw [Visit.Granted, hover] at hgranted
    cases hgranted
  · exact hrefused.1 hgranted

theorem GaveBack.exists_granted {back : Visit} (h : GaveBack store l hold start visits back) :
    ∃ v ∈ visits, v.script = .acquire ∧ v.Granted := by
  obtain ⟨earlier, last, rfl, hattempts, hgranted, -⟩ := h
  exact ⟨last, by simp, attempts_script hattempts last (by simp), hgranted⟩

def resultCode : Outcome RunFault Exit → Nat
  | .ok exit => exit.code
  | .error _ => 1
  | .clockOverflow => 101

theorem resultCode_verdict (answer : Outcome StoreError Reply) :
    resultCode (verdict answer) ≠ 2 ∧
    (resultCode (verdict answer) = 0 ↔ answer = .ok (.int 1)) ∧
    (resultCode (verdict answer) = 3 ↔ ∃ reply, answer = .ok reply ∧ reply ≠ .int 1) ∧
    (resultCode (verdict answer) = 1 ↔ ∃ why, answer = .error why) := by
  cases answer with
  | ok reply => by_cases hreply : reply = .int 1 <;> simp [verdict, hreply, resultCode, Exit.code]
  | error why => simp [verdict, resultCode]
  | clockOverflow => simp [verdict, resultCode]

variable {result : Outcome RunFault Exit}

theorem Course.gaveUp_iff (h : Course store l hold start visits result) :
    resultCode result = 2 ↔ GaveUp store l start visits := by
  cases h with
  | gaveUp h => exact iff_of_true rfl h
  | ranOut h => exact iff_of_false (by decide) fun hup => hup.not_ranOut h
  | gaveBack h =>
    exact iff_of_false (resultCode_verdict _).1 fun hup => h.not_all_acquire hup.script

/-- A code that only an answer to the last visit can bring about. -/
theorem Course.gaveBack_iff (h : Course store l hold start visits result) {code : Nat}
    {P : Outcome StoreError Reply → Prop}
    (hverdict : ∀ answer, resultCode (verdict answer) = code ↔ P answer) (htwo : code ≠ 2)
    (hout : code ≠ 101) :
    resultCode result = code ↔ ∃ back, GaveBack store l hold start visits back ∧ P back.answer := by
  cases h with
  | gaveUp h =>
    apply iff_of_false htwo.symm
    rintro ⟨back, hback, -⟩
    exact hback.not_all_acquire h.script
  | ranOut h =>
    apply iff_of_false hout.symm
    rintro ⟨back, hback, -⟩
    exact hback.not_all_acquire h.script
  | gaveBack h =>
    rw [hverdict]
    constructor
    · intro hanswer
      exact ⟨_, h, hanswer⟩
    · rintro ⟨back, hback, hanswer⟩
      rw [h.unique hback]
      exact hanswer

/-- A lock that is had is given back, and nothing else is. -/
theorem Course.granted_iff (h : Course store l hold start visits result) :
    (∃ v ∈ visits, v.script = .acquire ∧ v.Granted) ↔ ∃ back, GaveBack store l hold start visits back := by
  constructor
  · rintro ⟨v, hv, -, hgranted⟩
    cases h with
    | gaveUp h => exact absurd hgranted (h.not_granted v hv)
    | ranOut h => exact absurd hgranted (h.not_granted v hv)
    | gaveBack h => exact ⟨_, h⟩
  · rintro ⟨back, hback⟩
    exact hback.exists_granted

theorem verdict_eq_overflow_iff {answer : Outcome StoreError Reply} :
    verdict answer = .clockOverflow ↔ answer = .clockOverflow := by
  cases answer <;> simp [verdict]

/-- The clock runs out while the lock is waited for, or when it is given back. -/
theorem Course.clockOverflow_iff (h : Course store l hold start visits result) :
    result = .clockOverflow ↔ RanOut store l start visits ∨
      ∃ back, GaveBack store l hold start visits back ∧ back.answer = .clockOverflow := by
  cases h with
  | gaveUp h =>
    refine iff_of_false nofun ?_
    rintro (hout | ⟨back, hback, -⟩)
    · exact h.not_ranOut hout
    · exact hback.not_all_acquire h.script
  | ranOut h => exact iff_of_true rfl (Or.inl h)
  | gaveBack h =>
    rw [verdict_eq_overflow_iff]
    constructor
    · intro hanswer
      exact Or.inr ⟨_, h, hanswer⟩
    · rintro (hout | ⟨back, hback, hanswer⟩)
      · exact (h.not_all_acquire hout.script).elim
      · exact h.unique hback ▸ hanswer

theorem resultCode_cases (hresult : result ≠ .clockOverflow) :
    resultCode result = 0 ∨ resultCode result = 1 ∨ resultCode result = 2 ∨ resultCode result = 3 := by
  rcases result with (_ | _ | _) | _ | _ <;> simp_all [resultCode, Exit.code]

end Course

theorem acquireGuard_error {σ : Type} {store : LeaseStore σ} {l : Lock} {w : Session σ}
    {why : LockError} (h : (l.acquireGuard store w).1 = .error why) :
    ∃ attempts waited, why = .unavailable l.key attempts waited := by
  obtain ⟨earlier, last, -, -, -, hend⟩ := Lock.acquireWithin_visits store (l := l) w
  have hwatched : (l.acquireWithin store.watched (w.watched [])).1 = (l.acquireWithin store w).1 :=
    congrArg Prod.fst (Lock.acquireWithin_watched store w [])
  unfold Lock.acquireGuard at h
  cases hanswer : (l.acquireWithin store w).1 with
  | ok value => simp [hanswer] at h
  | error why' =>
    simp only [hanswer, Outcome.map_error, Outcome.error.injEq] at h
    rw [hwatched, hanswer, h] at hend
    exact hend.eq_unavailable
  | clockOverflow => simp [hanswer] at h

end CommandLine
end Leasehold
