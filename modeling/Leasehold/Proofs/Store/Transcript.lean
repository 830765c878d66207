import Leasehold.Proofs.Store.Frame

/-!
# Transcripts

A transcript is what was asked in a run and what was answered. A memory store
that starts empty may carry any number of dead records, and drops one only
when its key is touched; a ledger drops each at once. The two have the same
transcript for every run, and at its end the store tells of a key what the
ledger has under it, with the time that is left.
-/

namespace Leasehold

abbrev Transcript := List (Access × Outcome StoreError Answer)

def Access.transcript (now : Instant) (s : MemoryStore) : List Access → Transcript
  | [] => []
  | a :: rest =>
    let r := a.run now s
    (a, r.1) :: transcript r.2.1 r.2.2 rest

namespace Ledger

def blank : Ledger := fun _ => none

def transcript (m : Ledger) (now : Instant) : List Access → Transcript
  | [] => []
  | a :: rest =>
    let r := m.run now a
    (a, r.1) :: transcript r.2.2 r.2.1 rest

def runAll (m : Ledger) (now : Instant) : List Access → Instant × Ledger
  | [] => (now, m)
  | a :: rest =>
    let r := m.run now a
    runAll r.2.2 r.2.1 rest

end Ledger

namespace Access

variable (now : Instant) (s : MemoryStore) (accesses : List Access)

theorem transcript_ledger : transcript now s accesses = (s.ledger now).transcript now accesses := by
  induction accesses generalizing now s with
  | nil => rfl
  | cons a rest ih =>
    obtain ⟨hanswer, hclock, hshows⟩ := a.run_ledger now s
    rw [transcript, Ledger.transcript, ih, hanswer, hshows, hclock]

theorem runAll_ledger :
    (runAll now s accesses).1 = ((s.ledger now).runAll now accesses).1 ∧
      (runAll now s accesses).2.ledger (runAll now s accesses).1 =
        ((s.ledger now).runAll now accesses).2 := by
  induction accesses generalizing now s with
  | nil => exact ⟨rfl, rfl⟩
  | cons a rest ih =>
    obtain ⟨-, hclock, hshows⟩ := a.run_ledger now s
    rw [runAll, Ledger.runAll, ← hshows, ← hclock]
    exact ih _ _

end Access

namespace Ledger

variable {m : Ledger} {now : Instant}

/-- The clock reaches every deadline in the ledger. -/
def Bounded (m : Ledger) : Prop := ∀ key, OnClock (m key)

theorem Bounded.current (hb : m.Bounded) : (m.current now).Bounded := by
  intro key r hr
  exact hb key r (Option.filter_eq_some_iff.mp hr).1

/-- A deadline past the end of the clock is refused, not written. -/
theorem Bounded.run (hb : m.Bounded) (a : Access) : (m.run now a).2.2.Bounded := by
  refine Bounded.current ?_
  rcases m.perform_cases now a with hm | ⟨k, x, -, heffect⟩
  · rw [hm]
    exact hb
  · rw [heffect.ledger]
    intro key
    by_cases hk : key = k
    · subst hk
      rw [Function.update_self]
      exact heffect.onClock
    · rw [Function.update_of_ne hk]
      exact hb key

theorem Bounded.runAll (hb : m.Bounded) (accesses : List Access) :
    (m.runAll now accesses).2.Bounded := by
  induction accesses generalizing m now with
  | nil => exact hb
  | cons a rest ih => exact ih (hb.run a)

end Ledger

namespace MemoryStore

variable {s : MemoryStore} {now : Instant} {key : String}

theorem lt_deadline {r : Record} (h : s.ledger now key = some r) : now < r.deadline := by
  rw [ledger_apply] at h
  exact of_decide_eq_true (Option.filter_eq_some_iff.mp h).2

variable (s now key)

theorem get_fst : (s.get now key).1 = (s.ledger now key).map Record.value :=
  (s.get_agrees now key).answer

theorem remaining_fst :
    (s.remaining now key).1 = (s.ledger now key).map fun r => Instant.since r.deadline now :=
  (s.remaining_agrees now key).answer

end MemoryStore

/-- Lazy expiry is invisible. A memory store that starts empty answers a run as a ledger does; and
after it a key is told to have both the ledger's value and the time to the ledger's deadline,
which is still to come, or neither a value nor time. -/
theorem Access.transcript_eq_ledger (now : Instant) (accesses : List Access) :
    transcript now .empty accesses = Ledger.blank.transcript now accesses ∧
      ∀ key,
        let w := runAll now .empty accesses
        let m := Ledger.blank.runAll now accesses
        w.1 = m.1 ∧
          ((∃ r d, m.2 key = some r ∧ (w.2.get w.1 key).1 = some r.value ∧
              (w.2.remaining w.1 key).1 = some d ∧ 0 < d.nanos ∧ d.nanos = r.deadline - w.1) ∨
            (m.2 key = none ∧ (w.2.get w.1 key).1 = none ∧ (w.2.remaining w.1 key).1 = none)) := by
  have hempty : MemoryStore.empty.ledger now = Ledger.blank := rfl
  refine ⟨?_, ?_⟩
  · rw [transcript_ledger, hempty]
  · intro key w m
    obtain ⟨hclock, hledger⟩ := runAll_ledger now .empty accesses
    rw [hempty] at hclock hledger
    have hbounded : m.2.Bounded := Ledger.Bounded.runAll (fun _ => Ledger.onClock_none) accesses
    refine ⟨hclock, ?_⟩
    rw [w.2.get_fst, w.2.remaining_fst, hledger]
    cases hr : m.2 key with
    | none => exact Or.inr ⟨rfl, rfl, rfl⟩
    | some r =>
      have hlive : w.1 < r.deadline := MemoryStore.lt_deadline ((congrFun hledger key).trans hr)
      have hrest : (Instant.since r.deadline w.1).nanos = r.deadline - w.1 :=
        Instant.nanos_since (hbounded key r hr)
      refine Or.inl ⟨r, _, rfl, rfl, rfl, ?_, hrest⟩
      rw [hrest]
      exact Nat.sub_pos_of_lt hlive

end Leasehold
