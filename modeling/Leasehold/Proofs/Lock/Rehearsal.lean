import Leasehold.Proofs.Lock.Watch
import Leasehold.Store.Rehearsal

/-!
# Rehearsals and memory

A rehearsal is backed by a memory store. A call finds there what others have
left in the interlude of its cue, and unless the cue answers for it, the
memory does. So a rehearsal without cues cannot be told from a memory store.
What it keeps of the calls is what a witness sees.
-/

namespace Leasehold
namespace Rehearsal

/-- The rehearsal is where a session with the memory store is. -/
structure Backed (w : Session Rehearsal) (w' : Session MemoryStore) : Prop where
  now : w.now = w'.now
  memory : w.store.memory = w'.store
  journal : w.journal = w'.journal

def Uncued (r : Rehearsal) : Prop := r.evalCues = [] ∧ r.remainingCues = [] ∧ r.limitCues = []

/-- The rehearsal is where the session is, and no cue is left. -/
def Mirrors (w : Session Rehearsal) (w' : Session MemoryStore) : Prop := Backed w w' ∧ w.store.Uncued

/-- The memory store as a call with some cue finds it. -/
def found {α : Type} (cue : Option (Cue α)) (w : Session Rehearsal) : Session MemoryStore :=
  let r := Access.runAll w.now w.store.memory
    ((cue.elim [] (·.interlude)).map (·.mapText w.store.roster.resolve))
  ⟨r.1, r.2, w.journal⟩

section Play

variable {α : Type}

/-- A cue without an answer leaves the call to the memory, once others have acted. -/
theorem play_unanswered (cue : Option (Cue α)) (w : Session Rehearsal)
    (f : Instant → MemoryStore → Outcome StoreError α × MemoryStore)
    (h : cue.bind (·.answer) = none) : Session.Same Backed (play w cue f) ((found cue w).onStore f) := by
  cases cue with
  | none => exact ⟨rfl, rfl, rfl, rfl⟩
  | some cue =>
    obtain ⟨accesses, answer⟩ := cue
    obtain rfl : answer = none := h
    exact ⟨rfl, rfl, rfl, rfl⟩

/-- A cue with an answer keeps the call from the memory. -/
theorem play_answered {cue : Option (Cue α)} {answer : Except StoreError α} (w : Session Rehearsal)
    (f : Instant → MemoryStore → Outcome StoreError α × MemoryStore) (h : cue.bind (·.answer) = some answer) :
    (play w cue f).1 = .ofExcept answer ∧ Backed (play w cue f).2 (found cue w) := by
  cases cue with
  | none => cases h
  | some cue =>
    obtain ⟨accesses, given⟩ := cue
    obtain rfl : given = some answer := h
    exact ⟨rfl, rfl, rfl, rfl⟩

theorem play_calls (cue : Option (Cue α)) (w : Session Rehearsal)
    (f : Instant → MemoryStore → Outcome StoreError α × MemoryStore) :
    (play w cue f).2.store.calls = w.store.calls := by
  rcases cue with _ | ⟨accesses, _ | answer⟩
  · rfl
  · rfl
  · rfl

end Play

/-! ## Without cues -/

section Uncued

variable {α : Type} {w : Session Rehearsal} {w' : Session MemoryStore}

theorem link_mirrors : Session.Link Mirrors where
  now h := h.1.now
  note line h := ⟨⟨h.1.now, h.1.memory, congrArg (·.push line) h.1.journal⟩, h.2⟩
  sleep d h := ⟨⟨congrArg (· + d.nanos) h.1.now, h.1.memory, h.1.journal⟩, h.2⟩

theorem Mirrors.play (h : Mirrors w w')
    (f : Instant → MemoryStore → Outcome StoreError α × MemoryStore) :
    Session.Same Mirrors (play w none f) (w'.onStore f) := by
  have hfound : found (none : Option (Cue α)) w = w' := by
    obtain ⟨now, store, journal⟩ := w'
    obtain ⟨⟨hnow, hmemory, hjournal⟩, -⟩ := h
    simp only at hnow hmemory hjournal
    subst hnow hmemory hjournal
    rfl
  obtain ⟨hanswer, hbacked⟩ := play_unanswered none w f rfl
  rw [hfound] at hanswer hbacked
  exact ⟨hanswer, hbacked, h.2⟩

/-- Locks in a rehearsal without cues are locks in memory. -/
theorem leases_alike : LeaseStore.Alike Mirrors leases MemoryStore.leases where
  link := link_mirrors
  eval script key arguments w w' h := by
    obtain ⟨hbacked, heval, hrest⟩ := h
    simp only [leases, record, heval, List.head?_nil, List.tail_nil]
    refine Mirrors.play ⟨?_, ?_⟩ _
    · exact ⟨hbacked.now, hbacked.memory, hbacked.journal⟩
    · exact ⟨rfl, hrest⟩
  remaining key w w' h := by
    obtain ⟨hbacked, heval, hremaining, hlimit⟩ := h
    simp only [leases, hremaining, List.head?_nil, List.tail_nil]
    refine Mirrors.play ⟨?_, ?_⟩ _
    · exact ⟨hbacked.now, hbacked.memory, hbacked.journal⟩
    · exact ⟨heval, rfl, hlimit⟩

theorem Mirrors.playLimit (h : Mirrors w w') (call : StoreCall)
    (f : Instant → MemoryStore → Outcome StoreError Bool × MemoryStore) :
    Session.Same Mirrors (playLimit w call f) (w'.onStore f) := by
  obtain ⟨hbacked, heval, hremaining, hlimit⟩ := h
  simp only [Rehearsal.playLimit, record, hlimit, List.head?_nil, List.tail_nil]
  refine Mirrors.play ⟨?_, ?_⟩ f
  · exact ⟨hbacked.now, hbacked.memory, hbacked.journal⟩
  · exact ⟨heval, hremaining, rfl⟩

theorem limits_alike : LimitStore.Alike Mirrors limits MemoryStore.limits where
  link := link_mirrors
  setIfAbsent _ _ _ _ _ h := h.playLimit _ _
  deleteIfEqual _ _ _ _ h := h.playLimit _ _
  expireIfEqual _ _ _ _ _ h := h.playLimit _ _

end Uncued

/-! ## Calls -/

def callOf (v : Visit) : StoreCall := .eval v.script v.key v.arguments

theorem calls_eval (script : LockScript) (key : String) (arguments : List String) (w : Session Rehearsal) :
    (leases.eval script key arguments w).2.store.calls = w.store.calls.push (.eval script key arguments) :=
  play_calls ..

theorem calls_remaining (key : String) (w : Session Rehearsal) :
    (leases.remaining key w).2.store.calls = w.store.calls :=
  play_calls ..

/-- A rehearsal keeps the calls that a witness sees, after those it has kept before. -/
theorem leases_watched (before : List StoreCall) :
    LeaseStore.Alike (fun w w' => w = w'.unwatched ∧ w.store.calls.toList = before ++ w'.store.visits.map callOf)
      leases leases.watched where
  link :=
    { now := fun h => congrArg Session.now h.1
      note := fun line h => ⟨congrArg (Session.note · line) h.1, h.2⟩
      sleep := fun d h => ⟨congrArg (Session.sleep · d) h.1, h.2⟩ }
  eval script key arguments w w' h := by
    obtain ⟨rfl, hcalls⟩ := h
    refine ⟨rfl, rfl, ?_⟩
    have hvisits : (leases.watched.eval script key arguments w').2.store.visits =
        w'.store.visits ++ [leases.visit script key arguments w'.unwatched] := rfl
    rw [calls_eval, Array.toList_push, hcalls, hvisits, List.map_append, List.append_assoc]
    rfl
  remaining key w w' h := by
    obtain ⟨rfl, hcalls⟩ := h
    refine ⟨rfl, rfl, ?_⟩
    rw [calls_remaining, hcalls]
    rfl

end Rehearsal
end Leasehold
