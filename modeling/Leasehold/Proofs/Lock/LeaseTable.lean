import Leasehold.Proofs.Lock.Contenders
import Mathlib.Tactic.SplitIfs

/-!
# The lease table

An abstract lock service says of each key who holds it and until when. It
knows owners, not tokens; exact deadlines, not texts of milliseconds; and it
never forgets a hold that is over. Handles over a memory store answer every
run of requests as the table does: at each instant the store shows the tokens
of the holds that are not over.
-/

namespace Leasehold

/-- Who holds a key, and until when. -/
inductive Hold (ι : Type) where
  | free
  | held (owner : ι) (deadline : Instant)

/-- What an owner asks for, or the passing of time. -/
inductive Request (ι : Type) where
  | acquire (who : ι)
  | release (who : ι)
  | releaseStrict (who : ι)
  | remaining (who : ι)
  | advance (d : Duration)

def Request.duration {ι : Type} : Request ι → Nat
  | advance d => d.nanos
  | _ => 0

def Request.durations {ι : Type} : List (Request ι) → Nat
  | [] => 0
  | request :: requests => request.duration + durations requests

/-- What is heard of a request. The rest of a lease is told in nanoseconds. -/
inductive Heard where
  | flag (answer : Outcome LockError Bool)
  | verdict (answer : Outcome LockError Unit)
  | rest (answer : Outcome LockError (Option Nat))
  | nothing

namespace Hold

variable {ι : Type} [DecidableEq ι] (h : Hold ι) (who : ι) (now : Instant)

def admits : Bool :=
  match h with
  | free => true
  | held owner deadline => owner = who || deadline ≤ now

def heldBy : Bool :=
  match h with
  | free => false
  | held owner deadline => owner = who && now < deadline

def rest : Option Nat :=
  match h with
  | free => none
  | held _ deadline => if now < deadline then some (deadline - now) else none

end Hold

/-- The abstract lock service. -/
structure LeaseTable (ι : Type) where
  now : Instant
  hold : String → Hold ι

namespace LeaseTable

variable {ι : Type} [DecidableEq ι] (c : Contenders ι)

def start (now : Instant) : LeaseTable ι := ⟨now, fun _ => .free⟩

def acquire (t : LeaseTable ι) (i : ι) : Bool × LeaseTable ι :=
  if (t.hold (c.key i)).admits i t.now then
    (true, { t with
      hold := Function.update t.hold (c.key i) (.held i (t.now + (c.lock i).term.nanos)) })
  else (false, t)

def release (t : LeaseTable ι) (i : ι) : Bool × LeaseTable ι :=
  if (t.hold (c.key i)).heldBy i t.now then
    (true, { t with hold := Function.update t.hold (c.key i) .free })
  else (false, t)

def answer (t : LeaseTable ι) : Request ι → Heard × LeaseTable ι
  | .acquire i => (t.acquire c i).map (.flag ∘ .ok) id
  | .release i => (t.release c i).map (.flag ∘ .ok) id
  | .releaseStrict i =>
    (t.release c i).map (fun held => .verdict (if held then .ok () else .error (.notHeld (c.key i)))) id
  | .remaining i => (.rest (.ok ((t.hold (c.key i)).rest t.now)), t)
  | .advance d => (.nothing, { t with now := t.now + d.nanos })

def answers : LeaseTable ι → List (Request ι) → List Heard
  | _, [] => []
  | t, request :: requests => (t.answer c request).1 :: answers (t.answer c request).2 requests

/-- The clock reaches every deadline in the table. -/
def Bounded (t : LeaseTable ι) : Prop :=
  ∀ key i deadline, t.hold key = .held i deadline → deadline < Instant.clockEnd

/-- The clock reaches every deadline that the requests set. -/
def Fits : LeaseTable ι → List (Request ι) → Prop
  | _, [] => True
  | t, request :: requests => (t.answer c request).2.Bounded ∧ Fits (t.answer c request).2 requests

def serve (w : Session MemoryStore) : Request ι → Heard × Session MemoryStore
  | .acquire i => ((c.lock i).acquire MemoryStore.leases w).map .flag id
  | .release i => ((c.lock i).release MemoryStore.leases w).map .flag id
  | .releaseStrict i => ((c.lock i).releaseStrict MemoryStore.leases w).map .verdict id
  | .remaining i =>
    ((c.lock i).remainingLease MemoryStore.leases w).map
      (fun life => .rest (life.map (Option.map Duration.nanos))) id
  | .advance d => (.nothing, w.sleep d)

def serveAll : Session MemoryStore → List (Request ι) → List Heard
  | _, [] => []
  | w, request :: requests => (serve c w request).1 :: serveAll (serve c w request).2 requests

end LeaseTable

/-- The record of a hold, over or not. -/
def Contenders.record {ι : Type} (c : Contenders ι) : Hold ι → Option Record
  | .free => none
  | .held i deadline => some ⟨(c.token i).text, deadline⟩

namespace LeaseTable

variable {ι : Type} (c : Contenders ι) (t : LeaseTable ι)

/-- The records of the holds that are not over. -/
def ledger : Ledger := Ledger.current (c.record ∘ t.hold) t.now

variable {c t}

theorem ledger_eq_some {key : String} {r : Record} :
    t.ledger c key = some r ↔
      ∃ i deadline, t.hold key = .held i deadline ∧ t.now < deadline ∧
        r = ⟨(c.token i).text, deadline⟩ := by
  rw [ledger, Ledger.current_apply, Option.filter_eq_some_iff, Function.comp_apply]
  cases t.hold key with
  | free => simp [Contenders.record]
  | held i deadline =>
    constructor
    · rintro ⟨hr, hlive⟩
      cases hr
      exact ⟨i, deadline, rfl, of_decide_eq_true hlive, rfl⟩
    · rintro ⟨j, later, hhold, hlive, rfl⟩
      cases hhold
      exact ⟨rfl, decide_eq_true hlive⟩

theorem admits_iff [DecidableEq ι] {key : String} {i : ι} :
    (t.hold key).admits i t.now = true ↔
      ∀ r, t.ledger c key = some r → r.value = (c.token i).text := by
  constructor
  · intro h r hr
    obtain ⟨j, deadline, hhold, hlive, rfl⟩ := ledger_eq_some.mp hr
    rw [hhold] at h
    simp only [Hold.admits, Bool.or_eq_true, decide_eq_true_eq] at h
    rcases h with rfl | hover
    · rfl
    · exact absurd hlive (Nat.not_lt.mpr hover)
  · intro h
    cases hhold : t.hold key with
    | free => rfl
    | held j deadline =>
      simp only [Hold.admits, Bool.or_eq_true, decide_eq_true_eq]
      rcases Nat.lt_or_ge t.now deadline with hlive | hover
      · have hvalue := h _ (ledger_eq_some.mpr ⟨j, deadline, hhold, hlive, rfl⟩)
        exact Or.inl (c.eq_of_token_eq j i hvalue)
      · exact Or.inr hover

theorem heldBy_iff [DecidableEq ι] {key : String} {i : ι} :
    (t.hold key).heldBy i t.now = true ↔
      ∃ r, t.ledger c key = some r ∧ r.value = (c.token i).text := by
  constructor
  · intro h
    cases hhold : t.hold key with
    | free =>
      rw [hhold] at h
      cases h
    | held j deadline =>
      rw [hhold] at h
      simp only [Hold.heldBy, Bool.and_eq_true, decide_eq_true_eq] at h
      obtain ⟨rfl, hlive⟩ := h
      exact ⟨_, ledger_eq_some.mpr ⟨j, deadline, hhold, hlive, rfl⟩, rfl⟩
  · rintro ⟨r, hr, hvalue⟩
    obtain ⟨j, deadline, hhold, hlive, rfl⟩ := ledger_eq_some.mp hr
    rw [hhold]
    simp only [Hold.heldBy, Bool.and_eq_true, decide_eq_true_eq]
    exact ⟨c.eq_of_token_eq j i hvalue, hlive⟩

variable (c)

theorem rest_eq (key : String) :
    (t.hold key).rest t.now = (t.ledger c key).map fun r => r.deadline - t.now := by
  rw [ledger, Ledger.current_apply, Function.comp_apply]
  cases t.hold key with
  | free => rfl
  | held i deadline =>
    by_cases hlive : t.now < deadline
    · simp [Hold.rest, Contenders.record, Option.filter_some, hlive]
    · simp [Hold.rest, Contenders.record, Option.filter_some, hlive]

theorem ledger_update (key : String) (h : Hold ι) :
    ledger c { t with hold := Function.update t.hold key h } =
      Ledger.current (Function.update (t.ledger c) key (c.record h)) t.now := by
  simp only [ledger, Ledger.current_update_current, Function.comp_update]

theorem Bounded.free (hb : t.Bounded) (key : String) :
    Bounded { t with hold := Function.update t.hold key .free } := by
  intro k i deadline hhold
  by_cases hk : k = key
  · subst hk
    simp at hhold
  · simp only [Function.update_of_ne hk] at hhold
    exact hb k i deadline hhold

structure Shows (w : Session MemoryStore) (t : LeaseTable ι) : Prop where
  now : w.now = t.now
  ledger : w.store.ledger w.now = t.ledger c
  bounded : t.Bounded

variable {c} {w : Session MemoryStore}

theorem Shows.update {w' : Session MemoryStore} (hs : Shows c w t) {key : String} {h : Hold ι}
    (hnow : w'.now = w.now)
    (hledger : w'.store.ledger w.now =
      Ledger.current (Function.update (w.store.ledger w.now) key (c.record h)) w.now)
    (hbounded : Bounded { t with hold := Function.update t.hold key h }) :
    Shows c w' { t with hold := Function.update t.hold key h } where
  now := hnow.trans hs.now
  ledger := by
    rw [ledger_update, hnow, hledger, hs.ledger, hs.now]
  bounded := hbounded

theorem Shows.keep {w' : Session MemoryStore} (hs : Shows c w t) (hnow : w'.now = w.now)
    (hledger : w'.store.ledger w.now = (w.store.ledger w.now).current w.now) : Shows c w' t where
  now := hnow.trans hs.now
  ledger := by
    rw [hnow, hledger, MemoryStore.ledger_current, hs.ledger]
  bounded := hs.bounded

theorem Shows.acquire [DecidableEq ι] (hs : Shows c w t) (i : ι)
    (hfits : (t.acquire c i).2.Bounded) :
    ((c.lock i).acquire MemoryStore.leases w).1 = .ok (t.acquire c i).1 ∧
      Shows c ((c.lock i).acquire MemoryStore.leases w).2 (t.acquire c i).2 := by
  obtain ⟨hanswer, hnow, hledger⟩ := (c.lock i).acquire_leases w
  rcases (w.store.ledger w.now).lock_acquire_cases w.now (c.lock i) with
    ⟨r, hr, hother, he⟩ | ⟨hfree, he⟩
  · have hadmits : ¬ (t.hold (c.key i)).admits i t.now = true := by
      intro h
      rw [hs.ledger] at hr
      exact hother (admits_iff.mp h r hr)
    rw [he] at hanswer hledger
    have ht : t.acquire c i = (false, t) := if_neg hadmits
    rw [ht]
    exact ⟨hanswer, hs.keep hnow hledger⟩
  · have hadmits : (t.hold (c.key i)).admits i t.now = true := by
      rw [hs.ledger] at hfree
      exact admits_iff.mpr hfree
    have ht : t.acquire c i = (true, { t with
        hold := Function.update t.hold (c.key i) (.held i (t.now + (c.lock i).term.nanos)) }) :=
      if_pos hadmits
    rw [ht] at hfits ⊢
    have hlt : w.now + (c.lock i).term.nanos < Instant.clockEnd := by
      rw [hs.now]
      exact hfits (c.key i) i _ (Function.update_self ..)
    rw [he, Ledger.write_of_lt hlt] at hanswer hledger
    refine ⟨hanswer, hs.update hnow ?_ hfits⟩
    rw [← hs.now]
    exact hledger

theorem Shows.release [DecidableEq ι] (hs : Shows c w t) (i : ι) :
    ((c.lock i).release MemoryStore.leases w).1 = .ok (t.release c i).1 ∧
      Shows c ((c.lock i).release MemoryStore.leases w).2 (t.release c i).2 := by
  obtain ⟨hanswer, hnow, hledger⟩ := (c.lock i).release_leases w
  rcases (w.store.ledger w.now).release_cases w.now (c.lock i).key (c.lock i).token.text with
    ⟨r, hr, hown, he⟩ | ⟨hother, he⟩
  · have hheld : (t.hold (c.key i)).heldBy i t.now = true := by
      rw [hs.ledger] at hr
      exact heldBy_iff.mpr ⟨r, hr, hown⟩
    rw [he] at hanswer hledger
    have ht : t.release c i =
        (true, { t with hold := Function.update t.hold (c.key i) .free }) := if_pos hheld
    rw [ht]
    exact ⟨hanswer, hs.update hnow hledger (hs.bounded.free (c.key i))⟩
  · have hheld : ¬ (t.hold (c.key i)).heldBy i t.now = true := by
      intro h
      obtain ⟨r, hr, hown⟩ := heldBy_iff.mp h
      rw [← hs.ledger] at hr
      exact hother r hr hown
    rw [he] at hanswer hledger
    have ht : t.release c i = (false, t) := if_neg hheld
    rw [ht]
    exact ⟨hanswer, hs.keep hnow hledger⟩

theorem Shows.remaining (hs : Shows c w t) (i : ι) :
    let r := (c.lock i).remainingLease MemoryStore.leases w
    r.1.map (Option.map Duration.nanos) = .ok ((t.hold (c.key i)).rest t.now) ∧ Shows c r.2 t := by
  have hview := w.store.remaining_agrees w.now (c.key i)
  refine ⟨?_, hs.keep rfl hview.shows⟩
  have hanswer : ((c.lock i).remainingLease MemoryStore.leases w).1 =
      .ok ((w.store.ledger w.now).remaining w.now (c.key i)) :=
    congrArg (fun rest => (Outcome.ok rest).mapError LockError.transport) hview.answer
  rw [hanswer, Outcome.map_ok, Ledger.remaining, hs.ledger, rest_eq c, Option.map_map, hs.now]
  congr 1
  cases hr : t.ledger c (c.key i) with
  | none => rfl
  | some r =>
    obtain ⟨j, deadline, hhold, -, rfl⟩ := ledger_eq_some.mp hr
    have hdeadline := hs.bounded _ _ _ hhold
    exact congrArg some (Instant.nanos_since hdeadline)

theorem Shows.advance (hs : Shows c w t) (d : Duration) :
    Shows c (w.sleep d) { t with now := t.now + d.nanos } where
  now := congrArg (· + d.nanos) hs.now
  ledger := by
    have hlater : w.now ≤ w.now + d.nanos := Nat.le_add_right ..
    rw [Session.now_sleep, Session.store_sleep, w.store.ledger_later _ hlater, hs.ledger, hs.now]
    exact Ledger.current_later _ _ (Nat.le_add_right ..)
  bounded := hs.bounded

theorem Shows.tell {α β : Type} {f : α → Heard} {g : β → Heard} {r : α × Session MemoryStore}
    {x : β × LeaseTable ι} (hanswer : f r.1 = g x.1) (hshows : Shows c r.2 x.2) :
    (r.map f id).1 = (x.map g id).1 ∧ Shows c (r.map f id).2 (x.map g id).2 :=
  ⟨hanswer, hshows⟩

variable [DecidableEq ι]

theorem Shows.serve (hs : Shows c w t) (request : Request ι)
    (hfits : (t.answer c request).2.Bounded) :
    (serve c w request).1 = (t.answer c request).1 ∧
      Shows c (serve c w request).2 (t.answer c request).2 := by
  cases request with
  | acquire i =>
    rw [answer, Prod.map_snd, id_eq] at hfits
    obtain ⟨hanswer, hshows⟩ := hs.acquire i hfits
    rw [LeaseTable.serve, answer]
    exact Shows.tell (congrArg Heard.flag hanswer) hshows
  | release i =>
    obtain ⟨hanswer, hshows⟩ := hs.release i
    rw [LeaseTable.serve, answer]
    exact Shows.tell (congrArg Heard.flag hanswer) hshows
  | releaseStrict i =>
    obtain ⟨hanswer, hshows⟩ := hs.release i
    rw [LeaseTable.serve, answer, Lock.releaseStrict_eq, hanswer]
    refine Shows.tell ?_ hshows
    cases (t.release c i).1 <;> rfl
  | remaining i =>
    obtain ⟨hanswer, hshows⟩ := hs.remaining i
    rw [LeaseTable.serve, answer]
    exact ⟨congrArg Heard.rest hanswer, hshows⟩
  | advance d => exact ⟨rfl, hs.advance d⟩

theorem Shows.serveAll (hs : Shows c w t) (requests : List (Request ι)) (hfits : t.Fits c requests) :
    serveAll c w requests = t.answers c requests := by
  induction requests generalizing w t with
  | nil => rfl
  | cons request requests ih =>
    obtain ⟨hbounded, hrest⟩ := hfits
    obtain ⟨hanswer, hshows⟩ := hs.serve request hbounded
    rw [LeaseTable.serveAll, answers, hanswer, ih hshows hrest]

theorem Bounded.acquire (hb : t.Bounded) {i : ι}
    (h : t.now + (c.lock i).term.nanos < Instant.clockEnd) : (t.acquire c i).2.Bounded := by
  unfold LeaseTable.acquire
  split_ifs
  · intro k j deadline hhold
    by_cases hk : k = c.key i
    · subst hk
      simp only [Function.update_self] at hhold
      cases hhold
      exact h
    · simp only [Function.update_of_ne hk] at hhold
      exact hb k j deadline hhold
  · exact hb

theorem Bounded.release (hb : t.Bounded) (i : ι) : (t.release c i).2.Bounded := by
  unfold LeaseTable.release
  split_ifs
  · exact hb.free (c.key i)
  · exact hb

theorem now_answer (c : Contenders ι) (t : LeaseTable ι) (request : Request ι) :
    (t.answer c request).2.now = t.now + request.duration := by
  cases request with
  | acquire i =>
    rw [answer, Prod.map_snd, id_eq, acquire]
    split_ifs <;> rfl
  | release i =>
    rw [answer, Prod.map_snd, id_eq, release]
    split_ifs <;> rfl
  | releaseStrict i =>
    rw [answer, Prod.map_snd, id_eq, release]
    split_ifs <;> rfl
  | remaining i => rfl
  | advance d => rfl

theorem Bounded.answer (hb : t.Bounded) (request : Request ι)
    (h : ∀ i, t.now + (c.lock i).term.nanos < Instant.clockEnd) :
    (t.answer c request).2.Bounded := by
  cases request with
  | acquire i =>
    rw [LeaseTable.answer, Prod.map_snd, id_eq]
    exact hb.acquire (h i)
  | release i => exact hb.release i
  | releaseStrict i => exact hb.release i
  | remaining i => exact hb
  | advance d => exact hb

/-- Requests fit when the clock has room for any term after all of them. -/
theorem fits_of_room {requests : List (Request ι)} (hb : t.Bounded)
    (hroom : ∀ i, t.now + Request.durations requests + (c.lock i).term.nanos <
      Instant.clockEnd) : t.Fits c requests := by
  induction requests generalizing t with
  | nil => trivial
  | cons request requests ih =>
    simp only [Request.durations, ← Nat.add_assoc] at hroom
    have hfirst : (t.answer c request).2.Bounded := by
      refine hb.answer request fun i => Nat.lt_of_le_of_lt ?_ (hroom i)
      exact Nat.add_le_add_right (Nat.le_trans (Nat.le_add_right ..) (Nat.le_add_right ..)) _
    refine ⟨hfirst, ih hfirst ?_⟩
    rw [now_answer]
    exact hroom

/-- Handles over an empty memory store answer as the lease table does. -/
theorem serveAll_eq_answers (c : Contenders ι) (now : Instant) (journal : Array Line)
    (requests : List (Request ι)) (hfits : (start now).Fits c requests) :
    serveAll c ⟨now, .empty, journal⟩ requests = (start now).answers c requests := by
  have hstart : Shows c ⟨now, .empty, journal⟩ (start now) := by
    refine ⟨rfl, ?_, ?_⟩
    · rfl
    · intro key i deadline h
      cases h
  exact hstart.serveAll requests hfits

/-- Two owners in turn, the first of them too late to give back what it took. -/
theorem serveAll_pair :
    let requests : List (Request Bool) :=
      [.acquire false, .acquire true, .remaining true, .advance (Duration.ofSeconds 11),
        .acquire true, .release false, .releaseStrict true]
    (start 0).Fits .pair requests ∧
      serveAll .pair ⟨0, .empty, #[]⟩ requests = (start 0).answers .pair requests := by
  intro requests
  have hfits : (start 0).Fits Contenders.pair requests := by
    refine fits_of_room (fun key i deadline h => nomatch h) ?_
    intro i
    rw [Lock.nanos_term]
    decide +revert
  exact ⟨hfits, serveAll_eq_answers .pair 0 #[] requests hfits⟩

end LeaseTable
end Leasehold
