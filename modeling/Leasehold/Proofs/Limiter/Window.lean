import Leasehold.Proofs.Lock.Exclusion

/-!
# Windows of limiters

A key is occupied from the set that took it, for as long as the limiter of
the last set or refresh says, unless it is deleted before. All of this can be
read off a book of the calls and their success. The book foretells every
answer of every limiter, whatever others with other windows have tried in
between: at each instant the store shows the record that the book implies.
-/

namespace Leasehold

deriving instance DecidableEq for Claim

namespace Limiter

/-- A call to a limiter, as a book keeps it. -/
structure Entry where
  time : Instant
  limiter : Limiter
  claim : Claim
  key : String
  value : String
  granted : Bool

namespace Entry

variable (e : Entry)

/-- Whether the call was about the key, asked for one of the claims, and succeeded. -/
def did (claims : List Claim) (key : String) : Bool :=
  e.granted && (e.key == key && claims.contains e.claim)

def windowEnd : Instant := e.time + e.limiter.expiry.nanos

end Entry

/-- The calls so far, the latest first. -/
abbrev Book := List Entry

namespace Book

variable (b : Book) (key value : String) (now : Instant)

def lastSet? : Option Entry := b.find? fun e => e.did [.set] key

/-- The last call that has started a window, be it by a set or by a refresh. -/
def lastStart? : Option Entry := b.find? fun e => e.did [.set, .refresh] key

/-- Whether a deletion has succeeded since the last set did. -/
def deleted : Bool := (b.takeWhile fun e => !e.did [.set] key).any fun e => e.did [.delete] key

/-- No set has succeeded, or a deletion has since the last one, or the window is over. -/
def Vacant : Prop :=
  (∀ e ∈ b, e.did [.set] key = false) ∨ b.deleted key = true ∨
    ∃ e ∈ b.lastStart? key, e.windowEnd ≤ now

/-- The key is not vacant, and the last set has given it the value. -/
def OccupiedBy : Prop := ¬ b.Vacant key now ∧ ∃ e ∈ b.lastSet? key, e.value = value

instance : Decidable (b.Vacant key now) := inferInstanceAs (Decidable (_ ∨ _ ∨ _))

instance : Decidable (b.OccupiedBy key value now) := inferInstanceAs (Decidable (_ ∧ _))

/-- The record that the calls have left under the key, expired or not. -/
def record? : Option Record :=
  if b.deleted key then none
  else (b.lastSet? key).bind fun e => (b.lastStart? key).map fun e' => ⟨e.value, e'.windowEnd⟩

variable {b key value now}

theorem lastStart?_isSome {e : Entry} (h : b.lastSet? key = some e) :
    ∃ e', b.lastStart? key = some e' := by
  refine Option.isSome_iff_exists.mp (List.find?_isSome.mpr ⟨e, List.mem_of_find?_eq_some h, ?_⟩)
  have hset := List.find?_some h
  simp only [Entry.did, Bool.and_eq_true, List.contains_eq_mem, List.mem_singleton,
    decide_eq_true_eq] at hset
  simp [Entry.did, hset]

theorem lastSet?_eq_none : b.lastSet? key = none ↔ ∀ e ∈ b, e.did [.set] key = false := by
  simp [lastSet?]

theorem record?_eq_some {r : Record} :
    b.record? key = some r ↔
      b.deleted key = false ∧ ∃ e e', b.lastSet? key = some e ∧ b.lastStart? key = some e' ∧
        r = ⟨e.value, e'.windowEnd⟩ := by
  unfold record?
  cases b.deleted key with
  | true => simp
  | false =>
    rw [if_neg Bool.false_ne_true, Option.bind_eq_some_iff]
    simp only [Option.map_eq_some_iff, true_and, eq_comm (a := r), exists_and_left]

theorem vacant_iff :
    b.Vacant key now ↔ (b.record? key).filter (fun r => now < r.deadline) = none := by
  unfold Vacant record?
  rw [← lastSet?_eq_none]
  cases b.deleted key with
  | true => simp
  | false =>
    cases hset : b.lastSet? key with
    | none => simp
    | some e =>
      obtain ⟨e', hstart⟩ := lastStart?_isSome hset
      simp [hstart]

theorem occupiedBy_iff :
    b.OccupiedBy key value now ↔
      ∃ r, (b.record? key).filter (fun r => now < r.deadline) = some r ∧ r.value = value := by
  rw [OccupiedBy, vacant_iff, ← ne_eq, Option.ne_none_iff_exists']
  constructor
  · rintro ⟨⟨r, hr⟩, e, hset, hvalue⟩
    obtain ⟨-, e₁, e₂, hset', -, rfl⟩ := record?_eq_some.mp (Option.filter_eq_some_iff.mp hr).1
    cases hset.symm.trans hset'
    exact ⟨_, hr, hvalue⟩
  · rintro ⟨r, hr, hvalue⟩
    obtain ⟨-, e₁, e₂, hset, -, rfl⟩ := record?_eq_some.mp (Option.filter_eq_some_iff.mp hr).1
    exact ⟨⟨_, hr⟩, e₁, hset, hvalue⟩

theorem record?_cons_other {e : Entry} (h : ∀ claims, e.did claims key = false) :
    record? (e :: b) key = b.record? key := by
  simp [record?, deleted, lastSet?, lastStart?, h]

theorem record?_cons_set {e : Entry} (hgranted : e.granted = true) (hclaim : e.claim = .set) :
    record? (e :: b) e.key = some ⟨e.value, e.windowEnd⟩ := by
  simp [record?, deleted, lastSet?, lastStart?, Entry.did, hgranted, hclaim]

theorem record?_cons_delete {e : Entry} (hgranted : e.granted = true) (hclaim : e.claim = .delete) :
    record? (e :: b) e.key = none := by
  simp [record?, deleted, Entry.did, hgranted, hclaim]

theorem record?_cons_refresh {e : Entry} (hgranted : e.granted = true) (hclaim : e.claim = .refresh)
    {r : Record} (hr : b.record? e.key = some r) :
    record? (e :: b) e.key = some ⟨r.value, e.windowEnd⟩ := by
  obtain ⟨hdeleted, e₁, e₂, hset, -, rfl⟩ := record?_eq_some.mp hr
  have hno (c : Claim) (hc : c ≠ .refresh) : e.did [c] e.key = false := by
    simp [Entry.did, hclaim, hc.symm]
  have hdeleted' : deleted (e :: b) e.key = false := by
    simpa [deleted, hno] using hdeleted
  have hset' : lastSet? (e :: b) e.key = some e₁ := by
    simpa [lastSet?, hno] using hset
  have hstart : lastStart? (e :: b) e.key = some e := by
    simp [lastStart?, Entry.did, hgranted, hclaim]
  exact record?_eq_some.mpr ⟨hdeleted', e₁, e, hset', hstart, rfl⟩

theorem record?_cons {e : Entry} {x : Option Record} (h : record? (e :: b) e.key = x) :
    record? (e :: b) = Function.update b.record? e.key x := by
  funext k
  by_cases hk : k = e.key
  · subst hk
    rw [Function.update_self, h]
  · rw [Function.update_of_ne hk]
    exact record?_cons_other fun claims => by simp [Entry.did, Ne.symm hk]

end Book

/-! ## What limiters ask of a memory store -/

section Memory

variable (l : Limiter) (key value : String) (w : Session MemoryStore)

theorem set_limits :
    (l.set MemoryStore.limits key value w).1 =
      ((w.store.ledger w.now).setIfAbsent w.now key value l.expiry).1.mapError .transport := by
  rw [set_fst, ← (w.store.setIfAbsent_agrees w.now key value l.expiry).answer]
  rfl

theorem delete_limits :
    (Limiter.delete MemoryStore.limits key value w).1 =
      verdict key (.ok ((w.store.ledger w.now).deleteIfEqual key value).1) := by
  rw [Limiter.delete, expectHeld_fst, ← (w.store.deleteIfEqual_agrees w.now key value).answer]
  rfl

theorem refresh_limits :
    (l.refresh MemoryStore.limits key value w).1 =
      verdict key ((w.store.ledger w.now).expireIfEqual w.now key value l.expiry).1 := by
  rw [refresh, expectHeld_fst, ← (w.store.expireIfEqual_agrees w.now key value l.expiry).answer]
  rfl

end Memory

end Limiter

def Claim.succeeds {σ : Type} (store : LimitStore σ) (l : Limiter) (key value : String)
    (w : Session σ) : Claim → Bool
  | set => (l.set store key value w).1.isGranted
  | delete => ((Limiter.delete store key value w).1.map fun _ => true).isGranted
  | refresh => ((l.refresh store key value w).1.map fun _ => true).isGranted

namespace Claim

/-- Whether a key with the record, or without one, is for the taking. -/
def Admits (r : Option Record) (value : String) : Claim → Prop
  | set => r = none
  | delete => ∃ x, r = some x ∧ x.value = value
  | refresh => ∃ x, r = some x ∧ x.value = value

/-- What a successful call leaves under its key. -/
def leaves (now : Instant) (l : Limiter) (value : String) : Claim → Option Record
  | set => some ⟨value, now + l.expiry.nanos⟩
  | delete => none
  | refresh => some ⟨value, now + l.expiry.nanos⟩

variable (claim : Claim) (l : Limiter) (key value : String)

theorem succeeds_iff (w : Session MemoryStore) :
    claim.succeeds MemoryStore.limits l key value w = true ↔
      ((w.store.ledger w.now).perform w.now (claim.access l key value)).1 = .ok (.flag true) := by
  cases claim with
  | set =>
    rw [succeeds, Limiter.set_limits, access, Ledger.perform]
    rcases ((w.store.ledger w.now).setIfAbsent w.now key value l.expiry).1 with b | _ | _ <;>
      simp [Outcome.isGranted]
  | delete =>
    rw [succeeds, Limiter.delete_limits, access, Ledger.perform]
    cases ((w.store.ledger w.now).deleteIfEqual key value).1 <;>
      simp [Outcome.isGranted, Limiter.verdict]
  | refresh =>
    rw [succeeds, Limiter.refresh_limits, access, Ledger.perform]
    rcases ((w.store.ledger w.now).expireIfEqual w.now key value l.expiry).1 with (_ | _) | _ | _ <;>
      simp [Outcome.isGranted, Limiter.verdict]

theorem write_answer_cases (m : Ledger) (now : Instant) (ttl : Duration) :
    ((m.write now key value ttl true).1.map Answer.flag = .ok (.flag true) ∧
      (m.write now key value ttl true).2 =
        Function.update m key (some ⟨value, now + ttl.nanos⟩)) ∨
    ((m.write now key value ttl true).1.map Answer.flag ≠ .ok (.flag true) ∧
      (m.write now key value ttl true).2 = m) := by
  rcases Nat.lt_or_ge (now + ttl.nanos) Instant.clockEnd with hfits | hfits
  · rw [Ledger.write_of_lt hfits]
    exact Or.inl ⟨rfl, rfl⟩
  · rw [Ledger.write_of_le hfits]
    exact Or.inr ⟨nofun, rfl⟩

/-- A call succeeds where the key admits it, and leaves its record; or it changes nothing. -/
theorem perform_cases (m : Ledger) (now : Instant) :
    ((m.perform now (claim.access l key value)).1 = .ok (.flag true) ∧
      (m.perform now (claim.access l key value)).2.2 =
        Function.update m key (claim.leaves now l value) ∧ claim.Admits (m key) value) ∨
    ((m.perform now (claim.access l key value)).1 ≠ .ok (.flag true) ∧
      (m.perform now (claim.access l key value)).2.2 = m) := by
  cases claim with
  | set =>
    simp only [access, Ledger.perform]
    rcases m.setIfAbsent_cases now key value l.expiry with ⟨hnone, he⟩ | ⟨-, he⟩
    · rw [he]
      rcases write_answer_cases key value m now l.expiry with ⟨hok, hm⟩ | hno
      · exact Or.inl ⟨hok, hm, hnone⟩
      · exact Or.inr hno
    · rw [he]
      exact Or.inr ⟨by simp, rfl⟩
  | delete =>
    simp only [access, Ledger.perform]
    rcases m.deleteIfEqual_cases key value with ⟨r, hr, hvalue, he⟩ | ⟨-, he⟩
    · rw [he]
      exact Or.inl ⟨rfl, rfl, r, hr, hvalue⟩
    · rw [he]
      exact Or.inr ⟨by simp, rfl⟩
  | refresh =>
    simp only [access, Ledger.perform]
    rcases m.expireIfEqual_cases now key value l.expiry with ⟨r, hr, hvalue, he⟩ | ⟨-, he⟩
    · rw [he]
      rcases write_answer_cases key value m now l.expiry with ⟨hok, hm⟩ | hno
      · exact Or.inl ⟨hok, hm, r, hr, hvalue⟩
      · exact Or.inr hno
    · rw [he]
      exact Or.inr ⟨by simp, rfl⟩

end Claim

theorem Claim.run_ledger (claim : Claim) (l : Limiter) (key value : String) (w : Session MemoryStore) :
    (claim.run w MemoryStore.limits l key value).now = w.now ∧
      (claim.run w MemoryStore.limits l key value).store.ledger w.now =
        ((w.store.ledger w.now).perform w.now (claim.access l key value)).2.2.current w.now := by
  obtain ⟨hnow, hstore⟩ := Prod.mk.inj (claim.run_state l key value w)
  obtain ⟨-, -, hshows⟩ := (claim.access l key value).run_ledger w.now w.store
  cases claim <;> exact ⟨hnow, by rw [hstore]; exact hshows⟩

namespace Limiter

/-- What comes to a desk: a call to some limiter, or the passing of time. -/
inductive Visit where
  | call (claim : Claim) (limiter : Limiter) (key value : String)
  | advance (d : Duration)

/-- A store that limiters share, and the book of their calls. -/
structure Desk where
  session : Session MemoryStore
  book : Book

namespace Desk

def start (now : Instant) (journal : Array Line) : Desk := ⟨⟨now, .empty, journal⟩, []⟩

def step (s : Desk) : Visit → Desk
  | .call claim l key value =>
    { session := claim.run s.session MemoryStore.limits l key value
      book := ⟨s.session.now, l, claim, key, value,
        claim.succeeds MemoryStore.limits l key value s.session⟩ :: s.book }
  | .advance d => { s with session := s.session.sleep d }

def run (s : Desk) (visits : List Visit) : Desk := visits.foldl step s

def Shows (s : Desk) : Prop :=
  s.session.store.ledger s.session.now = Ledger.current s.book.record? s.session.now

variable {s : Desk} {e : Entry} {w : Session MemoryStore}

theorem Shows.failed (hs : s.Shows) (he : e.granted = false) (hnow : w.now = s.session.now)
    (hledger : w.store.ledger s.session.now =
      (s.session.store.ledger s.session.now).current s.session.now) :
    Shows ⟨w, e :: s.book⟩ := by
  have hrecord : Book.record? (e :: s.book) = s.book.record? :=
    funext fun k => Book.record?_cons_other fun claims => by simp [Entry.did, he]
  unfold Shows at hs ⊢
  rw [hnow, hledger, hrecord, hs, Ledger.current_current]

theorem Shows.granted (hs : s.Shows) {x : Option Record} (hnow : w.now = s.session.now)
    (hledger : w.store.ledger s.session.now =
      Ledger.current (Function.update (s.session.store.ledger s.session.now) e.key x) s.session.now)
    (hx : Book.record? (e :: s.book) e.key = x) : Shows ⟨w, e :: s.book⟩ := by
  unfold Shows at hs ⊢
  rw [hnow, hledger, Book.record?_cons hx, hs, Ledger.current_update_current]

theorem Shows.record? (hs : s.Shows) {key : String} {r : Record}
    (hr : s.session.store.ledger s.session.now key = some r) : s.book.record? key = some r := by
  rw [hs, Ledger.current_apply] at hr
  exact (Option.filter_eq_some_iff.mp hr).1

theorem Shows.call (hs : s.Shows) (claim : Claim) (l : Limiter) (key value : String) :
    Shows (s.step (.call claim l key value)) := by
  obtain ⟨hnow, hledger⟩ := claim.run_ledger l key value s.session
  have hsucceeds := claim.succeeds_iff l key value s.session
  rcases claim.perform_cases l key value (s.session.store.ledger s.session.now) s.session.now with
    ⟨hok, hm, hadmits⟩ | ⟨hno, hm⟩
  · have hgranted := hsucceeds.mpr hok
    rw [hm] at hledger
    refine hs.granted hnow hledger ?_
    cases claim with
    | set => exact Book.record?_cons_set hgranted rfl
    | delete => exact Book.record?_cons_delete hgranted rfl
    | refresh =>
      -- The value in the book is the one that the store has compared, so the set before it stands.
      obtain ⟨r, hr, rfl⟩ := hadmits
      exact Book.record?_cons_refresh hgranted rfl (hs.record? hr)
  · rw [hm] at hledger
    exact hs.failed (Bool.eq_false_iff.mpr fun h => hno (hsucceeds.mp h)) hnow hledger

theorem Shows.step (hs : s.Shows) (visit : Visit) : Shows (s.step visit) := by
  cases visit with
  | call claim l key value => exact hs.call claim l key value
  | advance d =>
    have hlater : s.session.now ≤ s.session.now + d.nanos := Nat.le_add_right ..
    unfold Shows at hs ⊢
    exact (s.session.store.ledger_later _ hlater).trans
      ((congrArg (Ledger.current · _) hs).trans (Ledger.current_later _ _ hlater))

theorem Shows.run (hs : s.Shows) (visits : List Visit) : (s.run visits).Shows := by
  induction visits generalizing s with
  | nil => exact hs
  | cons visit visits ih => exact ih (hs.step visit)

/-- The answer to a call that starts a window, if the clock reaches its end. -/
def opened {ε α : Type} (l : Limiter) (now : Instant) (answer : α) : Outcome ε α :=
  if now + l.expiry.nanos < Instant.clockEnd then .ok answer else .clockOverflow

theorem write_opened {α : Type} (m : Ledger) (now : Instant) (l : Limiter) (key value : String)
    (answer : α) : (m.write now key value l.expiry answer).1 = opened l now answer := by
  unfold opened
  split_ifs with hfits
  · rw [Ledger.write_of_lt hfits]
  · rw [Ledger.write_of_le (Nat.not_lt.mp hfits)]

theorem Shows.vacant_iff (hs : s.Shows) (key : String) :
    s.book.Vacant key s.session.now ↔ s.session.store.ledger s.session.now key = none := by
  rw [Book.vacant_iff, hs, Ledger.current_apply]

theorem Shows.occupiedBy_iff (hs : s.Shows) (key value : String) :
    s.book.OccupiedBy key value s.session.now ↔
      ∃ r, s.session.store.ledger s.session.now key = some r ∧ r.value = value := by
  rw [Book.occupiedBy_iff, hs, Ledger.current_apply]

variable (l : Limiter) (key value : String)

theorem Shows.set_answer (hs : s.Shows) :
    (l.set MemoryStore.limits key value s.session).1 =
      if s.book.Vacant key s.session.now then opened l s.session.now true else .ok false := by
  have hvacant := hs.vacant_iff key
  rw [set_limits]
  rcases (s.session.store.ledger s.session.now).setIfAbsent_cases s.session.now key value l.expiry with
    ⟨hnone, he⟩ | ⟨⟨r, hr⟩, he⟩
  · rw [if_pos (hvacant.mpr hnone), he, write_opened]
    unfold opened
    split_ifs <;> rfl
  · have hno : ¬ s.book.Vacant key s.session.now := fun h =>
      Option.some_ne_none r (hr.symm.trans (hvacant.mp h))
    rw [if_neg hno, he]
    rfl

theorem Shows.delete_answer (hs : s.Shows) :
    (Limiter.delete MemoryStore.limits key value s.session).1 =
      if s.book.OccupiedBy key value s.session.now then .ok () else .error (.limitMismatch key) := by
  have hoccupied := hs.occupiedBy_iff key value
  rw [delete_limits]
  rcases (s.session.store.ledger s.session.now).deleteIfEqual_cases key value with
    ⟨r, hr, hvalue, he⟩ | ⟨hother, he⟩
  · rw [if_pos (hoccupied.mpr ⟨r, hr, hvalue⟩), he]
    rfl
  · have hno : ¬ s.book.OccupiedBy key value s.session.now := fun h =>
      (hoccupied.mp h).elim fun r hr => hother r hr.1 hr.2
    rw [if_neg hno, he]
    rfl

theorem Shows.refresh_answer (hs : s.Shows) :
    (l.refresh MemoryStore.limits key value s.session).1 =
      if s.book.OccupiedBy key value s.session.now then opened l s.session.now ()
      else .error (.limitMismatch key) := by
  have hoccupied := hs.occupiedBy_iff key value
  rw [refresh_limits]
  rcases (s.session.store.ledger s.session.now).expireIfEqual_cases s.session.now key value l.expiry with
    ⟨r, hr, hvalue, he⟩ | ⟨hother, he⟩
  · rw [if_pos (hoccupied.mpr ⟨r, hr, hvalue⟩), he, write_opened]
    unfold opened
    split_ifs <;> rfl
  · have hno : ¬ s.book.OccupiedBy key value s.session.now := fun h =>
      (hoccupied.mp h).elim fun r hr => hother r hr.1 hr.2
    rw [if_neg hno, he]
    rfl

/-- A limiter admits one unit of work per window. After any calls of any limiters, a set succeeds just
if the book shows the key vacant; a deletion and a refresh, just if it shows the key occupied by their
value, and else they report a mismatch. -/
theorem one_per_window (now : Instant) (journal : Array Line) (visits : List Visit) (l : Limiter)
    (key value : String) :
    let s := (start now journal).run visits
    let n := s.session.now
    (l.set MemoryStore.limits key value s.session).1 =
        (if s.book.Vacant key n then opened l n true else .ok false) ∧
      (Limiter.delete MemoryStore.limits key value s.session).1 =
        (if s.book.OccupiedBy key value n then .ok () else .error (.limitMismatch key)) ∧
      (l.refresh MemoryStore.limits key value s.session).1 =
        (if s.book.OccupiedBy key value n then opened l n () else .error (.limitMismatch key)) := by
  intro s n
  have hstart : (start now journal).Shows := rfl
  have hs : s.Shows := hstart.run visits
  exact ⟨hs.set_answer l key value, hs.delete_answer key value, hs.refresh_answer l key value⟩

/-- A refresh by a limiter with a shorter window ends the window of the longer one. -/
example :
    let long : Limiter := ⟨Duration.ofSeconds 9, by decide⟩
    let short : Limiter := ⟨Duration.ofSeconds 2, by decide⟩
    let s := (start 0 #[]).run
      [.call .set long "door" "a", .call .refresh short "door" "a", .advance (Duration.ofSeconds 2)]
    s.book.Vacant "door" s.session.now := by
  decide

end Desk
end Limiter
end Leasehold
