import Leasehold.Proofs.Lock.Bystanders

/-!
# What a guard finds

A guard is obtained with an attempt that was granted, and with it a record for
one term. Until the guard ends, others can neither end this record nor make
another one with its token. So the guard finds its record if less than a term
has passed, and else none of its own, whoever has the key by then.
-/

namespace Leasehold

/-- The store passes on the answers of a memory store, in whatever state others have left that. It
may also fail by itself. -/
def LeaseStore.Fronts {σ : Type} (store : LeaseStore σ) (memory : σ → MemoryStore) : Prop :=
  ∀ (script : LockScript) (key : String) (arguments : List String) (w : Session σ) (reply : Reply),
    (store.eval script key arguments w).1 = .ok reply →
      ∃ s : MemoryStore, s.eval (store.eval script key arguments w).2.now key script arguments =
        (.ok reply, memory (store.eval script key arguments w).2.store)

theorem MemoryStore.leases_fronts : leases.Fronts id := by
  intro script key arguments w reply h
  exact ⟨w.store, Prod.ext h rfl⟩

namespace Lock

section Granted

variable {σ : Type} {store : LeaseStore σ} {memory : σ → MemoryStore} {l : Lock}
  {w w' : Session σ}

theorem record_of_attempt (hfront : store.Fronts memory) {count : Nat}
    (h : l.attempt store count w = (.ok true, w')) :
    (memory w'.store).live? w'.now l.key = some ⟨l.token.text, w'.now + l.term.nanos⟩ := by
  obtain ⟨reply, hcall, hok⟩ := (Take.granted_iff store l w (.waiting count)).mp
    (Outcome.isGranted_iff.mpr (congrArg Prod.fst h))
  have hstate := l.attempt_state store count w
  rw [h] at hstate
  obtain ⟨hnow, hstore⟩ := Prod.mk.inj hstate
  obtain ⟨s, hs⟩ := hfront _ _ _ _ _ hcall
  obtain ⟨hanswer, hshows⟩ := s.eval_agrees (l.acquireCall store w).2.now l.key .acquire
    [l.token.text, Numeral.ofNat l.expiryMillis]
  rw [hnow, hstore]
  unfold acquireCall at hanswer hshows ⊢
  rw [hs] at hanswer hshows
  have hrecord := Ledger.record_of_acquire hanswer.symm hok
  refine (congrFun hshows l.key).trans ?_
  rw [Ledger.current_apply, hrecord, Option.filter_some]
  exact if_pos (decide_eq_true (Nat.lt_add_of_pos_right l.term_pos))

theorem record_of_acquireGuard (hfront : store.Fronts memory) {g : Guard}
    (h : l.acquireGuard store w = (.ok g, w')) :
    g = ⟨l, false⟩ ∧
      (memory w'.store).live? w'.now l.key = some ⟨l.token.text, w'.now + l.term.nanos⟩ := by
  obtain ⟨hanswer, rfl⟩ := Prod.mk.inj h
  obtain ⟨count, w₀, answer, -, hattempt, hverdict⟩ :=
    @acquireWithin_last σ store l w (fun _ => True) trivial fun _ _ _ _ _ => trivial
  obtain ⟨_, hgranted, rfl⟩ := Outcome.map_eq_ok.mp hanswer
  rw [hverdict.mp hgranted] at hattempt
  exact ⟨rfl, record_of_attempt hfront hattempt⟩

theorem acquireGuard_of_acquire (h : (l.acquire store w).1 = .ok true) :
    (l.acquireGuard store w).1 = .ok ⟨l, false⟩ := by
  have hattempt : l.attempt store (min (0 + 1) attemptLimit) w = (.ok true, (l.attempt store 1 w).2) :=
    Prod.ext ((l.attempt_eq_ok_true store 1 w).mpr h) rfl
  rw [acquireGuard_fst, acquireWithin, poll_of_granted hattempt]
  rfl

end Granted

section Released

variable {l : Lock} {w : Session MemoryStore}

theorem release_of_held {r : Record} (hr : w.store.live? w.now l.key = some r)
    (hmine : r.value = l.token.text) :
    (l.release MemoryStore.leases w).1 = .ok true ∧
      (l.release MemoryStore.leases w).2.now = w.now ∧
      (l.release MemoryStore.leases w).2.store.live? w.now l.key = none ∧
      ∀ k, k ≠ l.key →
        (l.release MemoryStore.leases w).2.store.live? w.now k = w.store.live? w.now k := by
  obtain ⟨hanswer, hnow, hledger⟩ := l.release_leases w
  rcases (w.store.ledger w.now).release_cases w.now l.key l.token.text with
    ⟨-, -, -, he⟩ | ⟨hother, -⟩
  · rw [he] at hanswer hledger
    refine ⟨hanswer, hnow, ?_, ?_⟩
    · refine (congrFun hledger l.key).trans ?_
      rw [Ledger.current_apply]
      simp
    · intro k hk
      refine (congrFun hledger k).trans ?_
      exact (Ledger.current_update _ _ _ hk _).trans (congrFun (w.store.ledger_current w.now) k)
  · exact absurd hmine (hother r hr)

theorem release_of_lost (hlost : ∀ r, w.store.live? w.now l.key = some r → r.value ≠ l.token.text) :
    ∃ s : MemoryStore, s.live? w.now = w.store.live? w.now ∧
      l.release MemoryStore.leases w = (.ok false, Session.note { w with store := s }
        (.warn ("Lock " ++ l.key ++ " was not held by this owner at release"))) := by
  obtain ⟨hanswer, hshows⟩ := w.store.eval_agrees w.now l.key .release [l.token.text]
  rcases (w.store.ledger w.now).release_cases w.now l.key l.token.text with
    ⟨r, hr, hmine, -⟩ | ⟨-, he⟩
  · exact absurd hmine (hlost r hr)
  · rw [he] at hanswer hshows
    have hcall : MemoryStore.leases.eval .release l.key [l.token.text] w = (.ok (.int 0),
        { w with store := (w.store.eval w.now l.key .release [l.token.text]).2 }) :=
      Prod.ext hanswer rfl
    refine ⟨_, hshows.trans (w.store.ledger_current w.now), ?_⟩
    rw [release, hcall]
    rfl

end Released
end Lock

namespace Contest

variable {ι : Type} [DecidableEq ι] {c : Contenders ι}

/-- While others move, a record for a term from an instant on is what there is of an owner, and
is there for just this term. -/
theorem found_iff (s : Contest ι) {moves : List (Move c)} {i : ι}
    (hothers : ∀ move ∈ moves, move.who? ≠ some i) {deadline : Instant}
    (hrecord : s.ledger (c.key i) = some ⟨(c.token i).text, deadline⟩) {r : Record}
    (hmine : r.value = (c.token i).text) :
    (moves.foldl (step c) s).ledger (c.key i) = some r ↔
      r = ⟨(c.token i).text, deadline⟩ ∧ (moves.foldl (step c) s).session.now < deadline := by
  rw [s.foldl_foreign hothers hmine, hrecord, Option.some.injEq]
  constructor
  · rintro ⟨rfl, hlive⟩
    exact ⟨rfl, hlive⟩
  · rintro ⟨rfl, hlive⟩
    exact ⟨rfl, hlive⟩

end Contest

namespace Guard

section Ended

variable {l : Lock} {w : Session MemoryStore}

theorem end_of_held {r : Record} (hr : w.store.live? w.now l.key = some r)
    (hmine : r.value = l.token.text) :
    let released := (Guard.mk l false).release MemoryStore.leases w
    let dropped := (Guard.mk l false).drop MemoryStore.leases w
    released.1 = .ok () ∧ released.2 = dropped ∧ dropped.now = w.now ∧
      dropped.store.live? w.now l.key = none ∧
      ∀ k, k ≠ l.key → dropped.store.live? w.now k = w.store.live? w.now k := by
  intro released dropped
  obtain ⟨hanswer, hnow, hgone, hothers⟩ := Lock.release_of_held hr hmine
  have hcall : l.release MemoryStore.leases w = (.ok true, (l.release MemoryStore.leases w).2) :=
    Prod.ext hanswer rfl
  have hreleased : released = (.ok (), (l.release MemoryStore.leases w).2) := by
    simp only [released, release_eq, Lock.releaseStrict_eq, hanswer]
  have hdropped : dropped = (l.release MemoryStore.leases w).2 := by
    simp only [dropped, drop]
    rw [hcall]
    rfl
  rw [hreleased, hdropped]
  exact ⟨rfl, rfl, hnow, hgone, hothers⟩

theorem end_of_lost (hlost : ∀ r, w.store.live? w.now l.key = some r → r.value ≠ l.token.text) :
    let released := (Guard.mk l false).release MemoryStore.leases w
    let dropped := (Guard.mk l false).drop MemoryStore.leases w
    released.1 = .error (.notHeld l.key) ∧ released.2.state = dropped.state ∧
      dropped.now = w.now ∧ dropped.store.live? w.now = w.store.live? w.now ∧
      dropped.journal =
        (w.journal.push (.warn ("Lock " ++ l.key ++ " was not held by this owner at release"))).push
          (.warn ("Lock " ++ l.key ++ " was lost before its guard was dropped")) := by
  intro released dropped
  obtain ⟨s, hs, hcall⟩ := Lock.release_of_lost hlost
  have hreleased : released = (.error (.notHeld l.key), (l.release MemoryStore.leases w).2) := by
    simp only [released, release_eq, Lock.releaseStrict_eq, hcall]
  have hdropped : dropped = (l.release MemoryStore.leases w).2.note
      (.warn ("Lock " ++ l.key ++ " was lost before its guard was dropped")) := by
    simp only [dropped, drop]
    rw [hcall]
    rfl
  rw [hreleased, hdropped, hcall]
  exact ⟨rfl, rfl, rfl, hs, rfl⟩

end Ended

/-- A guard's verdict depends only on time. Whatever other owners have done since the lock was
guarded, and whoever has the key by now: if less than a term has passed the guard finds its own
record and removes it, and else it finds none, reports the loss when it is released, notes it when
it is dropped, and changes nothing. The record of another owner is never touched. -/
theorem verdict_by_time {ι σ : Type} [DecidableEq ι] (c : Contenders ι) (i : ι)
    {store : LeaseStore σ} {memory : σ → MemoryStore} (hfront : store.Fronts memory)
    {w w' : Session σ} {g : Guard} (hguard : (c.lock i).acquireGuard store w = (.ok g, w'))
    (moves : List (Move c)) (hothers : ∀ move ∈ moves, move.who? ≠ some i) :
    let term := (c.lock i).term.nanos
    let start : Contest ι := ⟨⟨w'.now, memory w'.store, w'.journal⟩, fun _ => none⟩
    let found := (moves.foldl (Contest.step c) start).session
    let waited := found.now - w'.now
    let released := g.release MemoryStore.leases found
    let dropped := g.drop MemoryStore.leases found
    w'.now ≤ found.now ∧
    released.1 = (if waited < term then .ok () else .error (.notHeld (c.key i))) ∧
    released.2.state = dropped.state ∧ dropped.now = found.now ∧
    (waited < term →
      found.store.live? found.now (c.key i) = some ⟨(c.token i).text, w'.now + term⟩ ∧
        dropped.store.live? found.now (c.key i) = none) ∧
    (term ≤ waited →
      (∀ key, dropped.store.live? found.now key = found.store.live? found.now key) ∧
        dropped.journal =
          (found.journal.push (.warn ("Lock " ++ c.key i ++ " was not held by this owner at release"))).push
            (.warn ("Lock " ++ c.key i ++ " was lost before its guard was dropped"))) ∧
    ∀ key r, found.store.live? found.now key = some r → r.value ≠ (c.token i).text →
      dropped.store.live? found.now key = some r := by
  intro term start found waited released dropped
  obtain ⟨rfl, hrecord⟩ := Lock.record_of_acquireGuard hfront hguard
  have hclock : w'.now ≤ found.now := start.clock_le_foldl moves
  have hfound (r : Record) (hmine : r.value = (c.token i).text) :=
    start.found_iff hothers hrecord hmine
  have hwaited : waited < term ↔ found.now < w'.now + term :=
    Nat.sub_lt_iff_lt_add' hclock
  refine ⟨hclock, ?_⟩
  -- the record is there for just the term, so time alone tells the two ways to end a guard apart
  by_cases hlive : found.now < w'.now + term
  · have hown := (hfound _ rfl).mpr ⟨rfl, hlive⟩
    obtain ⟨hanswer, hsame, hnow, hgone, hrest⟩ := end_of_held (l := c.lock i) (w := found) hown rfl
    refine ⟨hanswer.trans (if_pos (hwaited.mpr hlive)).symm, congrArg Session.state hsame, hnow,
      fun _ => ⟨hown, hgone⟩, fun h => absurd (hwaited.mpr hlive) (Nat.not_lt.mpr h), ?_⟩
    intro key r hr hforeign
    -- at the guard's key there is the guard's own record, so this one is elsewhere
    have hkey : key ≠ c.key i := by
      rintro rfl
      cases hown.symm.trans hr
      exact hforeign rfl
    exact (hrest key hkey).trans hr
  · have hlost (r : Record) (hr : found.store.live? found.now (c.key i) = some r) :
        r.value ≠ (c.token i).text :=
      fun hmine => hlive ((hfound r hmine).mp hr).2
    obtain ⟨hanswer, hsame, hnow, hstore, hjournal⟩ := end_of_lost (l := c.lock i) (w := found) hlost
    refine ⟨hanswer.trans (if_neg (mt hwaited.mp hlive)).symm, hsame, hnow,
      fun h => absurd (hwaited.mp h) hlive, fun _ => ⟨congrFun hstore, hjournal⟩, ?_⟩
    intro key r hr _
    exact (congrFun hstore key).trans hr

/-- A guard with a term of ten and a half seconds. After ten the other owner is refused and the
guard still has its key; after eleven the key is the other owner's and stays so. -/
theorem verdict_by_time_twice :
    let g : Guard := ⟨Contenders.pair.lock false, false⟩
    let w := (g.lock.acquireGuard MemoryStore.leases (Session.start .empty)).2
    let moves (seconds : Nat) : List (Move .pair) :=
      [.access (.advance (Duration.ofSeconds seconds)) nofun, .take .once true .answered]
    let found (seconds : Nat) : Session MemoryStore :=
      ((moves seconds).foldl (Contest.step .pair) ⟨w, fun _ => none⟩).session
    (g.release MemoryStore.leases (found 10)).1 = .ok () ∧
    (g.drop MemoryStore.leases (found 10)).store.live? (found 10).now "door" = none ∧
    (g.release MemoryStore.leases (found 11)).1 = .error (.notHeld "door") ∧
    (g.drop MemoryStore.leases (found 11)).store.live? (found 11).now "door" =
      some ⟨(Contenders.pair.token true).text, 21500000000⟩ := by
  intro g w moves found
  have hgranted : (g.lock.acquire MemoryStore.leases (Session.start .empty)).1.isGranted = true := by
    decide +kernel
  have hguard : g.lock.acquireGuard MemoryStore.leases (Session.start .empty) = (.ok g, w) :=
    Prod.ext (Lock.acquireGuard_of_acquire (Outcome.isGranted_iff.mp hgranted)) rfl
  have hothers (seconds : Nat) : ∀ move ∈ moves seconds, move.who? ≠ some false := by
    simp [moves, Move.who?]
  obtain ⟨-, hheld, -, -, hgone, -⟩ :=
    verdict_by_time .pair false MemoryStore.leases_fronts hguard (moves 10) (hothers 10)
  obtain ⟨-, hlost, -, -, -, -, htaken⟩ :=
    verdict_by_time .pair false MemoryStore.leases_fronts hguard (moves 11) (hothers 11)
  refine ⟨hheld.trans (if_pos ?_), (hgone ?_).2, hlost.trans (if_neg ?_), htaken "door" _ ?_ ?_⟩
  · decide +kernel
  · decide +kernel
  · decide +kernel
  · decide +kernel
  · decide +kernel

end Guard
end Leasehold
