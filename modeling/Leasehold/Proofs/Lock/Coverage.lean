import Leasehold.Proofs.Lock.Bystanders

/-!
# Leases cover what was asked for

The term of a lock is its lease with a tolerance on top, told in whole
milliseconds of at most 64 bits, as a text that the store reads again. What is
cut off on the way is less than the tolerance, so a record outlasts the lease
it was written for. A record with an owner's token was written by this owner,
for the same term and not later than now; so to write it anew never brings its
end forward.
-/

namespace Leasehold

namespace Lock

variable (l : Lock)

/-- The longest term, `2 ^ 64 - 1` milliseconds in nanoseconds. -/
def longestTerm : Nat := 18446744073709551615000000

/-- Neither the end of durations nor the lower bound of milliseconds makes a difference to a term. -/
theorem expiryMillis_eq :
    l.expiryMillis = min ((l.policy.lease.nanos + 500000000) / 1000000) 18446744073709551615 := by
  have hlease := l.policy.lease.nanos_lt
  have htolerance : Policy.tolerance.nanos = 500000000 := Duration.nanos_ofMillis (by omega)
  simp only [expiryMillis, Duration.wholeMillis, Policy.expiry, Duration.add, Duration.ofNanos,
    Duration.limit, htolerance]
  omega

theorem nanos_term_le : l.term.nanos ≤ longestTerm := by
  rw [l.nanos_term, l.expiryMillis_eq, longestTerm]
  omega

/-- A lease that the server's milliseconds can tell is covered, with at most the tolerance on top. -/
theorem lease_le_term (h : l.policy.lease.nanos ≤ longestTerm) :
    l.policy.lease.nanos ≤ l.term.nanos ∧ l.term.nanos ≤ l.policy.lease.nanos + 500000000 := by
  rw [longestTerm] at h
  rw [l.nanos_term, l.expiryMillis_eq]
  omega

theorem lease_lt_term :
    l.policy.lease.nanos + 499000000 < l.term.nanos ∨ l.term.nanos = longestTerm := by
  rw [l.nanos_term, l.expiryMillis_eq, longestTerm]
  omega

theorem term_eq_longestTerm (h : longestTerm < l.policy.lease.nanos) : l.term.nanos = longestTerm := by
  rw [longestTerm] at h
  rw [l.nanos_term, l.expiryMillis_eq, longestTerm]
  omega

theorem acquire_answered {w : Session MemoryStore} (hroom : w.now + l.term.nanos < Instant.clockEnd) :
    ∃ held, (l.acquire MemoryStore.leases w).1 = .ok held ∧
      (held = true ↔ ∀ r, w.store.live? w.now l.key = some r → r.value = l.token.text) ∧
      (held = true → (l.acquire MemoryStore.leases w).2.store.live? w.now l.key =
        some ⟨l.token.text, w.now + l.term.nanos⟩) := by
  obtain ⟨hanswer, -, hledger⟩ := l.acquire_leases w
  rcases (w.store.ledger w.now).lock_acquire_cases w.now l with ⟨r, hr, hother, he⟩ | ⟨hfree, he⟩
  · rw [he] at hanswer
    refine ⟨false, hanswer, ?_, nofun⟩
    exact iff_of_false nofun fun hmine => hother (hmine r hr)
  · rw [he, Ledger.write_of_lt hroom] at hanswer hledger
    refine ⟨true, hanswer, iff_of_true rfl hfree, fun _ => ?_⟩
    have hlives := Nat.lt_add_of_pos_right (n := w.now) l.term_pos
    refine (congrFun hledger l.key).trans ?_
    rw [Ledger.current_apply]
    simp [hlives]

end Lock

namespace Ledger

/-- A record that a lock may have written by now: one with its token ends within a term. -/
def Recent (m : Ledger) (now : Instant) (l : Lock) : Prop :=
  ∀ r, m l.key = some r → r.value = l.token.text → r.deadline ≤ now + l.term.nanos

variable {m : Ledger} {now : Instant} {l : Lock}

theorem Recent.current (h : m.Recent now l) (now' : Instant) : (m.current now').Recent now l := by
  intro r hr hmine
  exact h r (Option.filter_eq_some_iff.mp hr).1 hmine

theorem Recent.eval (h : m.Recent now l) (script : LockScript) :
    (m.eval now l.key script (l.arguments script)).2.Recent now l := by
  cases script with
  | acquire =>
    rcases m.lock_acquire_ends now l with ⟨-, hwritten⟩ | ⟨-, hkept⟩
    · rw [Lock.arguments, hwritten]
      intro r hr hmine
      cases (Function.update_self ..).symm.trans hr
      exact Nat.le_refl _
    · rw [Lock.arguments, hkept]
      exact h
  | release =>
    rcases m.release_cases now l.key l.token.text with ⟨r, -, -, he⟩ | ⟨-, he⟩
    · rw [Lock.arguments, he]
      intro r hr hmine
      cases (Function.update_self ..).symm.trans hr
    · rw [Lock.arguments, he]
      exact h

end Ledger

namespace Contest

variable {ι : Type} [DecidableEq ι] {c : Contenders ι}

/-- No move brings about a record of an owner that ends later than a term from now. -/
theorem recent_step {s : Contest ι} {i : ι} (hs : s.ledger.Recent s.session.now (c.lock i))
    (move : Move c) : (step c s move).ledger.Recent (step c s move).session.now (c.lock i) := by
  by_cases hwho : move.who? = some i
  · rcases move.access?_own hwho with haccess | ⟨script, haccess⟩
    · obtain ⟨hnow, hledger⟩ := s.step_idle haccess
      rw [hnow, hledger]
      exact hs
    · obtain ⟨hnow, hledger⟩ := s.step_access haccess
      rw [hnow, hledger, Ledger.run_eval]
      exact (hs.eval script).current s.session.now
  · intro r hr hmine
    obtain ⟨hr, -⟩ := (s.step_foreign hwho hmine (c.lock i).key).mp hr
    exact Nat.le_trans (hs r hr hmine) (Nat.add_le_add_right (s.clock_le_step move) _)

theorem recent_run (moves : List (Move c)) (i : ι) :
    (run c moves).ledger.Recent (run c moves).session.now (c.lock i) := by
  have hfold (s : Contest ι) (hs : s.ledger.Recent s.session.now (c.lock i)) :
      (moves.foldl (step c) s).ledger.Recent (moves.foldl (step c) s).session.now (c.lock i) := by
    induction moves generalizing s with
    | nil => exact hs
    | cons move moves ih => exact ih _ (recent_step hs move)
  exact hfold _ fun r hr => nomatch hr

/-- An owner's further attempts, be they heard or not, do not bring the end of its record forward. -/
theorem take_keeps_deadline (moves : List (Move c)) (i : ι) (how : Take) (fate : Fate StoreError)
    {r : Record} (hr : (run c moves).ledger (c.key i) = some r) (hmine : r.value = (c.token i).text) :
    (step c (run c moves) (.take how i fate)).ledger.Lasts (c.key i) (c.token i).text r.deadline := by
  have hlasts : (run c moves).ledger.Lasts (c.key i) (c.token i).text r.deadline :=
    ⟨r, hr, hmine, Nat.le_refl _⟩
  cases hfate : fate.reaches with
  | false =>
    have haccess : (Move.take how i fate : Move c).access? = none := by
      simp [Move.access?, hfate]
    rw [((run c moves).step_idle haccess).2]
    exact hlasts
  | true =>
    have hrecent := recent_run moves i r hr hmine
    rw [((run c moves).step_take how i hfate).2]
    exact (hlasts.acquire (l := c.lock i) hrecent).current (MemoryStore.lt_deadline hr)

/-- An attempt of a lock at a memory store is always answered, and the lease is covered. Where the
clock has room for the longest term, the lock is granted unless the key is another's, for exactly
its term; the term is the lease with a tolerance of half a second, less what is cut off below a
millisecond and beyond the longest term. And in no run do an owner's further attempts bring the end
of its record forward. -/
theorem lease_covered (c : Contenders ι) (i : ι) :
    let l := c.lock i
    let lease := (c.policy i).normalized.lease.nanos
    let term := (c.policy i).normalized.expiry.wholeMillis * 1000000
    Lock.make (c.key i) (c.token i) (c.policy i) = .ok l ∧
    (lease ≤ Lock.longestTerm → lease ≤ term ∧ term ≤ lease + 500000000) ∧
    (lease + 499000000 < term ∨ term = Lock.longestTerm) ∧
    (Lock.longestTerm < lease → term = Lock.longestTerm) ∧
    (∀ w : Session MemoryStore, w.now + Lock.longestTerm < Instant.clockEnd →
      ∃ held, (l.acquire MemoryStore.leases w).1 = .ok held ∧
        (held = true ↔ ∀ r, w.store.live? w.now l.key = some r → r.value = l.token.text) ∧
        (held = true → (l.acquire MemoryStore.leases w).2.store.live? w.now l.key =
          some ⟨l.token.text, w.now + term⟩)) ∧
    ∀ (moves : List (Move c)) (how : Take) (fate : Fate StoreError) (r : Record),
      let before := (run c moves).session
      let after := (step c (run c moves) (.take how i fate)).session
      before.store.live? before.now l.key = some r → r.value = l.token.text →
        ∃ r', after.store.live? after.now l.key = some r' ∧ r'.value = l.token.text ∧
          r.deadline ≤ r'.deadline := by
  intro l lease term
  have hterm : l.term.nanos = term := l.nanos_term
  refine ⟨c.make_eq i, ?_, ?_, ?_, ?_, ?_⟩
  · rw [← hterm]
    exact l.lease_le_term
  · rw [← hterm]
    exact l.lease_lt_term
  · rw [← hterm]
    exact l.term_eq_longestTerm
  · intro w hroom
    rw [← hterm]
    have hfits := Nat.lt_of_le_of_lt (Nat.add_le_add_left l.nanos_term_le w.now) hroom
    exact l.acquire_answered hfits
  · intro moves how fate r before after hr hmine
    exact take_keeps_deadline moves i how fate hr hmine

def endless : Contenders Unit where
  key _ := "gate"
  token _ := Token.ofNumber 0
  policy _ := ⟨.longest, .zero, .zero⟩
  key_ne_empty _ := by decide
  eq_of_token_eq _ _ _ := rfl

/-- A lock of ten seconds and one without end: each at a store that is free, and the first again
after a second, when the answer is lost. -/
theorem lease_covered_twice :
    let w := Session.start MemoryStore.empty
    let moves : List (Move .pair) :=
      [.take .once false .answered, .access (.advance (Duration.ofSeconds 1)) nofun]
    let again : Move .pair := .take (.waiting 2) false (.unheard (.timeout .zero))
    let before := (run .pair moves).session
    let after := (step .pair (run .pair moves) again).session
    ((endless.lock ()).acquire MemoryStore.leases w).1 = .ok true ∧
    (endless.policy ()).normalized.expiry.wholeMillis * 1000000 = Lock.longestTerm ∧
    10000000000 ≤ (Contenders.pair.policy false).normalized.expiry.wholeMillis * 1000000 ∧
    before.store.live? before.now "door" = some ⟨(Contenders.pair.token false).text, 10500000000⟩ ∧
    ∃ r', after.store.live? after.now "door" = some r' ∧
      r'.value = (Contenders.pair.token false).text ∧ 10500000000 ≤ r'.deadline := by
  intro w moves again before after
  obtain ⟨-, -, -, hlongest, hanswered, -⟩ := lease_covered endless ()
  obtain ⟨held, hheld, hfree, -⟩ := hanswered w (by decide)
  obtain ⟨-, hcovered, -, -, -, hruns⟩ := lease_covered .pair false
  have hbefore : before.store.live? before.now "door" =
      some ⟨(Contenders.pair.token false).text, 10500000000⟩ := by decide +kernel
  have hgranted : held = true := hfree.mpr fun r hr => nomatch hr
  refine ⟨hgranted ▸ hheld, hlongest (by decide), ?_, hbefore, ?_⟩
  · exact (hcovered (by decide)).1
  · exact hruns moves (.waiting 2) (.unheard (.timeout .zero)) _ hbefore rfl

end Contest
end Leasehold
