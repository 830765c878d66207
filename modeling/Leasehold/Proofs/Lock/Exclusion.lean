import Leasehold.Proofs.Lock.Contenders
import Leasehold.Proofs.Store.Fate
import Leasehold.Proofs.Store.Frame

/-!
# Mutual exclusion

Owners of contending locks act on one memory store in any order, and every
call may be refused or its answer lost. An owner believes in its lock from the
last attempt that it heard was granted, until it gives the lock back or the
term of that attempt is over. Whoever believes has its token on the key: the
record found there was written no earlier than the grant, so it lasts at least
as long as the belief, and no other owner can name its value. A call that was
carried out but went unheard only writes the record anew or takes away a
belief that was given up before the call.
-/

namespace Leasehold

/-- How an owner tries to take its lock: once, or for the given time while it waits. -/
inductive Take where
  | once
  | waiting (count : Nat)

inductive Give where
  | plain
  | strict
  | guard
  | drop

inductive Claim where
  | set
  | delete
  | refresh

section Calls

variable {σ : Type} (store : LeaseStore σ) (l : Lock) (w : Session σ)

/-- Whether the owner hears that it has the lock, and the session after the attempt. -/
def Take.run : Take → Bool × Session σ
  | once => ((l.acquire store w).1.isGranted, (l.acquire store w).2)
  | waiting count => ((l.attempt store count w).1.isGranted, (l.attempt store count w).2)

def Give.run : Give → Session σ
  | plain => (l.release store w).2
  | strict => (l.releaseStrict store w).2
  | guard => ((Guard.mk l false).release store w).2
  | drop => (Guard.mk l false).drop store w

def Claim.run (store : LimitStore σ) (l : Limiter) (key value : String) : Claim → Session σ
  | set => (l.set store key value w).2
  | delete => (Limiter.delete store key value w).2
  | refresh => (l.refresh store key value w).2

theorem Take.granted_iff (how : Take) :
    (how.run store l w).1 = true ↔ ∃ reply, (l.acquireCall store w).1 = .ok reply ∧ reply.isOk = true := by
  have hacquire : (l.acquire store w).1 = .ok true ↔
      ∃ reply, (l.acquireCall store w).1 = .ok reply ∧ reply.isOk = true := by
    rw [l.acquire_fst]
    rcases (l.acquireCall store w).1 with _ | _ | _ <;> simp
  cases how with
  | once => exact Outcome.isGranted_iff.trans hacquire
  | waiting count =>
    exact Outcome.isGranted_iff.trans ((l.attempt_eq_ok_true store count w).trans hacquire)

theorem Take.run_state (how : Take) :
    (how.run store l w).2.state = (l.acquireCall store w).2.state := by
  cases how with
  | once => exact l.acquire_state store w
  | waiting count => exact l.attempt_state store count w

theorem Give.run_state (how : Give) :
    (how.run store l w).state = (l.releaseCall store w).2.state := by
  cases how with
  | plain => exact l.release_state store w
  | strict =>
    simp only [run, l.releaseStrict_eq]
    exact l.release_state store w
  | guard => exact Guard.release_state store w ⟨l, false⟩
  | drop => exact Guard.drop_state store l w

end Calls

def Claim.access (l : Limiter) (key value : String) : Claim → Access
  | set => .setIfAbsent key value l.expiry
  | delete => .deleteIfEqual key value
  | refresh => .expireIfEqual key value l.expiry

theorem Claim.run_state (claim : Claim) (l : Limiter) (key value : String) (w : Session MemoryStore) :
    (claim.run w MemoryStore.limits l key value).state =
      ((claim.access l key value).run w.now w.store).2 := by
  cases claim with
  | set => exact l.set_state _ _ _ _
  | delete => exact Limiter.delete_state _ _ _ _
  | refresh => exact l.refresh_state _ _ _ _

theorem Access.value?_claim (claim : Claim) (l : Limiter) (key value : String) :
    (claim.access l key value).value? = some value := by
  cases claim <;> rfl

/-- One move of an owner, or of somebody else who does not know any owner's token. -/
inductive Move {ι : Type} (c : Contenders ι) where
  | take (how : Take) (who : ι) (fate : Fate StoreError)
  | give (how : Give) (who : ι) (fate : Fate StoreError)
  | limit (claim : Claim) (limiter : Limiter) (key value : String)
      (foreign : ∀ i, value ≠ (c.token i).text)
  /-- A direct access to the store, or the passing of time. -/
  | access (a : Access) (foreign : ∀ i, a.value? ≠ some (c.token i).text)

namespace Move

variable {ι : Type} {c : Contenders ι}

def who? : Move c → Option ι
  | take _ who _ => some who
  | give _ who _ => some who
  | limit .. => none
  | access .. => none

/-- What the move comes to in the store, if it reaches the store. -/
def access? : Move c → Option Access
  | take _ who fate =>
    if fate.reaches then
      some (.eval .acquire (c.lock who).key
        [(c.lock who).token.text, Numeral.ofNat (c.lock who).expiryMillis])
    else none
  | give _ who fate =>
    if fate.reaches then some (.eval .release (c.lock who).key [(c.lock who).token.text]) else none
  | limit claim limiter key value _ => some (claim.access limiter key value)
  | access a _ => some a

theorem value?_ne {move : Move c} {i : ι} (hwho : move.who? ≠ some i) {a : Access}
    (ha : move.access? = some a) : a.value? ≠ some (c.token i).text := by
  cases move with
  | take how who fate =>
    have hi : who ≠ i := fun h => hwho (congrArg some h)
    obtain ⟨-, ha⟩ := Option.ite_none_right_eq_some.mp ha
    cases ha
    exact fun h => c.token_ne hi (Option.some.inj h)
  | give how who fate =>
    have hi : who ≠ i := fun h => hwho (congrArg some h)
    obtain ⟨-, ha⟩ := Option.ite_none_right_eq_some.mp ha
    cases ha
    exact fun h => c.token_ne hi (Option.some.inj h)
  | limit claim limiter key value foreign =>
    cases ha
    rw [Access.value?_claim]
    exact fun h => foreign i (Option.some.inj h)
  | access a foreign =>
    cases ha
    exact foreign i

end Move

/-- A session in a memory store, and when each owner that has not given its lock back since was
last heard to be granted it. -/
structure Contest (ι : Type) where
  session : Session MemoryStore
  granted : ι → Option Instant

namespace Contest

variable {ι : Type} [DecidableEq ι] (c : Contenders ι)

def start : Contest ι := ⟨Session.start .empty, fun _ => none⟩

def step (s : Contest ι) : Move c → Contest ι
  | .take how who fate =>
    let r := how.run (MemoryStore.leases.under fate) (c.lock who) s.session
    { session := r.2
      granted := if r.1 then Function.update s.granted who (some s.session.now) else s.granted }
  | .give how who fate =>
    { session := how.run (MemoryStore.leases.under fate) (c.lock who) s.session
      granted := Function.update s.granted who none }
  | .limit claim limiter key value _ =>
    { s with session := claim.run s.session MemoryStore.limits limiter key value }
  | .access a _ =>
    let r := a.run s.session.now s.session.store
    { s with session := { s.session with now := r.2.1, store := r.2.2 } }

def run (moves : List (Move c)) : Contest ι := moves.foldl (step c) start

/-- The owner has heard of a grant whose term is not over, and has not given the lock back. -/
def Believes (s : Contest ι) (i : ι) : Prop :=
  ∃ t, s.granted i = some t ∧ s.session.now < t + (c.lock i).term.nanos

variable {c}

/-- A call to the store is an access if it reaches the store, and nothing if it does not. -/
theorem under_eval_state (fate : Fate StoreError) (script : LockScript) (key : String)
    (arguments : List String) (w : Session MemoryStore) :
    ((MemoryStore.leases.under fate).eval script key arguments w).2.state =
      if fate.reaches then ((Access.eval script key arguments).run w.now w.store).2 else w.state := by
  cases fate <;> rfl

theorem answered_eval (script : LockScript) (key : String) (arguments : List String)
    (w : Session MemoryStore) :
    ((MemoryStore.leases.under .answered).eval script key arguments w).1 =
      ((w.store.ledger w.now).eval w.now key script arguments).1 :=
  (w.store.eval_agrees w.now key script arguments).answer

theorem under_eval_eq_ok {fate : Fate StoreError} {script : LockScript} {key : String}
    {arguments : List String} {w : Session MemoryStore} {reply : Reply}
    (h : ((MemoryStore.leases.under fate).eval script key arguments w).1 = .ok reply) :
    fate = .answered ∧
      ((w.store.ledger w.now).eval w.now key script arguments).1 = .ok reply := by
  obtain ⟨rfl, -⟩ := Fate.apply_eq_ok h
  exact ⟨rfl, (answered_eval script key arguments w).symm.trans h⟩

def ledger (s : Contest ι) : Ledger := s.session.store.ledger s.session.now

theorem step_state (s : Contest ι) (move : Move c) :
    (step c s move).session.state =
      match move.access? with
      | some a => (a.run s.session.now s.session.store).2
      | none => s.session.state := by
  cases move with
  | take how who fate =>
    refine (how.run_state _ _ _).trans ((under_eval_state ..).trans ?_)
    cases h : fate.reaches <;> simp only [Move.access?, h] <;> rfl
  | give how who fate =>
    refine (how.run_state _ _ _).trans ((under_eval_state ..).trans ?_)
    cases h : fate.reaches <;> simp only [Move.access?, h] <;> rfl
  | limit claim limiter key value foreign => exact claim.run_state limiter key value s.session
  | access a foreign => rfl

theorem step_idle (s : Contest ι) {move : Move c} (h : move.access? = none) :
    (step c s move).session.now = s.session.now ∧ (step c s move).ledger = s.ledger := by
  have hstate := s.step_state move
  rw [h] at hstate
  obtain ⟨hnow, hstore⟩ := Prod.mk.inj hstate
  exact ⟨hnow, by unfold ledger; rw [hnow, hstore]⟩

theorem step_access (s : Contest ι) {move : Move c} {a : Access} (h : move.access? = some a) :
    (step c s move).session.now = (s.ledger.run s.session.now a).2.1 ∧
      (step c s move).ledger = (s.ledger.run s.session.now a).2.2 := by
  have hstate := s.step_state move
  rw [h] at hstate
  obtain ⟨hnow, hstore⟩ := Prod.mk.inj hstate
  obtain ⟨-, hclock, hshows⟩ := a.run_ledger s.session.now s.session.store
  refine ⟨hnow.trans hclock, ?_⟩
  unfold ledger
  rw [hnow, hstore, hshows]

variable (c) in
/-- What is true of an owner at all times: it was granted its lock in the past, and has it for the
whole term of the grant. -/
structure Sound (s : Contest ι) (i : ι) : Prop where
  past : ∀ t, s.granted i = some t → t ≤ s.session.now
  lasts : ∀ t, s.granted i = some t → s.session.now < t + (c.lock i).term.nanos →
    s.ledger.Lasts (c.key i) (c.token i).text (t + (c.lock i).term.nanos)

omit [DecidableEq ι] in
theorem Sound.start (i : ι) : Sound c start i where
  past _ h := nomatch h
  lasts _ h := nomatch h

theorem clock_le_step (s : Contest ι) (move : Move c) : s.session.now ≤ (step c s move).session.now := by
  cases h : move.access? with
  | none => exact Nat.le_of_eq (s.step_idle h).1.symm
  | some a =>
    rw [(s.step_access h).1]
    exact s.ledger.clock_le_run s.session.now a

/-- A grant that a move does not touch outlives a move that does not name the token. -/
theorem Sound.keep {s : Contest ι} {i : ι} (hs : Sound c s i) {move : Move c}
    (hgranted : (step c s move).granted i = s.granted i)
    (hforeign : ∀ a, move.access? = some a → a.value? ≠ some (c.token i).text) :
    Sound c (step c s move) i := by
  have hclock := s.clock_le_step move
  constructor
  · intro t ht
    exact Nat.le_trans (hs.past t (hgranted ▸ ht)) hclock
  · intro t ht hnow
    have hlasts := hs.lasts t (hgranted ▸ ht) (Nat.lt_of_le_of_lt hclock hnow)
    cases h : move.access? with
    | none =>
      rw [(s.step_idle h).2]
      exact hlasts
    | some a =>
      rw [(s.step_access h).1] at hnow
      rw [(s.step_access h).2]
      exact hlasts.run (hforeign a h) hnow

theorem step_take (s : Contest ι) (how : Take) (i : ι) {fate : Fate StoreError}
    (h : fate.reaches = true) :
    (step c s (.take how i fate)).session.now = s.session.now ∧
      (step c s (.take how i fate)).ledger =
        (s.ledger.eval s.session.now (c.lock i).key .acquire
          [(c.lock i).token.text, Numeral.ofNat (c.lock i).expiryMillis]).2.current s.session.now := by
  have haccess : (Move.take how i fate : Move c).access? = some _ := if_pos h
  have hstep := s.step_access haccess
  rw [Ledger.run_eval] at hstep
  exact hstep

theorem granted_take (s : Contest ι) (how : Take) (i : ι) (fate : Fate StoreError) :
    (step c s (.take how i fate)).granted i =
      if (how.run (MemoryStore.leases.under fate) (c.lock i) s.session).1 then some s.session.now
      else s.granted i := by
  simp only [step]
  split_ifs
  · exact Function.update_self ..
  · rfl

/-- An owner that hears of no grant keeps what it had: its record is at most written anew. -/
theorem Sound.take_unheard {s : Contest ι} {i : ι} (hs : Sound c s i) {how : Take}
    {fate : Fate StoreError}
    (hgranted : (step c s (.take how i fate)).granted i = s.granted i) :
    Sound c (step c s (.take how i fate)) i := by
  cases h : fate.reaches with
  | false =>
    have hidle : (Move.take how i fate : Move c).access? = none := by
      simp only [Move.access?, h, Bool.false_eq_true, if_false]
    exact hs.keep hgranted fun a ha => nomatch hidle.symm.trans ha
  | true =>
    obtain ⟨hnow, hledger⟩ := s.step_take (c := c) how i h
    constructor
    · intro t ht
      rw [hnow]
      exact hs.past t (hgranted ▸ ht)
    · intro t ht hlive
      rw [hgranted] at ht
      rw [hnow] at hlive
      rw [hledger]
      have hlater := Nat.add_le_add_right (hs.past t ht) (c.lock i).term.nanos
      exact ((hs.lasts t ht hlive).acquire (l := c.lock i) hlater).current hlive

theorem Sound.take {s : Contest ι} {i : ι} (hs : Sound c s i) (how : Take)
    (fate : Fate StoreError) : Sound c (step c s (.take how i fate)) i := by
  have hgranted := s.granted_take (c := c) how i fate
  cases hheard : (how.run (MemoryStore.leases.under fate) (c.lock i) s.session).1 with
  | false =>
    rw [hheard] at hgranted
    exact hs.take_unheard hgranted
  | true =>
    rw [hheard, if_pos rfl] at hgranted
    obtain ⟨reply, hreply, hok⟩ := (how.granted_iff _ (c.lock i) s.session).mp hheard
    obtain ⟨rfl, hanswer⟩ := under_eval_eq_ok hreply
    have hlasts := Ledger.lasts_of_acquire hanswer hok
    obtain ⟨hnow, hledger⟩ := s.step_take how i (rfl : Fate.answered.reaches = true)
    constructor
    · intro t ht
      cases hgranted.symm.trans ht
      exact Nat.le_of_eq hnow.symm
    · intro t ht hlive
      cases hgranted.symm.trans ht
      rw [hnow] at hlive
      rw [hledger]
      exact hlasts.current hlive

theorem Sound.give {s : Contest ι} {i : ι} (how : Give) (fate : Fate StoreError) :
    Sound c (step c s (.give how i fate)) i := by
  have hgranted : (step c s (.give how i fate)).granted i = none := Function.update_self ..
  constructor
  · intro t ht
    cases hgranted.symm.trans ht
  · intro t ht
    cases hgranted.symm.trans ht

theorem granted_of_who_ne (s : Contest ι) {move : Move c} {i : ι} (hwho : move.who? ≠ some i) :
    (step c s move).granted i = s.granted i := by
  cases move with
  | take how who fate =>
    have hi : i ≠ who := fun h => hwho (congrArg some h.symm)
    simp only [step]
    split_ifs
    · exact Function.update_of_ne hi ..
    · rfl
  | give how who fate =>
    have hi : i ≠ who := fun h => hwho (congrArg some h.symm)
    exact Function.update_of_ne hi ..
  | limit => rfl
  | access => rfl

theorem Sound.step {s : Contest ι} {i : ι} (hs : Sound c s i) (move : Move c) :
    Sound c (step c s move) i := by
  by_cases hwho : move.who? = some i
  · cases move with
    | take how who fate =>
      cases hwho
      exact hs.take how fate
    | give how who fate =>
      cases hwho
      exact .give how fate
    | limit => cases hwho
    | access => cases hwho
  · exact hs.keep (s.granted_of_who_ne hwho) fun a ha => move.value?_ne hwho ha

theorem Sound.run (moves : List (Move c)) (i : ι) : Sound c (run c moves) i := by
  have hfold (s : Contest ι) (hs : Sound c s i) : Sound c (moves.foldl (Contest.step c) s) i := by
    induction moves generalizing s with
    | nil => exact hs
    | cons move moves ih => exact ih _ (hs.step move)
  exact hfold _ (.start i)

/-- An owner that finds its key free, or still its own, comes to believe when it is answered. -/
theorem believes_take {s : Contest ι} {i : ι} (how : Take)
    (hfree : ∀ r, s.ledger (c.key i) = some r → r.value = (c.token i).text)
    (hfits : s.session.now + (c.lock i).term.nanos < Instant.clockEnd) :
    (step c s (.take how i .answered)).Believes c i := by
  have hanswer : ((c.lock i).acquireCall (MemoryStore.leases.under .answered) s.session).1 =
      .ok (.status "OK") := by
    rw [Lock.acquireCall, answered_eval]
    rcases s.ledger.lock_acquire_cases s.session.now (c.lock i) with ⟨r, hr, hv, -⟩ | ⟨-, he⟩
    · exact absurd (hfree r hr) hv
    · exact (congrArg Prod.fst he).trans (congrArg Prod.fst (Ledger.write_of_lt hfits))
  have hheard := (how.granted_iff _ (c.lock i) s.session).mpr ⟨_, hanswer, rfl⟩
  have hgranted := s.granted_take (c := c) how i .answered
  rw [hheard, if_pos rfl] at hgranted
  refine ⟨s.session.now, hgranted, ?_⟩
  rw [(s.step_take how i rfl).1]
  exact Nat.lt_add_of_pos_right (c.lock i).term_pos

/-- Mutual exclusion: whoever believes that it has its lock finds its own token as the live value
of its key, and nobody else believes the same of that key. -/
theorem exclusive (moves : List (Move c)) (i : ι) (hi : (run c moves).Believes c i) :
    (MemoryStore.get (run c moves).session.store (run c moves).session.now (c.key i)).1 =
        some (c.token i).text ∧
      ∀ j, (run c moves).Believes c j → c.key j = c.key i → j = i := by
  have hvalue (j : ι) (hj : (run c moves).Believes c j) :
      (run c moves).ledger.get (c.key j) = some (c.token j).text := by
    obtain ⟨t, ht, hnow⟩ := hj
    obtain ⟨r, hr, hv, -⟩ := (Sound.run moves j).lasts t ht hnow
    rw [Ledger.get, hr, Option.map_some, hv]
  refine ⟨(MemoryStore.get_agrees _ _ _).answer.trans (hvalue i hi), ?_⟩
  intro j hj hkey
  have hj := hvalue j hj
  rw [hkey, hvalue i hi] at hj
  exact (c.eq_of_token_eq i j (Option.some.inj hj)).symm

/-- One owner fails to reach the store, then the other is heard to be granted the key. -/
theorem exclusive_pair :
    let moves : List (Move .pair) :=
      [.take .once true (.refused (.timeout .zero)), .take (.waiting 2) false .answered]
    (run .pair moves).Believes .pair false ∧
      (MemoryStore.get (run .pair moves).session.store (run .pair moves).session.now "door").1 =
          some (Contenders.pair.token false).text ∧
        ∀ j, (run .pair moves).Believes .pair j → Contenders.pair.key j = "door" → j = false := by
  intro moves
  have hidle := start.step_idle
    (rfl : (Move.take .once true (.refused (.timeout .zero)) : Move .pair).access? = none)
  have hbelieves : (run .pair moves).Believes .pair false := by
    refine believes_take (.waiting 2) ?_ ?_
    · intro r hr
      rw [hidle.2] at hr
      cases hr
    · rw [hidle.1, Lock.nanos_term]
      decide
  exact ⟨hbelieves, exclusive moves false hbelieves⟩

end Contest
end Leasehold
