import Leasehold.Lock.Guard
import Leasehold.Limiter

/-!
# What locks ask of a store

Each attempt to take a lock and each way of giving it back makes one call to
the store, and reads its verdict off the answer; besides that they only write
to the journal. The same holds of limiters. This is said here once for any
store, so that no later proof follows a handle into its journal lines.
-/

namespace Leasehold

namespace Outcome

variable {ε ε' α β : Type}

@[simp] theorem map_ok (f : α → β) (a : α) : (ok a : Outcome ε α).map f = ok (f a) := rfl

@[simp] theorem map_error (f : α → β) (why : ε) : (error why : Outcome ε α).map f = error why := rfl

@[simp] theorem map_clockOverflow (f : α → β) :
    (clockOverflow : Outcome ε α).map f = clockOverflow := rfl

@[simp] theorem mapError_ok (f : ε → ε') (a : α) : (ok a : Outcome ε α).mapError f = ok a := rfl

@[simp] theorem mapError_error (f : ε → ε') (why : ε) :
    (error why : Outcome ε α).mapError f = error (f why) := rfl

@[simp] theorem mapError_clockOverflow (f : ε → ε') :
    (clockOverflow : Outcome ε α).mapError f = clockOverflow := rfl

theorem map_eq_ok {f : α → β} {o : Outcome ε α} {b : β} :
    o.map f = ok b ↔ ∃ a, o = ok a ∧ f a = b := by
  cases o <;> simp

def isGranted : Outcome ε Bool → Bool
  | ok b => b
  | _ => false

theorem isGranted_iff {o : Outcome ε Bool} : o.isGranted = true ↔ o = ok true := by
  rcases o with _ | _ | _ <;> simp [isGranted]

end Outcome

/-- A session without its journal. -/
def Session.state {σ : Type} (w : Session σ) : Instant × σ := (w.now, w.store)

/-- Whether the reply means that the script has done what it is for. -/
def LockScript.succeeded : LockScript → Reply → Bool
  | acquire, r => r.isOk
  | release, r => decide (r = .int 1)

namespace Lock

variable {σ : Type} (store : LeaseStore σ) (l : Lock) (count : Nat) (w : Session σ)

def acquireCall : Outcome StoreError Reply × Session σ :=
  store.eval .acquire l.key [l.token.text, Numeral.ofNat l.expiryMillis] w

def releaseCall : Outcome StoreError Reply × Session σ :=
  store.eval .release l.key [l.token.text] w

theorem acquire_fst :
    (l.acquire store w).1 = ((l.acquireCall store w).1.map Reply.isOk).mapError .transport := by
  unfold acquire acquireCall
  rcases store.eval .acquire l.key _ w with ⟨_ | _ | _, w'⟩ <;> rfl

theorem acquire_state : (l.acquire store w).2.state = (l.acquireCall store w).2.state := by
  unfold acquire acquireCall
  rcases store.eval .acquire l.key _ w with ⟨_ | _ | _, w'⟩ <;> rfl

theorem attempt_eq_ok_true :
    (l.attempt store count w).1 = .ok true ↔ (l.acquire store w).1 = .ok true := by
  unfold attempt
  rcases l.acquire store w with ⟨(_ | _) | _ | _, w'⟩ <;> simp

theorem attempt_state : (l.attempt store count w).2.state = (l.acquireCall store w).2.state := by
  rw [← acquire_state]
  unfold attempt
  rcases l.acquire store w with ⟨(_ | _) | _ | _, w'⟩ <;> rfl

theorem release_fst :
    (l.release store w).1 =
      ((l.releaseCall store w).1.map fun reply => decide (reply = .int 1)).mapError .transport := by
  unfold release releaseCall
  rcases store.eval .release l.key _ w with ⟨reply | _ | _, w'⟩
  · by_cases h : reply = .int 1 <;> simp [h]
  · rfl
  · rfl

theorem release_state : (l.release store w).2.state = (l.releaseCall store w).2.state := by
  unfold release releaseCall
  rcases store.eval .release l.key _ w with ⟨reply | _ | _, w'⟩
  · by_cases h : reply = .int 1 <;> simp [h, Session.state]
  · rfl
  · rfl

def arguments : LockScript → List String
  | .acquire => [l.token.text, Numeral.ofNat l.expiryMillis]
  | .release => [l.token.text]

/-- The operation on a lock that a script is for. -/
def perform : LockScript → Outcome LockError Bool × Session σ
  | .acquire => l.acquire store w
  | .release => l.release store w

theorem perform_eq (s : LockScript) :
    (l.perform store w s).1 =
        ((store.eval s l.key (l.arguments s) w).1.map s.succeeded).mapError .transport ∧
      (l.perform store w s).2.state = (store.eval s l.key (l.arguments s) w).2.state := by
  cases s with
  | acquire => exact ⟨l.acquire_fst store w, l.acquire_state store w⟩
  | release => exact ⟨l.release_fst store w, l.release_state store w⟩

theorem releaseStrict_eq :
    l.releaseStrict store w =
      (match (l.release store w).1 with
        | .ok true => .ok ()
        | .ok false => .error (.notHeld l.key)
        | .error why => .error why
        | .clockOverflow => .clockOverflow, (l.release store w).2) := by
  unfold releaseStrict
  rcases l.release store w with ⟨(_ | _) | _ | _, w'⟩ <;> rfl

theorem acquireGuard_fst :
    (l.acquireGuard store w).1 = (l.acquireWithin store w).1.map fun _ => ⟨l, false⟩ := rfl

section Polling

variable (start : Instant) (deadline : Option Instant) (pauses tried : Nat)

theorem poll_next :
    let r := l.poll store start deadline pauses tried w
    ∃ answer w', l.attempt store (min (tried + 1) attemptLimit) w = (answer, w') ∧
      ((r.2 = w' ∧ (r.1 = .ok () ↔ answer = .ok true)) ∨
        (answer = .ok false ∧ ∃ fewer, pauses = fewer + 1 ∧
          r = l.poll store start deadline fewer (min (tried + 1) attemptLimit)
            (w'.sleep l.policy.retry))) := by
  intro r
  rcases hattempt : l.attempt store (min (tried + 1) attemptLimit) w with ⟨(_ | _) | why | _, w'⟩
  · refine ⟨_, w', rfl, ?_⟩
    cases htime : l.hasTime deadline w'.now with
    | false =>
      have hr : r = _ := poll_of_refused hattempt htime
      exact Or.inl (by simp [hr])
    | true =>
      cases pauses with
      | zero =>
        have hr : r = _ := poll_zero_of_refused hattempt htime
        exact Or.inl (by simp [hr])
      | succ fewer => exact Or.inr ⟨rfl, fewer, rfl, poll_succ_of_refused hattempt htime⟩
  · have hr : r = _ := poll_of_granted hattempt
    exact ⟨_, w', rfl, Or.inl (by simp [hr])⟩
  · exact why.elim
  · have hr : r = _ := poll_of_overflow hattempt
    exact ⟨_, w', rfl, Or.inl (by simp [hr])⟩

variable {store l w} {P : Session σ → Prop}

/-- A lock that polls has its key just when its last attempt is granted. Whatever refused attempts
and the pauses after them preserve holds before that one. -/
theorem poll_last (hw : P w)
    (hpause : ∀ count w w', P w → l.attempt store count w = (.ok false, w') →
      P (w'.sleep l.policy.retry)) :
    let r := l.poll store start deadline pauses tried w
    ∃ count w' answer, P w' ∧ l.attempt store count w' = (answer, r.2) ∧
      (r.1 = .ok () ↔ answer = .ok true) := by
  induction pauses generalizing tried w with
  | zero =>
    obtain ⟨answer, w', hattempt, ⟨rfl, hverdict⟩ | ⟨-, fewer, hzero, -⟩⟩ :=
      l.poll_next store w start deadline 0 tried
    · exact ⟨_, w, answer, hw, hattempt, hverdict⟩
    · cases hzero
  | succ pauses ih =>
    obtain ⟨answer, w', hattempt, ⟨rfl, hverdict⟩ | ⟨rfl, fewer, hfewer, hpoll⟩⟩ :=
      l.poll_next store w start deadline (pauses + 1) tried
    · exact ⟨_, w, answer, hw, hattempt, hverdict⟩
    · cases hfewer
      rw [hpoll]
      exact ih _ (hpause _ w w' hw hattempt)

theorem acquireWithin_last (hw : P w)
    (hpause : ∀ count w w', P w → l.attempt store count w = (.ok false, w') →
      P (w'.sleep l.policy.retry)) :
    let r := l.acquireWithin store w
    ∃ count w' answer, P w' ∧ l.attempt store count w' = (answer, r.2) ∧
      (r.1 = .ok () ↔ answer = .ok true) :=
  poll_last _ _ _ _ hw hpause

end Polling

end Lock

namespace Guard

variable {σ : Type} (store : LeaseStore σ) (l : Lock) (w : Session σ)

theorem release_eq (g : Guard) : g.release store w = g.lock.releaseStrict store w := by
  simp [release]

theorem release_state (g : Guard) :
    (g.release store w).2.state = (g.lock.releaseCall store w).2.state := by
  rw [release_eq, Lock.releaseStrict_eq]
  exact g.lock.release_state store w

theorem drop_state : ((Guard.mk l false).drop store w).state = (l.releaseCall store w).2.state := by
  rw [← Lock.release_state]
  simp only [drop]
  rcases l.release store w with ⟨(_ | _) | _ | _, w'⟩ <;> rfl

end Guard

namespace Limiter

variable {σ : Type} (store : LimitStore σ) (l : Limiter) (key value undone : String) (w : Session σ)

theorem set_fst :
    (l.set store key value w).1 = (store.setIfAbsent key value l.expiry w).1.mapError .transport := by
  unfold set
  rcases store.setIfAbsent key value l.expiry w with ⟨_ | _ | _, w'⟩ <;> rfl

/-- What a limiter says of a comparison that came out so. -/
def verdict : Outcome StoreError Bool → Outcome LockError Unit
  | .ok true => .ok ()
  | .ok false => .error (.limitMismatch key)
  | .error why => .error (.transport why)
  | .clockOverflow => .clockOverflow

theorem expectHeld_fst (r : Outcome StoreError Bool × Session σ) :
    (expectHeld key undone r).1 = verdict key r.1 := by
  rcases r with ⟨(_ | _) | _ | _, w'⟩ <;> rfl

theorem set_state :
    (l.set store key value w).2.state = (store.setIfAbsent key value l.expiry w).2.state := by
  unfold set
  rcases store.setIfAbsent key value l.expiry w with ⟨_ | _ | _, w'⟩ <;> rfl

theorem expectHeld_state (r : Outcome StoreError Bool × Session σ) :
    (expectHeld key undone r).2.state = r.2.state := by
  rcases r with ⟨(_ | _) | _ | _, w'⟩ <;> rfl

theorem delete_state :
    (delete store key value w).2.state = (store.deleteIfEqual key value w).2.state :=
  expectHeld_state _ _ _

theorem refresh_state :
    (l.refresh store key value w).2.state = (store.expireIfEqual key value l.expiry w).2.state :=
  expectHeld_state _ _ _

end Limiter
end Leasehold
