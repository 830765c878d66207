import Leasehold.Limiter
import Leasehold.Lock.Guard

/-!
# Stores that cannot be told apart

Sessions in two stores are linked by a relation that holds between sessions of
the same time only, and that noting a line or letting time pass does not
break. Two stores are alike when they answer linked sessions the same and
leave linked sessions. Locks, guards and limiters cannot tell such stores
apart: what they answer is the same, and the sessions stay linked for as long
as a lock polls.
-/

namespace Leasehold

section Links

variable {σ τ α : Type}

/-- A relation that only a call to a store can break. -/
structure Session.Link (R : Session σ → Session τ → Prop) : Prop where
  now : ∀ {w w'}, R w w' → w.now = w'.now
  note : ∀ {w w'} (line : Line), R w w' → R (w.note line) (w'.note line)
  sleep : ∀ {w w'} (d : Duration), R w w' → R (w.sleep d) (w'.sleep d)

structure Session.Same (R : Session σ → Session τ → Prop) (x : α × Session σ) (y : α × Session τ) :
    Prop where
  answer : x.1 = y.1
  linked : R x.2 y.2

structure LeaseStore.Alike (R : Session σ → Session τ → Prop) (store : LeaseStore σ)
    (store' : LeaseStore τ) : Prop where
  link : Session.Link R
  eval : ∀ (script : LockScript) (key : String) (arguments : List String) {w w'}, R w w' →
    Session.Same R (store.eval script key arguments w) (store'.eval script key arguments w')
  remaining : ∀ (key : String) {w w'}, R w w' →
    Session.Same R (store.remaining key w) (store'.remaining key w')

structure LimitStore.Alike (R : Session σ → Session τ → Prop) (store : LimitStore σ)
    (store' : LimitStore τ) : Prop where
  link : Session.Link R
  setIfAbsent : ∀ (key value : String) (ttl : Duration) {w w'}, R w w' →
    Session.Same R (store.setIfAbsent key value ttl w) (store'.setIfAbsent key value ttl w')
  deleteIfEqual : ∀ (key expected : String) {w w'}, R w w' →
    Session.Same R (store.deleteIfEqual key expected w) (store'.deleteIfEqual key expected w')
  expireIfEqual : ∀ (key expected : String) (ttl : Duration) {w w'}, R w w' →
    Session.Same R (store.expireIfEqual key expected ttl w) (store'.expireIfEqual key expected ttl w')

end Links

variable {σ τ : Type} {R : Session σ → Session τ → Prop} {w : Session σ} {w' : Session τ}

namespace Session

@[elab_as_elim]
theorem Same.split {α : Type} {motive : α × Session σ → α × Session τ → Prop} {x : α × Session σ}
    {y : α × Session τ} (h : Same R x y) (pair : ∀ a w w', R w w' → motive (a, w) (a, w')) :
    motive x y := by
  obtain ⟨a, w⟩ := x
  obtain ⟨a', w'⟩ := y
  obtain ⟨rfl, hw⟩ := h
  exact pair a w w' hw

variable {store : LeaseStore σ} {store' : LeaseStore τ} {l : Lock} {start : Instant}
  {deadline : Option Instant}

/-- A lock that polls tells no more of two stores than its attempts do. -/
theorem Link.poll (link : Link R)
    (hattempt : ∀ (count : Nat) {w w'}, R w w' →
      Same R (l.attempt store count w) (l.attempt store' count w'))
    (pauses tried : Nat) (hw : R w w') :
    Same R (l.poll store start deadline pauses tried w)
      (l.poll store' start deadline pauses tried w') := by
  induction pauses generalizing tried w w' with
  | zero =>
    rw [Lock.poll, Lock.poll]
    refine (hattempt _ hw).split fun answer w w' hw => ?_
    rcases answer with (_ | _) | why | _
    · dsimp only
      rw [← link.now hw]
      split <;> exact ⟨rfl, hw⟩
    · exact ⟨rfl, hw⟩
    · exact why.elim
    · exact ⟨rfl, hw⟩
  | succ pauses ih =>
    rw [Lock.poll, Lock.poll]
    refine (hattempt _ hw).split fun answer w w' hw => ?_
    rcases answer with (_ | _) | why | _
    · dsimp only
      rw [← link.now hw]
      split
      · exact ih _ (link.sleep _ hw)
      · exact ⟨rfl, hw⟩
    · exact ⟨rfl, hw⟩
    · exact why.elim
    · exact ⟨rfl, hw⟩

end Session

namespace LeaseStore.Alike

variable {store : LeaseStore σ} {store' : LeaseStore τ}

theorem acquire (h : LeaseStore.Alike R store store') (l : Lock) (hw : R w w') :
    Session.Same R (l.acquire store w) (l.acquire store' w') := by
  unfold Lock.acquire
  refine (h.eval .acquire l.key _ hw).split fun answer w w' hw => ?_
  cases answer with
  | ok reply => exact ⟨rfl, h.link.note _ hw⟩
  | error why => exact ⟨rfl, hw⟩
  | clockOverflow => exact ⟨rfl, hw⟩

theorem release (h : LeaseStore.Alike R store store') (l : Lock) (hw : R w w') :
    Session.Same R (l.release store w) (l.release store' w') := by
  unfold Lock.release
  refine (h.eval .release l.key _ hw).split fun answer w w' hw => ?_
  cases answer with
  | ok reply =>
    dsimp only
    split
    · exact ⟨rfl, h.link.note _ hw⟩
    · exact ⟨rfl, h.link.note _ hw⟩
  | error why => exact ⟨rfl, hw⟩
  | clockOverflow => exact ⟨rfl, hw⟩

theorem releaseStrict (h : LeaseStore.Alike R store store') (l : Lock) (hw : R w w') :
    Session.Same R (l.releaseStrict store w) (l.releaseStrict store' w') := by
  unfold Lock.releaseStrict
  refine (h.release l hw).split fun answer w w' hw => ?_
  rcases answer with (_ | _) | _ | _
  all_goals exact ⟨rfl, hw⟩

theorem remainingLease (h : LeaseStore.Alike R store store') (l : Lock) (hw : R w w') :
    Session.Same R (l.remainingLease store w) (l.remainingLease store' w') := by
  unfold Lock.remainingLease
  exact (h.remaining l.key hw).split fun _ _ _ hw => ⟨rfl, hw⟩

theorem attempt (h : LeaseStore.Alike R store store') (l : Lock) (count : Nat) (hw : R w w') :
    Session.Same R (l.attempt store count w) (l.attempt store' count w') := by
  unfold Lock.attempt
  refine (h.acquire l hw).split fun answer w w' hw => ?_
  rcases answer with (_ | _) | _ | _
  · exact ⟨rfl, h.link.note _ hw⟩
  · exact ⟨rfl, h.link.note _ hw⟩
  · exact ⟨rfl, h.link.note _ hw⟩
  · exact ⟨rfl, hw⟩

theorem acquireWithin (h : LeaseStore.Alike R store store') (l : Lock) (hw : R w w') :
    Session.Same R (l.acquireWithin store w) (l.acquireWithin store' w') := by
  unfold Lock.acquireWithin
  rw [← h.link.now hw]
  exact h.link.poll (fun count _ _ => h.attempt l count) _ 0 hw

theorem acquireGuard (h : LeaseStore.Alike R store store') (l : Lock) (hw : R w w') :
    Session.Same R (l.acquireGuard store w) (l.acquireGuard store' w') := by
  unfold Lock.acquireGuard
  exact (h.acquireWithin l hw).split fun _ _ _ hw => ⟨rfl, hw⟩

theorem drop (h : LeaseStore.Alike R store store') (g : Guard) (hw : R w w') :
    R (g.drop store w) (g.drop store' w') := by
  unfold Guard.drop
  split
  · exact hw
  · refine (h.release g.lock hw).split fun answer w w' hw => ?_
    rcases answer with (_ | _) | _ | _
    · exact h.link.note _ hw
    · exact hw
    · exact h.link.note _ hw
    · exact hw

theorem releaseGuard (h : LeaseStore.Alike R store store') (g : Guard) (hw : R w w') :
    Session.Same R (g.release store w) (g.release store' w') := by
  unfold Guard.release
  exact (h.releaseStrict g.lock hw).split fun _ _ _ hw => ⟨rfl, h.drop ⟨g.lock, true⟩ hw⟩

end LeaseStore.Alike

namespace LimitStore.Alike

variable {store : LimitStore σ} {store' : LimitStore τ}

theorem set (h : LimitStore.Alike R store store') (l : Limiter) (key value : String) (hw : R w w') :
    Session.Same R (l.set store key value w) (l.set store' key value w') := by
  unfold Limiter.set
  refine (h.setIfAbsent key value l.expiry hw).split fun answer w w' hw => ?_
  cases answer with
  | ok created => exact ⟨rfl, h.link.note _ hw⟩
  | error why => exact ⟨rfl, hw⟩
  | clockOverflow => exact ⟨rfl, hw⟩

theorem expectHeld (h : LimitStore.Alike R store store') (key undone : String)
    {x : Outcome StoreError Bool × Session σ} {y : Outcome StoreError Bool × Session τ}
    (hxy : Session.Same R x y) :
    Session.Same R (Limiter.expectHeld key undone x) (Limiter.expectHeld key undone y) := by
  refine hxy.split fun answer w w' hw => ?_
  rcases answer with (_ | _) | _ | _
  · exact ⟨rfl, h.link.note _ hw⟩
  · exact ⟨rfl, hw⟩
  · exact ⟨rfl, hw⟩
  · exact ⟨rfl, hw⟩

theorem delete (h : LimitStore.Alike R store store') (key value : String) (hw : R w w') :
    Session.Same R (Limiter.delete store key value w) (Limiter.delete store' key value w') :=
  h.expectHeld key "deleted" (h.deleteIfEqual key value hw)

theorem refresh (h : LimitStore.Alike R store store') (l : Limiter) (key value : String)
    (hw : R w w') :
    Session.Same R (l.refresh store key value w) (l.refresh store' key value w') :=
  h.expectHeld key "refreshed" (h.expireIfEqual key value l.expiry hw)

end LimitStore.Alike
end Leasehold
