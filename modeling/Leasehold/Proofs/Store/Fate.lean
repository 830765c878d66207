import Leasehold.Store

/-!
# Calls that go astray

A call over a network may never arrive, or be carried out while its answer is
lost. The caller cannot tell the two apart: either way it hears of a failure.
-/

namespace Leasehold

inductive Fate (ε : Type) where
  | answered
  /-- The call is not carried out, and the caller hears why. -/
  | refused (why : ε)
  /-- The call is carried out, but the caller hears of a failure. -/
  | unheard (why : ε)

namespace Fate

variable {σ ε α : Type}

def reaches : Fate ε → Bool
  | answered => true
  | refused _ => false
  | unheard _ => true

def apply (fate : Fate ε) (call : σ → Outcome ε α × σ) (w : σ) : Outcome ε α × σ :=
  match fate with
  | answered => call w
  | refused why => (.error why, w)
  | unheard why => (.error why, (call w).2)

/-- Good news is true. -/
theorem apply_eq_ok {fate : Fate ε} {call : σ → Outcome ε α × σ} {w : σ} {a : α}
    (h : (fate.apply call w).1 = .ok a) : fate = answered ∧ (call w).1 = .ok a := by
  cases fate with
  | answered => exact ⟨rfl, h⟩
  | refused why => cases h
  | unheard why => cases h

end Fate

def LeaseStore.under {σ : Type} (store : LeaseStore σ) (fate : Fate StoreError) : LeaseStore σ where
  eval script key arguments := fate.apply (store.eval script key arguments)
  remaining key := fate.apply (store.remaining key)

end Leasehold
