import Leasehold.Proofs.Lock.Exclusion
import Leasehold.Proofs.Store.Transcript

/-!
# What others leave alone

Those who do not know a token cannot do anything about the records that hold
it: they make none, and such records end by their deadlines only. What the
owner itself does comes down to runs of its two scripts on its own key.
-/

namespace Leasehold

theorem Move.access?_own {ι : Type} {c : Contenders ι} {move : Move c} {i : ι}
    (hwho : move.who? = some i) :
    move.access? = none ∨ ∃ script,
      move.access? = some (.eval script (c.lock i).key ((c.lock i).arguments script)) := by
  cases move with
  | take how who fate =>
    cases hwho
    cases hfate : fate.reaches with
    | false => exact Or.inl (by simp [access?, hfate])
    | true => exact Or.inr ⟨.acquire, by simp [access?, hfate, Lock.arguments]⟩
  | give how who fate =>
    cases hwho
    cases hfate : fate.reaches with
    | false => exact Or.inl (by simp [access?, hfate])
    | true => exact Or.inr ⟨.release, by simp [access?, hfate, Lock.arguments]⟩
  | limit => cases hwho
  | access => cases hwho

namespace Contest

variable {ι : Type} [DecidableEq ι] {c : Contenders ι}

theorem clock_le_foldl (s : Contest ι) (moves : List (Move c)) :
    s.session.now ≤ (moves.foldl (step c) s).session.now := by
  induction moves generalizing s with
  | nil => exact Nat.le_refl _
  | cons move moves ih => exact Nat.le_trans (s.clock_le_step move) (ih _)

variable {i : ι} {r : Record}

/-- A move of others keeps just the records with an owner's token that are not over after it. -/
theorem step_foreign (s : Contest ι) {move : Move c} (hwho : move.who? ≠ some i)
    (hr : r.value = (c.token i).text) (key : String) :
    (step c s move).ledger key = some r ↔
      s.ledger key = some r ∧ (step c s move).session.now < r.deadline := by
  cases haccess : move.access? with
  | none =>
    obtain ⟨hnow, hledger⟩ := s.step_idle haccess
    rw [hledger, hnow]
    exact ⟨fun h => ⟨h, MemoryStore.lt_deadline h⟩, And.left⟩
  | some a =>
    obtain ⟨hnow, hledger⟩ := s.step_access haccess
    have hvalue : a.value? ≠ some r.value := hr ▸ move.value?_ne hwho haccess
    rw [hledger, hnow]
    exact s.ledger.run_foreign s.session.now key hvalue

theorem foldl_foreign (s : Contest ι) {moves : List (Move c)}
    (hwho : ∀ move ∈ moves, move.who? ≠ some i) (hr : r.value = (c.token i).text) (key : String) :
    (moves.foldl (step c) s).ledger key = some r ↔
      s.ledger key = some r ∧ (moves.foldl (step c) s).session.now < r.deadline := by
  induction moves generalizing s with
  | nil => exact ⟨fun h => ⟨h, MemoryStore.lt_deadline h⟩, And.left⟩
  | cons move moves ih =>
    have hclock := (step c s move).clock_le_foldl moves
    rw [List.foldl_cons, ih _ fun m hm => hwho m (List.mem_cons_of_mem _ hm),
      s.step_foreign (hwho move List.mem_cons_self) hr key]
    constructor
    · rintro ⟨⟨hrecord, -⟩, hlive⟩
      exact ⟨hrecord, hlive⟩
    · rintro ⟨hrecord, hlive⟩
      exact ⟨⟨hrecord, Nat.lt_of_le_of_lt hclock hlive⟩, hlive⟩

end Contest
end Leasehold
