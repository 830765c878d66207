import Leasehold.Proofs.Store.View
import Mathlib.Tactic.SplitIfs

/-!
# What an access leaves alone

An access changes at most the record of its own key, and a record that is
there only when it names the record's value. So a record is safe from every
access that names another value, for as long as it has not expired.
-/

namespace Leasehold

namespace Access

def key? : Access → Option String
  | advance _ => none
  | eval _ key _ => some key
  | remaining key => some key
  | get key => some key
  | setIfAbsent key _ _ => some key
  | deleteIfEqual key _ => some key
  | expireIfEqual key _ _ => some key

def value? : Access → Option String
  | eval _ _ arguments => arguments.head?
  | setIfAbsent _ value _ => some value
  | deleteIfEqual _ expected => some expected
  | expireIfEqual _ expected _ => some expected
  | _ => none

end Access

/-- Whether the answer says that something was done. -/
def Answer.affirms : Answer → Bool
  | reply r => r = .status "OK" || r = .int 1
  | flag b => b
  | _ => false

namespace Ledger

variable (m : Ledger) (now : Instant) (key : String)

/-- What can be put under a key: nothing, or a record whose deadline the clock reaches. -/
def OnClock (x : Option Record) : Prop := ∀ r, x = some r → r.deadline < Instant.clockEnd

theorem onClock_none : OnClock none := fun _ h => nomatch h

/-- An operation that names a value takes effect under a key: it says so, and the value is that of
the record which was there as well as that of the record which is there now. -/
structure Effect (value? : Option String) (answer : Outcome StoreError Answer) (m' : Ledger)
    (x : Option Record) : Prop where
  affirmed : ∃ a, answer = .ok a ∧ a.affirms = true
  ledger : m' = Function.update m key x
  onClock : OnClock x
  named : ∀ r, m key = some r ∨ x = some r → value? = some r.value

variable {m key}

theorem effect_erase {r : Record} (hr : m key = some r) {a : Answer} (ha : a.affirms = true) :
    m.Effect key (some r.value) (.ok a) (Function.update m key none) none where
  affirmed := ⟨a, rfl, ha⟩
  ledger := rfl
  onClock := onClock_none
  named r' h := by
    have hr' : some r' = some r := h.elim (fun h => h.symm.trans hr) nofun
    rw [Option.some.inj hr']

theorem write_cases {α : Type} {value : String} (hm : ∀ r, m key = some r → r.value = value)
    (ttl : Duration) (answer : α) {f : α → Answer} (hf : (f answer).affirms = true) :
    (m.write now key value ttl answer).2 = m ∨
      ∃ x, m.Effect key (some value) ((m.write now key value ttl answer).1.map f)
        (m.write now key value ttl answer).2 x := by
  unfold write
  cases hdeadline : Instant.after? now ttl with
  | none => exact Or.inl rfl
  | some deadline =>
    obtain ⟨hlt, rfl⟩ := Instant.after?_eq_some.mp hdeadline
    refine Or.inr ⟨some ⟨value, now + ttl.nanos⟩, ⟨f answer, rfl, hf⟩, rfl, ?_, ?_⟩
    · rintro _ ⟨⟩
      exact hlt
    · rintro r (hr | ⟨⟨⟩⟩)
      · rw [hm r hr]
      · rfl

variable (m key)

theorem eval_cases (script : LockScript) (arguments : List String) :
    (m.eval now key script arguments).2 = m ∨
      ∃ x, m.Effect key arguments.head? ((m.eval now key script arguments).1.map .reply)
        (m.eval now key script arguments).2 x := by
  cases arguments with
  | nil => exact Or.inl rfl
  | cons token rest =>
    cases script with
    | release =>
      cases hm : m key with
      | none => exact Or.inl (by simp only [eval, release, hm])
      | some r =>
        by_cases hv : r.value = token
        · subst hv
          simp only [eval, release, hm, if_true]
          exact Or.inr ⟨none, effect_erase hm (a := .reply (.int 1)) rfl⟩
        · exact Or.inl (by simp only [eval, release, hm, hv, if_false])
    | acquire =>
      cases rest with
      | nil => exact Or.inl rfl
      | cons text rest =>
        simp only [eval, acquire]
        cases Numeral.u64? text with
        | none => exact Or.inl rfl
        | some millis =>
          dsimp only
          split_ifs
          · exact Or.inl rfl
          · cases hm : m key with
            | none => exact write_cases now (by simp [hm]) _ _ rfl
            | some r =>
              dsimp only
              split_ifs with hv
              · exact write_cases now (by simp [hm, hv]) _ _ rfl
              · exact Or.inl rfl

theorem perform_cases (a : Access) :
    (m.perform now a).2.2 = m ∨
      ∃ k x, a.key? = some k ∧
        m.Effect k a.value? (m.perform now a).1 (m.perform now a).2.2 x := by
  cases a with
  | advance d => exact Or.inl rfl
  | remaining k => exact Or.inl rfl
  | get k => exact Or.inl rfl
  | eval script k arguments =>
    rcases m.eval_cases now k script arguments with h | ⟨x, h⟩
    · exact Or.inl h
    · exact Or.inr ⟨k, x, rfl, h⟩
  | setIfAbsent k value ttl =>
    simp only [perform, setIfAbsent]
    cases hm : m k with
    | some r => exact Or.inl rfl
    | none =>
      have hfree : ∀ r, m k = some r → r.value = value := by simp [hm]
      rcases write_cases now hfree ttl true (f := .flag) rfl with h | ⟨x, h⟩
      · exact Or.inl h
      · exact Or.inr ⟨k, x, rfl, h⟩
  | deleteIfEqual k expected =>
    simp only [perform, deleteIfEqual]
    cases hm : m k with
    | none => exact Or.inl rfl
    | some r =>
      dsimp only
      split_ifs with hv
      · subst hv
        exact Or.inr ⟨k, none, rfl, effect_erase hm rfl⟩
      · exact Or.inl rfl
  | expireIfEqual k expected ttl =>
    simp only [perform, expireIfEqual]
    cases hm : m k with
    | none => exact Or.inl rfl
    | some r =>
      dsimp only
      split_ifs with hv
      · have hheld : ∀ r, m k = some r → r.value = expected := by simp [hm, hv]
        rcases write_cases now hheld ttl true (f := .flag) rfl with h | ⟨x, h⟩
        · exact Or.inl h
        · exact Or.inr ⟨k, x, rfl, h⟩
      · exact Or.inl rfl

/-- An access that does not affirm has changed nothing. -/
theorem perform_of_denied {a : Access}
    (h : ∀ answer, (m.perform now a).1 = .ok answer → answer.affirms = false) :
    (m.perform now a).2.2 = m := by
  rcases m.perform_cases now a with hm | ⟨k, x, -, ⟨answer, hok, haffirms⟩, -⟩
  · exact hm
  · rw [h answer hok] at haffirms
    cases haffirms

/-- Of a record whose value it does not name, an access neither makes an end nor a beginning. -/
theorem perform_foreign {a : Access} {r : Record} (ha : a.value? ≠ some r.value) :
    (m.perform now a).2.2 key = some r ↔ m key = some r := by
  rcases m.perform_cases now a with hm | ⟨k, x, -, heffect⟩
  · rw [hm]
  · rw [heffect.ledger]
    by_cases hk : key = k
    · subst hk
      rw [Function.update_self]
      exact iff_of_false (fun hx => ha (heffect.named r (Or.inr hx)))
        (fun hm => ha (heffect.named r (Or.inl hm)))
    · rw [Function.update_of_ne hk]

theorem run_foreign {a : Access} {r : Record} (ha : a.value? ≠ some r.value) :
    (m.run now a).2.2 key = some r ↔ m key = some r ∧ (m.run now a).2.1 < r.deadline := by
  simp only [run, current_apply, Option.filter_eq_some_iff, perform_foreign m now key ha,
    decide_eq_true_eq]

theorem clock_le_run (a : Access) : now ≤ (m.run now a).2.1 := by
  cases a with
  | advance d => exact Nat.le_add_right now d.nanos
  | _ => exact Nat.le_refl now

/-- The key holds the value at least until the deadline, unless somebody interferes. -/
def Lasts (value : String) (deadline : Instant) : Prop :=
  ∃ r, m key = some r ∧ r.value = value ∧ deadline ≤ r.deadline

variable {m now key}

theorem Lasts.current {value : String} {deadline : Instant} (h : m.Lasts key value deadline)
    (hnow : now < deadline) : (m.current now).Lasts key value deadline := by
  obtain ⟨r, hr, hvalue, hdeadline⟩ := h
  have hlive : now < r.deadline := Nat.lt_of_lt_of_le hnow hdeadline
  refine ⟨r, ?_, hvalue, hdeadline⟩
  rw [current_apply, hr, Option.filter_some, if_pos (decide_eq_true hlive)]

/-- A record survives every access that does not name its value, unless it expires. -/
theorem Lasts.run {value : String} {deadline : Instant} (h : m.Lasts key value deadline) {a : Access}
    (ha : a.value? ≠ some value) (hnow : (m.run now a).2.1 < deadline) :
    (m.run now a).2.2.Lasts key value deadline := by
  obtain ⟨r, hr, rfl, hdeadline⟩ := h
  have hlive : (m.run now a).2.1 < r.deadline := Nat.lt_of_lt_of_le hnow hdeadline
  exact ⟨r, (run_foreign m now key ha).mpr ⟨hr, hlive⟩, rfl, hdeadline⟩

end Ledger
end Leasehold
