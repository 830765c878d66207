import Leasehold.Redis.Dialogue

/-!
# Dialogues that end the same way

A dialogue is run part by part, and ends with the first fault. Two dialogues
are alike under a relation between states when they end the same way in linked
states and leave linked states. Parts that are alike make dialogues that are
alike, so that only what reaches the transport has to be looked at.
-/

namespace Leasehold
namespace Redis
namespace Dialogue

variable {σ α β : Type}

theorem bind_run (d : Dialogue σ α) (f : α → Dialogue σ β) (n : σ) :
    (d >>= f) n =
      match d n with
      | (.ok a, n') => f a n'
      | (.error why, n') => (.error why, n') := by
  change (match d n with | (a, n') => ExceptT.bindCont f a n') = _
  rcases d n with ⟨_ | _, n'⟩ <;> rfl

theorem bind_run_ok {d : Dialogue σ α} {f : α → Dialogue σ β} {n n' : σ} {a : α}
    (h : d n = (.ok a, n')) : (d >>= f) n = f a n' := by
  rw [bind_run, h]

theorem bind_eq_ok {d : Dialogue σ α} {f : α → Dialogue σ β} {n n' : σ} {b : β}
    (h : (d >>= f) n = (.ok b, n')) : ∃ a m, d n = (.ok a, m) ∧ f a m = (.ok b, n') := by
  rw [bind_run] at h
  rcases hd : d n with ⟨why | a, m⟩
  · rw [hd] at h
    cases h
  · rw [hd] at h
    exact ⟨a, m, rfl, h⟩

theorem lift_run (e : Except Fault α) (n : σ) : (liftM e : Dialogue σ α) n = (e, n) := rfl

/-- The same end in linked states, and linked states after it. -/
def Alike (S : σ → σ → Prop) (d d' : Dialogue σ α) : Prop :=
  ∀ n n' : σ, S n n' → (d n).1 = (d' n').1 ∧ S (d n).2 (d' n').2

variable {S : σ → σ → Prop} {d d' : Dialogue σ α}

theorem alike_pure (a : α) : Alike S (pure a) (pure a) := fun _ _ h => ⟨rfl, h⟩

theorem alike_throw (why : Fault) : Alike S (throw why : Dialogue σ α) (throw why) :=
  fun _ _ h => ⟨rfl, h⟩

theorem alike_lift (e : Except Fault α) : Alike S (liftM e : Dialogue σ α) (liftM e) :=
  fun _ _ h => ⟨rfl, h⟩

theorem Alike.attempt (h : Alike S d d') : Alike S d.attempt d'.attempt := by
  intro n n' hn
  obtain ⟨hanswer, hlinked⟩ := h n n' hn
  exact ⟨congrArg Except.ok hanswer, hlinked⟩

theorem Alike.bind {f f' : α → Dialogue σ β} (hd : Alike S d d') (hf : ∀ a, Alike S (f a) (f' a)) :
    Alike S (d >>= f) (d' >>= f') := by
  intro n n' hn
  obtain ⟨hanswer, hlinked⟩ := hd n n' hn
  rw [bind_run, bind_run]
  rcases hr : d n with ⟨why | a, m⟩
  · rcases hr' : d' n' with ⟨why' | a', m'⟩
    · rw [hr, hr'] at hanswer hlinked
      cases hanswer
      exact ⟨rfl, hlinked⟩
    · rw [hr, hr'] at hanswer
      cases hanswer
  · rcases hr' : d' n' with ⟨why' | a', m'⟩
    · rw [hr, hr'] at hanswer
      cases hanswer
    · rw [hr, hr'] at hanswer hlinked
      cases hanswer
      exact hf a m m' hlinked

theorem Alike.checked {p : Prop} [Decidable p] (why : Fault) (h : Alike S d d') :
    Alike S (if p then d else throw why >>= fun _ : Unit => d)
      (if p then d' else throw why >>= fun _ : Unit => d') := by
  split
  · exact h
  · exact (alike_throw why).bind fun _ => h

end Dialogue

/-- Sessions of one time and one journal, in linked states. -/
structure Linked {σ : Type} (S : σ → σ → Prop) (w w' : Session σ) : Prop where
  now : w.now = w'.now
  journal : w.journal = w'.journal
  store : S w.store w'.store

/-- A transport that cannot tell linked states apart, nor commands that look the same. -/
structure Transport.Blind {σ : Type} (t : Transport σ) (S : σ → σ → Prop) (look : Command → Command) :
    Prop where
  tick : ∀ {w w'}, Linked S w w' → Linked S (t.tick w) (t.tick w')
  connect : ∀ e timeout, Dialogue.Alike S (t.connect e timeout) (t.connect e timeout)
  send : ∀ {cs cs' : List Command} {n n'}, cs.map look = cs'.map look → S n n' →
    S (t.send cs n) (t.send cs' n')
  receive : Dialogue.Alike S t.take t.take
  rounds : ∀ {n n'}, S n n' → t.rounds n = t.rounds n'

namespace Transport.Blind

open Dialogue

variable {σ : Type} {t : Transport σ} {S : σ → σ → Prop} {look : Command → Command}

theorem opening (h : t.Blind S look) (e : Endpoint) (timeout : Option Duration) :
    Alike S (t.opening e timeout) (t.opening e timeout) := by
  unfold Transport.opening
  cases e with
  | socket path => exact h.connect _ _
  | tcp host port =>
    dsimp only
    split
    · exact alike_throw _
    · exact h.connect _ _

theorem ask (h : t.Blind S look) {c c' : Command} (hc : look c = look c') :
    Alike S (t.ask c) (t.ask c') := by
  have hsend : Alike S (modify (t.send [c]) : Dialogue σ Unit) (modify (t.send [c'])) :=
    fun _ _ hn => ⟨rfl, h.send (congrArg (fun c => [c]) hc) hn⟩
  exact hsend.bind fun _ => h.receive

theorem takeAll (h : t.Blind S look) (count : Nat) : Alike S (t.takeAll count) (t.takeAll count) := by
  induction count with
  | zero => exact alike_pure _
  | succ count ih => exact h.receive.attempt.bind fun _ => ih.bind fun _ => alike_pure _

theorem askAll (h : t.Blind S look) (cs : List Command) : Alike S (t.askAll cs) (t.askAll cs) := by
  have hsend : Alike S (modify (t.send cs) : Dialogue σ Unit) (modify (t.send cs)) :=
    fun _ _ hn => ⟨rfl, h.send rfl hn⟩
  exact hsend.bind fun _ => (h.takeAll cs.length).bind fun _ => alike_lift _

end Transport.Blind

end Redis
end Leasehold
