import Leasehold.Proofs.Redis.Invocation
import Leasehold.Proofs.Redis.Reading

/-!
# Conversations

What is said on an open connection: commands go out in batches, and after each
batch its answers are taken. A server without logic keeps the commands until it
ends the connection, and each value that it answers uses up one of the bytes
that values can begin with.
-/

namespace Leasehold
namespace Redis

def exchanges (cs : List Command) (as : List (Except Fault Value)) : List Exchange :=
  (cs.zip as).map fun p => ⟨p.1, p.2⟩

theorem commands_exchanges {cs : List Command} {as : List (Except Fault Value)}
    (h : as.length = cs.length) : (exchanges cs as).map Exchange.command = cs := by
  rw [exchanges, List.map_map]
  exact List.map_fst_zip (Nat.le_of_eq h.symm)

theorem answers_exchanges {cs : List Command} {as : List (Except Fault Value)}
    (h : as.length = cs.length) : (exchanges cs as).map Exchange.answer = as := by
  rw [exchanges, List.map_map]
  exact List.map_snd_zip (Nat.le_of_eq h)

/-- The exchanges are made one after another: some commands are sent in one go and all their answers
are taken, and then the next ones are sent. -/
inductive Transport.Talks {σ : Type} (t : Transport σ) : σ → List Exchange → σ → Prop
  | nil (n : σ) : Talks t n [] n
  | batch {n n' n'' : σ} {cs : List Command} {as : List (Except Fault Value)} {xs : List Exchange}
      (taken : t.takeAll cs.length (t.send cs n) = (.ok as, n')) (rest : Talks t n' xs n'') :
      Talks t n (exchanges cs as ++ xs) n''

namespace Transport

variable {σ : Type} {t : Transport σ} {n n' : σ}

theorem takeAll_run (t : Transport σ) (count : Nat) (n : σ) :
    ∃ as n', t.takeAll count n = (.ok as, n') ∧ as.length = count := by
  induction count generalizing n with
  | zero => exact ⟨[], n, rfl, rfl⟩
  | succ count ih =>
    obtain ⟨as, n', htaken, hlength⟩ := ih (t.receive n).2
    refine ⟨(t.receive n).1 :: as, n', ?_, congrArg (· + 1) hlength⟩
    have hfirst : t.take.attempt n = (.ok (t.receive n).1, (t.receive n).2) := rfl
    exact (Dialogue.bind_run_ok hfirst).trans (Dialogue.bind_run_ok htaken)

theorem takeAll_succ {count : Nat} {as : List (Except Fault Value)}
    (h : t.takeAll (count + 1) n = (.ok as, n')) :
    ∃ rest, as = (t.receive n).1 :: rest ∧ t.takeAll count (t.receive n).2 = (.ok rest, n') := by
  obtain ⟨rest, n₁, hrest, -⟩ := t.takeAll_run count (t.receive n).2
  have hfirst : t.take.attempt n = (.ok (t.receive n).1, (t.receive n).2) := rfl
  have hall : t.takeAll (count + 1) n = (.ok ((t.receive n).1 :: rest), n₁) :=
    (Dialogue.bind_run_ok hfirst).trans (Dialogue.bind_run_ok hrest)
  cases hall.symm.trans h
  exact ⟨rest, rfl, hrest⟩

theorem takeAll_length {count : Nat} {as : List (Except Fault Value)}
    (h : t.takeAll count n = (.ok as, n')) : as.length = count := by
  obtain ⟨as', n'', htaken, hlength⟩ := t.takeAll_run count n
  cases htaken.symm.trans h
  exact hlength

theorem askAll_run {cs : List Command} {as : List (Except Fault Value)}
    (h : t.takeAll cs.length (t.send cs n) = (.ok as, n')) : t.askAll cs n = (as.mapM id, n') := by
  have hsend : (modify (t.send cs) : Dialogue σ Unit) n = (.ok (), t.send cs n) := rfl
  exact (Dialogue.bind_run_ok hsend).trans (Dialogue.bind_run_ok h)

theorem Talks.ask {c : Command} {a : Except Fault Value} {n'' : σ} {xs : List Exchange}
    (h : t.ask c n = (a, n')) (rest : t.Talks n' xs n'') : t.Talks n (⟨c, a⟩ :: xs) n'' := by
  have htaken : t.takeAll [c].length (t.send [c] n) = (.ok [a], n') := by
    have htake : t.take (t.send [c] n) = (a, n') := h
    have hfirst : t.take.attempt (t.send [c] n) = (.ok a, n') := by
      rw [Dialogue.attempt, htake]
    exact (Dialogue.bind_run_ok hfirst).trans rfl
  exact .batch htaken rest

theorem Talks.append {n'' : σ} {xs ys : List Exchange} (h : t.Talks n xs n') (h' : t.Talks n' ys n'') :
    t.Talks n (xs ++ ys) n'' := by
  induction h with
  | nil => exact h'
  | batch taken _ ih =>
    rw [List.append_assoc]
    exact .batch taken (ih h')

end Transport

namespace Network

variable {n n' : Network}

/-- Each value among the answers has used up what began it. -/
theorem openings_takeAll {count : Nat} {as : List (Except Fault Value)}
    (h : transport.takeAll count n = (.ok as, n')) :
    n'.openings + as.countP Except.isOk ≤ n.openings := by
  induction count generalizing n as with
  | zero =>
    cases h
    exact Nat.le_refl _
  | succ count ih =>
    obtain ⟨rest, rfl, hrest⟩ := Transport.takeAll_succ h
    have hlater : n'.openings + rest.countP Except.isOk ≤ n.receive.2.openings := ih hrest
    have hfirst : transport.receive n = n.receive := rfl
    obtain ⟨hle, hlt⟩ := n.openings_receive
    rw [hfirst]
    cases hanswer : n.receive.1 with
    | error why =>
      rw [List.countP_cons_of_neg (by simp [Except.isOk, Except.toBool])]
      lia
    | ok v =>
      have hused := hlt v hanswer
      rw [List.countP_cons_of_pos rfl]
      lia

theorem openings_talks {xs : List Exchange} (h : transport.Talks n xs n') :
    n'.openings + xs.countP (·.answer.isOk) ≤ n.openings := by
  induction h with
  | nil => exact Nat.le_refl _
  | @batch n n₁ n₂ cs as xs taken _ ih =>
    have hbatch := openings_takeAll taken
    have hsend : (transport.send cs n).openings = n.openings := n.openings_send cs
    have hcount : (exchanges cs as).countP (·.answer.isOk) = as.countP Except.isOk := by
      have hmap : ((exchanges cs as).map Exchange.answer).countP Except.isOk =
          (exchanges cs as).countP (·.answer.isOk) := List.countP_map
      rw [← hmap, answers_exchanges (Transport.takeAll_length taken)]
    rw [List.countP_append]
    lia

/-- A server keeps the commands in the place of the last connection, and if the connection has ended,
the first ones of them. -/
def Keeps (n : Network) (cs : List Command) (n' : Network) : Prop :=
  ∃ kept, n'.received = kept.foldl (fun received c => keep c received) n.received ∧ kept <+: cs ∧
    (n'.ended = none → n.ended = none ∧ kept = cs) ∧ (n.ended ≠ none → kept = [])

theorem Keeps.refl (n : Network) : Keeps n [] n :=
  ⟨[], rfl, List.prefix_refl _, fun h => ⟨h, rfl⟩, fun _ => rfl⟩

theorem Keeps.trans {n₁ n₂ n₃ : Network} {cs ds : List Command} (h : Keeps n₁ cs n₂)
    (h' : Keeps n₂ ds n₃) : Keeps n₁ (cs ++ ds) n₃ := by
  obtain ⟨kept, hreceived, hprefix, hopen, hended⟩ := h
  obtain ⟨kept', hreceived', hprefix', hopen', hended'⟩ := h'
  refine ⟨kept ++ kept', ?_, ?_, ?_, ?_⟩
  · rw [hreceived', hreceived, List.foldl_append]
  · by_cases hnone : n₂.ended = none
    · rw [(hopen hnone).2]
      exact (List.prefix_append_right_inj cs).mpr hprefix'
    · rw [hended' hnone, List.append_nil]
      exact hprefix.trans (List.prefix_append ..)
  · intro hnone
    obtain ⟨hnone₂, rfl⟩ := hopen' hnone
    obtain ⟨hnone₁, rfl⟩ := hopen hnone₂
    exact ⟨hnone₁, rfl⟩
  · intro hsome
    have hsome₂ : n₂.ended ≠ none := fun hnone => hsome (hopen hnone).1
    rw [hended hsome, hended' hsome₂]
    rfl

theorem keeps_answer (n : Network) (c : Command) : Keeps n [c] (n.answer c) := by
  cases hended : n.ended with
  | some why =>
    have hsame : n.answer c = n := by simp [answer, hended]
    rw [hsame]
    exact ⟨[], rfl, List.nil_prefix, by simp [hended], fun _ => rfl⟩
  | none =>
    refine ⟨[c], ?_, List.prefix_refl _, fun _ => ⟨hended, rfl⟩, fun h => absurd hended h⟩
    unfold answer
    rw [hended]
    rcases n.queue with _ | ⟨_ | _ | _, queue⟩ <;> rfl

theorem keeps_send (n : Network) (cs : List Command) : Keeps n cs (n.send cs) := by
  induction cs generalizing n with
  | nil => exact .refl n
  | cons c cs ih => exact (keeps_answer n c).trans (ih (n.answer c))

theorem keeps_receive (n : Network) : Keeps n [] n.receive.2 := by
  have hsame : n.receive.2.received = n.received ∧ n.receive.2.ended = n.ended := by
    unfold receive
    rcases Wire.read n.pending with _ | _ | ⟨_ | _, rest⟩ <;> exact ⟨rfl, rfl⟩
  exact ⟨[], hsame.1, List.prefix_refl _, fun h => ⟨hsame.2 ▸ h, rfl⟩, fun _ => rfl⟩

theorem keeps_takeAll {count : Nat} {as : List (Except Fault Value)}
    (h : transport.takeAll count n = (.ok as, n')) : Keeps n [] n' := by
  induction count generalizing n as with
  | zero =>
    cases h
    exact .refl _
  | succ count ih =>
    obtain ⟨rest, -, hrest⟩ := Transport.takeAll_succ h
    exact (keeps_receive n).trans (ih hrest)

theorem keeps_talks {xs : List Exchange} (h : transport.Talks n xs n') :
    Keeps n (xs.map Exchange.command) n' := by
  induction h with
  | nil => exact .refl _
  | @batch n n₁ n₂ cs as xs taken _ ih =>
    rw [List.map_append, commands_exchanges (Transport.takeAll_length taken)]
    have hbatch := (keeps_send n cs).trans (keeps_takeAll taken)
    rw [List.append_nil] at hbatch
    exact hbatch.trans ih

end Network
end Redis
end Leasehold
