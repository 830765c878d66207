import Leasehold.Proofs.Store.Transcript

/-!
# Keys do not interfere

An access reads and writes only under its own key. So a run looks from one key
as if the accesses to all others had been left out: the same answers, and the
same record at the end. Hence accesses to different keys can change places,
and no later run tells in which order they were made.
-/

namespace Leasehold

def Access.concerns (key : String) (a : Access) : Bool := a.key?.all (· == key)

namespace Transcript

variable {key : String} {a : Access} {answer : Outcome StoreError Answer} {t : Transcript}

/-- The part of a transcript that is about the key. -/
def about (key : String) (t : Transcript) : Transcript := t.filter fun e => e.1.concerns key

theorem about_cons_own (ha : a.concerns key = true) :
    about key ((a, answer) :: t) = (a, answer) :: about key t := List.filter_cons_of_pos ha

theorem about_cons_other (ha : a.concerns key = false) : about key ((a, answer) :: t) = about key t :=
  List.filter_cons_of_neg (by simp [ha])

end Transcript

namespace Ledger

/-- Two operations come to the same, as far as they are seen from a key. -/
structure Alike {α : Type} (key : String) (x y : α × Ledger) : Prop where
  answer : x.1 = y.1
  record : x.2 key = y.2 key

variable {m m' : Ledger} {now : Instant} {key : String}

theorem alike_keep {α : Type} (h : m key = m' key) (answer : α) :
    Alike key (answer, m) (answer, m') := ⟨rfl, h⟩

theorem alike_update {α : Type} (answer : α) (r : Option Record) :
    Alike key (answer, Function.update m key r) (answer, Function.update m' key r) := by
  refine ⟨rfl, ?_⟩
  dsimp only
  rw [Function.update_self, Function.update_self]

theorem Alike.map {α β : Type} {x y : α × Ledger} (h : Alike key x y) (f : α → β) :
    Alike key (f x.1, x.2) (f y.1, y.2) := ⟨congrArg f h.answer, h.record⟩

theorem alike_write {α : Type} (h : m key = m' key) (value : String) (ttl : Duration) (answer : α) :
    Alike key (m.write now key value ttl answer) (m'.write now key value ttl answer) := by
  unfold write
  cases Instant.after? now ttl with
  | none => exact alike_keep h _
  | some deadline => exact alike_update _ _

theorem eval_alike (h : m key = m' key) (script : LockScript) (arguments : List String) :
    Alike key (m.eval now key script arguments) (m'.eval now key script arguments) := by
  cases arguments with
  | nil => exact alike_keep h _
  | cons token rest =>
    cases script with
    | release =>
      simp only [eval, release, h]
      cases m' key with
      | none => exact alike_keep h _
      | some r =>
        dsimp only
        split_ifs
        · exact alike_update _ _
        · exact alike_keep h _
    | acquire =>
      simp only [eval, acquire, h]
      cases rest with
      | nil => exact alike_keep h _
      | cons text rest =>
        dsimp only
        cases Numeral.u64? text with
        | none => exact alike_keep h _
        | some millis =>
          dsimp only
          split_ifs
          · exact alike_keep h _
          · cases m' key with
            | none => exact alike_write h _ _ _
            | some r =>
              dsimp only
              split_ifs
              · exact alike_write h _ _ _
              · exact alike_keep h _

theorem setIfAbsent_alike (h : m key = m' key) (value : String) (ttl : Duration) :
    Alike key (m.setIfAbsent now key value ttl) (m'.setIfAbsent now key value ttl) := by
  simp only [setIfAbsent, h]
  cases m' key with
  | none => exact alike_write h _ _ _
  | some r => exact alike_keep h _

theorem deleteIfEqual_alike (h : m key = m' key) (expected : String) :
    Alike key (m.deleteIfEqual key expected) (m'.deleteIfEqual key expected) := by
  simp only [deleteIfEqual, h]
  cases m' key with
  | none => exact alike_keep h _
  | some r =>
    dsimp only
    split_ifs
    · exact alike_update _ _
    · exact alike_keep h _

theorem expireIfEqual_alike (h : m key = m' key) (expected : String) (ttl : Duration) :
    Alike key (m.expireIfEqual now key expected ttl) (m'.expireIfEqual now key expected ttl) := by
  simp only [expireIfEqual, h]
  cases m' key with
  | none => exact alike_keep h _
  | some r =>
    dsimp only
    split_ifs
    · exact alike_write h _ _ _
    · exact alike_keep h _

variable (now)

theorem perform_alike (h : m key = m' key) {a : Access} (ha : a.concerns key = true) :
    Alike key ((m.perform now a).1, (m.perform now a).2.2)
      ((m'.perform now a).1, (m'.perform now a).2.2) := by
  cases a with
  | advance d => exact alike_keep h _
  | eval script k arguments =>
    obtain rfl : k = key := of_decide_eq_true ha
    exact (eval_alike h script arguments).map (Outcome.map Answer.reply)
  | remaining k =>
    obtain rfl : k = key := of_decide_eq_true ha
    simp only [perform, remaining, h]
    exact alike_keep h _
  | get k =>
    obtain rfl : k = key := of_decide_eq_true ha
    simp only [perform, get, h]
    exact alike_keep h _
  | setIfAbsent k value ttl =>
    obtain rfl : k = key := of_decide_eq_true ha
    exact (setIfAbsent_alike h value ttl).map (Outcome.map Answer.flag)
  | deleteIfEqual k expected =>
    obtain rfl : k = key := of_decide_eq_true ha
    exact (deleteIfEqual_alike h expected).map (Outcome.ok ∘ Answer.flag)
  | expireIfEqual k expected ttl =>
    obtain rfl : k = key := of_decide_eq_true ha
    exact (expireIfEqual_alike h expected ttl).map (Outcome.map Answer.flag)

variable (m) in
theorem perform_other {a : Access} (ha : a.concerns key = false) :
    (m.perform now a).2.2 key = m key := by
  rcases m.perform_cases now a with hm | ⟨k, x, hk, heffect⟩
  · rw [hm]
  · have hne : key ≠ k := by
      rintro rfl
      simp [Access.concerns, hk] at ha
    rw [heffect.ledger, Function.update_of_ne hne]

theorem clock_perform (m m' : Ledger) (now : Instant) (a : Access) :
    (m.perform now a).2.1 = (m'.perform now a).2.1 := by
  cases a <;> rfl

theorem run_alike (h : m key = m' key) {a : Access} (ha : a.concerns key = true) :
    Alike key ((m.run now a).1, (m.run now a).2.2) ((m'.run now a).1, (m'.run now a).2.2) := by
  obtain ⟨hanswer, hrecord⟩ := perform_alike now h ha
  dsimp only at hanswer hrecord
  refine ⟨hanswer, ?_⟩
  simp only [run, current_apply, clock_perform m m', hrecord]

variable (m) in
theorem run_other {a : Access} (ha : a.concerns key = false) :
    (m.run now a).2.1 = now ∧ (m.run now a).2.2 key = m.current now key := by
  have hclock : (m.perform now a).2.1 = now := by
    cases a with
    | advance d => cases ha
    | _ => rfl
  exact ⟨hclock, by simp only [run, current_apply, hclock, perform_other m now ha]⟩

end Ledger

namespace Access

variable (now : Instant) (s s' : MemoryStore) {key : String} {a : Access}

theorem clock_run_of_key (hk : a.key? = some key) : (a.run now s).2.1 = now := by
  cases a with
  | advance d => cases hk
  | _ => rfl

/-- An access to the key tells no difference between stores that show the same under it. -/
theorem run_own (h : s.ledger now key = s'.ledger now key) (ha : a.concerns key = true) :
    (a.run now s).1 = (a.run now s').1 ∧ (a.run now s).2.1 = (a.run now s').2.1 ∧
      (a.run now s).2.2.ledger (a.run now s).2.1 key =
        (a.run now s').2.2.ledger (a.run now s').2.1 key := by
  obtain ⟨hanswer, hclock, hshows⟩ := a.run_ledger now s
  obtain ⟨hanswer', hclock', hshows'⟩ := a.run_ledger now s'
  have halike := Ledger.run_alike now h ha
  refine ⟨?_, ?_, ?_⟩
  · rw [hanswer, hanswer']
    exact halike.answer
  · rw [hclock, hclock']
    exact Ledger.clock_perform _ _ now a
  · rw [hshows, hshows']
    exact halike.record

/-- An access to another key takes no time, and changes nothing that the key shows. -/
theorem run_other (ha : a.concerns key = false) :
    (a.run now s).2.1 = now ∧ (a.run now s).2.2.ledger now key = s.ledger now key := by
  obtain ⟨-, hclock, hshows⟩ := a.run_ledger now s
  obtain ⟨hnow, hrecord⟩ := Ledger.run_other (s.ledger now) now ha
  rw [hclock, hnow] at hshows
  refine ⟨hclock.trans hnow, ?_⟩
  rw [hshows, hrecord, MemoryStore.ledger_current]

variable (accesses : List Access)

/-- From the key, a run looks as if the accesses to other keys had been left out. -/
theorem transcript_about (h : s.ledger now key = s'.ledger now key) :
    (transcript now s accesses).about key = transcript now s' (accesses.filter (concerns key)) := by
  -- The stores differ under other keys from the first access to one of them, hence two stores.
  induction accesses generalizing now s s' with
  | nil => rfl
  | cons a rest ih =>
    cases ha : a.concerns key with
    | true =>
      obtain ⟨hanswer, hclock, hshows⟩ := run_own now s s' h ha
      rw [← hclock] at hshows
      rw [List.filter_cons_of_pos ha, transcript, transcript, Transcript.about_cons_own ha, ← hanswer,
        ← hclock, ih _ _ _ hshows]
    | false =>
      obtain ⟨hclock, hshows⟩ := run_other now s ha
      rw [List.filter_cons_of_neg (by simp [ha]), transcript, Transcript.about_cons_other ha, hclock]
      exact ih _ _ _ (hshows.trans h)

/-- The same is true of what the run leaves under the key. -/
theorem runAll_filter (h : s.ledger now key = s'.ledger now key) :
    let r := runAll now s accesses
    let r' := runAll now s' (accesses.filter (concerns key))
    r.1 = r'.1 ∧ r.2.ledger r.1 key = r'.2.ledger r'.1 key := by
  induction accesses generalizing now s s' with
  | nil => exact ⟨rfl, h⟩
  | cons a rest ih =>
    cases ha : a.concerns key with
    | true =>
      obtain ⟨-, hclock, hshows⟩ := run_own now s s' h ha
      rw [← hclock] at hshows
      rw [List.filter_cons_of_pos ha, runAll, runAll, ← hclock]
      exact ih _ _ _ hshows
    | false =>
      obtain ⟨hclock, hshows⟩ := run_other now s ha
      rw [List.filter_cons_of_neg (by simp [ha]), runAll, hclock]
      exact ih _ _ _ (hshows.trans h)

variable {accesses}

theorem concerns_of_key {k : String} (hk : a.key? = some k) (key : String) :
    a.concerns key = decide (k = key) := by
  simp [concerns, hk, Bool.beq_eq_decide_eq]

theorem run_after {b : Access} {j k : String} (ha : a.key? = some j) (hb : b.key? = some k)
    (hjk : j ≠ k) :
    (a.run now (b.run now s).2.2).1 = (a.run now s).1 ∧
      (a.run now (b.run now s).2.2).2.2.ledger now j = (a.run now s).2.2.ledger now j := by
  have hown : a.concerns j = true := by simp [concerns_of_key ha]
  have hother : b.concerns j = false := by simp [concerns_of_key hb, hjk.symm]
  obtain ⟨hanswer, -, hshows⟩ := run_own now _ _ (run_other now s hother).2 hown
  rw [clock_run_of_key now _ ha, clock_run_of_key now _ ha] at hshows
  exact ⟨hanswer, hshows⟩

/-- It does not show in which order two accesses to different keys were made. -/
theorem ledger_swap {b : Access} {j k : String} (ha : a.key? = some j) (hb : b.key? = some k)
    (hjk : j ≠ k) :
    (b.run now (a.run now s).2.2).2.2.ledger now = (a.run now (b.run now s).2.2).2.2.ledger now := by
  have hfirst (s : MemoryStore) : (b.run now s).2.2.ledger now j = s.ledger now j :=
    (run_other now s (by simp [concerns_of_key hb, hjk.symm])).2
  have hsecond (s : MemoryStore) : (a.run now s).2.2.ledger now k = s.ledger now k :=
    (run_other now s (by simp [concerns_of_key ha, hjk])).2
  funext key
  by_cases hj : key = j
  · subst hj
    rw [hfirst, (run_after now s ha hb hjk).2]
  · by_cases hk : key = k
    · subst hk
      rw [hsecond, (run_after now s hb ha hjk.symm).2]
    · have hleft (s : MemoryStore) : (a.run now s).2.2.ledger now key = s.ledger now key :=
        (run_other now s (by simp [concerns_of_key ha, Ne.symm hj])).2
      have hright (s : MemoryStore) : (b.run now s).2.2.ledger now key = s.ledger now key :=
        (run_other now s (by simp [concerns_of_key hb, Ne.symm hk])).2
      rw [hleft, hright, hleft, hright]

/-- Keys do not interfere. Without the accesses to other keys a run answers the same about a key and
leaves the same value and time there; and two accesses to different keys can change places, which
neither they nor any later run can tell. -/
theorem keys_apart (now : Instant) (s : MemoryStore) :
    (∀ (key : String) (accesses : List Access),
      let r := runAll now s accesses
      let r' := runAll now s (accesses.filter (concerns key))
      (transcript now s accesses).about key = transcript now s (accesses.filter (concerns key)) ∧
        r.1 = r'.1 ∧ (r.2.get r.1 key).1 = (r'.2.get r'.1 key).1 ∧
        (r.2.remaining r.1 key).1 = (r'.2.remaining r'.1 key).1) ∧
    ∀ (a b : Access) (j k : String), a.key? = some j → b.key? = some k → j ≠ k →
      (a.run now (b.run now s).2.2).1 = (a.run now s).1 ∧
        (b.run now (a.run now s).2.2).1 = (b.run now s).1 ∧
        ∀ later, transcript now (b.run now (a.run now s).2.2).2.2 later =
          transcript now (a.run now (b.run now s).2.2).2.2 later := by
  refine ⟨?_, ?_⟩
  · intro key accesses r r'
    obtain ⟨hclock, hshows⟩ := runAll_filter now s s accesses rfl
    refine ⟨transcript_about now s s accesses rfl, hclock, ?_, ?_⟩
    · rw [MemoryStore.get_fst, MemoryStore.get_fst, hshows]
    · rw [MemoryStore.remaining_fst, MemoryStore.remaining_fst, hshows, hclock]
  · intro a b j k ha hb hjk
    refine ⟨(run_after now s ha hb hjk).1, (run_after now s hb ha hjk.symm).1, ?_⟩
    intro later
    rw [transcript_ledger, transcript_ledger, ledger_swap now s ha hb hjk]

/-- A lock that is taken at one door, and a limit at another that is over at once. -/
theorem keys_apart_two_doors :
    let a : Access := .eval .acquire "front" ["a", "1000"]
    let b : Access := .setIfAbsent "back" "b" .zero
    a.key? = some "front" ∧ b.key? = some "back" ∧ "front" ≠ "back" ∧
      (a.run 0 (b.run 0 .empty).2.2).1 = (a.run 0 .empty).1 ∧
      (b.run 0 (a.run 0 .empty).2.2).1 = (b.run 0 .empty).1 ∧
      ∀ later, transcript 0 (b.run 0 (a.run 0 .empty).2.2).2.2 later =
        transcript 0 (a.run 0 (b.run 0 .empty).2.2).2.2 later := by
  intro a b
  have hne : "front" ≠ "back" := by decide
  exact ⟨rfl, rfl, hne, (keys_apart 0 .empty).2 a b "front" "back" rfl rfl hne⟩

end Access
end Leasehold
