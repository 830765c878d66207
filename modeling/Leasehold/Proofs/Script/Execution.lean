import Leasehold.Proofs.Redis.Keyspace
import Leasehold.Store.Value

/-!
# Execution of scripts

The server runs a script statement by statement on its keyspace, while the
clock stands still and nobody else acts. A call that fails ends the script,
and a script that ends without an answer answers nothing. The memory store
decides a script in one comparison; run after run it replies as the scripts
do, and its unexpired records stay the entries of the keyspace.
-/

namespace Leasehold

open Redis

/-- Whether a value equals text in a script. -/
def Redis.Value.isText (s : String) : Value → Bool
  | .data bytes => bytes == Utf8.encode s
  | _ => false

namespace Script

def argumentMissing : ServerError :=
  ⟨.response, some "Lua redis lib command arguments must be strings or integers"⟩

variable (now : Instant) (key : String) (arguments : List String)

/-- What a term stands for; arguments are counted from one. -/
def Term.value? : Term → Option String
  | .key => some key
  | .argument index => if index = 0 then none else arguments[index - 1]?
  | .text s => some s

def Call.command? (c : Call) : Option Command :=
  (c.terms.mapM (Term.value? key arguments)).map (c.command :: ·)

def Call.execute (c : Call) (ks : Keyspace) : Except ServerError Value × Keyspace :=
  match c.command? key arguments with
  | some command => ks.execute now command
  | none => (.error argumentMissing, ks)

mutual

/-- Runs a statement; gives the script's answer, if the statement makes one. -/
def Statement.execute : Statement → Keyspace → Except ServerError (Option Value) × Keyspace
  | .whenEqual call term body, ks =>
    match call.execute now key arguments ks with
    | (.error why, ks) => (.error why, ks)
    | (.ok v, ks) =>
      if (term.value? key arguments).any v.isText then Statement.executeAll body ks else (.ok none, ks)
  | .perform call, ks =>
    match call.execute now key arguments ks with
    | (.error why, ks) => (.error why, ks)
    | (.ok _, ks) => (.ok none, ks)
  | .answer call, ks =>
    match call.execute now key arguments ks with
    | (.error why, ks) => (.error why, ks)
    | (.ok v, ks) => (.ok (some v), ks)
  | .answerText s, ks => (.ok (some (.data (Utf8.encode s))), ks)
  | .answerNumber n, ks => (.ok (some (.int n)), ks)

def Statement.executeAll : List Statement → Keyspace → Except ServerError (Option Value) × Keyspace
  | [], ks => (.ok none, ks)
  | s :: rest, ks =>
    match s.execute ks with
    | (.error why, ks) => (.error why, ks)
    | (.ok (some v), ks) => (.ok (some v), ks)
    | (.ok none, ks) => Statement.executeAll rest ks

end

def run (script : LockScript) (ks : Keyspace) : Except ServerError Value × Keyspace :=
  let r := Statement.executeAll now key arguments script.program ks
  (r.1.map fun answer => answer.getD .nil, r.2)

def reply : Except ServerError Value → Outcome StoreError Reply
  | .ok v => .ofExcept (Reply.ofValue v)
  | .error why => .error (.connection (.server why))

variable (ks : Keyspace) (token text : String) (rest : List String)

theorem execute_get : Call.execute now key arguments ⟨"get", [.key]⟩ ks = (ks.get now key, ks) := rfl

theorem execute_set :
    Call.execute now key (token :: text :: rest)
        ⟨"set", [.key, .argument 1, .text "PX", .argument 2]⟩ ks =
      ks.set now key token false text := rfl

theorem execute_setIfAbsent :
    Call.execute now key (token :: text :: rest)
        ⟨"set", [.key, .argument 1, .text "NX", .text "PX", .argument 2]⟩ ks =
      ks.set now key token true text := rfl

theorem execute_delete :
    Call.execute now key arguments ⟨"del", [.key]⟩ ks =
      (.ok (ks.delete now key).1, (ks.delete now key).2) := rfl

theorem any_argument_isText (v : Value) :
    (Term.value? key (token :: rest) (.argument 1)).any v.isText = v.isText token := rfl

theorem run_acquire :
    run now key (token :: text :: rest) .acquire ks =
      match ks.get now key with
      | .error why => (.error why, ks)
      | .ok v =>
        if v.isText token then
          ((ks.set now key token false text).1.map fun _ => .data (Utf8.encode "OK"),
            (ks.set now key token false text).2)
        else ks.set now key token true text := by
  simp only [run, LockScript.program, Statement.executeAll, Statement.execute, execute_get,
    execute_set, execute_setIfAbsent, any_argument_isText]
  cases ks.get now key with
  | error why => rfl
  | ok v =>
    by_cases hv : v.isText token = true
    · simp only [hv, if_true]
      rcases ks.set now key token false text with ⟨_ | _, ks'⟩ <;> rfl
    · simp only [hv, Bool.false_eq_true, if_false]
      rcases ks.set now key token true text with ⟨_ | _, ks'⟩ <;> rfl

theorem run_release :
    run now key (token :: rest) .release ks =
      match ks.get now key with
      | .error why => (.error why, ks)
      | .ok v =>
        if v.isText token then (.ok (ks.delete now key).1, (ks.delete now key).2)
        else (.ok (.int 0), ks) := by
  simp only [run, LockScript.program, Statement.executeAll, Statement.execute, execute_get,
    execute_delete, any_argument_isText]
  cases ks.get now key with
  | error why => rfl
  | ok v =>
    by_cases hv : v.isText token = true
    · simp only [hv, if_true]
      rfl
    · simp only [hv, Bool.false_eq_true, if_false]
      rfl

/-- A script with the arguments that owners give it, or the passing of time. -/
inductive Step where
  | acquire (key token : String) (millis : Nat) (pos : 0 < millis) (lt : millis < 9223372036854775808)
  | release (key token : String)
  | advance (d : Duration)

def Step.access : Step → Access
  | acquire key token millis _ _ => .eval .acquire key [token, Numeral.ofNat millis]
  | release key token => .eval .release key [token]
  | advance d => .advance d

def Step.interpret (now : Instant) (ks : Keyspace) :
    Step → Outcome StoreError Answer × Instant × Keyspace
  | acquire key token millis _ _ =>
    let r := Script.run now key [token, Numeral.ofNat millis] .acquire ks
    ((reply r.1).map .reply, now, r.2)
  | release key token =>
    let r := Script.run now key [token] .release ks
    ((reply r.1).map .reply, now, r.2)
  | advance d => (.ok .done, now + d.nanos, ks)

/-- The answers of a memory store, and what it is afterwards. -/
def remember : Instant → MemoryStore → List Step →
    List (Outcome StoreError Answer) × Instant × MemoryStore
  | now, s, [] => ([], now, s)
  | now, s, step :: steps =>
    let r := step.access.run now s
    let rest := remember r.2.1 r.2.2 steps
    (r.1 :: rest.1, rest.2)

/-- The answers of the interpreted scripts, and the keyspace afterwards. -/
def interpret : Instant → Keyspace → List Step →
    List (Outcome StoreError Answer) × Instant × Keyspace
  | now, ks, [] => ([], now, ks)
  | now, ks, step :: steps =>
    let r := step.interpret now ks
    let rest := interpret r.2.1 r.2.2 steps
    (r.1 :: rest.1, rest.2)

/-- The clock reaches every deadline that the scripts set. -/
def Fits : Instant → Keyspace → List Step → Prop
  | _, _, [] => True
  | now, ks, step :: steps =>
    let r := step.interpret now ks
    r.2.2.Bounded ∧ Fits r.2.1 r.2.2 steps

/-- The entries that commands see are the records. -/
def Mirrors (ks : Keyspace) (now : Instant) (m : Ledger) : Prop :=
  ∀ key, ks.live now key = (m key).map Entry.ofRecord

def replies : List Reply := [.status "OK", .nil, .int 1, .int 0]

section Mirror

variable {ks : Keyspace} {now : Instant} {m : Ledger} {key : String}

theorem Mirrors.later (h : Mirrors ks now m) {later : Instant} (hlater : now ≤ later) :
    Mirrors ks later (m.current later) := by
  intro k
  rw [ks.live_later k hlater, h k, Option.filter_map, Ledger.current_apply]
  rfl

theorem Mirrors.current (h : Mirrors ks now m) : m.current now = m := by
  funext k
  have hk := (h k).symm.trans ((h.later (Nat.le_refl now)) k)
  exact Option.map_injective Entry.ofRecord_injective hk.symm

theorem Mirrors.update (h : Mirrors ks now m) (r : Option Record) :
    Mirrors (Function.update ks key (r.map .ofRecord)) now
      (Ledger.current (Function.update m key r) now) := by
  intro k
  by_cases hk : k = key
  · subst hk
    simp only [Keyspace.live, Function.update_self, Ledger.current_apply, Option.filter_map]
    rfl
  · rw [Keyspace.live_update_of_ne _ _ _ hk, Ledger.current_update _ _ _ hk, h.current, h k]

theorem Mirrors.get (h : Mirrors ks now m) (key token : String) :
    ∃ v, ks.get now key = .ok v ∧
      (v.isText token = true ↔ ∃ r, m key = some r ∧ r.value = token) := by
  unfold Keyspace.get
  rw [h key]
  cases m key with
  | none => exact ⟨.nil, rfl, by simp [Redis.Value.isText]⟩
  | some r => exact ⟨.data (Utf8.encode r.value), rfl, by simp [Redis.Value.isText]⟩

theorem Mirrors.release (h : Mirrors ks now m) (key token : String) :
    let r := run now key [token] .release ks
    let x := m.eval now key .release [token]
    reply r.1 = x.1 ∧ Mirrors r.2 now (x.2.current now) ∧ ∃ a ∈ replies, x.1 = .ok a := by
  intro r x
  obtain ⟨v, hget, hv⟩ := h.get key token
  have hr : r = _ := run_release now key ks token []
  rw [hget] at hr
  rcases m.release_cases now key token with ⟨record, hrecord, hown, he⟩ | ⟨hother, he⟩
  · have hdelete : ks.delete now key = (.int 1, Function.update ks key none) := by
      unfold Keyspace.delete
      rw [h key, hrecord]
      rfl
    have hx : x = (.ok (.int 1), Function.update m key none) := he
    simp only [hv.mpr ⟨record, hrecord, hown⟩, if_true, hdelete] at hr
    rw [hr, hx]
    exact ⟨rfl, h.update none, _, by simp [replies], rfl⟩
  · have hno : ¬ v.isText token = true := by
      intro htext
      obtain ⟨record, hrecord, hown⟩ := hv.mp htext
      exact hother record hrecord hown
    have hx : x = (.ok (.int 0), m) := he
    simp only [if_neg hno] at hr
    rw [hr, hx, h.current]
    exact ⟨rfl, h, _, by simp [replies], rfl⟩

theorem Mirrors.run_acquire_free (h : Mirrors ks now m) {token : String} {millis : Nat}
    (hpos : 0 < millis) (hlt : millis < 9223372036854775808)
    (hfree : ∀ r, m key = some r → r.value = token) :
    reply (run now key [token, Numeral.ofNat millis] .acquire ks).1 = .ok (.status "OK") ∧
      (run now key [token, Numeral.ofNat millis] .acquire ks).2 =
        Function.update ks key
          ((some ⟨token, Keyspace.after now millis⟩ : Option Record).map .ofRecord) := by
  obtain ⟨v, hget, hv⟩ := h.get key token
  rw [run_acquire, hget, ks.set_ofNat now key hpos hlt, ks.set_ofNat now key hpos hlt, h key]
  by_cases htext : v.isText token = true
  · simp only [htext, if_true, Bool.false_and, Bool.false_eq_true, if_false]
    exact ⟨by simp [reply, Reply.ofValue, Except.map, Outcome.ofExcept], rfl⟩
  · have hnone : m key = none := by
      cases hm : m key with
      | none => rfl
      | some r => exact absurd (hv.mpr ⟨r, hm, hfree r hm⟩) htext
    simp only [if_neg htext, hnone, Option.map_none, Option.isSome_none, Bool.and_false,
      Bool.false_eq_true, if_false]
    exact ⟨rfl, rfl⟩

theorem Mirrors.run_acquire_other (h : Mirrors ks now m) {token : String} {millis : Nat}
    (hpos : 0 < millis) (hlt : millis < 9223372036854775808) {r : Record} (hr : m key = some r)
    (hother : r.value ≠ token) :
    run now key [token, Numeral.ofNat millis] .acquire ks = (.ok .nil, ks) := by
  obtain ⟨v, hget, hv⟩ := h.get key token
  have hno : ¬ v.isText token = true := by
    intro htext
    obtain ⟨r', hr', hown⟩ := hv.mp htext
    cases hr.symm.trans hr'
    exact hother hown
  rw [run_acquire, hget, ks.set_ofNat now key hpos hlt, ks.set_ofNat now key hpos hlt, h key, hr]
  simp only [if_neg hno, Option.map_some, Option.isSome_some, Bool.and_true, if_true]

theorem Mirrors.acquire (h : Mirrors ks now m) (key token : String) {millis : Nat} (hpos : 0 < millis)
    (hlt : millis < 9223372036854775808)
    (hfits : (run now key [token, Numeral.ofNat millis] .acquire ks).2.Bounded) :
    let r := run now key [token, Numeral.ofNat millis] .acquire ks
    let x := m.eval now key .acquire [token, Numeral.ofNat millis]
    reply r.1 = x.1 ∧ Mirrors r.2 now (x.2.current now) ∧ ∃ a ∈ replies, x.1 = .ok a := by
  have hlarge : millis < 18446744073709551616 := Nat.lt_trans hlt (by decide)
  intro r x
  rcases m.acquire_cases now key token hpos hlarge with
    ⟨record, hrecord, hother, he⟩ | ⟨hfree, he⟩
  · have hr : r = (.ok .nil, ks) := h.run_acquire_other hpos hlt hrecord hother
    have hx : x = (.ok .nil, m) := he
    rw [hr, hx, h.current]
    exact ⟨rfl, h, _, by simp [replies], rfl⟩
  · obtain ⟨hreply, hkeys⟩ := h.run_acquire_free hpos hlt hfree
    have hnanos := Duration.nanos_ofMillis hlarge
    have hclock : now + (Duration.ofMillis millis).nanos < Instant.clockEnd := by
      rw [hkeys] at hfits
      rw [hnanos]
      exact hfits key _ _ (Function.update_self ..) rfl
    have hx : x = (.ok (.status "OK"),
        Function.update m key (some ⟨token, now + (Duration.ofMillis millis).nanos⟩)) :=
      he.trans (Ledger.write_of_lt hclock)
    rw [hx, hreply, hkeys, hnanos]
    exact ⟨rfl, h.update _, _, by simp [replies], rfl⟩

/-- Interpreted scripts and a memory store come to the same. -/
structure Follows (scripts : Outcome StoreError Answer × Instant × Keyspace)
    (memory : Outcome StoreError Answer × Instant × MemoryStore) : Prop where
  answer : scripts.1 = memory.1
  clock : scripts.2.1 = memory.2.1
  mirrors : Mirrors scripts.2.2 scripts.2.1 (memory.2.2.ledger memory.2.1)
  plain : memory.1 = .ok .done ∨ ∃ a ∈ replies, memory.1 = .ok (.reply a)

theorem Follows.eval {s : MemoryStore} {script : LockScript} {arguments : List String}
    (h : let r := run now key arguments script ks
      let x := (s.ledger now).eval now key script arguments
      reply r.1 = x.1 ∧ Mirrors r.2 now (x.2.current now) ∧ ∃ a ∈ replies, x.1 = .ok a) :
    Follows
      ((reply (run now key arguments script ks).1).map .reply, now, (run now key arguments script ks).2)
      ((Access.eval script key arguments).run now s) := by
  obtain ⟨hreply, hmirrors, a, ha, hplain⟩ := h
  obtain ⟨hanswer, hclock, hledger⟩ := (Access.eval script key arguments).run_ledger now s
  rw [Ledger.run_eval] at hanswer hclock hledger
  constructor
  · rw [hanswer, hreply]
  · exact hclock.symm
  · rw [hledger]
    exact hmirrors
  · rw [hanswer, hplain]
    exact Or.inr ⟨a, ha, rfl⟩

theorem Mirrors.step {s : MemoryStore} (h : Mirrors ks now (s.ledger now)) (step : Step)
    (hfits : (step.interpret now ks).2.2.Bounded) :
    Follows (step.interpret now ks) (step.access.run now s) := by
  cases step with
  | acquire key token millis hpos hlt => exact .eval (h.acquire key token hpos hlt hfits)
  | release key token => exact .eval (h.release key token)
  | advance d =>
    have hlater : now ≤ now + d.nanos := Nat.le_add_right ..
    refine ⟨rfl, rfl, ?_, Or.inl rfl⟩
    have hledger : (s.ledger now).current (now + d.nanos) = s.ledger (now + d.nanos) :=
      (s.ledger_later now hlater).symm
    exact hledger ▸ h.later hlater

theorem Mirrors.run {s : MemoryStore} (h : Mirrors ks now (s.ledger now)) (steps : List Step)
    (hfits : Fits now ks steps) :
    let memory := remember now s steps
    let scripts := interpret now ks steps
    memory.1 = scripts.1 ∧ memory.2.1 = scripts.2.1 ∧
      Mirrors scripts.2.2 scripts.2.1 (memory.2.2.ledger memory.2.1) ∧
      ∀ answer ∈ memory.1, answer = .ok .done ∨ ∃ a ∈ replies, answer = .ok (.reply a) := by
  induction steps generalizing now s ks with
  | nil => exact ⟨rfl, rfl, h, by simp [remember]⟩
  | cons step steps ih =>
    obtain ⟨hbounded, hrest⟩ := hfits
    have hfollows := h.step step hbounded
    have hmirrors := hfollows.mirrors
    rw [hfollows.clock] at hrest hmirrors
    obtain ⟨hanswers, hend, hmirrored, hplains⟩ := ih hmirrors hrest
    simp only [remember, interpret, hfollows.clock, hfollows.answer, hanswers]
    refine ⟨trivial, hend, hmirrored, ?_⟩
    intro answer hmem
    rcases List.mem_cons.mp hmem with rfl | hmem
    · exact hfollows.plain
    · exact hplains answer (hanswers ▸ hmem)

end Mirror

/-- How far a step reaches beyond the time at which it is taken. -/
def Step.span : Step → Nat
  | acquire _ _ millis _ _ => millis * 1000000
  | release _ _ => 0
  | advance d => d.nanos

def Step.spans : List Step → Nat
  | [] => 0
  | step :: steps => step.span + spans steps

theorem Step.clock_interpret (step : Step) (now : Instant) (ks : Keyspace) :
    (step.interpret now ks).2.1 ≤ now + step.span := by
  cases step with
  | acquire => exact Nat.le_add_right ..
  | release => exact Nat.le_refl now
  | advance d => exact Nat.le_refl _

theorem Step.bounded_interpret (step : Step) {now : Instant} {ks : Keyspace} (hb : ks.Bounded)
    (h : now + step.span < Instant.clockEnd) : (step.interpret now ks).2.2.Bounded := by
  cases step with
  | advance d => exact hb
  | release key token =>
    simp only [interpret, run_release]
    cases ks.get now key with
    | error why => exact hb
    | ok v =>
      dsimp only
      split_ifs
      · exact hb.delete now key
      · exact hb
  | acquire key token millis hpos hlt =>
    have hset (onlyIfAbsent : Bool) :
        (ks.set now key token onlyIfAbsent (Numeral.ofNat millis)).2.Bounded := by
      rw [ks.set_ofNat now key hpos hlt]
      split_ifs
      · exact hb
      · exact hb.update key _ h
    simp only [interpret, run_acquire]
    cases ks.get now key with
    | error why => exact hb
    | ok v =>
      dsimp only
      split_ifs
      · exact hset false
      · exact hset true

/-- Steps fit when the clock has room for all that they reach. -/
theorem fits_of_room {now : Instant} {ks : Keyspace} {steps : List Step} (hb : ks.Bounded)
    (hroom : now + Step.spans steps < Instant.clockEnd) : Fits now ks steps := by
  induction steps generalizing now ks with
  | nil => trivial
  | cons step steps ih =>
    simp only [Step.spans, ← Nat.add_assoc] at hroom
    have hfirst := step.bounded_interpret hb (Nat.lt_of_le_of_lt (Nat.le_add_right ..) hroom)
    refine ⟨hfirst, ih hfirst (Nat.lt_of_le_of_lt ?_ hroom)⟩
    exact Nat.add_le_add_right (step.clock_interpret now ks) _

/-- The memory store makes the replies of the scripts, and keeps the entries that they leave. -/
theorem remember_agrees_interpret (now : Instant) (steps : List Step)
    (hfits : Fits now .empty steps) :
    let memory := remember now .empty steps
    let scripts := interpret now .empty steps
    memory.1 = scripts.1 ∧ memory.2.1 = scripts.2.1 ∧
      (∀ key, scripts.2.2.live scripts.2.1 key =
        (memory.2.2.live? memory.2.1 key).map Entry.ofRecord) ∧
      ∀ answer ∈ memory.1, answer = .ok .done ∨ ∃ a ∈ replies, answer = .ok (.reply a) :=
  Mirrors.run (fun _ => rfl) steps hfits

/-- A token is written, keeps another one off, and is gone before it can be given back. -/
theorem remember_agrees_interpret_handover :
    let steps : List Step :=
      [.acquire "door" "a" 1000 (by decide) (by decide), .acquire "door" "b" 5 (by decide) (by decide),
        .advance (Duration.ofSeconds 1), .acquire "door" "b" 5 (by decide) (by decide),
        .release "door" "a"]
    let memory := remember 0 .empty steps
    let scripts := interpret 0 .empty steps
    Fits 0 .empty steps ∧ memory.1 = scripts.1 ∧ memory.2.1 = scripts.2.1 ∧
      (∀ key, scripts.2.2.live scripts.2.1 key =
        (memory.2.2.live? memory.2.1 key).map Entry.ofRecord) ∧
      ∀ answer ∈ memory.1, answer = .ok .done ∨ ∃ a ∈ replies, answer = .ok (.reply a) := by
  intro steps memory scripts
  have hfits : Fits 0 .empty steps := by
    refine fits_of_room (fun _ _ _ h => nomatch h) ?_
    decide
  exact ⟨hfits, remember_agrees_interpret 0 steps hfits⟩

end Script
end Leasehold
