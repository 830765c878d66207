import Leasehold.Proofs.Redis.Interference

/-!
# Comparing and writing as one step

A comparing operation reads its key, compares, and writes in a transaction
that is void if somebody touched the key in between; then it starts over. It
comes to the same as comparing and writing in one step, at one moment of the
call: when the value was read, if it was not the expected one; else when the
transaction took effect. There the key shows what is left of the entry that
was read: the entry itself, or nothing if it has expired.
-/

namespace Leasehold
namespace Redis

/-- What is written if a key holds an expected text. -/
inductive Conditional where
  | delete
  | expire (ttl : Duration)

namespace Conditional

def call {σ : Type} (t : Transport σ) (c : Client) (w : Session σ) (key expected : String) :
    Conditional → Except StoreError Bool × Session σ
  | delete => c.compareAndDelete t w key expected
  | expire ttl => c.compareAndExpire t w key expected ttl

/-- The operation of a memory store, with the time in whole milliseconds. -/
def remember (s : MemoryStore) (now : Instant) (key expected : String) :
    Conditional → Outcome StoreError Bool × MemoryStore
  | delete => (.ok (s.deleteIfEqual now key expected).1, (s.deleteIfEqual now key expected).2)
  | expire ttl => s.expireIfEqual now key expected (Duration.ofMillis ttl.wholeMillis)

variable (op : Conditional) (ks : Keyspace) (now : Instant) (key expected : String)

def command : Command :=
  match op with
  | delete => ["DEL", key]
  | expire ttl => ["PEXPIRE", key, Numeral.ofNat ttl.wholeMillis]

def write (e : Entry) : Option Entry :=
  match op with
  | delete => none
  | expire ttl => some { e with deadline := some (Keyspace.after now ttl.wholeMillis) }

def atomic : Bool × Keyspace :=
  match ks.live now key with
  | none => (false, ks)
  | some e =>
    if e.content = .text (Utf8.encode expected) then (true, Function.update ks key (op.write now e))
    else (false, ks)

theorem execute_command :
    ks.execute now (op.command key) =
      match ks.live now key with
      | none => (.ok (.int 0), ks)
      | some e => (.ok (.int 1), Function.update ks key (op.write now e)) := by
  cases op with
  | delete =>
    have h : ks.execute now ["DEL", key] =
        (.ok (ks.delete now key).1, (ks.delete now key).2) := rfl
    rw [command, h, Keyspace.delete]
    cases ks.live now key <;> rfl
  | expire ttl =>
    have h (text : String) : ks.execute now ["PEXPIRE", key, text] = ks.expire now key text := rfl
    rw [command, h, Keyspace.expire, Keyspace.millis?_ofNat ttl.wholeMillis_lt]
    cases ks.live now key <;> rfl

end Conditional

namespace Server

variable {s s' : Server} {v : Value}

theorem Remains.same (hwatched : s'.watched = s.watched) (hnow : s'.now = s.now)
    (hkeys : s'.keys = s.keys) (hdirty : s'.dirty = s.dirty) : s.Remains s' where
  watched := hwatched
  clock := Nat.le_of_eq hnow.symm
  clean h := hdirty ▸ h
  shows := by
    intro _ p _
    rw [hkeys, hnow]
    exact s.keys.live_later p.1 (Nat.le_refl s.now)

theorem turn_queued {c : Command} {queue : Option (List Command)}
    (hhandle : s.meet.handle s.gap.expiryCounts c = (.ok v, { s.meet with queue := queue }))
    (h : s.turn c = (.ok v, s')) : s'.queue = queue ∧ s.Still s' ∧ s.Remains s' := by
  obtain ⟨-, hs'⟩ := turn_of_handle h hhandle
  subst hs'
  refine ⟨rfl, ⟨_, rfl, ?_⟩, (Remains.meet s).trans (.same rfl rfl rfl rfl)⟩
  intro m hm
  cases List.mem_singleton.mp hm
  rfl

theorem handle_multi (h : s.queue = none) (expiryCounts : Bool) :
    s.handle expiryCounts ["MULTI"] = (.ok .okay, { s with queue := some [] }) := by
  cases s
  cases h
  rfl

theorem handle_write (op : Conditional) (key : String) {cs : List Command} (h : s.queue = some cs)
    (expiryCounts : Bool) :
    s.handle expiryCounts (op.command key) =
      (.ok (.status "QUEUED"), { s with queue := some (cs ++ [op.command key]) }) := by
  cases s
  cases h
  cases op <;> rfl

theorem handle_exec {cs : List Command} (h : s.queue = some cs) (expiryCounts : Bool) :
    s.handle expiryCounts ["EXEC"] = s.commit (s.dirty || expiryCounts && s.lost) cs := by
  cases s
  cases h
  rfl

theorem turn_multi (hqueue : s.queue = none) (h : s.turn ["MULTI"] = (.ok v, s')) :
    s'.queue = some [] ∧ s.Still s' ∧ s.Remains s' := by
  have hhandle := handle_multi (s.meet_queue_log.1.trans hqueue) s.gap.expiryCounts
  obtain ⟨hv, -⟩ := turn_of_handle h hhandle
  cases hv
  exact turn_queued hhandle h

theorem turn_write (op : Conditional) (key : String) {cs : List Command} (hqueue : s.queue = some cs)
    (h : s.turn (op.command key) = (.ok v, s')) :
    s'.queue = some (cs ++ [op.command key]) ∧ s.Still s' ∧ s.Remains s' := by
  have hhandle := handle_write op key (s.meet_queue_log.1.trans hqueue) s.gap.expiryCounts
  obtain ⟨hv, -⟩ := turn_of_handle h hhandle
  cases hv
  exact turn_queued hhandle h

theorem turn_watch {key : String} (hqueue : s.queue = none)
    (h : s.turn ["WATCH", key] = (.ok v, s')) :
    s'.queue = none ∧ s.Still s' ∧ ∃ p ∈ s'.watched, p.1 = key := by
  obtain ⟨hstill, hnone⟩ := turn_plain (plain_watch key) hqueue
  rw [h] at hstill hnone
  have hhandle : s.meet.handle s.gap.expiryCounts ["WATCH", key] =
      (.ok .okay, { s.meet with
        watched := (key, (s.meet.keys.live s.meet.now key).isSome) :: s.meet.watched }) := rfl
  obtain ⟨-, hs'⟩ := turn_of_handle h hhandle
  refine ⟨hnone, hstill, ?_⟩
  subst hs'
  exact ⟨_, List.mem_cons_self .., rfl⟩

/-- A value that was heard is the one under the key at the moment of the command. -/
theorem turn_get {key : String} (hqueue : s.queue = none) (h : s.turn ["GET", key] = (.ok v, s')) :
    s'.queue = none ∧ s.meet.keys.get s.meet.now key = .ok v ∧ s.meet.Remains s' ∧
      s'.log = s.log ++ [⟨s.meet.now, s.meet.keys, s.meet.keys⟩] := by
  have hmeet := s.meet_queue_log.1.trans hqueue
  obtain ⟨hv, hs'⟩ := turn_of_handle h (handle_get hmeet s.gap.expiryCounts key)
  subst hs'
  refine ⟨hmeet, ?_, .same rfl rfl rfl rfl, rfl⟩
  cases hget : s.meet.keys.get s.meet.now key with
  | error why =>
    rw [hget] at hv
    cases hv
  | ok v' =>
    rw [hget] at hv
    cases hv
    rfl

theorem commit_write (op : Conditional) (key : String) (isVoid : Bool) :
    s.commit isVoid [op.command key] =
      if isVoid then (.ok .nil, { s with watched := [], dirty := false, queue := none })
      else
        match s.keys.live s.now key with
        | none => (.ok (.bulk [.int 0]), { s with watched := [], dirty := false, queue := none })
        | some e =>
          (.ok (.bulk [.int 1]),
            { s with
              watched := []
              dirty := false
              queue := none
              keys := Function.update s.keys key (op.write s.now e) }) := by
  unfold commit
  cases isVoid with
  | true => rfl
  | false =>
    simp only [executeAll, op.execute_command]
    cases s.keys.live s.now key <;> rfl

/-- What comes of a transaction that was heard of. Either it is void, and nothing has changed; or
at its moment nobody has touched a watched key since, and the write has been made. -/
theorem turn_exec (op : Conditional) (key : String) (hqueue : s.queue = some [op.command key])
    (h : s.turn ["EXEC"] = (.ok v, s')) :
    s'.queue = none ∧
      ((v = .nil ∧ s.Still s') ∨
        (s.meet.dirty = false ∧
          ∃ after, s'.log = s.log ++ [⟨s.meet.now, s.meet.keys, after⟩] ∧
            ((s.meet.keys.live s.meet.now key = none ∧ v = .bulk [.int 0] ∧ after = s.meet.keys) ∨
              ∃ e, s.meet.keys.live s.meet.now key = some e ∧ v = .bulk [.int 1] ∧
                after = Function.update s.meet.keys key (op.write s.meet.now e)))) := by
  have hhandle := handle_exec (s.meet_queue_log.1.trans hqueue) s.gap.expiryCounts
  rw [commit_write] at hhandle
  cases hvoid : (s.meet.dirty || s.gap.expiryCounts && s.meet.lost) with
  | true =>
    rw [hvoid, if_pos rfl] at hhandle
    obtain ⟨hv, hs'⟩ := turn_of_handle h hhandle
    cases hv
    subst hs'
    refine ⟨rfl, Or.inl ⟨rfl, _, rfl, ?_⟩⟩
    intro m hm
    cases List.mem_singleton.mp hm
    rfl
  | false =>
    rw [hvoid, if_neg Bool.false_ne_true] at hhandle
    have hclean := (Bool.or_eq_false_iff.mp hvoid).1
    cases hlive : s.meet.keys.live s.meet.now key with
    | none =>
      rw [hlive] at hhandle
      obtain ⟨hv, hs'⟩ := turn_of_handle h hhandle
      cases hv
      subst hs'
      exact ⟨rfl, Or.inr ⟨hclean, _, rfl, Or.inl ⟨rfl, rfl, rfl⟩⟩⟩
    | some e =>
      rw [hlive] at hhandle
      obtain ⟨hv, hs'⟩ := turn_of_handle h hhandle
      cases hv
      subst hs'
      exact ⟨rfl, Or.inr ⟨hclean, _, rfl, Or.inr ⟨e, rfl, rfl, rfl⟩⟩⟩

end Server

theorem Keyspace.get_text {ks : Keyspace} {now : Instant} {key : String} {v : Value}
    {current : Option String} (expected : String) (hget : ks.get now key = .ok v)
    (htext : v.text? = .ok current) :
    current = some expected ↔
      ∃ e, ks.live now key = some e ∧ e.content = .text (Utf8.encode expected) := by
  unfold Keyspace.get at hget
  cases hlive : ks.live now key with
  | none =>
    rw [hlive] at hget
    cases hget
    cases htext
    simp
  | some e =>
    obtain ⟨content, deadline⟩ := e
    rw [hlive] at hget
    cases content with
    | collection items => cases hget
    | text bytes =>
      cases hget
      simp only [Value.text?, Value.text] at htext
      cases hread : Utf8.decode? bytes with
      | none =>
        rw [hread] at htext
        cases htext
      | some s =>
        rw [hread] at htext
        cases htext
        rw [Utf8.decode?_eq_some] at hread
        subst hread
        simp

namespace Conditional

variable {op : Conditional} {key expected : String} {b : Bool}

/-- At one moment between two states the operation has been done in one step, and at no other has
anything changed. -/
def Settles (op : Conditional) (key expected : String) (b : Bool) (s s' : Server) : Prop :=
  ∃ pre m post, s'.log = s.log ++ (pre ++ m :: post) ∧ (∀ x ∈ pre ++ post, x.after = x.before) ∧
    op.atomic m.before m.now key expected = (b, m.after)

theorem Settles.after_still {s s' s'' : Server} (h : s.Still s')
    (h' : op.Settles key expected b s' s'') : op.Settles key expected b s s'' := by
  obtain ⟨extra, hlog, hsame⟩ := h
  obtain ⟨pre, m, post, hlog', hsame', hatomic⟩ := h'
  refine ⟨extra ++ pre, m, post, by rw [hlog', hlog]; simp, ?_, hatomic⟩
  intro x hx
  rw [List.append_assoc] at hx
  rcases List.mem_append.mp hx with hx | hx
  · exact hsame x hx
  · exact hsame' x hx

theorem Settles.before_still {s s' s'' : Server} (h : op.Settles key expected b s s')
    (h' : s'.Still s'') : op.Settles key expected b s s'' := by
  obtain ⟨pre, m, post, hlog, hsame, hatomic⟩ := h
  obtain ⟨extra, hlog', hsame'⟩ := h'
  refine ⟨pre, m, post ++ extra, by rw [hlog', hlog]; simp, ?_, hatomic⟩
  intro x hx
  rw [← List.append_assoc] at hx
  rcases List.mem_append.mp hx with hx | hx
  · exact hsame x hx
  · exact hsame' x hx

theorem atomic_of_not {ks : Keyspace} {now : Instant}
    (h : ¬ ∃ e, ks.live now key = some e ∧ e.content = .text (Utf8.encode expected)) :
    op.atomic ks now key expected = (false, ks) := by
  unfold atomic
  cases hlive : ks.live now key with
  | none => rfl
  | some e => exact if_neg fun hcontent => h ⟨e, hlive, hcontent⟩

theorem atomic_of_live {ks : Keyspace} {now : Instant} {e : Entry} (hlive : ks.live now key = some e)
    (hcontent : e.content = .text (Utf8.encode expected)) :
    op.atomic ks now key expected = (true, Function.update ks key (op.write now e)) := by
  unfold atomic
  rw [hlive]
  exact if_pos hcontent

theorem remember_of_ne (op : Conditional) {s : MemoryStore} {now : Instant}
    (h : ∀ r, s.live? now key = some r → r.value ≠ expected) :
    (op.remember s now key expected).1 = .ok false ∧
      (op.remember s now key expected).2.live? now key = s.live? now key := by
  have hkeep {x : Ledger} (hx : x = (s.ledger now).current now) : x key = s.live? now key :=
    congrFun (hx.trans (s.ledger_current now)) key
  cases op with
  | delete =>
    have hview := s.deleteIfEqual_agrees now key expected
    have hledger : (s.ledger now).deleteIfEqual key expected = (false, s.ledger now) := by
      unfold Ledger.deleteIfEqual
      cases hr : s.ledger now key with
      | none => rfl
      | some r => exact if_neg (h r hr)
    rw [hledger] at hview
    exact ⟨congrArg Outcome.ok hview.answer, hkeep hview.shows⟩
  | expire ttl =>
    have hview := s.expireIfEqual_agrees now key expected (Duration.ofMillis ttl.wholeMillis)
    have hledger : (s.ledger now).expireIfEqual now key expected (Duration.ofMillis ttl.wholeMillis) =
        (.ok false, s.ledger now) := by
      unfold Ledger.expireIfEqual
      cases hr : s.ledger now key with
      | none => rfl
      | some r => exact if_neg (h r hr)
    rw [hledger] at hview
    exact ⟨hview.answer, hkeep hview.shows⟩

theorem live?_of_update {s s' : MemoryStore} {now : Instant} {r : Option Record}
    (h : s'.ledger now = Ledger.current (Function.update (s.ledger now) key r) now) :
    (s'.live? now key).map Entry.ofRecord = (r.map .ofRecord).filter (Entry.isLive now) := by
  have hkey : s'.live? now key = r.filter fun r => now < r.deadline := by
    refine (congrFun h key).trans ?_
    rw [Ledger.current_apply, Function.update_self]
  rw [hkey, Option.filter_map]
  rfl

theorem remember_of_eq {s : MemoryStore} {now : Instant} {r : Record}
    (hr : s.ledger now key = some r) (hvalue : r.value = expected)
    (hclock : (op.remember s now key expected).1 ≠ .clockOverflow) :
    (op.remember s now key expected).1 = .ok true ∧
      ((op.remember s now key expected).2.live? now key).map Entry.ofRecord =
        (op.write now (.ofRecord r)).filter (Entry.isLive now) := by
  cases op with
  | delete =>
    have hview := s.deleteIfEqual_agrees now key expected
    have hledger : (s.ledger now).deleteIfEqual key expected =
        (true, Function.update (s.ledger now) key none) := by
      unfold Ledger.deleteIfEqual
      rw [hr]
      exact if_pos hvalue
    rw [hledger] at hview
    exact ⟨congrArg Outcome.ok hview.answer, live?_of_update hview.shows⟩
  | expire ttl =>
    have hview := s.expireIfEqual_agrees now key expected (Duration.ofMillis ttl.wholeMillis)
    have hledger : (s.ledger now).expireIfEqual now key expected (Duration.ofMillis ttl.wholeMillis) =
        (s.ledger now).write now key expected (Duration.ofMillis ttl.wholeMillis) true := by
      unfold Ledger.expireIfEqual
      rw [hr]
      exact if_pos hvalue
    rw [hledger] at hview
    rcases Nat.lt_or_ge (now + (Duration.ofMillis ttl.wholeMillis).nanos) Instant.clockEnd with
      hfits | hfits
    · rw [Ledger.write_of_lt hfits, Duration.nanos_ofMillis ttl.wholeMillis_lt, ← hvalue] at hview
      rw [← hvalue]
      exact ⟨hview.answer, live?_of_update hview.shows⟩
    · rw [Ledger.write_of_le hfits] at hview
      exact absurd hview.answer hclock

/-- Compared and written in one step, a key ends up as in a memory store that held the same under
it, unless the store's clock ends before. -/
theorem atomic_remember {ks : Keyspace} {now : Instant} {s : MemoryStore}
    (hs : ks.live now key = (s.live? now key).map Entry.ofRecord)
    (hclock : (op.remember s now key expected).1 ≠ .clockOverflow) :
    (op.remember s now key expected).1 = .ok (op.atomic ks now key expected).1 ∧
      (op.atomic ks now key expected).2.live now key =
        ((op.remember s now key expected).2.live? now key).map Entry.ofRecord := by
  by_cases hheld : ∃ r, s.live? now key = some r ∧ r.value = expected
  · obtain ⟨r, hr, hvalue⟩ := hheld
    obtain ⟨hanswer, hshows⟩ := remember_of_eq hr hvalue hclock
    rw [hr] at hs
    rw [atomic_of_live hs (by rw [← hvalue]; rfl), hanswer, hshows]
    refine ⟨rfl, ?_⟩
    simp only [Keyspace.live, Function.update_self]
  · have hother : ∀ r, s.live? now key = some r → r.value ≠ expected :=
      fun r hr hvalue => hheld ⟨r, hr, hvalue⟩
    obtain ⟨hanswer, hshows⟩ := op.remember_of_ne hother
    have hatomic : op.atomic ks now key expected = (false, ks) := by
      refine atomic_of_not ?_
      rintro ⟨e, he, hcontent⟩
      obtain ⟨r, hr, rfl⟩ := Option.map_eq_some_iff.mp (hs.symm.trans he)
      have hbytes : Utf8.encode r.value = Utf8.encode expected := Content.text.inj hcontent
      exact hother r hr (Utf8.encode_inj.mp hbytes)
    rw [hatomic, hanswer, hshows]
    exact ⟨rfl, hs⟩

end Conditional

namespace Connection

open Server

variable {rounds : Connection → Nat} {op : Conditional} {key expected : String}

theorem turns_cons {c : Command} {cs : List Command} {s : Server} {vs : List Value}
    (h : (turns (c :: cs) s).1.mapM id = (.ok vs : Except Fault (List Value))) :
    ∃ v s' vs', s.turn c = (.ok v, s') ∧ (turns cs s').1.mapM id = .ok vs' ∧ vs = v :: vs' ∧
      (turns (c :: cs) s).2 = (turns cs s').2 := by
  simp only [turns, List.mapM_cons] at h ⊢
  rcases hturn : s.turn c with ⟨_ | v, s'⟩
  · rw [hturn] at h
    cases h
  · rw [hturn] at h
    dsimp only at h
    rcases hrest : (turns cs s').1.mapM id with _ | vs'
    · rw [hrest] at h
      cases h
    · rw [hrest] at h
      cases h
      exact ⟨v, s', vs', rfl, hrest, rfl, rfl⟩

theorem commit_eq_ok {s : Server} {n : Connection} {r : Option Bool} (hqueue : s.queue = none)
    (h : Dialogue.commit (transport rounds) (op.command key) ⟨s, []⟩ = (.ok r, n)) :
    ∃ s' x, n = ⟨s', []⟩ ∧ s'.queue = none ∧ s.Remains x ∧
      ((r = none ∧ s.Still s') ∨
        (x.dirty = false ∧ ∃ pre after, s'.log = s.log ++ (pre ++ [⟨x.now, x.keys, after⟩]) ∧
          (∀ m ∈ pre, m.after = m.before) ∧
          ((x.keys.live x.now key = none ∧ r = some false ∧ after = x.keys) ∨
            ∃ e, x.keys.live x.now key = some e ∧ r = some true ∧
              after = Function.update x.keys key (op.write x.now e)))) := by
  obtain ⟨vs, m, hall, hrest⟩ := Dialogue.bind_eq_ok h
  rw [askAll_run] at hall
  obtain ⟨hvs, rfl⟩ := Prod.mk.inj hall
  obtain ⟨v₁, s₁, vs₁, hmulti, hvs₁, rfl, hs₁⟩ := turns_cons hvs
  obtain ⟨v₂, s₂, vs₂, hwrite, hvs₂, rfl, hs₂⟩ := turns_cons hvs₁
  obtain ⟨v₃, s₃, vs₃, hexec, hvs₃, rfl, hs₃⟩ := turns_cons hvs₂
  have hs : (turns [["MULTI"], op.command key, ["EXEC"]] s).2 = s₃ := (hs₁.trans hs₂).trans hs₃
  cases hvs₃
  rw [hs] at hrest
  obtain ⟨hqueue₁, hstill₁, hremains₁⟩ := turn_multi hqueue hmulti
  obtain ⟨hqueue₂, hstill₂, hremains₂⟩ := turn_write op key hqueue₁ hwrite
  obtain ⟨hqueue₃, hresult⟩ := turn_exec op key hqueue₂ hexec
  have hstill := hstill₁.trans hstill₂
  have hremains := (hremains₁.trans hremains₂).trans (Remains.meet s₂)
  rcases hresult with ⟨rfl, hstill₃⟩ | ⟨hclean, after, hlog, hwritten⟩
  · cases hrest
    exact ⟨s₃, s₂.meet, rfl, hqueue₃, hremains, Or.inl ⟨rfl, hstill.trans hstill₃⟩⟩
  · obtain ⟨pre, hpre, hsame⟩ := hstill
    have hlog' : s₃.log = s.log ++ (pre ++ [⟨s₂.meet.now, s₂.meet.keys, after⟩]) := by
      rw [hlog, hpre, List.append_assoc]
    rcases hwritten with ⟨hlive, rfl, rfl⟩ | ⟨e, hlive, rfl, rfl⟩
    · cases hrest
      exact ⟨s₃, s₂.meet, rfl, hqueue₃, hremains,
        Or.inr ⟨hclean, pre, _, hlog', hsame, Or.inl ⟨hlive, rfl, rfl⟩⟩⟩
    · cases hrest
      exact ⟨s₃, s₂.meet, rfl, hqueue₃, hremains,
        Or.inr ⟨hclean, pre, _, hlog', hsame, Or.inr ⟨e, hlive, rfl, rfl⟩⟩⟩

theorem ask_eq_ok {s : Server} {c : Command} {v : Value} {n : Connection}
    (h : (transport rounds).ask c ⟨s, []⟩ = (.ok v, n)) :
    ∃ s', s.turn c = (.ok v, s') ∧ n = ⟨s', []⟩ := by
  rw [ask_run] at h
  obtain ⟨hv, rfl⟩ := Prod.mk.inj h
  exact ⟨_, Prod.ext hv rfl, rfl⟩

theorem round_eq_ok {expected : String} {s : Server} {n : Connection} {r : Option Bool}
    (hqueue : s.queue = none)
    (h : Dialogue.round (transport rounds) key expected (op.command key) ⟨s, []⟩ = (.ok r, n)) :
    ∃ s', n = ⟨s', []⟩ ∧ s'.queue = none ∧
      ((r = none ∧ s.Still s') ∨ ∃ b, r = some b ∧ op.Settles key expected b s s') := by
  obtain ⟨v₁, n₁, hask₁, hrest₁⟩ := Dialogue.bind_eq_ok h
  obtain ⟨s₁, hwatch, rfl⟩ := ask_eq_ok hask₁
  obtain ⟨hqueue₁, hstill₁, p, hp, rfl⟩ := turn_watch hqueue hwatch
  obtain ⟨v₂, n₂, hask₂, hrest₂⟩ := Dialogue.bind_eq_ok hrest₁
  obtain ⟨s₂, hturn₂, rfl⟩ := ask_eq_ok hask₂
  obtain ⟨hqueue₂, hget, hremains₂, hlog₂⟩ := turn_get hqueue₁ hturn₂
  obtain ⟨current, n₃, hlift, hrest₃⟩ := Dialogue.bind_eq_ok hrest₂
  rw [Dialogue.lift_run] at hlift
  obtain ⟨htext, rfl⟩ := Prod.mk.inj hlift
  have hread := Keyspace.get_text expected hget htext
  have hstill₂ : s₁.Still s₂ := ⟨_, hlog₂, by simp⟩
  by_cases hcurrent : current = some expected
  · rw [if_pos hcurrent] at hrest₃
    obtain ⟨s', x, rfl, hqueue', hremains, hresult⟩ := commit_eq_ok hqueue₂ hrest₃
    refine ⟨s', rfl, hqueue', ?_⟩
    rcases hresult with ⟨rfl, hstill⟩ | ⟨hclean, pre, after, hlog, hsame, hwritten⟩
    · exact Or.inl ⟨rfl, (hstill₁.trans hstill₂).trans hstill⟩
    · obtain ⟨e, hlive, hcontent⟩ := hread.mp hcurrent
      -- what the transaction finds under the key is what is left of the entry that was read
      have hfound : x.keys.live x.now p.1 = (some e).filter (Entry.isLive x.now) := by
        have hp' : p ∈ s₁.meet.watched := (Remains.meet s₁).watched ▸ hp
        rw [(hremains₂.trans hremains).shows hclean p hp', hlive]
      have hsettles (b : Bool) (h : op.atomic x.keys x.now p.1 expected = (b, after)) :
          op.Settles p.1 expected b s s' :=
        .after_still (hstill₁.trans hstill₂) ⟨pre, _, [], hlog, by simpa using hsame, h⟩
      refine Or.inr ?_
      rcases hwritten with ⟨hgone, rfl, rfl⟩ | ⟨e', hlive', rfl, rfl⟩
      · refine ⟨false, rfl, hsettles false (Conditional.atomic_of_not ?_)⟩
        rintro ⟨e', hlive', -⟩
        cases hgone.symm.trans hlive'
      · have hsome : some e' = (some e).filter (Entry.isLive x.now) := hlive'.symm.trans hfound
        obtain ⟨hsame', -⟩ := Option.filter_eq_some_iff.mp hsome.symm
        cases hsame'
        exact ⟨true, rfl, hsettles true (Conditional.atomic_of_live hlive' hcontent)⟩
  · rw [if_neg hcurrent] at hrest₃
    cases hrest₃
    refine ⟨s₂, rfl, hqueue₂, Or.inr ⟨false, rfl, .after_still hstill₁ ⟨[], _, [], hlog₂, by simp, ?_⟩⟩⟩
    exact Conditional.atomic_of_not fun h => hcurrent (hread.mpr h)

/-- However often the operation starts over, it takes effect once. -/
theorem transact_eq_ok {count : Nat} {s : Server} {n : Connection} {b : Bool} (hqueue : s.queue = none)
    (h : Dialogue.transact (transport rounds) key expected (op.command key) count ⟨s, []⟩ =
      (.ok b, n)) : op.Settles key expected b s n.server := by
  induction count generalizing s with
  | zero => cases h
  | succ count ih =>
    obtain ⟨r, m, hround, hrest⟩ := Dialogue.bind_eq_ok h
    obtain ⟨s', rfl, hqueue', hresult⟩ := round_eq_ok hqueue hround
    rcases hresult with ⟨rfl, hstill⟩ | ⟨changed, rfl, hsettles⟩
    · exact .after_still hstill (ih hqueue' hrest)
    · obtain ⟨v, m, hask, hend⟩ := Dialogue.bind_eq_ok hrest
      obtain ⟨s'', hturn, rfl⟩ := ask_eq_ok hask
      obtain ⟨hstill, -⟩ := turn_plain plain_unwatch hqueue'
      rw [hturn] at hstill
      cases hend
      exact hsettles.before_still hstill

theorem client_call_eq_ok {α : Type} {c : Client} {w w' : Session Connection}
    {d : Dialogue Connection α} {a : α} (h : c.call (transport rounds) w d = (.ok a, w')) :
    ∃ s n, s.queue = none ∧ w.store.server.Still s ∧ d ⟨s, []⟩ = (.ok a, n) ∧
      w'.store = n := by
  obtain ⟨hanswer, rfl⟩ := Prod.mk.inj h
  rcases hrun : (do Dialogue.enter (transport rounds) c.address none; d : Dialogue Connection α)
    w.store with ⟨why | a', n⟩
  · have hheld : (c.hold (transport rounds) w none d).1 = .error why := congrArg Prod.fst hrun
    rw [hheld] at hanswer
    cases hanswer
  · have hheld : (c.hold (transport rounds) w none d).1 = .ok a' := congrArg Prod.fst hrun
    rw [hheld] at hanswer
    cases hanswer
    obtain ⟨u, m, henter, hd⟩ := Dialogue.bind_eq_ok hrun
    obtain ⟨s, rfl, hqueue, hstill⟩ := enter_eq_ok henter
    exact ⟨s, n, hqueue, hstill, hd, congrArg Prod.snd hrun⟩

theorem call_settles {c : Client} {w w' : Session Connection} {b : Bool}
    (h : op.call (transport rounds) c w key expected = (.ok b, w')) :
    op.Settles key expected b w.store.server w'.store.server := by
  have hcall : op.call (transport rounds) c w key expected = c.call (transport rounds) w
      (Dialogue.compareAndWrite (transport rounds) key expected (op.command key)) := by
    cases op <;> rfl
  obtain ⟨s, n, hqueue, hstill, hd, hstore⟩ := client_call_eq_ok (hcall.symm.trans h)
  obtain ⟨m, n', hget, htransact⟩ := Dialogue.bind_eq_ok hd
  cases hget
  rw [hstore]
  exact .after_still hstill (transact_eq_ok hqueue htransact)

end Connection

namespace Conditional

variable {op : Conditional} {key expected : String} {b : Bool}

/-- The operation is done at one moment: it answers as if compared and written in one step, and
changes the keyspace just so. -/
structure Performs (op : Conditional) (key expected : String) (b : Bool) (m : Moment) : Prop where
  atomic : op.atomic m.before m.now key expected = (b, m.after)
  /-- It is made just if the key holds the expected text. -/
  held : b = true ↔
    ∃ e, m.before.live m.now key = some e ∧ e.content = .text (Utf8.encode expected)
  idle : b = false → m.after = m.before
  others : ∀ k, k ≠ key → m.after k = m.before k
  /-- A memory store that shows the same under the key does the same to it. -/
  remembered : ∀ s : MemoryStore,
    m.before.live m.now key = (s.live? m.now key).map Entry.ofRecord →
    (op.remember s m.now key expected).1 ≠ .clockOverflow →
    (op.remember s m.now key expected).1 = .ok b ∧
      m.after.live m.now key = ((op.remember s m.now key expected).2.live? m.now key).map Entry.ofRecord

theorem Performs.of_atomic {m : Moment}
    (h : op.atomic m.before m.now key expected = (b, m.after)) : op.Performs key expected b m := by
  have hremembered (s : MemoryStore)
      (hs : m.before.live m.now key = (s.live? m.now key).map Entry.ofRecord)
      (hclock : (op.remember s m.now key expected).1 ≠ .clockOverflow) :
      (op.remember s m.now key expected).1 = .ok b ∧
        m.after.live m.now key =
          ((op.remember s m.now key expected).2.live? m.now key).map Entry.ofRecord := by
    have hstore := atomic_remember hs hclock
    rw [h] at hstore
    exact hstore
  by_cases hheld : ∃ e, m.before.live m.now key = some e ∧ e.content = .text (Utf8.encode expected)
  · obtain ⟨e, hlive, hcontent⟩ := hheld
    obtain ⟨rfl, hafter⟩ := Prod.mk.inj ((atomic_of_live hlive hcontent).symm.trans h)
    refine ⟨h, ⟨fun _ => ⟨e, hlive, hcontent⟩, fun _ => rfl⟩, fun hb => (nomatch hb), ?_, hremembered⟩
    intro k hk
    rw [← hafter, Function.update_of_ne hk]
  · obtain ⟨rfl, hafter⟩ := Prod.mk.inj ((atomic_of_not hheld).symm.trans h)
    refine ⟨h, ⟨fun hb => (nomatch hb), fun he => absurd he hheld⟩, fun _ => hafter.symm, ?_, hremembered⟩
    intro k _
    rw [hafter]

/-- A comparing operation that returns has taken effect at one moment of the call, and has changed
nothing at any other. -/
theorem takes_effect_once {rounds : Connection → Nat} {c : Client} {w w' : Session Connection}
    (h : op.call (Connection.transport rounds) c w key expected = (.ok b, w')) :
    ∃ pre m post, w'.store.server.log = w.store.server.log ++ (pre ++ m :: post) ∧
      (∀ x ∈ pre ++ post, x.after = x.before) ∧ op.Performs key expected b m := by
  obtain ⟨pre, m, post, hlog, hsame, hatomic⟩ := Connection.call_settles h
  exact ⟨pre, m, post, hlog, hsame, .of_atomic hatomic⟩

def rewriting : Deed where
  act _ ks := Function.update ks "door" (some ⟨.text (Utf8.encode "a"), none⟩)
  touches _ _ key := key = "door"
  live_act now ks _ h := ks.live_update_of_ne now "door" (of_decide_eq_false h) _

/-- A connection on which the first transaction is disturbed. -/
def disturbed : Connection where
  server :=
    { now := 0
      keys := Function.update Keyspace.empty "door" (some ⟨.text (Utf8.encode "a"), none⟩)
      gaps := [.quiet, .quiet, .quiet, ⟨[.deed rewriting], false, .answered⟩]
      watched := []
      dirty := false
      queue := none
      log := [] }
  inbox := []

def client : Client := ⟨.ofUrl "", ⟨.tcp "" 0, 0, none, none⟩⟩

/-- The second transaction deletes what the first has found touched. -/
theorem takes_effect_once_disturbed :
    let r := delete.call (Connection.transport fun _ => 2) client (.start disturbed) "door" "a"
    r.1 = .ok true ∧
      ∃ pre m post, r.2.store.server.log = disturbed.server.log ++ (pre ++ m :: post) ∧
        (∀ x ∈ pre ++ post, x.after = x.before) ∧ delete.Performs "door" "a" true m := by
  intro r
  have htrue : r.1.toOption = some true := by decide +kernel
  have hanswer : r.1 = .ok true := by
    cases hr : r.1 with
    | error why => rw [hr] at htrue; cases htrue
    | ok b => rw [hr] at htrue; exact congrArg Except.ok (Option.some.inj htrue)
  have hcall : r = (.ok true, r.2) := Prod.ext hanswer rfl
  exact ⟨hanswer, takes_effect_once hcall⟩

end Conditional
end Redis
end Leasehold
