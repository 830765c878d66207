import Leasehold.Proofs.Redis.Dialogues
import Leasehold.Proofs.Redis.Server

/-!
# What others can do between two commands

As long as a connection is not dirty, each watched key shows what is left of
what it showed before: the others have not touched it, and it has at most
expired. The client's own commands other than a write change nothing, which is
said of whole dialogues that consist of such commands.
-/

namespace Leasehold
namespace Redis
namespace Server

/-- Unless the connection is dirty, watched keys show what is left of what they showed. -/
structure Remains (s s' : Server) : Prop where
  watched : s'.watched = s.watched
  clock : s.now ≤ s'.now
  clean : s'.dirty = false → s.dirty = false
  shows : s'.dirty = false → ∀ p ∈ s.watched,
    s'.keys.live s'.now p.1 = (s.keys.live s.now p.1).filter (Entry.isLive s'.now)

theorem Remains.refl (s : Server) : s.Remains s where
  watched := rfl
  clock := Nat.le_refl s.now
  clean h := h
  shows _ p _ := s.keys.live_later p.1 (Nat.le_refl s.now)

theorem Remains.trans {s s' s'' : Server} (h : s.Remains s') (h' : s'.Remains s'') :
    s.Remains s'' where
  watched := h'.watched.trans h.watched
  clock := Nat.le_trans h.clock h'.clock
  clean hd := h.clean (h'.clean hd)
  shows := by
    intro hd p hp
    have hp' : p ∈ s'.watched := h.watched ▸ hp
    rw [h'.shows hd p hp', h.shows (h'.clean hd) p hp, Entry.filter_isLive h'.clock]

theorem Remains.happen (s : Server) (e : Occurrence) : s.Remains (s.happen e) := by
  cases e with
  | advance d =>
    have hlater : s.now ≤ s.now + d.nanos := Nat.le_add_right ..
    exact ⟨rfl, hlater, id, fun _ p _ => s.keys.live_later p.1 hlater⟩
  | deed d =>
    refine ⟨rfl, Nat.le_refl s.now, fun h => (Bool.or_eq_false_iff.mp h).1, ?_⟩
    intro h p hp
    have hno := List.any_eq_false.mp (Bool.or_eq_false_iff.mp h).2 p hp
    have hsame := d.live_act s.now s.keys p.1 (Bool.not_eq_true _ ▸ hno)
    exact hsame.trans (s.keys.live_later p.1 (Nat.le_refl s.now))

theorem Remains.foldl (s : Server) (es : List Occurrence) : s.Remains (es.foldl Server.happen s) := by
  induction es generalizing s with
  | nil => exact .refl s
  | cons e es ih => exact (Remains.happen s e).trans (ih _)

theorem Remains.meet (s : Server) : s.Remains s.meet :=
  have h := Remains.foldl { s with gaps := s.gaps.tail } s.gap.events
  ⟨h.watched, h.clock, h.clean, h.shows⟩

/-- The others have no part in the transaction or in the log. -/
theorem meet_queue_log (s : Server) : s.meet.queue = s.queue ∧ s.meet.log = s.log := by
  have hfold (s : Server) (es : List Occurrence) :
      (es.foldl happen s).queue = s.queue ∧ (es.foldl happen s).log = s.log := by
    induction es generalizing s with
    | nil => exact ⟨rfl, rfl⟩
    | cons e es ih =>
      obtain ⟨hqueue, hlog⟩ := ih (s.happen e)
      cases e <;> exact ⟨hqueue, hlog⟩
  exact hfold { s with gaps := s.gaps.tail } s.gap.events

/-- Nothing that the client has done from one state to the other has changed the keyspace. -/
def Still (s s' : Server) : Prop :=
  ∃ extra, s'.log = s.log ++ extra ∧ ∀ m ∈ extra, m.after = m.before

theorem Still.of_log {s s' : Server} (h : s'.log = s.log) : s.Still s' :=
  ⟨[], by rw [h, List.append_nil], by simp⟩

theorem Still.trans {s s' s'' : Server} (h : s.Still s') (h' : s'.Still s'') : s.Still s'' := by
  obtain ⟨extra, hlog, hsame⟩ := h
  obtain ⟨extra', hlog', hsame'⟩ := h'
  refine ⟨extra ++ extra', by rw [hlog', hlog, List.append_assoc], ?_⟩
  intro m hm
  rcases List.mem_append.mp hm with hm | hm
  · exact hsame m hm
  · exact hsame' m hm

theorem turn_eq_ok {s s' : Server} {c : Command} {v : Value} (h : s.turn c = (.ok v, s')) :
    s.meet.carryOut s.gap.expiryCounts c = (.ok v, s') := by
  unfold turn at h
  cases hfate : s.gap.fate with
  | answered =>
    rw [hfate] at h
    exact h
  | refused why =>
    rw [hfate] at h
    cases h
  | unheard why =>
    rw [hfate] at h
    cases h

theorem turn_of_handle {s s' x : Server} {c : Command} {v : Value} {a : Except Fault Value}
    (h : s.turn c = (.ok v, s')) (hx : s.meet.handle s.gap.expiryCounts c = (a, x)) :
    a = .ok v ∧ s' = { x with log := s.log ++ [⟨s.meet.now, s.meet.keys, x.keys⟩] } := by
  have hcarried := turn_eq_ok h
  unfold carryOut at hcarried
  rw [hx, s.meet_queue_log.2] at hcarried
  obtain ⟨ha, hs'⟩ := Prod.mk.inj hcarried
  exact ⟨ha, hs'.symm⟩

/-- A command that writes nothing, whatever has happened before it. -/
theorem turn_still {s : Server} {c : Command}
    (h : (s.meet.handle s.gap.expiryCounts c).2.keys = s.meet.keys) : s.Still (s.turn c).2 := by
  have hlog := s.meet_queue_log.2
  have hcarried : s.Still (s.meet.carryOut s.gap.expiryCounts c).2 := by
    refine ⟨[⟨s.meet.now, s.meet.keys, _⟩], by rw [← hlog]; rfl, ?_⟩
    intro m hm
    cases List.mem_singleton.mp hm
    exact h
  unfold turn
  cases s.gap.fate with
  | answered => exact hcarried
  | refused why => exact .of_log hlog
  | unheard why => exact hcarried

def turns : List Command → Server → List (Except Fault Value) × Server
  | [], s => ([], s)
  | c :: cs, s =>
    let r := s.turn c
    let rest := turns cs r.2
    (r.1 :: rest.1, rest.2)

/-- A command that neither writes nor has to do with transactions. -/
def Plain (c : Command) : Prop :=
  ∀ (s : Server) (expiryCounts : Bool), s.queue = none →
    (s.handle expiryCounts c).2.keys = s.keys ∧ (s.handle expiryCounts c).2.queue = none

theorem plain_auth (words : List String) : Plain ("AUTH" :: words) := fun _ _ h => ⟨rfl, h⟩

theorem plain_select (words : List String) : Plain ("SELECT" :: words) := fun _ _ h => ⟨rfl, h⟩

theorem plain_watch (key : String) : Plain ["WATCH", key] := fun _ _ h => ⟨rfl, h⟩

theorem plain_unwatch : Plain ["UNWATCH"] := fun _ _ h => ⟨rfl, h⟩

theorem handle_get {s : Server} (h : s.queue = none) (expiryCounts : Bool) (key : String) :
    s.handle expiryCounts ["GET", key] = ((s.keys.get s.now key).mapError .server, s) := by
  cases s
  cases h
  rfl

theorem turn_plain {s : Server} {c : Command} (hc : Plain c) (hqueue : s.queue = none) :
    s.Still (s.turn c).2 ∧ (s.turn c).2.queue = none := by
  have hmeet : s.meet.queue = none := s.meet_queue_log.1.trans hqueue
  obtain ⟨hkeys, hnone⟩ := hc s.meet s.gap.expiryCounts hmeet
  refine ⟨turn_still hkeys, ?_⟩
  unfold turn
  cases s.gap.fate with
  | answered => exact hnone
  | refused why => exact hmeet
  | unheard why => exact hnone

end Server

namespace Connection

open Server

variable {α β : Type} {rounds : Connection → Nat}

theorem ask_run (s : Server) (c : Command) :
    (transport rounds).ask c ⟨s, []⟩ = ((s.turn c).1, ⟨(s.turn c).2, []⟩) := rfl

theorem send_run (cs : List Command) (s : Server) (inbox : List (Except Fault Value)) :
    Connection.send ⟨s, inbox⟩ cs = ⟨(turns cs s).2, inbox ++ (turns cs s).1⟩ := by
  induction cs generalizing s inbox with
  | nil => simp [Connection.send, turns]
  | cons c cs ih =>
    have h := ih (s.turn c).2 (inbox ++ [(s.turn c).1])
    rw [List.append_assoc] at h
    exact h

theorem takeAll_run (rounds : Connection → Nat) (answers rest : List (Except Fault Value)) (s : Server) :
    (transport rounds).takeAll answers.length ⟨s, answers ++ rest⟩ = (.ok answers, ⟨s, rest⟩) := by
  induction answers with
  | nil => rfl
  | cons a answers ih =>
    have htake : (transport rounds).take.attempt ⟨s, a :: (answers ++ rest)⟩ =
        (.ok a, ⟨s, answers ++ rest⟩) := rfl
    exact (Dialogue.bind_run_ok htake).trans (Dialogue.bind_run_ok ih)

theorem length_turns (cs : List Command) (s : Server) : (turns cs s).1.length = cs.length := by
  induction cs generalizing s with
  | nil => rfl
  | cons c cs ih => simp [turns, ih]

theorem askAll_run (cs : List Command) (s : Server) :
    (transport rounds).askAll cs ⟨s, []⟩ = ((turns cs s).1.mapM id, ⟨(turns cs s).2, []⟩) := by
  have hsend : (modify ((transport rounds).send cs) : Dialogue Connection Unit) ⟨s, []⟩ =
      (.ok (), ⟨(turns cs s).2, (turns cs s).1⟩) :=
    congrArg (Prod.mk (Except.ok ())) (send_run cs s [])
  have htake := takeAll_run rounds (turns cs s).1 [] (turns cs s).2
  rw [List.append_nil, length_turns] at htake
  exact (Dialogue.bind_run_ok hsend).trans (Dialogue.bind_run_ok htake)

/-- However a dialogue ends, it has written nothing and left nothing behind. -/
def Calm (d : Dialogue Connection α) : Prop :=
  ∀ s : Server, s.queue = none →
    ∃ s', (d ⟨s, []⟩).2 = ⟨s', []⟩ ∧ s'.queue = none ∧ s.Still s'

theorem calm_pure (a : α) : Calm (pure a) := fun s h => ⟨s, rfl, h, .of_log rfl⟩

theorem calm_throw (why : Fault) : Calm (throw why : Dialogue Connection α) :=
  fun s h => ⟨s, rfl, h, .of_log rfl⟩

theorem calm_ask {c : Command} (hc : Plain c) : Calm ((transport rounds).ask c) := by
  intro s hqueue
  obtain ⟨hstill, hnone⟩ := turn_plain hc hqueue
  exact ⟨(s.turn c).2, rfl, hnone, hstill⟩

theorem Calm.attempt {d : Dialogue Connection α} (h : Calm d) : Calm d.attempt := h

theorem Calm.bind {d : Dialogue Connection α} {f : α → Dialogue Connection β} (hd : Calm d)
    (hf : ∀ a, Calm (f a)) : Calm (d >>= f) := by
  intro s hqueue
  obtain ⟨s', hs', hqueue', hstill⟩ := hd s hqueue
  rw [Dialogue.bind_run]
  rcases hr : d ⟨s, []⟩ with ⟨why | a, m⟩
  · rw [hr] at hs'
    exact ⟨s', hs', hqueue', hstill⟩
  · rw [hr] at hs'
    cases hs'
    obtain ⟨s'', hs'', hqueue'', hstill'⟩ := hf a s' hqueue'
    exact ⟨s'', hs'', hqueue'', hstill.trans hstill'⟩

theorem Calm.checked {d : Dialogue Connection α} {p : Prop} [Decidable p] (why : Fault) (h : Calm d) :
    Calm (if p then d else throw why >>= fun _ : Unit => d) := by
  split
  · exact h
  · exact (calm_throw why).bind fun _ => h

theorem Calm.of_eq {d : Dialogue Connection α} (h : Calm d) {s : Server} (hqueue : s.queue = none)
    {r : Except Fault α} {n : Connection} (hd : d ⟨s, []⟩ = (r, n)) :
    ∃ s', n = ⟨s', []⟩ ∧ s'.queue = none ∧ s.Still s' := by
  have hs := h s hqueue
  rw [hd] at hs
  exact hs

theorem calm_authenticate (user : Option String) (password : String) :
    Calm (Dialogue.authenticate (transport rounds) user password) := by
  refine (calm_ask (plain_auth _)).attempt.bind ?_
  intro answer
  split
  · exact calm_pure ()
  · exact calm_throw _
  · refine Calm.checked _ ((calm_ask (plain_auth _)).attempt.bind ?_)
    intro answer
    split
    · exact calm_pure ()
    · exact calm_throw _

theorem calm_choose (database : Int) : Calm (Dialogue.choose (transport rounds) database) := by
  refine (calm_ask (plain_select _)).attempt.bind ?_
  intro answer
  split
  · exact calm_pure ()
  · exact calm_throw _

theorem connect_eq_ok {n n' : Connection} (h : n.connect = (.ok (), n')) :
    ∃ s', n' = ⟨s', []⟩ ∧ s'.queue = none ∧ n.server.Still s' := by
  have hlog := n.server.meet_queue_log.2
  unfold connect Server.connect at h
  cases hfate : n.server.gap.fate with
  | answered =>
    rw [hfate] at h
    cases h
    exact ⟨_, rfl, rfl, .of_log hlog⟩
  | refused why =>
    rw [hfate] at h
    cases h
  | unheard why =>
    rw [hfate] at h
    cases h

theorem opening_eq_ok {e : Endpoint} {timeout : Option Duration} {n n' : Connection}
    (h : (transport rounds).opening e timeout n = (.ok (), n')) : n.connect = (.ok (), n') := by
  unfold Transport.opening at h
  split at h
  · exact h
  · split at h
    · cases h
    · exact h

/-- A connection that has been opened is at rest, and opening it has changed nothing. -/
theorem enter_eq_ok {a : Address} {timeout : Option Duration} {n n' : Connection}
    (h : Dialogue.enter (transport rounds) a timeout n = (.ok (), n')) :
    ∃ s', n' = ⟨s', []⟩ ∧ s'.queue = none ∧ n.server.Still s' := by
  obtain ⟨u, m, hopen, hrest⟩ := Dialogue.bind_eq_ok h
  obtain ⟨s, rfl, hqueue, hstill⟩ := connect_eq_ok (opening_eq_ok hopen)
  have hchosen : Calm (if a.database ≠ 0 then Dialogue.choose (transport rounds) a.database else pure ()) := by
    split
    · exact calm_choose a.database
    · exact calm_pure ()
  refine (Calm.of_eq ?_ hqueue hrest).imp fun s' ⟨hs', hqueue', hstill'⟩ =>
    ⟨hs', hqueue', hstill.trans hstill'⟩
  cases a.password with
  | some password => exact (calm_authenticate a.user password).bind fun _ => hchosen
  | none => exact (calm_pure ()).bind fun _ => hchosen

end Connection
end Redis
end Leasehold
