import Leasehold.Proofs.Lock.Likeness
import Leasehold.Proofs.Redis.Address
import Leasehold.Proofs.Redis.Dialogues
import Leasehold.Redis.Client
import Leasehold.Redis.Playback

/-!
# What can be seen of a client

A veil over the arguments of `AUTH` leaves everything else of a network in
sight. Behind it nobody can tell clients apart whose addresses differ in a user
name and a password: each of their dialogues sends the same commands, and ends
the same way on the same answers. So their stores are alike.
-/

namespace Leasehold
namespace Redis

def veil : Command → Command
  | "AUTH" :: words => "AUTH" :: words.map fun _ => ""
  | c => c

namespace Network

variable (n : Network)

def veiled : Network := { n with received := n.received.map (·.map veil) }

theorem keep_veiled (c : Command) (received : List (List Command)) :
    (keep c received).map (·.map veil) = keep (veil c) (received.map (·.map veil)) := by
  have hlast : (received.getLast?.getD []).map veil =
      ((received.map (·.map veil)).getLast?).getD [] := by
    rw [List.getLast?_map]
    cases received.getLast? <;> rfl
  simp [keep, hlast, List.map_dropLast]

theorem answer_veiled (c : Command) : (n.answer c).veiled = n.veiled.answer (veil c) := by
  obtain ⟨reachable, server, queue, received, pending, ended⟩ := n
  cases ended with
  | some why => rfl
  | none =>
    rcases queue with _ | ⟨_ | _ | _, queue⟩
    all_goals simp [answer, veiled, ← keep_veiled]

theorem send_veiled (cs : List Command) : (n.send cs).veiled = n.veiled.send (cs.map veil) := by
  unfold send
  induction cs generalizing n with
  | nil => rfl
  | cons c cs ih =>
    rw [List.foldl_cons, ih, answer_veiled]
    rfl

theorem connect_veiled (e : Endpoint) :
    ((n.connect e).1, (n.connect e).2.veiled) = n.veiled.connect e := by
  cases e with
  | socket path => rfl
  | tcp host port =>
    obtain ⟨reachable, server, queue, received, pending, ended⟩ := n
    cases reachable with
    | false => rfl
    | true =>
      by_cases hserver : Endpoint.tcp host port = server
      all_goals simp [connect, veiled, hserver]

theorem receive_veiled : (n.receive.1, n.receive.2.veiled) = n.veiled.receive := by
  unfold receive veiled
  dsimp only
  rcases Wire.read n.pending with _ | _ | ⟨_ | _, _⟩ <;> rfl

def Akin (n n' : Network) : Prop := n.veiled = n'.veiled

theorem transport_blind : transport.Blind Akin veil where
  tick h := h
  connect e timeout n n' hn := by
    have h := n.connect_veiled e
    have h' := n'.connect_veiled e
    rw [hn, ← h'] at h
    exact Prod.mk.inj h
  send {cs cs' n n'} hcs hn := by
    change (n.send cs).veiled = (n'.send cs').veiled
    rw [send_veiled, send_veiled, hcs, hn]
  receive n n' hn := by
    have h := n.receive_veiled
    have h' := n'.receive_veiled
    rw [hn, ← h'] at h
    exact Prod.mk.inj h
  rounds {n n'} hn := by
    have h : n.veiled.size = n'.veiled.size := congrArg size hn
    exact h

end Network

section Dialogues

open Dialogue

variable {σ : Type} {t : Transport σ} {S : σ → σ → Prop} (h : t.Blind S veil)

theorem veil_auth {user user' : Option String} (hu : user.isSome = user'.isSome)
    (password password' : String) :
    veil ("AUTH" :: user.toList ++ [password]) = veil ("AUTH" :: user'.toList ++ [password']) := by
  cases user with
  | none =>
    cases user' with
    | none => rfl
    | some _ => cases hu
  | some _ =>
    cases user' with
    | none => cases hu
    | some _ => rfl

include h

/-- To make oneself known is to show that one has a name and a password. -/
theorem authenticate_alike {user user' : Option String} (hu : user.isSome = user'.isSome)
    (password password' : String) :
    Alike S (authenticate t user password) (authenticate t user' password') := by
  have hwants (why : Fault) : wantsPasswordAlone user why = wantsPasswordAlone user' why := by
    cases why <;> simp only [wantsPasswordAlone, hu]
  have halone : Alike S (t.ask ["AUTH", password]) (t.ask ["AUTH", password']) := h.ask rfl
  refine (h.ask (veil_auth hu password password')).attempt.bind ?_
  intro answer
  rcases answer with why | v
  · dsimp only
    rw [hwants]
    refine Alike.checked _ (halone.attempt.bind ?_)
    intro answer
    rcases answer with _ | v
    · exact alike_throw _
    · cases v <;> first | exact alike_pure () | exact alike_throw _
  · cases v <;> first | exact alike_pure () | exact alike_throw _

theorem choose_alike (database : Int) : Alike S (choose t database) (choose t database) := by
  refine (h.ask rfl).attempt.bind ?_
  intro answer
  rcases answer with _ | v
  · exact alike_throw _
  · cases v <;> first | exact alike_pure () | exact alike_throw _

theorem enter_alike {a a' : Address} (ha : a.Akin a') (timeout : Option Duration) :
    Alike S (enter t a timeout) (enter t a' timeout) := by
  have hchosen : Alike S (if a.database ≠ 0 then choose t a.database else pure ())
      (if a'.database ≠ 0 then choose t a'.database else pure ()) := by
    rw [ha.database]
    split
    · exact choose_alike h a'.database
    · exact alike_pure ()
  have hopen := h.opening a.endpoint timeout
  have hpassword := ha.password
  unfold enter
  rw [← ha.endpoint]
  refine hopen.bind fun _ => ?_
  cases hp : a.password with
  | none =>
    cases hp' : a'.password with
    | none => exact (alike_pure ()).bind fun _ => hchosen
    | some _ =>
      rw [hp, hp'] at hpassword
      cases hpassword
  | some password =>
    cases hp' : a'.password with
    | none =>
      rw [hp, hp'] at hpassword
      cases hpassword
    | some password' =>
      exact (authenticate_alike h ha.user password password').bind fun _ => hchosen

theorem runScript_alike (s : LockScript) (key : String) (arguments : List String) :
    Alike S (runScript t s key arguments) (runScript t s key arguments) := by
  have hrun := h.ask (c := "EVALSHA" :: s.digest :: "1" :: key :: arguments) rfl
  refine hrun.attempt.bind ?_
  intro answer
  rcases answer with why | v
  · exact Alike.checked _ ((h.ask rfl).bind fun _ => hrun)
  · exact alike_pure v

theorem remaining_alike (key : String) :
    Alike S (Dialogue.remaining t key) (Dialogue.remaining t key) :=
  (h.ask rfl).bind fun _ => alike_lift _

theorem set_alike (key value : String) (ttl : Duration) (onlyIfAbsent : Bool) :
    Alike S (Dialogue.set t key value ttl onlyIfAbsent) (Dialogue.set t key value ttl onlyIfAbsent) :=
  (h.ask rfl).bind fun _ => (alike_lift _).bind fun _ => alike_pure _

theorem commit_alike (write : Command) : Alike S (commit t write) (commit t write) := by
  refine (h.askAll _).bind ?_
  intro answers
  rcases answers.getLast? with _ | v
  · exact alike_throw _
  · cases v with
    | nil => exact alike_pure _
    | bulk items => exact (alike_lift _).bind fun _ => alike_pure _
    | _ => exact alike_throw _

theorem round_alike (key expected : String) (write : Command) :
    Alike S (round t key expected write) (round t key expected write) := by
  refine (h.ask rfl).bind fun _ => (h.ask rfl).bind fun _ => (alike_lift _).bind fun current => ?_
  split
  · exact commit_alike h write
  · exact alike_pure _

theorem transact_alike (key expected : String) (write : Command) (rounds : Nat) :
    Alike S (transact t key expected write rounds) (transact t key expected write rounds) := by
  induction rounds with
  | zero => exact alike_throw _
  | succ rounds ih =>
    refine (round_alike h key expected write).bind fun changed => ?_
    cases changed with
    | none => exact ih
    | some changed => exact (h.ask rfl).bind fun _ => alike_pure _

theorem compareAndWrite_alike (key expected : String) (write : Command) :
    Alike S (compareAndWrite t key expected write) (compareAndWrite t key expected write) := by
  intro n n' hn
  have htransact := transact_alike h key expected write (t.rounds n) n n' hn
  have hrun (m : σ) : compareAndWrite t key expected write m =
      transact t key expected write (t.rounds m) m := rfl
  rw [hrun, hrun, ← h.rounds hn]
  exact htransact

end Dialogues

section Clients

variable {σ α : Type} {t : Transport σ} {S : σ → σ → Prop} {c c' : Client} {w w' : Session σ}

theorem linked_link : Session.Link (Linked S) where
  now h := h.now
  note line h := ⟨h.now, congrArg (·.push line) h.journal, h.store⟩
  sleep d h := ⟨congrArg (· + d.nanos) h.now, h.journal, h.store⟩

/-- Clients whose addresses differ at most in a user name and a password. -/
structure Client.Akin (c c' : Client) : Prop where
  timeout : c.settings.connectTimeout = c'.settings.connectTimeout
  address : c.address.Akin c'.address

namespace Client

open Session (Same)

variable (h : t.Blind S veil) (hc : c.Akin c') (hw : Linked S w w')

include h hc hw

theorem hold_alike (timeout : Option Duration) {d : Dialogue σ α} (hd : Dialogue.Alike S d d) :
    Same (Linked S) (c.hold t w timeout d) (c'.hold t w' timeout d) := by
  have hticked := h.tick hw
  obtain ⟨hanswer, hstore⟩ := ((enter_alike h hc.address timeout).bind fun _ => hd) _ _ hticked.store
  exact ⟨hanswer, h.tick ⟨hticked.now, hticked.journal, hstore⟩⟩

theorem call_alike {d : Dialogue σ α} (hd : Dialogue.Alike S d d) :
    Same (Linked S) (c.call t w d) (c'.call t w' d) := by
  unfold call
  exact (hold_alike h hc hw none hd).split fun _ _ _ hw => ⟨rfl, hw⟩

theorem ping_alike (timeout : Duration) :
    Same (Linked S) (c.ping t w timeout) (c'.ping t w' timeout) := by
  have hd : Dialogue.Alike S (do (← t.ask ["PING"]).text) (do (← t.ask ["PING"]).text) :=
    (h.ask rfl).bind fun _ => Dialogue.alike_lift _
  unfold ping
  exact (hold_alike h hc hw (some timeout) hd).split fun _ _ _ hw => ⟨rfl, hw⟩

theorem invoke_alike (s : LockScript) (key : String) (arguments : List String) :
    Same (Linked S) (c.invoke t w s key arguments) (c'.invoke t w' s key arguments) :=
  call_alike h hc hw (runScript_alike h s key arguments)

theorem eval_alike (s : LockScript) (key : String) (arguments : List String) :
    Same (Linked S) (c.eval t w s key arguments) (c'.eval t w' s key arguments) := by
  unfold eval
  exact (invoke_alike h hc hw s key arguments).split fun _ _ _ hw => ⟨rfl, hw⟩

theorem remainingMillis_alike (key : String) :
    Same (Linked S) (c.remainingMillis t w key) (c'.remainingMillis t w' key) :=
  call_alike h hc hw (Redis.remaining_alike h key)

theorem remaining_alike (key : String) :
    Same (Linked S) (c.remaining t w key) (c'.remaining t w' key) := by
  unfold remaining
  exact (remainingMillis_alike h hc hw key).split fun _ _ _ hw => ⟨rfl, hw⟩

theorem set_alike (key value : String) (ttl : Duration) (onlyIfAbsent : Bool) :
    Same (Linked S) (c.set t w key value ttl onlyIfAbsent) (c'.set t w' key value ttl onlyIfAbsent) :=
  call_alike h hc hw (Redis.set_alike h key value ttl onlyIfAbsent)

theorem compareAndDelete_alike (key expected : String) :
    Same (Linked S) (c.compareAndDelete t w key expected) (c'.compareAndDelete t w' key expected) :=
  call_alike h hc hw (compareAndWrite_alike h key expected _)

theorem compareAndExpire_alike (key expected : String) (ttl : Duration) :
    Same (Linked S) (c.compareAndExpire t w key expected ttl) (c'.compareAndExpire t w' key expected ttl) :=
  call_alike h hc hw (compareAndWrite_alike h key expected _)

omit h hc hw

theorem settle_alike {x y : Except StoreError α × Session σ} (hxy : Same (Linked S) x y) :
    Same (Linked S) (settle x) (settle y) :=
  ⟨congrArg Outcome.ofExcept hxy.answer, hxy.linked⟩

include h hc

theorem leases_alike : LeaseStore.Alike (Linked S) (c.leases t) (c'.leases t) where
  link := linked_link
  eval script key arguments _ _ hw := settle_alike (eval_alike h hc hw script key arguments)
  remaining key _ _ hw := settle_alike (remaining_alike h hc hw key)

theorem limits_alike : LimitStore.Alike (Linked S) (c.limits t) (c'.limits t) where
  link := linked_link
  setIfAbsent key value ttl _ _ hw := settle_alike (set_alike h hc hw key value ttl true)
  deleteIfEqual key expected _ _ hw := settle_alike (compareAndDelete_alike h hc hw key expected)
  expireIfEqual key expected ttl _ _ hw := settle_alike (compareAndExpire_alike h hc hw key expected ttl)

end Client

end Clients

end Redis
end Leasehold
