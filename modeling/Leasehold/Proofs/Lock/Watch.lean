import Leasehold.Proofs.Lock.Calls
import Leasehold.Proofs.Lock.Likeness

/-!
# Watched stores

A witness at a store writes down every script that is run there: what was
asked and when, and what was answered and when. Nobody who uses the store
notices, so what the witness has written is true of the store itself.
-/

namespace Leasehold

/-- One run of a script, as a witness sees it. -/
structure Visit where
  script : LockScript
  key : String
  arguments : List String
  sent : Instant
  answer : Outcome StoreError Reply
  answered : Instant

/-- A store and the visits it has had, in their order. -/
structure Watched (σ : Type) where
  store : σ
  visits : List Visit

namespace Session

variable {σ α : Type}

def watched (w : Session σ) (visits : List Visit) : Session (Watched σ) :=
  ⟨w.now, ⟨w.store, visits⟩, w.journal⟩

def unwatched (w : Session (Watched σ)) : Session σ := ⟨w.now, w.store.store, w.journal⟩

@[simp] theorem now_watched (w : Session σ) (visits : List Visit) : (w.watched visits).now = w.now :=
  rfl

@[simp] theorem store_watched (w : Session σ) (visits : List Visit) :
    (w.watched visits).store = ⟨w.store, visits⟩ := rfl

@[simp] theorem now_unwatched (w : Session (Watched σ)) : w.unwatched.now = w.now := rfl

@[simp] theorem store_unwatched (w : Session (Watched σ)) : w.unwatched.store = w.store.store := rfl

/-- The watched session is the other one with a witness. -/
def Unwatches (w : Session (Watched σ)) (w' : Session σ) : Prop := w.unwatched = w'

theorem link_unwatches : Link (Unwatches (σ := σ)) where
  now h := congrArg Session.now h
  note line h := congrArg (note · line) h
  sleep d h := congrArg (sleep · d) h

theorem Same.unwatched {x : α × Session (Watched σ)} {y : α × Session σ} (h : Same Unwatches x y) :
    (x.1, x.2.unwatched) = y :=
  Prod.ext h.answer h.linked

/-- What a visit leaves: the time of its answer, and its entry in the witness's list. -/
structure Visited (w w' : Session (Watched σ)) (v : Visit) : Prop where
  sent : v.sent = w.now
  answered : w'.now = v.answered
  visits : w'.store.visits = w.store.visits ++ [v]

end Session

namespace LeaseStore

variable {σ : Type} (store : LeaseStore σ)

def visit (script : LockScript) (key : String) (arguments : List String) (w : Session σ) : Visit :=
  let r := store.eval script key arguments w
  ⟨script, key, arguments, w.now, r.1, r.2.now⟩

def watched : LeaseStore (Watched σ) where
  eval script key arguments w :=
    let r := store.eval script key arguments w.unwatched
    (r.1, r.2.watched (w.store.visits ++ [store.visit script key arguments w.unwatched]))
  remaining key w :=
    let r := store.remaining key w.unwatched
    (r.1, r.2.watched w.store.visits)

theorem watched_alike : Alike Session.Unwatches store.watched store where
  link := Session.link_unwatches
  eval script key arguments w w' h := by
    cases h
    exact ⟨rfl, rfl⟩
  remaining key w w' h := by
    cases h
    exact ⟨rfl, rfl⟩

/-- A watched store is like itself, and what the witness has written stays. -/
theorem watched_grows (visits : List Visit) :
    Alike (fun w w' => w = w' ∧ visits <+: w.store.visits) store.watched store.watched where
  link :=
    { now := fun h => congrArg Session.now h.1
      note := fun line h => ⟨congrArg (Session.note · line) h.1, h.2⟩
      sleep := fun d h => ⟨congrArg (Session.sleep · d) h.1, h.2⟩ }
  eval script key arguments w w' h := by
    obtain ⟨rfl, hvisits⟩ := h
    exact ⟨rfl, rfl, hvisits.trans (List.prefix_append ..)⟩
  remaining key w w' h := by
    obtain ⟨rfl, hvisits⟩ := h
    exact ⟨rfl, rfl, hvisits⟩

/-- Every call is answered, and not before it is made. -/
structure Responsive : Prop where
  answers : ∀ (script : LockScript) (key : String) (arguments : List String) (w : Session σ),
    (store.eval script key arguments w).1 ≠ .clockOverflow
  clock : ∀ (script : LockScript) (key : String) (arguments : List String) (w : Session σ),
    w.now ≤ (store.eval script key arguments w).2.now

end LeaseStore

namespace Visit

variable (v : Visit)

def Granted : Prop := v.answer = .ok (.status "OK")

/-- There is an answer, be it a failure, and it is not the status `OK`. -/
def Refused : Prop := v.answer ≠ .ok (.status "OK") ∧ v.answer ≠ .clockOverflow

theorem granted_or_refused : v.Granted ∨ v.Refused ∨ v.answer = .clockOverflow := by
  by_cases hok : v.Granted
  · exact Or.inl hok
  · by_cases hover : v.answer = .clockOverflow
    · exact Or.inr (Or.inr hover)
    · exact Or.inr (Or.inl ⟨hok, hover⟩)

end Visit

namespace Lock

variable {σ : Type} (store : LeaseStore σ) (l : Lock) (count : Nat) (w : Session (Watched σ))

/-- The visit is a run of the lock's script at the store. -/
def Visits (s : LockScript) (v : Visit) : Prop :=
  ∃ w : Session σ, v = store.visit s l.key (l.arguments s) w

/-- What an owner that waits makes of an answer. -/
def heard : Outcome StoreError Reply → Outcome Empty Bool
  | .ok reply => .ok reply.isOk
  | .error _ => .ok false
  | .clockOverflow => .clockOverflow

theorem heard_of_granted {v : Visit} (h : v.Granted) : heard v.answer = .ok true := by
  rw [h]
  rfl

theorem heard_of_refused {v : Visit} (h : v.Refused) : heard v.answer = .ok false := by
  obtain ⟨hok, hanswer⟩ := h
  cases ha : v.answer with
  | ok reply =>
    have hreply : reply.isOk = false := by
      rw [← Bool.not_eq_true, Reply.isOk_iff]
      rintro rfl
      exact hok ha
    exact congrArg Outcome.ok hreply
  | error why => rfl
  | clockOverflow => exact absurd ha hanswer

theorem attempt_fst (w : Session σ) :
    (l.attempt store count w).1 = heard (l.acquireCall store w).1 := by
  unfold attempt acquire acquireCall
  rcases store.eval .acquire l.key _ w with ⟨reply | _ | _, w'⟩
  · dsimp only [heard]
    cases reply.isOk <;> rfl
  · rfl
  · rfl

theorem attempt_watched_eq :
    let r := store.eval .acquire l.key (l.arguments .acquire) w.unwatched
    let r' := l.attempt store.watched count w
    r'.1 = heard r.1 ∧ r'.2.now = r.2.now ∧ r'.2.store.store = r.2.store ∧
      r'.2.store.visits =
        w.store.visits ++ [store.visit .acquire l.key (l.arguments .acquire) w.unwatched] := by
  intro r r'
  obtain ⟨hnow, hstore⟩ := Prod.mk.inj (l.attempt_state store.watched count w)
  exact ⟨l.attempt_fst store.watched count w, hnow, congrArg Watched.store hstore,
    congrArg Watched.visits hstore⟩

theorem attempt_watched :
    ∃ v w', l.Visits store .acquire v ∧ l.attempt store.watched count w = (heard v.answer, w') ∧
      Session.Visited w w' v := by
  obtain ⟨hanswer, hnow, -, hvisits⟩ := l.attempt_watched_eq store count w
  exact ⟨store.visit .acquire l.key (l.arguments .acquire) w.unwatched, _, ⟨_, rfl⟩,
    Prod.ext hanswer rfl, rfl, hnow, hvisits⟩

/-- What an owner that gives the lock back makes of an answer. -/
def returned : Outcome StoreError Reply → Outcome LockError Unit
  | .ok reply => if reply = .int 1 then .ok () else .error (.notHeld l.key)
  | .error why => .error (.transport why)
  | .clockOverflow => .clockOverflow

theorem releaseStrict_fst (w : Session σ) :
    (l.releaseStrict store w).1 = l.returned (l.releaseCall store w).1 := by
  rw [releaseStrict_eq, release_fst]
  rcases (l.releaseCall store w).1 with reply | _ | _
  · by_cases hreply : reply = .int 1 <;> simp [returned, hreply]
  · rfl
  · rfl

theorem releaseStrict_watched :
    ∃ v w', l.Visits store .release v ∧
      l.releaseStrict store.watched w = (l.returned v.answer, w') ∧ Session.Visited w w' v := by
  have hstate : (l.releaseStrict store.watched w).2.state = (l.releaseCall store.watched w).2.state := by
    rw [releaseStrict_eq, release_state]
  obtain ⟨hnow, hstore⟩ := Prod.mk.inj hstate
  refine ⟨store.visit .release l.key (l.arguments .release) w.unwatched, _, ⟨_, rfl⟩,
    Prod.ext (l.releaseStrict_fst store.watched w) rfl, rfl, hnow, ?_⟩
  exact congrArg Watched.visits hstore

end Lock
end Leasehold
