import Leasehold.Proofs.Lock.Calls
import Leasehold.Proofs.Redis.Interference
import Leasehold.Proofs.Text.Utf8
import Leasehold.Redis.Client
import Leasehold.Redis.Playback

/-!
# Locks kept by a server

To take or to give back a lock, a client opens a connection and runs a script
by its digest; only when the server does not know the script it is loaded and
run once more, with the same arguments. Nothing is assumed of the server: the
answers are what they are, and the last run of the script alone decides what
becomes of the lock.
-/

namespace Leasehold
namespace Redis

/-- A command and what comes back for it. -/
structure Exchange where
  command : Command
  answer : Except Fault Value

def Exchange.isRun (x : Exchange) : Bool := x.command.head? == some "EVALSHA"

/-- What comes back for the last run of a script. -/
def lastRun? (xs : List Exchange) : Option (Except Fault Value) :=
  (xs.filter Exchange.isRun).getLast?.map Exchange.answer

/-- The exchanges are made one after another, without a new connection in between. -/
inductive Transport.Exchanges {σ : Type} (t : Transport σ) : σ → List Exchange → σ → Prop
  | nil (n : σ) : Exchanges t n [] n
  | cons {n n' n'' : σ} {c : Command} {a : Except Fault Value} {xs : List Exchange}
      (first : t.ask c n = (a, n')) (rest : Exchanges t n' xs n'') : Exchanges t n (⟨c, a⟩ :: xs) n''

def runCommand (s : LockScript) (key : String) (arguments : List String) : Command :=
  "EVALSHA" :: s.digest :: "1" :: key :: arguments

def loadCommand (s : LockScript) : Command := ["SCRIPT", "LOAD", s.source]

def Unknown (a : Except Fault Value) : Prop := ∃ why, a = .error why ∧ why.isError .noScript = true

/-- The ways in which a script can be run. -/
inductive Course (s : LockScript) (key : String) (arguments : List String) : List Exchange → Prop
  | known (a : Except Fault Value) (h : ¬ Unknown a) :
      Course s key arguments [⟨runCommand s key arguments, a⟩]
  | refused (a : Except Fault Value) (why : Fault) (h : Unknown a) :
      Course s key arguments [⟨runCommand s key arguments, a⟩, ⟨loadCommand s, .error why⟩]
  | taught (a : Except Fault Value) (v : Value) (a' : Except Fault Value) (h : Unknown a) :
      Course s key arguments
        [⟨runCommand s key arguments, a⟩, ⟨loadCommand s, .ok v⟩, ⟨runCommand s key arguments, a'⟩]

namespace Dialogue

variable {σ : Type} (t : Transport σ) (s : LockScript) (key : String) (arguments : List String)
variable {n n' : σ} {a : Except Fault Value}

theorem runScript_of_known (h : t.ask (runCommand s key arguments) n = (a, n')) (ha : ¬ Unknown a) :
    runScript t s key arguments n = (a, n') := by
  have hattempt : (t.ask (runCommand s key arguments)).attempt n = (.ok a, n') := by
    rw [attempt, h]
  refine (bind_run_ok hattempt).trans ?_
  cases a with
  | ok v => rfl
  | error why =>
    have hwhy : ¬ why.isError .noScript = true := fun hw => ha ⟨why, rfl, hw⟩
    simp only [hwhy]
    rfl

theorem runScript_of_unknown (h : t.ask (runCommand s key arguments) n = (a, n')) (ha : Unknown a) :
    runScript t s key arguments n =
      (t.ask (loadCommand s) >>= fun _ => t.ask (runCommand s key arguments)) n' := by
  have hattempt : (t.ask (runCommand s key arguments)).attempt n = (.ok a, n') := by
    rw [attempt, h]
  refine (bind_run_ok hattempt).trans ?_
  obtain ⟨why, rfl, hwhy⟩ := ha
  simp only [hwhy, if_true]
  rfl

variable (n)

/-- However the server answers, the script takes one of its courses, and the last run decides. -/
theorem runScript_course :
    ∃ xs, t.Exchanges n xs (runScript t s key arguments n).2 ∧ Course s key arguments xs ∧
      ∀ v, (runScript t s key arguments n).1 = .ok v ↔ lastRun? xs = some (.ok v) := by
  rcases hrun : t.ask (runCommand s key arguments) n with ⟨a, n'⟩
  by_cases ha : Unknown a
  · -- Nothing is asked of the second answer: a server may forget the script once more.
    rw [runScript_of_unknown t s key arguments hrun ha, bind_run]
    rcases hload : t.ask (loadCommand s) n' with ⟨why | v, m⟩
    · refine ⟨_, .cons hrun (.cons hload (.nil m)), .refused a why ha, ?_⟩
      obtain ⟨why', rfl, -⟩ := ha
      simp [lastRun?, Exchange.isRun, runCommand, loadCommand]
    · dsimp only
      rcases hagain : t.ask (runCommand s key arguments) m with ⟨a', m'⟩
      refine ⟨_, .cons hrun (.cons hload (.cons hagain (.nil m'))), .taught a v a' ha, ?_⟩
      simp [lastRun?, Exchange.isRun, runCommand, loadCommand]
  · rw [runScript_of_known t s key arguments hrun ha]
    refine ⟨_, .cons hrun (.nil n'), .known a ha, ?_⟩
    simp [lastRun?, Exchange.isRun, runCommand]

end Dialogue

namespace Value

/-- Nothing, a number, a status or a byte string; everything but a row. -/
inductive Scalar : Value → Prop
  | nil : Scalar nil
  | okay : Scalar okay
  | int (n : Int) : Scalar (int n)
  | status (text : String) : Scalar (status text)
  | data (bytes : List UInt8) : Scalar (data bytes)

theorem scalar_iff {v : Value} : v.Scalar ↔ ∃ r, Reply.ofValue v = .ok r := by
  constructor
  · rintro (_ | _ | n | text | bytes)
    all_goals exact ⟨_, rfl⟩
  · rintro ⟨r, h⟩
    cases v with
    | nil => exact .nil
    | okay => exact .okay
    | int n => exact .int n
    | status text => exact .status text
    | data bytes => exact .data bytes
    | bulk items => cases h

end Value
end Redis

namespace LockScript

open Redis

/-- The values by which a server says so: the status `OK`, or the number one. -/
def Affirms : LockScript → Value → Prop
  | acquire, v => v = .okay ∨ v = .status "OK" ∨ v = .data [0x4F, 0x4B]
  | release, v => v = .int 1

theorem affirms_iff {s : LockScript} {v : Value} {r : Reply} (h : Reply.ofValue v = .ok r) :
    s.Affirms v ↔ s.succeeded r = true := by
  have hplain : Char.ofNat 0xFFFD ∉ "OK".toList := by decide
  have hbytes : Utf8.encode "OK" = [0x4F, 0x4B] := by
    rw [Utf8.encode_eq]
    decide
  have hok (bytes : List UInt8) : Utf8.decodeLossy bytes = "OK" ↔ bytes = [0x4F, 0x4B] := by
    rw [Utf8.decodeLossy_eq_iff hplain, hbytes]
  cases v with
  | bulk items => cases h
  | data bytes =>
    cases h
    cases s <;> simp [Affirms, succeeded, Reply.isOk, hok]
  | _ =>
    cases h
    cases s <;> simp [Affirms, succeeded, Reply.isOk]

theorem Affirms.scalar {s : LockScript} {v : Value} (h : s.Affirms v) : v.Scalar := by
  cases s with
  | acquire =>
    rcases h with rfl | rfl | rfl
    · exact .okay
    · exact .status "OK"
    · exact .data [0x4F, 0x4B]
  | release =>
    cases h
    exact .int 1

/-- What an operation on a lock comes to when the script's run brings this. -/
def verdict (s : LockScript) (a : Except Fault Value) : Outcome LockError Bool :=
  ((Outcome.ofExcept ((a.mapError .connection).bind Reply.ofValue)).map s.succeeded).mapError .transport

theorem verdict_of_scalar (s : LockScript) {v : Value} (h : v.Scalar) :
    ∃ b, s.verdict (.ok v) = .ok b ∧ (b = true ↔ s.Affirms v) := by
  obtain ⟨r, hr⟩ := Value.scalar_iff.mp h
  refine ⟨s.succeeded r, ?_, (affirms_iff hr).symm⟩
  simp only [verdict, Except.mapError, Except.bind, hr]
  rfl

theorem verdict_of_no_scalar (s : LockScript) {a : Except Fault Value}
    (h : ¬ ∃ v, a = .ok v ∧ v.Scalar) : ∃ why, s.verdict a = .error (.transport why) := by
  cases a with
  | error why => exact ⟨.connection why, rfl⟩
  | ok v =>
    cases v with
    | bulk items => exact ⟨_, rfl⟩
    | nil => exact absurd ⟨_, rfl, .nil⟩ h
    | okay => exact absurd ⟨_, rfl, .okay⟩ h
    | int n => exact absurd ⟨_, rfl, .int n⟩ h
    | status text => exact absurd ⟨_, rfl, .status text⟩ h
    | data bytes => exact absurd ⟨_, rfl, .data bytes⟩ h

theorem verdict_iff (s : LockScript) (a : Except Fault Value) :
    (s.verdict a = .ok true ↔ ∃ v, a = .ok v ∧ s.Affirms v) ∧
      (s.verdict a = .ok false ↔ ∃ v, a = .ok v ∧ v.Scalar ∧ ¬ s.Affirms v) ∧
      ((∃ why, s.verdict a = .error (.transport why)) ↔ ¬ ∃ v, a = .ok v ∧ v.Scalar) := by
  by_cases ha : ∃ v, a = .ok v ∧ v.Scalar
  · obtain ⟨v, rfl, hv⟩ := ha
    obtain ⟨b, hb, hiff⟩ := s.verdict_of_scalar hv
    rw [hb]
    refine ⟨?_, ?_, ?_⟩
    · simp [hiff]
    · simp [hv, ← hiff]
    · simp [hv]
  · obtain ⟨why, hwhy⟩ := s.verdict_of_no_scalar ha
    rw [hwhy]
    refine ⟨?_, ?_, ?_⟩
    · refine ⟨nofun, ?_⟩
      rintro ⟨v, hv, haffirms⟩
      exact absurd ⟨v, hv, haffirms.scalar⟩ ha
    · refine ⟨nofun, ?_⟩
      rintro ⟨v, hv, hscalar, -⟩
      exact absurd ⟨v, hv, hscalar⟩ ha
    · simpa using ha

end LockScript

namespace Redis
namespace Client

variable {σ : Type} {t : Transport σ} {c : Client} {w : Session σ} {n : σ}

theorem leases_eval_run (hopen : Dialogue.enter t c.address none (t.tick w).store = (.ok (), n))
    (s : LockScript) (key : String) (arguments : List String) :
    let r := Dialogue.runScript t s key arguments n
    (c.leases t).eval s key arguments w =
      (.ofExcept ((r.1.mapError .connection).bind Reply.ofValue),
        t.tick { t.tick w with store := r.2 }) := by
  simp only [leases, settle, eval, invoke, call, hold, Dialogue.bind_run_ok hopen]

/-- What a server makes of a lock. On an open connection the script is run once, or else it is run in
vain, loaded and run again in the same words. The lock is taken or given back just if the last run
is answered so, it is not if the answer is any other but a row, and in all other cases the call
fails. -/
theorem last_run_decides
    (hopen : Dialogue.enter t c.address none (t.tick w).store = (.ok (), n)) (l : Lock)
    (s : LockScript) :
    let r := l.perform (c.leases t) w s
    ∃ xs n', t.Exchanges n xs n' ∧ Course s l.key (l.arguments s) xs ∧
      r.2.state = (t.tick { t.tick w with store := n' }).state ∧
      (r.1 = .ok true ↔ ∃ v, lastRun? xs = some (.ok v) ∧ s.Affirms v) ∧
      (r.1 = .ok false ↔ ∃ v, lastRun? xs = some (.ok v) ∧ v.Scalar ∧ ¬ s.Affirms v) ∧
      ((∃ why, r.1 = .error (.transport why)) ↔ ¬ ∃ v, lastRun? xs = some (.ok v) ∧ v.Scalar) := by
  intro r
  obtain ⟨xs, hxs, hcourse, hlast⟩ := Dialogue.runScript_course t s l.key (l.arguments s) n
  obtain ⟨hanswer, hstate⟩ := l.perform_eq (c.leases t) w s
  rw [leases_eval_run hopen] at hanswer hstate
  have hverdict : r.1 = s.verdict (Dialogue.runScript t s l.key (l.arguments s) n).1 := hanswer
  refine ⟨xs, _, hxs, hcourse, hstate, ?_⟩
  simp only [hverdict, ← hlast]
  exact s.verdict_iff _

/-- A server that has lost the script, and says `OK` in a byte string. -/
def forgetful : Network :=
  { Network.start true (.tcp "" 0) with
    queue := ["-NOSCRIPT\r\n", "+\r\n", "$2\r\nOK\r\n"].map fun s => .answer (Utf8.encode s) }

def doorLock : Lock := ⟨"door", .ofNumber 0, .standard, by decide, by decide, by decide⟩

/-- The lock is taken on the second run. -/
theorem last_run_decides_forgetful :
    let c : Client := ⟨.ofUrl "", ⟨.tcp "" 0, 0, none, none⟩⟩
    let n : Network := { forgetful with received := [[]] }
    let r := doorLock.perform (c.leases Network.transport) (.start forgetful) .acquire
    Dialogue.enter Network.transport c.address none forgetful = (.ok (), n) ∧ r.1 = .ok true ∧
      ∃ xs n', Network.transport.Exchanges n xs n' ∧
        Course .acquire "door" (doorLock.arguments .acquire) xs ∧
        ∃ v, lastRun? xs = some (.ok v) ∧ LockScript.acquire.Affirms v := by
  intro c n r
  have hopen : Dialogue.enter Network.transport c.address none forgetful = (.ok (), n) := rfl
  have hgranted : r.1.isGranted = true := by decide +kernel
  have hanswer : r.1 = .ok true := Outcome.isGranted_iff.mp hgranted
  obtain ⟨xs, n', hxs, hcourse, -, htrue, -⟩ :=
    last_run_decides (w := .start forgetful) hopen doorLock .acquire
  exact ⟨hopen, hanswer, xs, n', hxs, hcourse, htrue.mp hanswer⟩

end Client
end Redis
end Leasehold
