import Leasehold.Proofs.Redis.Atomicity
import Leasehold.Proofs.Redis.Conversation

/-!
# Rounds of a comparing operation

To write only if a key holds an expected text, a client watches the key, reads
it, and sends the write in a transaction; a server that voids the transaction
makes it start over. Nothing is assumed of the server. Every voided transaction
has used up some of the bytes that values can begin with, so there is a last
round, and the answers of all rounds together decide what becomes of the call.
-/

namespace Leasehold
namespace Redis

/-- The answer is an error line, or there is none that can be read. -/
def Exchange.Failed (x : Exchange) : Prop := ∃ why, x.answer = .error why

def Exchange.isVoid (x : Exchange) : Bool :=
  x.command == ["EXEC"] && match x.answer with
    | .ok .nil => true
    | _ => false

/-- The answers of a round whose transaction is void; the key was read before it was opened. -/
structure Round where
  watched : Value
  got : Value
  opened : Except Fault Value
  queued : Except Fault Value

section Course

variable (op : Conditional) (key expected : String)

def Round.exchanges (r : Round) : List Exchange :=
  [⟨["WATCH", key], .ok r.watched⟩, ⟨["GET", key], .ok r.got⟩, ⟨["MULTI"], r.opened⟩,
    ⟨op.command key, r.queued⟩, ⟨["EXEC"], .ok .nil⟩]

/-- The key has been read to hold the expected text. -/
def Holds (v : Value) : Prop := v.text? = .ok (some expected)

/-- What is said in the last round, and what comes of it. -/
inductive Ending : List Exchange → Except Fault Bool → Prop
  | unwatched (why : Fault) : Ending [⟨["WATCH", key], .error why⟩] (.error why)
  | unread (v : Value) (why : Fault) :
      Ending [⟨["WATCH", key], .ok v⟩, ⟨["GET", key], .error why⟩] (.error why)
  | unreadable (v got : Value) (why : Fault) (h : got.text? = .error why) :
      Ending [⟨["WATCH", key], .ok v⟩, ⟨["GET", key], .ok got⟩] (.error why)
  | differs (v got : Value) (held : Option String) (h : got.text? = .ok held)
      (hne : held ≠ some expected) (a : Except Fault Value) :
      Ending [⟨["WATCH", key], .ok v⟩, ⟨["GET", key], .ok got⟩, ⟨["UNWATCH"], a⟩] (a.map fun _ => false)
  | uncommitted (v got : Value) (h : Holds expected got) (a₁ a₂ a₃ : Except Fault Value) (why : Fault)
      (hvoid : a₃ ≠ .ok .nil)
      (hno : ∀ v₁ v₂ x m, a₁ = .ok v₁ → a₂ = .ok v₂ → a₃ = .ok (.bulk [x]) → x.number ≠ .ok m) :
      Ending [⟨["WATCH", key], .ok v⟩, ⟨["GET", key], .ok got⟩, ⟨["MULTI"], a₁⟩, ⟨op.command key, a₂⟩,
        ⟨["EXEC"], a₃⟩] (.error why)
  | committed (v got : Value) (h : Holds expected got) (v₁ v₂ x : Value) (m : Int) (hx : x.number = .ok m)
      (a : Except Fault Value) :
      Ending [⟨["WATCH", key], .ok v⟩, ⟨["GET", key], .ok got⟩, ⟨["MULTI"], .ok v₁⟩,
        ⟨op.command key, .ok v₂⟩, ⟨["EXEC"], .ok (.bulk [x])⟩, ⟨["UNWATCH"], a⟩]
        (a.map fun _ => m == 1)

/-- What is said in all rounds, and what comes of it. -/
inductive Rounds : List Exchange → Except Fault Bool → Prop
  | last {xs : List Exchange} {b : Except Fault Bool} (h : Ending op key expected xs b) : Rounds xs b
  | broken (r : Round) (h : Holds expected r.got) (why why' : Fault)
      (hfailed : r.opened = .error why' ∨ r.queued = .error why') :
      Rounds (r.exchanges op key) (.error why)
  | again (r : Round) (h : Holds expected r.got) {v v' : Value} (hopened : r.opened = .ok v)
      (hqueued : r.queued = .ok v') {xs : List Exchange} {b : Except Fault Bool} (rest : Rounds xs b) :
      Rounds (r.exchanges op key ++ xs) b

end Course

/-- What a transaction comes to by the answers to its three commands. -/
def settled : Except Fault Value → Except Fault Value → Except Fault Value → Except Fault (Option Bool)
  | .error why, _, _ => .error why
  | .ok _, .error why, _ => .error why
  | .ok _, .ok _, .error why => .error why
  | .ok _, .ok _, .ok .nil => .ok none
  | .ok _, .ok _, .ok (.bulk items) => (Value.bulk items).single?.map (Option.map (· == 1))
  | .ok _, .ok _, .ok _ => .error .transactionReply

variable {a₁ a₂ a₃ : Except Fault Value}

theorem settled_eq_ok {r : Option Bool} (h : settled a₁ a₂ a₃ = .ok r) :
    ∃ v₁ v₂, a₁ = .ok v₁ ∧ a₂ = .ok v₂ ∧ ((a₃ = .ok .nil ∧ r = none) ∨
      ∃ x m, a₃ = .ok (.bulk [x]) ∧ x.number = .ok m ∧ r = some (m == 1)) := by
  rcases a₁ with why | v₁
  · cases h
  rcases a₂ with why | v₂
  · cases h
  refine ⟨v₁, v₂, rfl, rfl, ?_⟩
  rcases a₃ with why | v₃
  · cases h
  cases v₃ with
  | nil =>
    cases h
    exact Or.inl ⟨rfl, rfl⟩
  | bulk items =>
    rcases items with _ | ⟨x, _ | ⟨y, items⟩⟩
    · cases h
    · rw [settled, Value.single?] at h
      cases hx : x.number with
      | error why =>
        rw [hx] at h
        cases h
      | ok m =>
        rw [hx] at h
        cases h
        exact Or.inr ⟨x, m, rfl, hx, rfl⟩
    · cases h
  | _ => cases h

/-- Without an outcome the transaction is not made, and if it is void another command has failed. -/
theorem settled_eq_error {why : Fault} (h : settled a₁ a₂ a₃ = .error why) :
    (a₃ = .ok .nil → ∃ why', a₁ = .error why' ∨ a₂ = .error why') ∧
      ∀ v₁ v₂ x m, a₁ = .ok v₁ → a₂ = .ok v₂ → a₃ = .ok (.bulk [x]) → x.number ≠ .ok m := by
  constructor
  · rintro rfl
    rcases a₁ with why' | v₁
    · exact ⟨why', Or.inl rfl⟩
    rcases a₂ with why' | v₂
    · exact ⟨why', Or.inr rfl⟩
    · cases h
  · rintro v₁ v₂ x m rfl rfl rfl hx
    rw [settled, Value.single?, hx] at h
    cases h

namespace Dialogue

variable {σ : Type} {t : Transport σ} {n n' : σ}

theorem commit_run {write : Command} {a₁ a₂ a₃ : Except Fault Value}
    (h : t.takeAll 3 (t.send [["MULTI"], write, ["EXEC"]] n) = (.ok [a₁, a₂, a₃], n')) :
    commit t write n = (settled a₁ a₂ a₃, n') := by
  have hall : t.askAll [["MULTI"], write, ["EXEC"]] n = ([a₁, a₂, a₃].mapM id, n') :=
    Transport.askAll_run h
  unfold commit
  rw [bind_run, hall]
  rcases a₁ with why | v₁
  · rfl
  rcases a₂ with why | v₂
  · rfl
  rcases a₃ with why | v₃
  · rfl
  cases v₃ with
  | bulk items =>
    rw [settled]
    change (liftM (Value.bulk items).single? >>= _ : Dialogue σ (Option Bool)) n' = _
    rw [bind_run, lift_run]
    cases (Value.bulk items).single? <;> rfl
  | _ => rfl

/-- What one round leads to: its transaction is void, and another round follows; or there is a fault;
or there is an answer, and the key need not be watched any longer. -/
inductive Leads (t : Transport σ) (op : Conditional) (key expected : String) (n : σ) :
    Except Fault (Option Bool) × σ → Prop
  | void {n' : σ} (r : Round) (h : Holds expected r.got) {v v' : Value} (hopened : r.opened = .ok v)
      (hqueued : r.queued = .ok v') (talks : t.Talks n (r.exchanges op key) n') :
      Leads t op key expected n (.ok none, n')
  | fault {n' : σ} {xs : List Exchange} {why : Fault} (talks : t.Talks n xs n')
      (h : Rounds op key expected xs (.error why)) : Leads t op key expected n (.error why, n')
  | answer {n' : σ} {xs : List Exchange} {b : Bool} (talks : t.Talks n xs n')
      (h : ∀ a : Except Fault Value,
        Ending op key expected (xs ++ [⟨["UNWATCH"], a⟩]) (a.map fun _ => b)) :
      Leads t op key expected n (.ok (some b), n')

variable (t) (op : Conditional) (key expected : String) (n)

theorem commit_leads {v got : Value} (hholds : Holds expected got) {n₁ n₂ : σ}
    (hwatch : t.ask ["WATCH", key] n = (.ok v, n₁)) (hget : t.ask ["GET", key] n₁ = (.ok got, n₂)) :
    Leads t op key expected n (commit t (op.command key) n₂) := by
  obtain ⟨as, n', htaken, hlength⟩ :=
    t.takeAll_run 3 (t.send [["MULTI"], op.command key, ["EXEC"]] n₂)
  obtain ⟨a₁, a₂, a₃, rfl⟩ := List.length_eq_three.mp hlength
  have htalks : t.Talks n (⟨["WATCH", key], .ok v⟩ :: ⟨["GET", key], .ok got⟩ ::
      exchanges [["MULTI"], op.command key, ["EXEC"]] [a₁, a₂, a₃] ++ []) n' :=
    .ask hwatch (.ask hget (.batch htaken (.nil n')))
  rw [commit_run htaken]
  rcases hsettled : settled a₁ a₂ a₃ with why | r
  · obtain ⟨hvoid, hno⟩ := settled_eq_error hsettled
    -- An error beside a void transaction ends the call, so that no round comes after this one.
    by_cases hnil : a₃ = .ok .nil
    · subst hnil
      obtain ⟨why', hfailed⟩ := hvoid rfl
      exact .fault htalks (.broken ⟨v, got, a₁, a₂⟩ hholds why why' hfailed)
    · exact .fault htalks (.last (.uncommitted v got hholds a₁ a₂ a₃ why hnil hno))
  · obtain ⟨v₁, v₂, rfl, rfl, ⟨rfl, rfl⟩ | ⟨x, m, rfl, hx, rfl⟩⟩ := settled_eq_ok hsettled
    · exact .void ⟨v, got, .ok v₁, .ok v₂⟩ hholds rfl rfl htalks
    · exact .answer htalks (.committed v got hholds v₁ v₂ x m hx)

theorem round_leads : Leads t op key expected n (round t key expected (op.command key) n) := by
  unfold round
  rcases hwatch : t.ask ["WATCH", key] n with ⟨why | v, n₁⟩
  · rw [bind_run, hwatch]
    exact .fault (.ask hwatch (.nil n₁)) (.last (.unwatched why))
  rw [bind_run_ok hwatch]
  rcases hget : t.ask ["GET", key] n₁ with ⟨why | got, n₂⟩
  · rw [bind_run, hget]
    exact .fault (.ask hwatch (.ask hget (.nil n₂))) (.last (.unread v why))
  rw [bind_run_ok hget, bind_run, lift_run]
  rcases htext : got.text? with why | held
  · exact .fault (.ask hwatch (.ask hget (.nil n₂))) (.last (.unreadable v got why htext))
  dsimp only
  by_cases hheld : held = some expected
  · subst hheld
    rw [if_pos rfl]
    exact commit_leads t n op key expected htext hwatch hget
  · rw [if_neg hheld]
    exact .answer (.ask hwatch (.ask hget (.nil n₂))) (.differs v got held htext hheld)

end Dialogue

namespace Network

variable {n n' : Network}

/-- There is a last round: the limit on rounds never shows. -/
theorem transact_rounds (op : Conditional) (key expected : String) {limit : Nat}
    (hlimit : n.openings < limit) :
    let r := Dialogue.transact transport key expected (op.command key) limit n
    ∃ xs, transport.Talks n xs r.2 ∧ Rounds op key expected xs r.1 := by
  induction limit generalizing n with
  | zero => exact absurd hlimit (Nat.not_lt_zero _)
  | succ limit ih =>
    intro r
    have hr : r = Dialogue.transact transport key expected (op.command key) (limit + 1) n := rfl
    have hleads := Dialogue.round_leads transport n op key expected
    rw [Dialogue.transact, Dialogue.bind_run] at hr
    rcases hround : Dialogue.round transport key expected (op.command key) n with ⟨b, n₁⟩
    rw [hround] at hleads hr
    cases hleads with
    | void ρ hholds hopened hqueued talks =>
      -- What the key was read to hold has used up a byte, so fewer are left for the next rounds.
      have hused := openings_talks talks
      have hvalue : 0 < (ρ.exchanges op key).countP (·.answer.isOk) :=
        List.countP_pos_iff.mpr ⟨⟨["GET", key], .ok ρ.got⟩, by simp [Round.exchanges], rfl⟩
      have hfewer : n₁.openings < limit := by lia
      obtain ⟨xs, hxs, hrest⟩ := ih hfewer
      rw [hr]
      exact ⟨_, talks.append hxs, .again ρ hholds hopened hqueued hrest⟩
    | fault talks h =>
      rw [hr]
      exact ⟨_, talks, h⟩
    | @answer _ xs b talks h =>
      rcases hlast : transport.ask ["UNWATCH"] n₁ with ⟨a, n₂⟩
      dsimp only at hr
      rw [Dialogue.bind_run, hlast] at hr
      have htalks := talks.append (.ask hlast (.nil n₂))
      cases a with
      | error why =>
        rw [hr]
        exact ⟨_, htalks, .last (h (.error why))⟩
      | ok v =>
        rw [hr]
        exact ⟨_, htalks, .last (h (.ok v))⟩

end Network

/-! ## What the rounds decide -/

/-- A transaction is answered by a row of one value, which reads as the number. -/
def Made (xs : List Exchange) (m : Int) : Prop :=
  ∃ v, ⟨["EXEC"], .ok (.bulk [v])⟩ ∈ xs ∧ v.number = .ok m

/-- The key is read to hold nothing, or another text than the expected one. -/
def Differed (key expected : String) (xs : List Exchange) : Prop :=
  ∃ got held, ⟨["GET", key], .ok got⟩ ∈ xs ∧ got.text? = .ok held ∧ held ≠ some expected

def Flawless (xs : List Exchange) : Prop := ∀ x ∈ xs, ¬ x.Failed

theorem flawless_append {xs ys : List Exchange} : Flawless (xs ++ ys) ↔ Flawless xs ∧ Flawless ys :=
  List.forall_mem_append

section Decision

variable {op : Conditional} {key expected : String} {xs : List Exchange} {b : Except Fault Bool}

theorem Conditional.command_ne_exec (op : Conditional) (key : String) : op.command key ≠ ["EXEC"] := by
  cases op <;> simp [command]

theorem Conditional.command_ne_get (op : Conditional) (key key' : String) :
    op.command key ≠ ["GET", key'] := by
  cases op <;> simp [command]

theorem Flawless.answer {c : Command} {a : Except Fault Value} (h : Flawless xs)
    (hmem : ⟨c, a⟩ ∈ xs) : ∃ v, a = .ok v := by
  cases a with
  | error why => exact absurd ⟨why, rfl⟩ (h _ hmem)
  | ok v => exact ⟨v, rfl⟩

/-- Where no command is answered by an error, what is missing is a row of one number. -/
theorem not_made {v got : Value} {a₁ a₂ a₃ : Except Fault Value}
    (hno : ∀ v₁ v₂ x m, a₁ = .ok v₁ → a₂ = .ok v₂ → a₃ = .ok (.bulk [x]) → x.number ≠ .ok m) (m : Int)
    (hall : Flawless [⟨["WATCH", key], .ok v⟩, ⟨["GET", key], .ok got⟩, ⟨["MULTI"], a₁⟩,
      ⟨op.command key, a₂⟩, ⟨["EXEC"], a₃⟩]) :
    ¬ Made [⟨["WATCH", key], .ok v⟩, ⟨["GET", key], .ok got⟩, ⟨["MULTI"], a₁⟩,
      ⟨op.command key, a₂⟩, ⟨["EXEC"], a₃⟩] m := by
  rintro ⟨x, hmem, hx⟩
  obtain ⟨v₁, hv₁⟩ := hall.answer (c := ["MULTI"]) (a := a₁) (by simp)
  obtain ⟨v₂, hv₂⟩ := hall.answer (c := op.command key) (a := a₂) (by simp)
  have hrow : .ok (.bulk [x]) = a₃ := by
    simpa [(op.command_ne_exec key).symm] using hmem
  exact hno v₁ v₂ x m hv₁ hv₂ hrow.symm hx

theorem Ending.decides (h : Ending op key expected xs b) :
    (b = .ok true ↔ Flawless xs ∧ Made xs 1) ∧
      (b = .ok false ↔ Flawless xs ∧ (Differed key expected xs ∨ ∃ m, Made xs m ∧ m ≠ 1)) := by
  have hexec := (op.command_ne_exec key).symm
  have hget := (op.command_ne_get key key).symm
  cases h with
  | unwatched why => simp [Flawless, Exchange.Failed]
  | unread v why => simp [Flawless, Exchange.Failed]
  | unreadable v got why htext => simp [Made, Differed, htext]
  | differs v got held htext hne a =>
    cases a <;> simp [Flawless, Exchange.Failed, Made, Differed, Except.map, htext, hne]
  | uncommitted v got hholds a₁ a₂ a₃ why hvoid hno =>
    refine ⟨iff_of_false nofun ?_, iff_of_false nofun ?_⟩
    · rintro ⟨hall, hmade⟩
      exact not_made hno 1 hall hmade
    · rintro ⟨hall, ⟨got', held, hmem, htext, hne⟩ | ⟨m, hmade, -⟩⟩
      · have hgot : got' = got := by simpa [hget] using hmem
        subst hgot
        cases hholds.symm.trans htext
        exact hne rfl
      · exact not_made hno m hall hmade
  | committed v got hholds v₁ v₂ x m hx a =>
    unfold Holds at hholds
    cases a with
    | error why => simp [Flawless, Exchange.Failed, Except.map]
    | ok v' =>
      simp [Flawless, Exchange.Failed, Made, Differed, Except.map, hexec, hget, hholds, hx]

theorem Exchange.isVoid_iff {x : Exchange} :
    x.isVoid = true ↔ x.command = ["EXEC"] ∧ x.answer = .ok .nil := by
  rcases x with ⟨c, _ | _ | _⟩ <;> simp [isVoid]

theorem Ending.countP_isVoid (h : Ending op key expected xs b) : xs.countP Exchange.isVoid = 0 := by
  rw [List.countP_eq_zero]
  simp only [Exchange.isVoid_iff]
  cases h with
  | uncommitted v got hholds a₁ a₂ a₃ why hvoid hno => simp [op.command_ne_exec key, hvoid]
  | committed v got hholds v₁ v₂ x m hx a => simp [op.command_ne_exec key]
  | _ => simp

theorem Round.countP_isVoid (r : Round) : (r.exchanges op key).countP Exchange.isVoid = 1 := by
  have hwrite : (op.command key == ["EXEC"]) = false := by simp [op.command_ne_exec key]
  simp [exchanges, Exchange.isVoid, hwrite]

theorem Round.flawless_iff (r : Round) :
    Flawless (r.exchanges op key) ↔ (∃ v, r.opened = .ok v) ∧ ∃ v, r.queued = .ok v := by
  rcases r with ⟨watched, got, _ | v, _ | v'⟩ <;> simp [Flawless, Exchange.Failed, exchanges]

/-- What is said is made of rounds with void transactions, one for each such transaction, and of a last
round; the last round is missing only where a void transaction comes with an error. -/
theorem Rounds.split (h : Rounds op key expected xs b) :
    ∃ (rounds : List Round) (final : List Exchange), xs = rounds.flatMap (·.exchanges op key) ++ final ∧
      xs.countP Exchange.isVoid = rounds.length ∧ (∀ r ∈ rounds, Holds expected r.got) ∧
      (Ending op key expected final b ∨ final = [] ∧ ¬ Flawless xs) ∧
      (b = .ok true ↔ Flawless xs ∧ Made final 1) ∧
      (b = .ok false ↔ Flawless xs ∧ (Differed key expected final ∨ ∃ m, Made final m ∧ m ≠ 1)) := by
  induction h with
  | @last xs b h =>
    exact ⟨[], xs, rfl, h.countP_isVoid, List.forall_mem_nil _, Or.inl h, h.decides⟩
  | broken r h why why' hfailed =>
    have hflaw : ¬ Flawless (r.exchanges op key) := by
      rw [r.flawless_iff]
      rcases hfailed with hfailed | hfailed <;> simp [hfailed]
    refine ⟨[r], [], (List.append_nil _).symm.trans ?_, r.countP_isVoid, ?_, Or.inr ⟨rfl, hflaw⟩,
      iff_of_false nofun fun h => hflaw h.1, iff_of_false nofun fun h => hflaw h.1⟩
    · simp
    · simpa using h
  | @again r h v v' hopened hqueued xs b _ ih =>
    obtain ⟨rounds, final, rfl, hcount, hholds, hfinal, htrue, hfalse⟩ := ih
    have hflawless : Flawless (r.exchanges op key ++ (rounds.flatMap (·.exchanges op key) ++ final)) ↔
        Flawless (rounds.flatMap (·.exchanges op key) ++ final) :=
      flawless_append.trans (and_iff_right (r.flawless_iff.mpr ⟨⟨v, hopened⟩, v', hqueued⟩))
    refine ⟨r :: rounds, final, by simp, ?_, ?_, ?_, ?_, ?_⟩
    · rw [List.countP_append, r.countP_isVoid, hcount, List.length_cons, Nat.add_comm]
    · exact List.forall_mem_cons.mpr ⟨h, hholds⟩
    · rw [hflawless]
      exact hfinal
    · rw [hflawless]
      exact htrue
    · rw [hflawless]
      exact hfalse

end Decision

namespace Conditional

theorem call_run (op : Conditional) (c : Client) (w : Session Network) (key expected : String) :
    op.call Network.transport c w key expected =
      match Dialogue.enter Network.transport c.address none w.store with
      | (.error why, n) => (.error (.connection why), { w with store := n })
      | (.ok _, n) =>
        let r := Dialogue.transact Network.transport key expected (op.command key) n.size n
        (r.1.mapError .connection, { w with store := r.2 }) := by
  have hcall : op.call Network.transport c w key expected =
      c.call Network.transport w
        (Dialogue.compareAndWrite Network.transport key expected (op.command key)) := by
    cases op <;> rfl
  rw [hcall]
  simp only [Client.call, Client.hold, Dialogue.bind_run]
  have htick : Network.transport.tick w = w := rfl
  rw [htick]
  rcases Dialogue.enter Network.transport c.address none w.store with ⟨why | _, n⟩
  · rfl
  · rfl

theorem mapError_cases (b : Except Fault Bool) :
    (b.mapError StoreError.connection = .ok true ↔ b = .ok true) ∧
      (b.mapError StoreError.connection = .ok false ↔ b = .ok false) ∧
      ((∃ why, b.mapError StoreError.connection = .error (.connection why)) ↔
        ¬ (b = .ok true ∨ b = .ok false)) := by
  rcases b with why | _ | _ <;> simp [Except.mapError]

/-- What a server without logic makes of a comparing operation. It comes to an end. On an open
connection it goes through one round for each void transaction, and in each of them it writes only
after it has read the expected text; then comes a last round, unless there was an error beside the
void transaction. It answers yes just if no command was answered by an error and the last
transaction by a row of the number one; no just if no command was answered by an error and the last
reading by another text or by nothing, or the last transaction by a row of another number; and in all
other cases it fails. -/
theorem rounds_decide (op : Conditional) (c : Client) (w : Session Network) (key expected : String) :
    let t := Network.transport
    let opened := Dialogue.enter t c.address none w.store
    let r := op.call t c w key expected
    (∀ why, opened.1 = .error why → r = (.error (.connection why), { w with store := opened.2 })) ∧
    (opened.1 = .ok () → ∃ (rounds : List Round) (final : List Exchange) (n : Network),
      let xs := rounds.flatMap (·.exchanges op key) ++ final
      let refuted := Differed key expected final ∨ ∃ m, Made final m ∧ m ≠ 1
      r.2 = { w with store := n } ∧ t.Talks opened.2 xs n ∧
      opened.2.Keeps (xs.map Exchange.command) n ∧
      xs.countP Exchange.isVoid = rounds.length ∧
      (∀ round ∈ rounds, Holds expected round.got) ∧
      ((∃ b, Ending op key expected final b) ∨ final = [] ∧ ¬ Flawless xs) ∧
      (r.1 = .ok true ↔ Flawless xs ∧ Made final 1) ∧
      (r.1 = .ok false ↔ Flawless xs ∧ refuted) ∧
      ((∃ why, r.1 = .error (.connection why)) ↔ ¬ (Flawless xs ∧ (Made final 1 ∨ refuted)))) := by
  intro t opened r
  have hr : r = _ := op.call_run c w key expected
  have hopened : Dialogue.enter t c.address none w.store = opened := rfl
  rw [hopened] at hr
  rcases opened with ⟨why | _, n⟩
  · refine ⟨?_, nofun⟩
    rintro _ ⟨⟩
    exact hr
  · refine ⟨nofun, fun _ => ?_⟩
    obtain ⟨xs, htalks, hrounds⟩ := Network.transact_rounds op key expected n.openings_lt_size
    obtain ⟨rounds, final, rfl, hvoid, hholds, hfinal, htrue, hfalse⟩ := hrounds.split
    dsimp only at hr
    rcases htransact : Dialogue.transact Network.transport key expected (op.command key) n.size n with
      ⟨b, n'⟩
    simp only [htransact] at hr htalks hfinal htrue hfalse
    obtain ⟨hyes, hno, hfails⟩ := mapError_cases b
    rw [hr]
    refine ⟨rounds, final, n', rfl, htalks, Network.keeps_talks htalks, hvoid, hholds,
      hfinal.imp_left fun h => ⟨b, h⟩, hyes.trans htrue, hno.trans hfalse, ?_⟩
    rw [hfails, htrue, hfalse, ← and_or_left]

/-- A transaction that is void once. -/
example :
    let round (last : String) := ["+OK\r\n", "$1\r\na\r\n", "+OK\r\n", "+QUEUED\r\n", last]
    let turns := round "*-1\r\n" ++ round "*1\r\n:1\r\n" ++ ["+OK\r\n"]
    let n := { Network.start true (.tcp "" 0) with queue := turns.map fun s => .answer (Utf8.encode s) }
    let r := delete.call Network.transport ⟨.ofUrl "", ⟨.tcp "" 0, 0, none, none⟩⟩ (.start n) "door" "a"
    r.1.toOption = some true ∧
      r.2.store.received.flatten.map List.head? = ["WATCH", "GET", "MULTI", "DEL", "EXEC",
        "WATCH", "GET", "MULTI", "DEL", "EXEC", "UNWATCH"].map some := by
  decide +kernel

end Conditional
end Redis
end Leasehold
