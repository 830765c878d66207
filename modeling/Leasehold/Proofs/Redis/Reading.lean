import Leasehold.Redis.Playback
import Mathlib.Data.List.Basic

/-!
# What reading uses up

An answer is read off the front of the bytes that have come in, and what is left
is an end of them. A value begins with one of four bytes, and an error line with
another, which is also what a server says that has run out of turns. So the
bytes that can begin a value bound the values that will ever be read: commands
add none to them, and each value uses one up.
-/

namespace Leasehold
namespace Redis

namespace Wire

/-- What is left after reading is an end of the bytes. -/
def Leaves {α : Type} (r : Read α) (bytes : List UInt8) : Prop :=
  ∀ a rest, r = .done a rest → rest <:+ bytes

theorem splitLine_leaves {bytes line rest : List UInt8} (h : splitLine bytes = some (line, rest)) :
    rest <:+ bytes := by
  fun_induction splitLine bytes generalizing line with
  | case1 after =>
    cases h
    exact (List.suffix_cons ..).trans (List.suffix_cons ..)
  | case2 b bytes _ ih =>
    obtain ⟨⟨line', rest'⟩, hsplit, hcons⟩ := Option.map_eq_some_iff.mp h
    cases hcons
    exact (ih hsplit).trans (List.suffix_cons ..)
  | case3 => cases h

theorem line_leaves (bytes : List UInt8) : Leaves (line bytes) bytes := by
  intro s rest h
  unfold line at h
  cases hsplit : splitLine bytes with
  | none =>
    rw [hsplit] at h
    cases h
  | some p =>
    rw [hsplit] at h
    dsimp only at h
    cases htext : Utf8.decode? p.1 with
    | none =>
      rw [htext] at h
      cases h
    | some text =>
      rw [htext] at h
      cases h
      exact splitLine_leaves hsplit

theorem number_leaves (bytes : List UInt8) : Leaves (number bytes) bytes := by
  intro n rest h
  unfold number at h
  cases hline : line bytes with
  | more => simp [hline] at h
  | malformed => simp [hline] at h
  | done s rest' =>
    rw [hline] at h
    dsimp only at h
    cases hnumeral : Numeral.i64? (Blank.trim s) with
    | none =>
      rw [hnumeral] at h
      cases h
    | some m =>
      rw [hnumeral] at h
      cases h
      exact line_leaves bytes s _ hline

theorem byteString_leaves (size : Nat) (bytes : List UInt8) : Leaves (byteString size bytes) bytes := by
  intro a rest h
  unfold byteString at h
  split_ifs at h
  split at h
  next hdrop =>
    cases h
    have htail : rest <:+ bytes.drop size := by
      rw [hdrop]
      exact (List.suffix_cons ..).trans (List.suffix_cons ..)
    exact htail.trans (List.drop_suffix ..)
  all_goals cases h

theorem answers_leaves {read : List UInt8 → Read Answer} (hread : ∀ bytes, Leaves (read bytes) bytes)
    (fuel count : Nat) (bytes : List UInt8) : Leaves (answers read fuel count bytes) bytes := by
  induction fuel generalizing count bytes with
  | zero =>
    intro a rest h
    cases count with
    | zero =>
      cases h
      exact List.suffix_refl _
    | succ count => cases h
  | succ fuel ih =>
    intro a rest h
    cases count with
    | zero =>
      cases h
      exact List.suffix_refl _
    | succ count =>
      rw [answers] at h
      cases hfirst : read bytes with
      | more => simp [hfirst] at h
      | malformed => simp [hfirst] at h
      | done a' rest' =>
        rw [hfirst] at h
        dsimp only at h
        cases hmore : answers read fuel count rest' with
        | more => simp [hmore] at h
        | malformed => simp [hmore] at h
        | done as rest'' =>
          rw [hmore] at h
          cases h
          exact (ih count rest' as _ hmore).trans (hread bytes a' rest' hfirst)

theorem answer_leaves {depth : Nat} (mark : UInt8) (bytes : List UInt8) :
    Leaves (answer depth (mark :: bytes)) bytes := by
  -- Only a row looks deeper; all other cases are done once for every depth.
  induction depth using Nat.strongRecOn generalizing mark bytes with
  | ind depth ih =>
    intro a rest h
    rw [answer.eq_def] at h
    dsimp only at h
    split_ifs at h with hstatus hint hdata herror hrow
    · cases hline : line bytes with
      | more => simp [hline] at h
      | malformed => simp [hline] at h
      | done s rest' =>
        rw [hline] at h
        cases h
        exact line_leaves bytes s _ hline
    · cases hnumber : number bytes with
      | more => simp [hnumber] at h
      | malformed => simp [hnumber] at h
      | done n rest' =>
        rw [hnumber] at h
        cases h
        exact number_leaves bytes n _ hnumber
    · cases hnumber : number bytes with
      | more => simp [hnumber] at h
      | malformed => simp [hnumber] at h
      | done n rest' =>
        have hleft := number_leaves bytes n rest' hnumber
        rw [hnumber] at h
        dsimp only at h
        split_ifs at h
        · cases h
          exact hleft
        · exact (byteString_leaves _ _ _ _ h).trans hleft
    · cases hline : line bytes with
      | more => simp [hline] at h
      | malformed => simp [hline] at h
      | done s rest' =>
        rw [hline] at h
        cases h
        exact line_leaves bytes s _ hline
    · cases depth with
      | zero => cases h
      | succ depth =>
        have hinner (bytes : List UInt8) : Leaves (answer depth bytes) bytes := by
          intro a rest hread
          cases bytes with
          | nil => simp [answer] at hread
          | cons b bytes =>
            exact (ih depth (Nat.lt_succ_self depth) b bytes a rest hread).trans (List.suffix_cons ..)
        cases hnumber : number bytes with
        | more => simp [hnumber] at h
        | malformed => simp [hnumber] at h
        | done n rest' =>
          have hleft := number_leaves bytes n rest' hnumber
          rw [hnumber] at h
          dsimp only at h
          split_ifs at h
          · cases h
            exact hleft
          · cases hrows : answers (answer depth) rest'.length n.toNat rest' with
            | more => simp [hrows] at h
            | malformed => simp [hrows] at h
            | done as rest'' =>
              rw [hrows] at h
              cases h
              exact (answers_leaves hinner _ _ _ _ _ hrows).trans hleft

def opensValue (b : UInt8) : Bool := b == 0x2B || b == 0x3A || b == 0x24 || b == 0x2A

theorem opensValue_of_answer {depth : Nat} {mark : UInt8} {bytes rest : List UInt8} {v : Value}
    (h : answer depth (mark :: bytes) = .done (.ok v) rest) : opensValue mark = true := by
  rw [answer.eq_def] at h
  dsimp only at h
  split_ifs at h with hstatus hint hdata herror hrow
  · simp [opensValue, hstatus]
  · simp [opensValue, hint]
  · simp [opensValue, hdata]
  · split at h <;> cases h
  · simp [opensValue, hrow]

/-- Reading does not bring back what it has used up, and a value uses up the byte that it begins
with. -/
theorem count_read {bytes rest : List UInt8} {a : Answer} (h : read bytes = .done a rest) :
    rest.countP opensValue ≤ bytes.countP opensValue ∧
      ∀ v, a = .ok v → rest.countP opensValue < bytes.countP opensValue := by
  unfold read at h
  cases bytes with
  | nil => simp [answer] at h
  | cons mark bytes =>
    have hle := (answer_leaves mark bytes a rest h).sublist.countP_le (p := opensValue)
    refine ⟨Nat.le_trans hle (List.sublist_cons_self ..).countP_le, ?_⟩
    rintro v rfl
    rw [List.countP_cons_of_pos (opensValue_of_answer h)]
    exact Nat.lt_succ_of_le hle

end Wire

namespace Network

variable (n : Network)

/-- How many bytes there are that can begin a value, come in or to come. -/
def openings : Nat := (n.pending ++ n.queue.flatMap Turn.bytes).countP Wire.opensValue

theorem openings_lt_size : n.openings < n.size := by
  have hcount := List.countP_le_length (p := Wire.opensValue)
    (l := n.pending ++ n.queue.flatMap Turn.bytes)
  rw [List.length_append] at hcount
  unfold openings size
  lia

theorem count_lastAnswer : lastAnswer.countP Wire.opensValue = 0 := by
  decide +kernel

theorem openings_answer (c : Command) : (n.answer c).openings = n.openings := by
  unfold answer
  split_ifs
  · rfl
  · rcases hqueue : n.queue with _ | ⟨_ | _ | _, queue⟩ <;>
      simp [openings, hqueue, Turn.bytes, count_lastAnswer]

theorem openings_send (cs : List Command) : (n.send cs).openings = n.openings := by
  induction cs generalizing n with
  | nil => rfl
  | cons c cs ih => exact (ih (n.answer c)).trans (n.openings_answer c)

/-- Taking an answer uses up what began it. -/
theorem openings_receive :
    n.receive.2.openings ≤ n.openings ∧
      ∀ v, n.receive.1 = .ok v → n.receive.2.openings < n.openings := by
  unfold receive
  cases hread : Wire.read n.pending with
  | more => exact ⟨Nat.le_refl _, nofun⟩
  | malformed => exact ⟨Nat.le_refl _, nofun⟩
  | done a rest =>
    obtain ⟨hle, hlt⟩ := Wire.count_read hread
    have hopenings : ({ n with pending := rest } : Network).openings + n.pending.countP Wire.opensValue =
        n.openings + rest.countP Wire.opensValue := by
      simp only [openings, List.countP_append]
      lia
    cases a with
    | error e =>
      refine ⟨?_, nofun⟩
      dsimp only
      lia
    | ok v =>
      have hlt' := hlt v rfl
      refine ⟨?_, fun _ _ => ?_⟩ <;> dsimp only <;> lia

end Network
end Redis
end Leasehold
