import Leasehold.Proofs.Text.Numeral
import Mathlib.Data.Nat.Digits.Defs

/-!
# What a numeral denotes

A numeral is an optional plus sign and at least one decimal digit; the last
digit counts ones, the one before it tens, and so on. The reader of 64-bit
numbers takes just the numerals of numbers that fit, and gives what they
denote, however many zeros lead.
-/

namespace Leasehold
namespace Numeral

/-- What a row of decimal digits denotes. -/
def placeValue (ds : List Char) : Nat := Nat.ofDigits 10 (ds.reverse.map fun c => c.toNat - 48)

/-- The text is a numeral of the number. -/
def Denotes (text : String) (n : Nat) : Prop :=
  ∃ ds : List Char, ds ≠ [] ∧ (∀ c ∈ ds, isDigit c = true) ∧
    (text.toList = ds ∨ text.toList = '+' :: ds) ∧ placeValue ds = n

theorem digitValue?_of_isDigit {c : Char} (h : isDigit c = true) : digitValue? c = some (c.toNat - 48) := by
  simp only [isDigit, Bool.and_eq_true, decide_eq_true_eq] at h
  exact if_pos h

theorem isDigit_of_digitValue? {c : Char} {v : Nat} (h : digitValue? c = some v) (hv : v < 10) :
    isDigit c = true := by
  simp only [digitValue?] at h
  simp only [isDigit, Bool.and_eq_true, decide_eq_true_eq]
  split_ifs at h with hdigit hlower hupper
  · exact hdigit
  · cases h
    omega
  · cases h
    omega

theorem placeValue_cons (c : Char) (cs : List Char) :
    placeValue (c :: cs) = (c.toNat - 48) * Nat.pow 10 cs.length + placeValue cs := by
  have hlength : (cs.reverse.map fun c => c.toNat - 48).length = cs.length := by simp
  rw [placeValue, List.reverse_cons, List.map_append, Nat.ofDigits_append, hlength, List.map_singleton,
    Nat.ofDigits_singleton, placeValue, Nat.add_comm, Nat.mul_comm]
  rfl

/-- Digits read onto a value move it up by as many places. -/
theorem readOnto?_eq_some {value n : Nat} {cs : List Char} :
    readOnto? 10 value cs = some n ↔
      (∀ c ∈ cs, isDigit c = true) ∧ value * Nat.pow 10 cs.length + placeValue cs = n := by
  induction cs generalizing value with
  | nil => simp [readOnto?, placeValue]
  | cons c cs ih =>
    by_cases hc : isDigit c = true
    · have hv : c.toNat - 48 < 10 := by
        simp only [isDigit, Bool.and_eq_true, decide_eq_true_eq] at hc
        omega
      have hplaces : (value * 10 + (c.toNat - 48)) * Nat.pow 10 cs.length =
          value * Nat.pow 10 (cs.length + 1) + (c.toNat - 48) * Nat.pow 10 cs.length := by
        rw [Nat.add_mul, Nat.mul_assoc, Nat.mul_comm 10]
        rfl
      simp only [readOnto?, digitValue?_of_isDigit hc, hv, if_true, ih, List.forall_mem_cons, hc, true_and,
        List.length_cons, placeValue_cons, hplaces, Nat.add_assoc]
    · cases hv : digitValue? c with
      | none => simp [readOnto?, hv, hc]
      | some v =>
        have hlarge : ¬ v < 10 := fun hlow => hc (isDigit_of_digitValue? hv hlow)
        simp [readOnto?, hv, hlarge, hc]

theorem readDigits?_eq_some {n : Nat} {cs : List Char} :
    readDigits? 10 cs = some n ↔ cs ≠ [] ∧ (∀ c ∈ cs, isDigit c = true) ∧ placeValue cs = n := by
  cases cs with
  | nil => simp
  | cons c cs =>
    rw [readDigits?, readOnto?_eq_some]
    · simp
    · simp

section Unsigned

variable (width radix : Nat)

theorem readUnsigned?_plus (cs : List Char) :
    readUnsigned? width radix ('+' :: cs) = (readDigits? radix cs).filter fun n => n < Nat.pow 2 width := by
  simp only [readUnsigned?]
  cases readDigits? radix cs with
  | none => rfl
  | some n => simp [Option.filter_some]

theorem readUnsigned?_of_ne {cs : List Char} (h : ∀ rest, cs ≠ '+' :: rest) :
    readUnsigned? width radix cs = (readDigits? radix cs).filter fun n => n < Nat.pow 2 width := by
  simp only [readUnsigned?]
  cases readDigits? radix cs with
  | none => rfl
  | some n => simp [Option.filter_some]

theorem readUnsigned?_eq_some {n : Nat} {s : String} :
    readUnsigned? width 10 s.toList = some n ↔ Denotes s n ∧ n < Nat.pow 2 width := by
  have hplus : isDigit '+' ≠ true := by decide
  unfold Denotes
  by_cases h : ∃ rest, s.toList = '+' :: rest
  · obtain ⟨rest, hrest⟩ := h
    rw [hrest, readUnsigned?_plus, Option.filter_eq_some_iff, readDigits?_eq_some, decide_eq_true_eq]
    refine and_congr_left fun _ => ⟨fun ⟨hne, hdigits, hn⟩ => ⟨rest, hne, hdigits, Or.inr rfl, hn⟩, ?_⟩
    rintro ⟨ds, hne, hdigits, rfl | hds, hn⟩
    · exact absurd (hdigits '+' List.mem_cons_self) hplus
    · cases hds
      exact ⟨hne, hdigits, hn⟩
  · have hne : ∀ rest, s.toList ≠ '+' :: rest := fun rest hrest => h ⟨rest, hrest⟩
    rw [readUnsigned?_of_ne width 10 hne, Option.filter_eq_some_iff, readDigits?_eq_some, decide_eq_true_eq]
    refine and_congr_left fun _ => ⟨fun ⟨hne, hdigits, hn⟩ => ⟨_, hne, hdigits, Or.inl rfl, hn⟩, ?_⟩
    rintro ⟨ds, hds, hdigits, rfl | heq, hn⟩
    · exact ⟨hds, hdigits, hn⟩
    · exact absurd heq (hne ds)

end Unsigned

theorem u64?_eq_some {s : String} {n : Nat} :
    u64? s = some n ↔ Denotes s n ∧ n < 18446744073709551616 := readUnsigned?_eq_some 64

theorem denotes_ofNat (n : Nat) : Denotes (ofNat n) n := by
  obtain ⟨hne, hdigits, hvalue⟩ := readDigits?_eq_some.mp (readDigits?_digits n)
  exact ⟨digits n, hne, hdigits, Or.inl String.toList_ofList, hvalue⟩

end Numeral
end Leasehold
