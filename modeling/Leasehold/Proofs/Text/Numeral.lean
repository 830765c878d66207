import Leasehold.Text.Numeral

/-!
# Numerals read back

The decimal text of a number is a row of digits without a sign, and reading
it gives the number again. Hence a number that fits 64 bits passes through
its text unharmed.
-/

namespace Leasehold
namespace Numeral

theorem digitValue?_digitChar {d : Nat} (h : d < 10) : digitValue? (digitChar d) = some d := by
  have table : ∀ i : Fin 10, digitValue? (digitChar i.val) = some i.val := by decide
  exact table ⟨d, h⟩

theorem isDigit_digitChar {d : Nat} (h : d < 10) : isDigit (digitChar d) = true := by
  have table : ∀ i : Fin 10, isDigit (digitChar i.val) = true := by decide
  exact table ⟨d, h⟩

theorem digits_ne_nil (n : Nat) : digits n ≠ [] := by
  rw [digits]
  split <;> simp

theorem isDigit_of_mem_digits {n : Nat} {c : Char} (hc : c ∈ digits n) : isDigit c = true := by
  induction n using digits.induct with
  | case1 n hn =>
    rw [digits, if_pos hn, List.mem_singleton] at hc
    subst c
    exact isDigit_digitChar hn
  | case2 n hn ih =>
    rw [digits, if_neg hn, List.mem_append, List.mem_singleton] at hc
    rcases hc with hc | rfl
    · exact ih hc
    · exact isDigit_digitChar (Nat.mod_lt n (by decide))

theorem readOnto?_append (radix value : Nat) (cs ds : List Char) :
    readOnto? radix value (cs ++ ds) = (readOnto? radix value cs).bind (readOnto? radix · ds) := by
  induction cs generalizing value with
  | nil => rfl
  | cons c cs ih =>
    simp only [List.cons_append, readOnto?]
    cases digitValue? c with
    | none => rfl
    | some v =>
      by_cases hv : v < radix
      · simp only [hv, if_true, ih]
      · simp only [hv, if_false, Option.bind_none]

theorem readOnto?_digits (n : Nat) : readOnto? 10 0 (digits n) = some n := by
  induction n using digits.induct with
  | case1 n hn =>
    rw [digits, if_pos hn]
    simp [readOnto?, digitValue?_digitChar hn, hn]
  | case2 n hn ih =>
    have hd : n % 10 < 10 := Nat.mod_lt n (by decide)
    rw [digits, if_neg hn, readOnto?_append, ih]
    simp only [Option.bind_some, readOnto?, digitValue?_digitChar hd, hd, if_true]
    congr 1
    omega

theorem readDigits?_digits (n : Nat) : readDigits? 10 (digits n) = some n := by
  have h := readOnto?_digits n
  cases hd : digits n with
  | nil => exact absurd hd (digits_ne_nil n)
  | cons c cs => rwa [hd] at h

theorem digits_ne_plus (n : Nat) (rest : List Char) : digits n ≠ '+' :: rest := by
  intro h
  have hc : isDigit '+' = true := isDigit_of_mem_digits (n := n) (by simp [h])
  exact absurd hc (by decide)

theorem readUnsigned?_digits {width n : Nat} (h : n < Nat.pow 2 width) :
    readUnsigned? width 10 (digits n) = some n := by
  unfold readUnsigned?
  split
  · rename_i rest hrest
    exact absurd hrest (digits_ne_plus n rest)
  · simp only [readDigits?_digits]
    exact if_pos h

theorem u64?_ofNat {n : Nat} (h : n < 18446744073709551616) : u64? (ofNat n) = some n := by
  unfold u64? ofNat
  rw [String.toList_ofList]
  exact readUnsigned?_digits h

end Numeral
end Leasehold
