/-!
# Owner tokens

A token tells one owner of a key from every other: sixteen letters and digits,
drawn at random.
-/

namespace Leasehold

structure Token where
  text : String
  length_eq : text.length = 16
  alphanumeric : text.toList.all Char.isAlphanum = true

namespace Token

def length : Nat := 16

/-- The letter or digit at a place of the alphabet, counted modulo its size. -/
def letter (n : Nat) : Char :=
  if n % 62 < 26 then Char.ofNat (65 + n % 62)
  else if n % 62 < 52 then Char.ofNat (71 + n % 62)
  else Char.ofNat (n % 62 - 4)

/-- The letters of a number in base sixty-two, the lowest first. -/
def letters : Nat → Nat → List Char
  | 0, _ => []
  | width + 1, n => letter n :: letters width (n / 62)

theorem length_letters (width n : Nat) : (letters width n).length = width := by
  induction width generalizing n with
  | zero => rfl
  | succ width ih => simp [letters, ih]

theorem isAlphanum_letter (n : Nat) : (letter n).isAlphanum = true := by
  have table : ∀ i : Fin 62, (letter i.val).isAlphanum = true := by decide
  have h : letter n = letter (n % 62) := by simp [letter]
  rw [h]
  exact table ⟨n % 62, Nat.mod_lt _ (by decide)⟩

theorem all_letters (width n : Nat) : (letters width n).all Char.isAlphanum = true := by
  induction width generalizing n with
  | zero => rfl
  | succ width ih => simp [letters, isAlphanum_letter, ih]

def ofNumber (n : Nat) : Token where
  text := String.ofList (letters 16 n)
  length_eq := by simp [length_letters]
  alphanumeric := by rw [String.toList_ofList]; exact all_letters 16 n

end Token
end Leasehold
