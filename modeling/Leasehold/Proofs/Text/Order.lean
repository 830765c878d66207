import Leasehold.Proofs.Text.Utf8

/-!
# The order of texts

Texts are ordered by the code points of their characters, and their bytes are
ordered the same way. A longer form starts with a greater byte, and forms of
one length compare like the digits that the code points have in base 64;
what comes after the first difference does not count.
-/

namespace Leasehold
namespace Utf8

/-- Bytes that differ in their head, or agree in it and differ later. -/
theorem ofNat_cons_lt {a b : Nat} {as bs : List UInt8} (ha : a < 256) (hb : b < 256)
    (h : a < b ∨ a = b ∧ as < bs) : UInt8.ofNat a :: as < UInt8.ofNat b :: bs := by
  rw [List.cons_lt_cons_iff, UInt8.lt_iff_toNat_lt, toNat_ofNat ha, toNat_ofNat hb]
  rcases h with h | ⟨rfl, h⟩
  · exact Or.inl h
  · exact Or.inr ⟨rfl, h⟩

section Digits

variable {v w : Nat} (h : v < w) (rest more : List UInt8)

include h

theorem last_lt (hlead : v / 64 = w / 64) :
    UInt8.ofNat (v % 64 + 128) :: rest < UInt8.ofNat (w % 64 + 128) :: more :=
  ofNat_cons_lt (by omega) (by omega) (Or.inl (by omega))

theorem lastTwo_lt (hlead : v / 4096 = w / 4096) :
    UInt8.ofNat (v / 64 % 64 + 128) :: UInt8.ofNat (v % 64 + 128) :: rest <
      UInt8.ofNat (w / 64 % 64 + 128) :: UInt8.ofNat (w % 64 + 128) :: more := by
  refine ofNat_cons_lt (by omega) (by omega) ?_
  rcases Nat.lt_or_ge (v / 64) (w / 64) with hlt | hge
  · exact Or.inl (by omega)
  · exact Or.inr ⟨by omega, last_lt h rest more (by omega)⟩

theorem lastThree_lt (hlead : v / 262144 = w / 262144) :
    UInt8.ofNat (v / 4096 % 64 + 128) :: UInt8.ofNat (v / 64 % 64 + 128) ::
        UInt8.ofNat (v % 64 + 128) :: rest <
      UInt8.ofNat (w / 4096 % 64 + 128) :: UInt8.ofNat (w / 64 % 64 + 128) ::
        UInt8.ofNat (w % 64 + 128) :: more := by
  refine ofNat_cons_lt (by omega) (by omega) ?_
  rcases Nat.lt_or_ge (v / 4096) (w / 4096) with hlt | hge
  · exact Or.inl (by omega)
  · exact Or.inr ⟨by omega, lastTwo_lt h rest more (by omega)⟩

end Digits

/-- The bytes of a lesser character come first, whatever follows. -/
theorem utf8EncodeChar_lt {c d : Char} (h : c < d) (rest more : List UInt8) :
    String.utf8EncodeChar c ++ rest < String.utf8EncodeChar d ++ more := by
  have hd : d.val.toNat < 55296 ∨ (57343 < d.val.toNat ∧ d.val.toNat < 1114112) := d.valid
  have hlt : c.val.toNat < d.val.toNat := h
  unfold String.utf8EncodeChar
  generalize c.val.toNat = v at hlt
  generalize d.val.toNat = w at hd hlt
  dsimp only
  split_ifs
  all_goals first
    | omega
    | refine ofNat_cons_lt (by omega) (by omega) ?_
  -- Forms of different lengths differ in the first byte; three lengths are left to compare.
  all_goals try exact Or.inl (by omega)
  · rcases Nat.lt_or_ge (v / 64) (w / 64) with hlead | hlead
    · exact Or.inl (by omega)
    · exact Or.inr ⟨by omega, last_lt hlt rest more (by omega)⟩
  · rcases Nat.lt_or_ge (v / 4096) (w / 4096) with hlead | hlead
    · exact Or.inl (by omega)
    · exact Or.inr ⟨by omega, lastTwo_lt hlt rest more (by omega)⟩
  · rcases Nat.lt_or_ge (v / 262144) (w / 262144) with hlead | hlead
    · exact Or.inl (by omega)
    · exact Or.inr ⟨by omega, lastThree_lt hlt rest more (by omega)⟩

theorem flatMap_utf8EncodeChar_lt {cs ds : List Char} (h : cs < ds) :
    cs.flatMap String.utf8EncodeChar < ds.flatMap String.utf8EncodeChar := by
  induction h with
  | @nil d ds =>
    obtain ⟨b, bs, henc, -⟩ := head_utf8EncodeChar d []
    rw [List.flatMap_nil, List.flatMap_cons, henc, List.cons_append]
    exact .nil
  | rel hlt => exact utf8EncodeChar_lt hlt _ _
  | @cons c cs ds h ih =>
    rw [List.flatMap_cons, List.flatMap_cons]
    exact List.append_left_lt ih

/-- The bytes of texts are ordered as the texts are. -/
theorem encode_lt {s t : String} (h : s < t) : encode s < encode t := by
  rw [encode_eq, encode_eq]
  exact flatMap_utf8EncodeChar_lt h

end Utf8
end Leasehold
