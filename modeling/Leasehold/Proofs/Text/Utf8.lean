import Leasehold.Text.Utf8
import Mathlib.Tactic.SplitIfs

/-!
# UTF-8 read back

The bytes of a text are read as that text, and no other bytes are. The reader
is followed through the four lengths of a character: the first byte tells the
length and the range of the second, and the arithmetic of the continuation
bytes restores the code point. The ranges leave out just what is no code point
or would have fit into fewer bytes, so the way back is as exact.
-/

namespace Leasehold
namespace Utf8

theorem toNat_ofNat {n : Nat} (h : n < 256) : (UInt8.ofNat n).toNat = n :=
  UInt8.toNat_ofNat_of_lt' h

/-! ## What a first byte announces -/

theorem shape?_two {b : UInt8} (h : 194 ≤ b.toNat ∧ b.toNat ≤ 223) :
    shape? b = some (1, 0x80, 0xBF) := by
  simp [shape?, UInt8.le_iff_toNat_le, h]

theorem shape?_three {b : UInt8} (h : 224 ≤ b.toNat ∧ b.toNat ≤ 239) :
    ∃ lo hi, shape? b = some (2, lo, hi) ∧
      lo.toNat = (if b.toNat = 224 then 160 else 128) ∧
      hi.toNat = (if b.toNat = 237 then 159 else 191) := by
  simp only [shape?, UInt8.le_iff_toNat_le, beq_iff_eq, ← UInt8.toNat_inj, Bool.and_eq_true,
    decide_eq_true_eq, UInt8.reduceToNat]
  split_ifs
  all_goals first
    | exact absurd h (by omega)
    | exact ⟨_, _, rfl, by simp only [UInt8.reduceToNat], by simp only [UInt8.reduceToNat]⟩

theorem shape?_four {b : UInt8} (h : 240 ≤ b.toNat ∧ b.toNat ≤ 244) :
    ∃ lo hi, shape? b = some (3, lo, hi) ∧
      lo.toNat = (if b.toNat = 240 then 144 else 128) ∧
      hi.toNat = (if b.toNat = 244 then 143 else 191) := by
  simp only [shape?, UInt8.le_iff_toNat_le, beq_iff_eq, ← UInt8.toNat_inj, Bool.and_eq_true,
    decide_eq_true_eq, UInt8.reduceToNat]
  split_ifs
  all_goals first
    | exact absurd h (by omega)
    | exact ⟨_, _, rfl, by simp only [UInt8.reduceToNat], by simp only [UInt8.reduceToNat]⟩

/-! ## Reading on -/

theorem readTail_cons {count value : Nat} {b : UInt8} (bs : List UInt8)
    (h : 128 ≤ b.toNat ∧ b.toNat ≤ 191) :
    readTail (count + 1) value (b :: bs) = readTail count (value * 64 + b.toNat % 64) bs := by
  have hb : continues b = true := by simp [continues, UInt8.le_iff_toNat_le, h]
  simp only [readTail, hb, if_true, low6]

theorem head_ascii {b : UInt8} (rest : List UInt8) (h : b.toNat ≤ 127) :
    head b rest = (some (charOf b.toNat), rest) := by
  have hb : b < 0x80 := by
    rw [UInt8.lt_iff_toNat_lt]
    simp
    omega
  simp only [head, hb, if_true]

/-- A second byte in its range, and what the further bytes make of the two. -/
theorem head_cons {b c lo hi : UInt8} {count value : Nat} {bs rest : List UInt8}
    (hb : 128 ≤ b.toNat) (hs : shape? b = some (count, lo, hi))
    (hc : lo.toNat ≤ c.toNat ∧ c.toNat ≤ hi.toNat)
    (ht : readTail (count - 1) (leadBits count b * 64 + c.toNat % 64) bs = (some value, rest)) :
    head b (c :: bs) = (some (charOf value), rest) := by
  have h80 : ¬ b < 0x80 := by
    rw [UInt8.lt_iff_toNat_lt]
    simp
    omega
  have hr : (lo ≤ c && c ≤ hi) = true := by simp [UInt8.le_iff_toNat_le, hc]
  simp only [head, h80, if_false, hs, hr, if_true, low6, ht, Option.map_some]

/-- The bytes of a character are read as that character, whatever follows them. -/
theorem head_utf8EncodeChar (c : Char) (rest : List UInt8) :
    ∃ b bs, String.utf8EncodeChar c = b :: bs ∧ head b (bs ++ rest) = (some c, rest) := by
  have hvalid : c.val.toNat < 55296 ∨ (57343 < c.val.toNat ∧ c.val.toNat < 1114112) := c.valid
  have hchar : charOf c.val.toNat = c := Char.ofNat_toNat c
  unfold String.utf8EncodeChar
  generalize c.val.toNat = v at hvalid hchar
  rw [← hchar]
  dsimp only
  split_ifs with h1 h2 h3
  · have hb := toNat_ofNat (n := v) (by omega)
    refine ⟨_, _, rfl, ?_⟩
    rw [List.nil_append, head_ascii rest (by omega), hb]
  · have hb := toNat_ofNat (n := v / 64 % 32 + 192) (by omega)
    have hc := toNat_ofNat (n := v % 64 + 128) (by omega)
    refine ⟨_, _, rfl, ?_⟩
    rw [List.cons_append]
    refine head_cons (by omega) (shape?_two (by omega)) ⟨?_, ?_⟩ ?_
    · simp only [UInt8.reduceToNat]
      omega
    · simp only [UInt8.reduceToNat]
      omega
    · simp only [Nat.sub_self, leadBits, readTail, List.nil_append, hb, hc]
      congr 2
      omega
  · have hb := toNat_ofNat (n := v / 4096 % 16 + 224) (by omega)
    have hc := toNat_ofNat (n := v / 64 % 64 + 128) (by omega)
    have hd := toNat_ofNat (n := v % 64 + 128) (by omega)
    obtain ⟨lo, hi, hs, hlo, hhi⟩ := shape?_three (b := UInt8.ofNat (v / 4096 % 16 + 224)) (by omega)
    refine ⟨_, _, rfl, ?_⟩
    simp only [List.cons_append, List.nil_append]
    refine head_cons (by omega) hs ⟨?_, ?_⟩ ?_
    · rw [hlo, hb, hc]
      split_ifs <;> omega
    · rw [hhi, hb, hc]
      split_ifs <;> omega
    · rw [readTail_cons _ (by omega)]
      simp only [leadBits, readTail, hb, hc, hd]
      congr 2
      omega
  · have hb := toNat_ofNat (n := v / 262144 % 8 + 240) (by omega)
    have hc := toNat_ofNat (n := v / 4096 % 64 + 128) (by omega)
    have hd := toNat_ofNat (n := v / 64 % 64 + 128) (by omega)
    have he := toNat_ofNat (n := v % 64 + 128) (by omega)
    obtain ⟨lo, hi, hs, hlo, hhi⟩ := shape?_four (b := UInt8.ofNat (v / 262144 % 8 + 240)) (by omega)
    refine ⟨_, _, rfl, ?_⟩
    simp only [List.cons_append, List.nil_append]
    refine head_cons (by omega) hs ⟨?_, ?_⟩ ?_
    · rw [hlo, hb, hc]
      split_ifs <;> omega
    · rw [hhi, hb, hc]
      split_ifs <;> omega
    · rw [readTail_cons _ (by omega), readTail_cons _ (by omega)]
      simp only [leadBits, readTail, hb, hc, hd, he]
      congr 2
      omega

/-! ## Texts -/

theorem toList_loop (bs : ByteArray) (i : Nat) (r : List UInt8) :
    ByteArray.toList.loop bs i r = r.reverse ++ bs.data.toList.drop i := by
  fun_induction ByteArray.toList.loop bs i r with
  | case1 i r h ih =>
    have hi : i < bs.data.toList.length := h
    have hget : bs.get! i = bs.data.toList[i] := getElem!_pos bs.data i h
    rw [ih, hget, List.reverse_cons, List.append_assoc, List.singleton_append,
      ← List.drop_eq_getElem_cons hi]
  | case2 i r h =>
    have hi : bs.data.toList.length ≤ i := Nat.le_of_not_lt h
    rw [List.drop_eq_nil_of_le hi, List.append_nil]

theorem encode_eq (s : String) : encode s = s.toList.flatMap String.utf8EncodeChar := by
  unfold encode
  rw [String.toUTF8_eq_toByteArray, ← String.utf8Encode_toList, ByteArray.toList, toList_loop]
  simp [List.utf8Encode]

theorem parts_flatMap (cs : List Char) :
    parts (cs.flatMap String.utf8EncodeChar) = cs.map some := by
  induction cs with
  | nil => simp [parts]
  | cons c cs ih =>
    obtain ⟨b, bs, hbs, hhead⟩ := head_utf8EncodeChar c (cs.flatMap String.utf8EncodeChar)
    rw [List.flatMap_cons, hbs, List.cons_append, parts, hhead, ih, List.map_cons]

theorem parts_encode (s : String) : parts (encode s) = s.toList.map some := by
  rw [encode_eq, parts_flatMap]

@[simp] theorem decode?_encode (s : String) : decode? (encode s) = some s := by
  have hmap (cs : List Char) : (cs.map some).mapM id = some cs := by
    induction cs with
    | nil => rfl
    | cons c cs ih => simp [ih]
  simp [decode?, parts_encode, hmap]

@[simp] theorem decodeLossy_encode (s : String) : decodeLossy (encode s) = s := by
  simp [decodeLossy, parts_encode, List.map_map, Function.comp_def]

@[simp] theorem encode_inj {s t : String} : encode s = encode t ↔ s = t := by
  constructor
  · intro h
    have hst : some s = some t := by rw [← decode?_encode s, h, decode?_encode]
    exact Option.some.inj hst
  · rintro rfl
    rfl

/-! ## What is read as a character -/

theorem shape?_eq_some {b lo hi : UInt8} {count : Nat} (h : shape? b = some (count, lo, hi)) :
    (count = 1 ∧ 194 ≤ b.toNat ∧ b.toNat ≤ 223 ∧ lo.toNat = 128 ∧ hi.toNat = 191) ∨
    (count = 2 ∧ 224 ≤ b.toNat ∧ b.toNat ≤ 239 ∧
      lo.toNat = (if b.toNat = 224 then 160 else 128) ∧
      hi.toNat = (if b.toNat = 237 then 159 else 191)) ∨
    (count = 3 ∧ 240 ≤ b.toNat ∧ b.toNat ≤ 244 ∧
      lo.toNat = (if b.toNat = 240 then 144 else 128) ∧
      hi.toNat = (if b.toNat = 244 then 143 else 191)) := by
  by_cases htwo : 194 ≤ b.toNat ∧ b.toNat ≤ 223
  · cases h.symm.trans (shape?_two htwo)
    exact Or.inl ⟨rfl, htwo.1, htwo.2, rfl, rfl⟩
  · by_cases hthree : 224 ≤ b.toNat ∧ b.toNat ≤ 239
    · obtain ⟨lo', hi', hs, hlo, hhi⟩ := shape?_three hthree
      cases h.symm.trans hs
      exact Or.inr (Or.inl ⟨rfl, hthree.1, hthree.2, hlo, hhi⟩)
    · by_cases hfour : 240 ≤ b.toNat ∧ b.toNat ≤ 244
      · obtain ⟨lo', hi', hs, hlo, hhi⟩ := shape?_four hfour
        cases h.symm.trans hs
        exact Or.inr (Or.inr ⟨rfl, hfour.1, hfour.2, hlo, hhi⟩)
      · exfalso
        simp only [shape?, UInt8.le_iff_toNat_le, beq_iff_eq, ← UInt8.toNat_inj, Bool.and_eq_true,
          decide_eq_true_eq, UInt8.reduceToNat] at h
        split_ifs at h
        all_goals omega

theorem readTail_eq_some {count value code : Nat} {bs rest : List UInt8}
    (h : readTail (count + 1) value bs = (some code, rest)) :
    ∃ b bs', bs = b :: bs' ∧ 128 ≤ b.toNat ∧ b.toNat ≤ 191 ∧
      readTail count (value * 64 + b.toNat % 64) bs' = (some code, rest) := by
  cases bs with
  | nil => cases h
  | cons b bs =>
    by_cases hb : continues b = true
    · simp only [readTail, hb, if_true, low6] at h
      simp only [continues, UInt8.le_iff_toNat_le, Bool.and_eq_true, decide_eq_true_eq,
        UInt8.reduceToNat] at hb
      exact ⟨b, bs, rfl, hb.1, hb.2, h⟩
    · simp [readTail, hb] at h

theorem val_charOf {code : Nat} (h : code < 55296 ∨ (57343 < code ∧ code < 1114112)) :
    (charOf code).val.toNat = code := by
  have hvalid : code.isValidChar := h
  rw [charOf, Char.ofNat, dif_pos hvalid]
  rfl

theorem ofNat_eq {b : UInt8} {n : Nat} (h : n = b.toNat) : UInt8.ofNat n = b := by
  subst h
  exact UInt8.ofNat_toNat

/-! ## Writing a character anew -/

theorem utf8EncodeChar_two {b d : UInt8} (hb : 194 ≤ b.toNat ∧ b.toNat ≤ 223)
    (hd : 128 ≤ d.toNat ∧ d.toNat ≤ 191) :
    String.utf8EncodeChar (charOf (b.toNat % 32 * 64 + d.toNat % 64)) = [b, d] := by
  unfold String.utf8EncodeChar
  rw [val_charOf (by omega)]
  dsimp only
  rw [if_neg (by omega), if_pos (by omega), ofNat_eq (b := b) (by omega),
    ofNat_eq (b := d) (by omega)]

theorem utf8EncodeChar_three {b d e : UInt8} (hb : 224 ≤ b.toNat ∧ b.toNat ≤ 239)
    (hd : (if b.toNat = 224 then 160 else 128) ≤ d.toNat ∧
      d.toNat ≤ if b.toNat = 237 then 159 else 191) (he : 128 ≤ e.toNat ∧ e.toNat ≤ 191) :
    String.utf8EncodeChar (charOf ((b.toNat % 16 * 64 + d.toNat % 64) * 64 + e.toNat % 64)) =
      [b, d, e] := by
  unfold String.utf8EncodeChar
  rw [val_charOf (by split_ifs at hd <;> omega)]
  dsimp only
  rw [if_neg (by split_ifs at hd <;> omega), if_neg (by split_ifs at hd <;> omega),
    if_pos (by omega), ofNat_eq (b := b) (by split_ifs at hd <;> omega),
    ofNat_eq (b := d) (by split_ifs at hd <;> omega), ofNat_eq (b := e) (by omega)]

theorem utf8EncodeChar_four {b d e f : UInt8} (hb : 240 ≤ b.toNat ∧ b.toNat ≤ 244)
    (hd : (if b.toNat = 240 then 144 else 128) ≤ d.toNat ∧
      d.toNat ≤ if b.toNat = 244 then 143 else 191) (he : 128 ≤ e.toNat ∧ e.toNat ≤ 191)
    (hf : 128 ≤ f.toNat ∧ f.toNat ≤ 191) :
    String.utf8EncodeChar (charOf
      (((b.toNat % 8 * 64 + d.toNat % 64) * 64 + e.toNat % 64) * 64 + f.toNat % 64)) =
      [b, d, e, f] := by
  have hd' : 128 ≤ d.toNat ∧ d.toNat ≤ 191 := by split_ifs at hd <;> omega
  unfold String.utf8EncodeChar
  rw [val_charOf (by split_ifs at hd <;> omega)]
  dsimp only
  rw [if_neg (by split_ifs at hd <;> omega), if_neg (by split_ifs at hd <;> omega),
    if_neg (by split_ifs at hd <;> omega), ofNat_eq (b := b) (by omega),
    ofNat_eq (b := d) (by omega), ofNat_eq (b := e) (by omega), ofNat_eq (b := f) (by omega)]

/-- A character that is not ascii has come from a second byte in its range, and from what the
further bytes made of the two. -/
theorem head_eq_some_of_lead {b : UInt8} {bs rest : List UInt8} {c : Char} (hb : 128 ≤ b.toNat)
    (h : head b bs = (some c, rest)) :
    ∃ count lo hi d ds code, shape? b = some (count, lo, hi) ∧ bs = d :: ds ∧
      (lo.toNat ≤ d.toNat ∧ d.toNat ≤ hi.toNat) ∧
      readTail (count - 1) (leadBits count b * 64 + d.toNat % 64) ds = (some code, rest) ∧
      c = charOf code := by
  have h80 : ¬ b < 0x80 := by
    rw [UInt8.lt_iff_toNat_lt]
    simp
    omega
  simp only [head, h80, if_false] at h
  cases hs : shape? b with
  | none => simp [hs] at h
  | some shape =>
    obtain ⟨count, lo, hi⟩ := shape
    cases bs with
    | nil => simp [hs] at h
    | cons d ds =>
      by_cases hd : (lo ≤ d && d ≤ hi) = true
      · simp only [hs, hd, if_true, low6, Prod.mk.injEq, Option.map_eq_some_iff] at h
        obtain ⟨⟨code, hcode, hc⟩, hrest⟩ := h
        simp only [UInt8.le_iff_toNat_le, Bool.and_eq_true, decide_eq_true_eq] at hd
        exact ⟨count, lo, hi, d, ds, code, rfl, rfl, hd, Prod.ext hcode hrest, hc.symm⟩
      · simp [hs, hd] at h

theorem head_eq_some {b : UInt8} {bs rest : List UInt8} {c : Char}
    (h : head b bs = (some c, rest)) : b :: bs = String.utf8EncodeChar c ++ rest := by
  by_cases hb : b.toNat ≤ 127
  · rw [head_ascii bs hb] at h
    cases h
    rw [String.utf8EncodeChar, val_charOf (by omega)]
    simp [hb]
  · obtain ⟨count, lo, hi, d, ds, code, hs, rfl, hd, htail, rfl⟩ :=
      head_eq_some_of_lead (by omega) h
    rcases shape?_eq_some hs with ⟨rfl, hlow, hhigh, hlo, hhi⟩ | ⟨rfl, hlow, hhigh, hlo, hhi⟩ |
      ⟨rfl, hlow, hhigh, hlo, hhi⟩
    · simp only [Nat.sub_self, readTail, leadBits, Prod.mk.injEq, Option.some.injEq] at htail
      obtain ⟨rfl, rfl⟩ := htail
      rw [hlo, hhi] at hd
      rw [utf8EncodeChar_two ⟨hlow, hhigh⟩ hd]
      rfl
    · obtain ⟨e, es, rfl, helo, hehi, htail⟩ := readTail_eq_some htail
      simp only [readTail, leadBits, Prod.mk.injEq, Option.some.injEq] at htail
      obtain ⟨rfl, rfl⟩ := htail
      rw [hlo, hhi] at hd
      rw [utf8EncodeChar_three ⟨hlow, hhigh⟩ hd ⟨helo, hehi⟩]
      rfl
    · obtain ⟨e, es, rfl, helo, hehi, htail⟩ := readTail_eq_some htail
      obtain ⟨f, fs, rfl, hflo, hfhi, htail⟩ := readTail_eq_some htail
      simp only [readTail, leadBits, Prod.mk.injEq, Option.some.injEq] at htail
      obtain ⟨rfl, rfl⟩ := htail
      rw [hlo, hhi] at hd
      rw [utf8EncodeChar_four ⟨hlow, hhigh⟩ hd ⟨helo, hehi⟩ ⟨hflo, hfhi⟩]
      rfl

theorem eq_encode_of_parts {bs : List UInt8} {cs : List Char} (h : parts bs = cs.map some) :
    bs = cs.flatMap String.utf8EncodeChar := by
  induction cs generalizing bs with
  | nil =>
    cases bs with
    | nil => rfl
    | cons b bs =>
      rw [parts] at h
      cases h
  | cons c cs ih =>
    cases bs with
    | nil =>
      rw [parts] at h
      cases h
    | cons b bs =>
      rw [parts, List.map_cons, List.cons.injEq] at h
      have hhead : head b bs = (some c, (head b bs).2) := Prod.ext h.1 rfl
      rw [head_eq_some hhead, List.flatMap_cons, ← ih h.2]

theorem eq_map_of_mapM {α : Type} {xs : List (Option α)} {ys : List α} (h : xs.mapM id = some ys) :
    xs = ys.map some := by
  induction xs generalizing ys with
  | nil =>
    cases h
    rfl
  | cons x xs ih =>
    cases x with
    | none => simp at h
    | some y =>
      simp only [List.mapM_cons, id_eq, Option.bind_eq_bind, Option.bind_some,
        Option.bind_eq_some_iff, Option.pure_def, Option.some.injEq] at h
      obtain ⟨zs, hzs, rfl⟩ := h
      rw [List.map_cons, ih hzs]

/-- Only the bytes of a text are read as that text. -/
theorem decode?_eq_some {bs : List UInt8} {s : String} : decode? bs = some s ↔ bs = encode s := by
  constructor
  · intro h
    obtain ⟨cs, hcs, rfl⟩ := Option.map_eq_some_iff.mp h
    rw [encode_eq, String.toList_ofList]
    refine eq_encode_of_parts ?_
    exact eq_map_of_mapM hcs
  · rintro rfl
    exact decode?_encode s

/-- A text without a replacement character is never read where a bad part is replaced. -/
theorem decodeLossy_eq_iff {bs : List UInt8} {s : String} (hs : Char.ofNat 0xFFFD ∉ s.toList) :
    decodeLossy bs = s ↔ bs = encode s := by
  constructor
  · rintro rfl
    rw [decodeLossy, String.toList_ofList] at hs
    rw [decodeLossy, encode_eq, String.toList_ofList]
    refine eq_encode_of_parts ?_
    rw [List.map_map]
    refine (List.map_id _).symm.trans (List.map_congr_left fun p hp => ?_)
    cases p with
    | none => exact absurd (List.mem_map.mpr ⟨none, hp, rfl⟩) hs
    | some c => rfl
  · rintro rfl
    exact decodeLossy_encode s

end Utf8
end Leasehold
