import Leasehold.Proofs.Text.Utf8
import Mathlib.Tactic.ByContra

/-!
# Bad parts

Where no character stands, the bad part is the longest beginning of a
character that does stand there, or a single byte where not even a beginning
does. The lossy reader writes a character for a character and a replacement
for each bad part, and nothing else: this alone fixes its text. So it drops no
byte of a bad part, and never joins what stands around one.
-/

namespace Leasehold
namespace Utf8

/-- Some character begins with the bytes. -/
def Begins (part : List UInt8) : Prop := ∃ c, part <+: String.utf8EncodeChar c

/-- A bad part and the bytes after it. -/
structure BadPart (part rest : List UInt8) : Prop where
  noCharacter : ∀ c, ¬ String.utf8EncodeChar c <+: part ++ rest
  nonempty : part ≠ []
  beginning : Begins part ∨ part.length = 1
  longest : ∀ more, more ≠ [] → more <+: rest → ¬ Begins (part ++ more)

def replacement : Char := Char.ofNat 0xFFFD

/-- Bytes and the characters of their text, where each bad part is replaced. -/
inductive Patched : List UInt8 → List Char → Prop
  | nil : Patched [] []
  | character (c : Char) {rest : List UInt8} {cs : List Char} (h : Patched rest cs) :
      Patched (String.utf8EncodeChar c ++ rest) (c :: cs)
  | bad {part rest : List UInt8} {cs : List Char} (hpart : BadPart part rest) (h : Patched rest cs) :
      Patched (part ++ rest) (replacement :: cs)

/-! ## Beginnings of characters -/

theorem readTail_of_continues {count value : Nat} {xs : List UInt8} (hlength : xs.length = count)
    (hxs : ∀ x ∈ xs, continues x = true) : ∃ code, readTail count value xs = (some code, []) := by
  induction xs generalizing count value with
  | nil =>
    subst hlength
    exact ⟨value, rfl⟩
  | cons x xs ih =>
    subst hlength
    have hx : continues x = true := hxs x List.mem_cons_self
    simp only [List.length_cons, readTail, hx, if_true]
    exact ih rfl fun y hy => hxs y (List.mem_cons_of_mem _ hy)

theorem continues_of_readTail {count value code : Nat} {bs rest : List UInt8}
    (h : readTail count value bs = (some code, rest)) :
    ∃ xs, bs = xs ++ rest ∧ xs.length = count ∧ ∀ x ∈ xs, continues x = true := by
  fun_induction readTail count value bs with
  | case1 value bs =>
    cases h
    exact ⟨[], rfl, rfl, by simp⟩
  | case2 => cases h
  | case3 value count b bs hb ih =>
    obtain ⟨xs, rfl, hlength, hxs⟩ := ih h
    exact ⟨b :: xs, rfl, by simp [hlength], by simpa [hb] using hxs⟩
  | case4 => cases h

/-- Reading on has stopped before a byte that continues nothing. -/
theorem stopped_of_readTail {count value : Nat} {bs rest : List UInt8}
    (h : readTail count value bs = (none, rest)) :
    ∃ xs, bs = xs ++ rest ∧ xs.length < count ∧ (∀ x ∈ xs, continues x = true) ∧
      ∀ b ∈ rest.head?, continues b = false := by
  fun_induction readTail count value bs with
  | case1 => cases h
  | case2 count value =>
    cases h
    exact ⟨[], rfl, by simp, by simp, by simp⟩
  | case3 value count b bs hb ih =>
    obtain ⟨xs, rfl, hlength, hxs, hrest⟩ := ih h
    exact ⟨b :: xs, rfl, by simpa using hlength, by simpa [hb] using hxs, hrest⟩
  | case4 value count b bs hb =>
    cases h
    exact ⟨[], rfl, by simp, by simp, by simpa using hb⟩

theorem head_of_begins {b : UInt8} {bs : List UInt8} (h : Begins (b :: bs)) :
    ∃ c more, head b (bs ++ more) = (some c, []) := by
  obtain ⟨c, more, hc⟩ := h
  obtain ⟨b', bs', henc, hhead⟩ := head_utf8EncodeChar c []
  rw [henc, List.cons_append, List.cons.injEq] at hc
  obtain ⟨rfl, rfl⟩ := hc
  exact ⟨c, more, by rwa [List.append_nil] at hhead⟩

theorem begins_of_head {b : UInt8} {bs more : List UInt8} {c : Char}
    (h : head b (bs ++ more) = (some c, [])) : Begins (b :: bs) := by
  have henc := head_eq_some h
  rw [List.append_nil] at henc
  exact ⟨c, more, by rw [← henc, List.cons_append]⟩

theorem not_begins {b : UInt8} (hb : 128 ≤ b.toNat) (hs : shape? b = none) (bs : List UInt8) :
    ¬ Begins (b :: bs) := by
  intro h
  obtain ⟨c, more, hhead⟩ := head_of_begins h
  obtain ⟨count, lo, hi, d, ds, code, hshape, -⟩ := head_eq_some_of_lead hb hhead
  cases hs.symm.trans hshape

/-- The bytes that a first byte announces: their number, the range of the next, and that the others
continue a character. -/
theorem begins_lead_iff {b lo hi : UInt8} {count : Nat} (hb : 128 ≤ b.toNat)
    (hs : shape? b = some (count, lo, hi)) (d : UInt8) (ds : List UInt8) :
    Begins (b :: d :: ds) ↔ (lo.toNat ≤ d.toNat ∧ d.toNat ≤ hi.toNat) ∧ ds.length < count ∧
      ∀ x ∈ ds, continues x = true := by
  constructor
  · intro h
    obtain ⟨c, more, hhead⟩ := head_of_begins h
    obtain ⟨count', lo', hi', d', ds', code, hs', hds, hd, htail, -⟩ := head_eq_some_of_lead hb hhead
    cases hs.symm.trans hs'
    rw [List.cons_append, List.cons.injEq] at hds
    obtain ⟨rfl, rfl⟩ := hds
    obtain ⟨xs, hxs, hlength, hcontinues⟩ := continues_of_readTail htail
    rw [List.append_nil] at hxs
    subst hxs
    have hcount : 0 < count := by
      rcases shape?_eq_some hs with ⟨rfl, -⟩ | ⟨rfl, -⟩ | ⟨rfl, -⟩ <;> decide
    rw [List.length_append] at hlength
    refine ⟨hd, by omega, fun x hx => hcontinues x (List.mem_append_left _ hx)⟩
  · rintro ⟨hd, hlength, hcontinues⟩
    -- The missing bytes are made up, each the least that continues a character.
    let more : List UInt8 := List.replicate (count - 1 - ds.length) 0x80
    have hmore : ∀ x ∈ ds ++ more, continues x = true := by
      intro x hx
      rcases List.mem_append.mp hx with hx | hx
      · exact hcontinues x hx
      · rw [List.eq_of_mem_replicate hx]
        decide
    have hfull : (ds ++ more).length = count - 1 := by
      simp only [more, List.length_append, List.length_replicate]
      omega
    obtain ⟨code, hcode⟩ := readTail_of_continues hfull hmore
    have hhead : head b (d :: ds ++ more) = (some (charOf code), []) := head_cons hb hs hd hcode
    exact begins_of_head hhead

/-! ## Bad parts -/

section Reading

variable {b : UInt8} {bs rest : List UInt8}

theorem lead_of_head (h : head b bs = (none, rest)) : 128 ≤ b.toNat := by
  by_contra hlow
  rw [head_ascii bs (by omega)] at h
  cases h

theorem noCharacter_of_head (h : head b bs = (none, rest)) (c : Char) :
    ¬ String.utf8EncodeChar c <+: b :: bs := by
  rintro ⟨more, hc⟩
  obtain ⟨b', bs', henc, hhead⟩ := head_utf8EncodeChar c more
  rw [henc, List.cons_append, List.cons.injEq] at hc
  obtain ⟨rfl, rfl⟩ := hc
  cases h.symm.trans hhead

/-- How far the bytes go that form no character: over a single byte, or over a beginning; and the
next byte takes neither on. -/
theorem reach_of_head (h : head b bs = (none, rest)) :
    ∃ part, b :: bs = part ++ rest ∧ part ≠ [] ∧ (Begins part ∨ part.length = 1) ∧
      ∀ next more, rest = next :: more → ∀ ds, ¬ Begins (part ++ next :: ds) := by
  have hb := lead_of_head h
  have h80 : ¬ b < 0x80 := by
    rw [UInt8.lt_iff_toNat_lt]
    exact Nat.not_lt.mpr hb
  simp only [head, h80, if_false] at h
  cases hs : shape? b with
  | none =>
    rw [hs] at h
    cases h
    exact ⟨[b], rfl, by simp, Or.inr rfl, fun next more _ ds => not_begins hb hs _⟩
  | some shape =>
    obtain ⟨count, lo, hi⟩ := shape
    simp only [hs] at h
    cases bs with
    | nil =>
      cases h
      exact ⟨[b], rfl, by simp, Or.inr rfl, nofun⟩
    | cons d ds =>
      by_cases hd : (lo ≤ d && d ≤ hi) = true
      · simp only [hd, if_true, Prod.mk.injEq, Option.map_eq_none_iff] at h
        obtain ⟨xs, rfl, hlength, hxs, hrest⟩ := stopped_of_readTail (Prod.ext h.1 h.2)
        simp only [UInt8.le_iff_toNat_le, Bool.and_eq_true, decide_eq_true_eq] at hd
        refine ⟨b :: d :: xs, rfl, by simp, Or.inl ?_, ?_⟩
        · exact (begins_lead_iff hb hs d xs).mpr ⟨hd, by omega, hxs⟩
        · rintro next more rfl es hbegins
          have hnext := ((begins_lead_iff hb hs d _).mp hbegins).2.2 next (by simp)
          rw [hrest next rfl] at hnext
          cases hnext
      · simp only [hd] at h
        cases h
        refine ⟨[b], rfl, by simp, Or.inr rfl, ?_⟩
        rintro next more heq es hbegins
        obtain ⟨rfl, rfl⟩ := List.cons.inj heq
        have hrange := ((begins_lead_iff hb hs d es).mp hbegins).1
        simp [UInt8.le_iff_toNat_le, hrange] at hd

theorem badPart_of_head (h : head b bs = (none, rest)) :
    ∃ part, b :: bs = part ++ rest ∧ BadPart part rest := by
  obtain ⟨part, heq, hne, hbegin, hlongest⟩ := reach_of_head h
  refine ⟨part, heq, fun c => heq ▸ noCharacter_of_head h c, hne, hbegin, ?_⟩
  rintro (_ | ⟨next, ds⟩) hmore ⟨tail, rfl⟩
  · exact absurd rfl hmore
  · exact hlongest next (ds ++ tail) rfl ds

end Reading

variable {part part' rest rest' : List UInt8}

/-- A part that goes beyond a bad part is none. -/
theorem BadPart.append_eq_nil (h : BadPart part (rest' ++ rest)) (h' : BadPart (part ++ rest') rest) :
    rest' = [] := by
  by_contra hne
  rcases h'.beginning with hbegins | hlength
  · exact h.longest rest' hne (List.prefix_append _ _) hbegins
  · have hpart := List.length_pos_iff.mpr h.nonempty
    have hrest := List.length_pos_iff.mpr hne
    rw [List.length_append] at hlength
    omega

theorem BadPart.unique (h : BadPart part rest) (h' : BadPart part' rest')
    (heq : part ++ rest = part' ++ rest') : rest = rest' := by
  rcases List.append_eq_append_iff.mp heq with ⟨more, rfl, rfl⟩ | ⟨more, rfl, rfl⟩
  · rw [h.append_eq_nil h', List.nil_append]
  · rw [h'.append_eq_nil h, List.nil_append]

theorem BadPart.head {b : UInt8} {bs : List UInt8} (h : BadPart (b :: bs) rest) :
    head b (bs ++ rest) = (none, rest) := by
  cases hhead : Utf8.head b (bs ++ rest) with
  | mk answer rest' =>
    cases answer with
    | some c =>
      have hc := head_eq_some hhead
      exact absurd ⟨rest', hc.symm⟩ (h.noCharacter c)
    | none =>
      obtain ⟨part, heq, hpart⟩ := badPart_of_head hhead
      rw [h.unique hpart heq]

/-! ## Texts -/

theorem patched_parts (bs : List UInt8) : Patched bs ((parts bs).map fun p => p.getD replacement) := by
  induction bs using parts.induct with
  | case1 => simpa [parts] using Patched.nil
  | case2 b bs ih =>
    rw [parts, List.map_cons]
    cases hhead : head b bs with
    | mk answer rest =>
      rw [hhead] at ih
      cases answer with
      | some c =>
        rw [head_eq_some hhead]
        exact .character c ih
      | none =>
        obtain ⟨part, heq, hpart⟩ := badPart_of_head hhead
        rw [heq]
        exact .bad hpart ih

theorem Patched.eq_parts {bs : List UInt8} {cs : List Char} (h : Patched bs cs) :
    (parts bs).map (fun p => p.getD replacement) = cs := by
  induction h with
  | nil => simp [parts]
  | @character c rest cs h ih =>
    obtain ⟨b, bs, henc, hhead⟩ := head_utf8EncodeChar c rest
    rw [henc, List.cons_append, parts, hhead, List.map_cons, ih]
    rfl
  | @bad part rest cs hpart h ih =>
    cases part with
    | nil => exact absurd rfl hpart.nonempty
    | cons b bs =>
      rw [List.cons_append, parts, hpart.head, List.map_cons, ih]
      rfl

/-- The lossy reader replaces each bad part, and does nothing else. -/
theorem decodeLossy_eq_iff_patched {bs : List UInt8} {s : String} :
    decodeLossy bs = s ↔ Patched bs s.toList := by
  constructor
  · rintro rfl
    rw [decodeLossy, String.toList_ofList]
    exact patched_parts bs
  · intro h
    have hparts := h.eq_parts
    rw [decodeLossy, ← String.ofList_toList (s := s), ← hparts]
    rfl

/-- Bytes that are no text leave a replacement character. -/
theorem replacement_mem_decodeLossy {bs : List UInt8} (h : ∀ s, bs ≠ encode s) :
    replacement ∈ (decodeLossy bs).toList := by
  by_contra hmem
  exact h _ ((decodeLossy_eq_iff hmem).mp rfl)

end Utf8
end Leasehold
