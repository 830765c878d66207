import Leasehold.Text.Pieces

/-!
# Pieces put together

Cutting a text at a separator and putting pieces together with it undo each
other, as long as the separator stands in no piece. So a text that is put
together from two has the pieces of the one and then those of the other.
-/

namespace Leasehold
namespace Pieces

variable {separator : Char}

theorem split_eq_splitOn (separator : Char) (cs : List Char) :
    split separator cs = cs.splitOn separator := by
  induction cs with
  | nil => rfl
  | cons c cs ih =>
    obtain ⟨p, ps, hpieces⟩ := List.exists_cons_of_ne_nil (split_ne_nil separator cs)
    rw [List.splitOn_cons_eq_if_modifyHead, ← ih, split, hpieces]
    by_cases hc : c = separator
    · rw [if_pos hc, if_pos (beq_iff_eq.mpr hc)]
    · rw [if_neg hc, if_neg (mt beq_iff_eq.mp hc)]
      rfl

/-- A separator between two texts ends a piece of the first and begins one of the second. -/
theorem split_append (separator : Char) (as bs : List Char) :
    split separator (as ++ separator :: bs) = split separator as ++ split separator bs := by
  simp only [split_eq_splitOn]
  exact List.splitOn_append_cons_self as bs

theorem split_of_not_mem {cs : List Char} (h : separator ∉ cs) : split separator cs = [cs] := by
  rw [split_eq_splitOn]
  exact List.splitOn_eq_singleton h

theorem not_mem_of_mem_split {cs p : List Char} (h : p ∈ split separator cs) : separator ∉ p := by
  induction cs generalizing p with
  | nil =>
    rw [List.mem_singleton.mp h]
    exact List.not_mem_nil
  | cons c cs ih =>
    rw [split] at h
    split at h
    · rcases List.mem_cons.mp h with rfl | h
      · exact List.not_mem_nil
      · exact ih h
    · next hc =>
      obtain ⟨first, rest, hpieces⟩ := List.exists_cons_of_ne_nil (split_ne_nil separator cs)
      rw [hpieces] at h ih
      rcases List.mem_cons.mp h with rfl | h
      · exact List.not_mem_cons_of_ne_of_not_mem (Ne.symm hc) (ih List.mem_cons_self)
      · exact ih (List.mem_cons_of_mem first h)

theorem map_toList_ofList (pieces : List (List Char)) :
    (pieces.map String.ofList).map String.toList = pieces := by
  rw [List.map_map]
  exact List.map_id'' (fun _ => String.toList_ofList) pieces

theorem intercalate_texts (separator : Char) (s : String) :
    (String.singleton separator).intercalate (texts separator s) = s := by
  apply String.toList_injective
  rw [String.toList_intercalate, String.toList_singleton, texts, map_toList_ofList, split_eq_splitOn]
  exact List.intercalate_splitOn separator

/-- The pieces of a text are the only texts without the separator that it is put together from. -/
theorem texts_eq_iff {s : String} {pieces : List String} :
    texts separator s = pieces ↔
      pieces ≠ [] ∧ (∀ p ∈ pieces, separator ∉ p.toList) ∧
        (String.singleton separator).intercalate pieces = s := by
  constructor
  · rintro rfl
    refine ⟨mt List.map_eq_nil_iff.mp (split_ne_nil _ _), fun p hp => ?_, intercalate_texts separator s⟩
    obtain ⟨cs, hcs, rfl⟩ := List.mem_map.mp hp
    rw [String.toList_ofList]
    exact not_mem_of_mem_split hcs
  · rintro ⟨hne, hpieces, rfl⟩
    have hsplit : split separator ((String.singleton separator).intercalate pieces).toList =
        pieces.map String.toList := by
      rw [split_eq_splitOn, String.toList_intercalate, String.toList_singleton]
      refine List.splitOn_intercalate separator (fun cs hcs => ?_) (mt List.map_eq_nil_iff.mp hne)
      obtain ⟨p, hp, rfl⟩ := List.mem_map.mp hcs
      exact hpieces p hp
    rw [texts, hsplit, List.map_map]
    exact List.map_id'' (fun _ => String.ofList_toList) pieces

end Pieces
end Leasehold
