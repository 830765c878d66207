import Leasehold.Proofs.Yaml.Lookup
import Mathlib.Tactic.SplitIfs

/-!
# Numbers that fit

A whole number that needs more than 64 bits is no value: nothing that is read
holds one. So where a path leads to a whole number in a document, it fits a
word.
-/

namespace Leasehold
namespace Yaml

/-- A whole number without a minus sign fits a word of 64 bits. -/
def Number.Fits : Number → Prop
  | natural n => n < 18446744073709551616
  | _ => True

namespace Value

/-- All whole numbers below a value fit; keys do not count. -/
inductive Fits : Value → Prop
  | null : Fits null
  | bool (b : Bool) : Fits (bool b)
  | number {n : Number} (h : n.Fits) : Fits (number n)
  | string (s : String) : Fits (string s)
  | sequence {items : List Value} (h : ∀ v ∈ items, Fits v) : Fits (sequence items)
  | mapping {entries : List (Value × Value)} (h : ∀ e ∈ entries, Fits e.2) : Fits (mapping entries)
  | tagged (tag : String) {v : Value} (h : Fits v) : Fits (tagged tag v)

variable {v found : Value} {keys : List String}

theorem Leads.fits (h : v.Leads keys found) (hv : v.Fits) : found.Fits := by
  induction h with
  | here => exact hv
  | tagged _ ih =>
    cases hv with
    | tagged _ hv => exact ih hv
  | entry _ _ ih =>
    cases hv with
    | mapping hentries => exact ih (hentries _ (List.mem_append_right _ List.mem_cons_self))

theorem Fits.untagged (h : v.Fits) : v.untagged.Fits := by
  induction h with
  | tagged _ _ ih => exact ih
  | null => exact .null
  | bool b => exact .bool b
  | number h => exact .number h
  | string s => exact .string s
  | sequence h => exact .sequence h
  | mapping h => exact .mapping h

theorem Tells.lt {n : Nat} (h : v.Tells keys n) (hv : v.Fits) : n < 18446744073709551616 := by
  obtain ⟨found, hleads, hnumber⟩ := h
  have hfound := (hleads.fits hv).untagged
  rw [hnumber] at hfound
  cases hfound with
  | number h => exact h

end Value

/-! ## Scalars -/

namespace Meaning

theorem ofWhole?_fits {whole : Bool × Nat} {n : Number} (h : ofWhole? whole = some (number n)) : n.Fits := by
  obtain ⟨negative, m⟩ := whole
  cases negative with
  | false =>
    simp only [ofWhole?] at h
    split_ifs at h with hm hwide <;> cases h
    exact hm
  | true =>
    simp only [ofWhole?] at h
    split_ifs at h with hm hwide <;> cases h
    unfold Number.ofInt
    split_ifs with hzero
    · -- only zero loses its minus sign
      show (-(m : Int)).toNat < 18446744073709551616
      omega
    · trivial

theorem wholeNumber?_fits {cs : List Char} {n : Number} (h : wholeNumber? cs = some (number n)) : n.Fits := by
  obtain ⟨whole, -, hwhole⟩ := Option.bind_eq_some_iff.mp h
  exact ofWhole?_fits hwhole

theorem ofPlain_fits {cs : List Char} {n : Number} (h : ofPlain cs = number n) : n.Fits := by
  unfold ofPlain at h
  split at h
  · cases h
  · split at h
    · cases h
    · split at h
      · next m hwhole => exact wholeNumber?_fits (h ▸ hwhole)
      · split at h
        · cases h
        · split at h <;> cases h
          trivial

end Meaning

namespace Node

variable {text : String} {v : Value}

theorem plainValue?_fits (h : plainValue? text = some v) : v.Fits := by
  unfold plainValue? at h
  split at h <;> cases h
  · exact .null
  · exact .bool _
  · next hmeaning => exact .number (Meaning.ofPlain_fits hmeaning)
  · exact .string text

theorem commonValue?_fits {tag : CommonTag} (h : commonValue? text tag = some v) : v.Fits := by
  unfold commonValue? at h
  split at h
  · obtain ⟨b, -, rfl⟩ := Option.map_eq_some_iff.mp h
    exact .bool b
  · split at h
    · next hwhole =>
      cases h
      exact .number (Meaning.wholeNumber?_fits hwhole)
    · cases h
  · obtain ⟨x, -, rfl⟩ := Option.map_eq_some_iff.mp h
    exact .number trivial
  · split_ifs at h
    cases h
    exact .null

theorem scalarValue?_fits {named : Bool} {tag : Option (List UInt8)} {form : Form}
    (h : scalarValue? named tag text form = some v) : v.Fits := by
  have hplain : ∀ {p : Prop} [Decidable p],
      (if p then plainValue? text else some (.string text)) = some v → v.Fits := by
    intro p _ h
    split_ifs at h
    · exact plainValue?_fits h
    · cases h
      exact .string text
  unfold scalarValue? at h
  split at h
  · exact hplain h
  · split at h
    · exact commonValue?_fits h
    · exact hplain h

end Node

/-! ## Documents -/

namespace Document

section Collections

variable {value? : Node → Nat → Option (Value × Nat)} {jumps jumps' : Nat}

theorem itemValues?_fits (hvalue : ∀ {n jumps v jumps'}, value? n jumps = some (v, jumps') → v.Fits)
    {nodes : List Node} {items : List Value} (h : itemValues? value? nodes jumps = some (items, jumps')) :
    ∀ v ∈ items, v.Fits := by
  induction nodes generalizing jumps items with
  | nil =>
    cases h
    exact nofun
  | cons n rest ih =>
    unfold itemValues? at h
    split at h
    · cases h
    · next hfirst =>
      obtain ⟨⟨vs, _⟩, hrest, heq⟩ := Option.map_eq_some_iff.mp h
      cases heq
      exact List.forall_mem_cons.mpr ⟨hvalue hfirst, ih hrest⟩

theorem entryValues?_fits (hvalue : ∀ {n jumps v jumps'}, value? n jumps = some (v, jumps') → v.Fits)
    {nodes : List (Node × Node)} {entries found : List (Value × Value)}
    (h : entryValues? value? nodes entries jumps = some (found, jumps')) (hentries : ∀ e ∈ entries, e.2.Fits) :
    ∀ e ∈ found, e.2.Fits := by
  induction nodes generalizing jumps entries with
  | nil =>
    cases h
    exact hentries
  | cons n rest ih =>
    unfold entryValues? at h
    split at h
    · cases h
    · split_ifs at h
      split at h
      · cases h
      · next hvalue' =>
        refine ih h fun e he => ?_
        rcases List.mem_append.mp he with he | he
        · exact hentries e he
        · rw [List.mem_singleton.mp he]
          exact hvalue hvalue'

end Collections

theorem underTag?_fits {tag : Option String} {value found : Value × Nat}
    (h : underTag? tag value = some found) (hvalue : value.1.Fits) : found.1.Fits := by
  unfold underTag? at h
  split at h <;> cases h
  · exact hvalue
  · exact .tagged _ hvalue

variable {d : Document}

theorem nodeValue?_fits {depth : Nat} {node : Node} {jumps jumps' : Nat} {v : Value}
    (h : d.nodeValue? depth node jumps = some (v, jumps')) : v.Fits := by
  induction depth using Nat.strongRecOn generalizing node jumps v jumps' with
  | ind depth ih =>
    unfold nodeValue? at h
    split at h
    · cases h
    · cases h
    · dsimp only at h
      split at h
      · cases h
      · next hscalar => exact underTag?_fits h (Node.scalarValue?_fits hscalar)
    · split at h
      · cases h
      · next inner =>
        split at h
        · cases h
        · next hitems =>
          exact underTag?_fits h (.sequence (itemValues?_fits (ih inner (Nat.lt_succ_self inner)) hitems))
    · split at h
      · cases h
      · next inner =>
        split at h
        · cases h
        · next hentries =>
          exact underTag?_fits h
            (.mapping (entryValues?_fits (ih inner (Nat.lt_succ_self inner)) hentries nofun))

theorem value?_fits {v : Value} (h : d.value? = some v) : v.Fits := by
  unfold value? at h
  split at h
  · cases h
    exact .null
  · obtain ⟨⟨v, jumps⟩, hroot, rfl⟩ := Option.map_eq_some_iff.mp h
    exact nodeValue?_fits hroot

end Document

theorem value?_fits {text : String} {v : Value} (h : value? text = some v) : v.Fits := by
  unfold value? at h
  split at h
  · exact Document.value?_fits h
  · cases h

end Yaml
end Leasehold
