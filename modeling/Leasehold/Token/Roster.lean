import Leasehold.Token

/-!
# Token names

A roster gives tokens names, so that a text can speak of a token before it is
drawn and be compared after it. The name of `a` is written `$a`. No token looks
like a name, so a text that has been resolved means the same when it is
resolved again; and a masked text differs from the text only where a token
stands in it.
-/

namespace Leasehold

/-- Named tokens, the latest first. -/
structure Roster where
  entries : List (String × Token)

namespace Roster

def empty : Roster := ⟨[]⟩

variable (r : Roster)

def insert (name : String) (token : Token) : Roster := ⟨(name, token) :: r.entries⟩

def find? (name : String) : Option Token := r.entries.lookup name

/-- The token that the text names, or else the text itself. -/
def resolve (text : String) : String :=
  match text.toList with
  | '$' :: name =>
    match r.find? (String.ofList name) with
    | some token => token.text
    | none => text
  | _ => text

/-- The first entry whose token starts the characters, with the characters after it. -/
def match? (cs : List Char) : List (String × Token) → Option (String × List Char)
  | [] => none
  | (name, token) :: rest =>
    if token.text.toList.isPrefixOf cs then some (name, cs.drop Token.length)
    else match? cs rest

/-- Writes names for tokens in at most `fuel` characters. -/
def maskFrom (entries : List (String × Token)) : Nat → List Char → List Char
  | 0, cs => cs
  | _ + 1, [] => []
  | fuel + 1, c :: cs =>
    match match? (c :: cs) entries with
    | some (name, rest) => '$' :: name.toList ++ maskFrom entries fuel rest
    | none => c :: maskFrom entries fuel cs

/-- The text with every token in it replaced by its name. -/
def mask (text : String) : String :=
  String.ofList (maskFrom r.entries text.length text.toList)

variable {r} {name text : String} {token : Token} {entries : List (String × Token)} {cs rest : List Char}

theorem find?_insert (r : Roster) (name : String) (token : Token) :
    (r.insert name token).find? name = some token := by
  simp [find?, insert]

theorem resolve_name (r : Roster) (name : String) (token : Token) :
    (r.insert name token).resolve ("$" ++ name) = token.text := by
  have hchars : ("$" ++ name).toList = '$' :: name.toList := String.toList_append
  simp only [resolve, hchars, String.ofList_toList, find?_insert]

theorem resolve_eq_self (h : text.toList.head? ≠ some '$') : r.resolve text = text := by
  unfold resolve
  split
  · next hchars => exact absurd (congrArg List.head? hchars) h
  · rfl

/-- Letters and digits are no name. -/
theorem resolve_token (r : Roster) (token : Token) : r.resolve token.text = token.text := by
  refine resolve_eq_self fun hhead => ?_
  have hmark := List.all_eq_true.mp token.alphanumeric '$' (List.mem_of_head? hhead)
  exact absurd hmark (by decide)

theorem resolve_cases (r : Roster) (text : String) :
    r.resolve text = text ∨ ∃ token : Token, r.resolve text = token.text := by
  unfold resolve
  split
  · split
    · next token _ => exact Or.inr ⟨token, rfl⟩
    · exact Or.inl rfl
  · exact Or.inl rfl

theorem resolve_resolve (r : Roster) (text : String) : r.resolve (r.resolve text) = r.resolve text := by
  rcases r.resolve_cases text with h | ⟨token, h⟩
  · rw [h, h]
  · rw [h, resolve_token]

/-- The second text is the first one with names in the place of some tokens. -/
inductive Masked (entries : List (String × Token)) : List Char → List Char → Prop
  | nil : Masked entries [] []
  | keep (c : Char) {cs ds : List Char} (h : Masked entries cs ds) : Masked entries (c :: cs) (c :: ds)
  | name {name : String} {token : Token} {cs ds : List Char} (hentry : (name, token) ∈ entries)
      (h : Masked entries cs ds) : Masked entries (token.text.toList ++ cs) ('$' :: name.toList ++ ds)

theorem Masked.refl (entries : List (String × Token)) (cs : List Char) : Masked entries cs cs := by
  induction cs with
  | nil => exact .nil
  | cons c cs ih => exact .keep c ih

theorem match?_eq_some (h : match? cs entries = some (name, rest)) :
    ∃ token : Token, (name, token) ∈ entries ∧ cs = token.text.toList ++ rest := by
  induction entries with
  | nil => cases h
  | cons entry entries ih =>
    obtain ⟨key, token⟩ := entry
    unfold match? at h
    split at h
    · next hstarts =>
      obtain ⟨rfl, rfl⟩ := Prod.mk.inj (Option.some.inj h)
      obtain ⟨after, rfl⟩ := List.isPrefixOf_iff_prefix.mp hstarts
      have hlength : token.text.toList.length = Token.length := token.length_eq
      exact ⟨token, List.mem_cons_self, by rw [← hlength, List.drop_left]⟩
    · obtain ⟨other, hentry, hcs⟩ := ih h
      exact ⟨other, List.mem_cons_of_mem _ hentry, hcs⟩

theorem masked_maskFrom (entries : List (String × Token)) (fuel : Nat) (cs : List Char) :
    Masked entries cs (maskFrom entries fuel cs) := by
  induction fuel generalizing cs with
  | zero => exact .refl entries cs
  | succ fuel ih =>
    match cs with
    | [] => exact .nil
    | c :: cs =>
      unfold maskFrom
      split
      · next name rest hmatch =>
        obtain ⟨token, hentry, hcs⟩ := match?_eq_some hmatch
        rw [hcs]
        exact .name hentry (ih rest)
      · exact .keep c (ih cs)

theorem masked_mask (r : Roster) (text : String) : Masked r.entries text.toList (r.mask text).toList := by
  rw [mask, String.toList_ofList]
  exact masked_maskFrom r.entries _ _

theorem match?_self (name : String) (token : Token) (entries : List (String × Token)) :
    match? token.text.toList ((name, token) :: entries) = some (name, []) := by
  have hlength : token.text.toList.length = Token.length := token.length_eq
  have hself : token.text.toList.isPrefixOf token.text.toList = true :=
    List.isPrefixOf_iff_prefix.mpr List.prefix_rfl
  simp only [match?, hself, if_true, ← hlength, List.drop_length]

/-- A token is masked by the latest name of it, and this is resolved to the token. -/
theorem mask_token (r : Roster) (name : String) (token : Token) :
    (r.insert name token).mask token.text = "$" ++ name := by
  have hchars : ("$" ++ name).toList = '$' :: name.toList := String.toList_append
  have hlength : token.text.toList.length = 16 := token.length_eq
  have hmask : maskFrom (r.insert name token).entries token.text.length token.text.toList =
      '$' :: name.toList := by
    rw [token.length_eq]
    have hpos : 0 < token.text.toList.length := by omega
    obtain ⟨c, cs, hcs⟩ := List.exists_cons_of_length_pos hpos
    have hself := match?_self name token r.entries
    rw [hcs] at hself ⊢
    simp only [maskFrom, insert, hself, List.append_nil]
  rw [mask, hmask, ← hchars, String.ofList_toList]

end Roster
end Leasehold
