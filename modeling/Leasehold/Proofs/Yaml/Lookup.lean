import Leasehold.Proofs.Text.Pieces
import Leasehold.Yaml.Document

/-!
# Where paths lead

A path leads from a value to another one, key by key through mappings, and
past the tags on the way. Look-ups find just what a path leads to. A path that
is put together from two leads where the second one leads from what the first
one leads to.
-/

namespace Leasehold
namespace Yaml
namespace Value

/-- Keys lead from a value to another one: each is the key of an entry, the first of its name, and
tags on the way do not count. -/
inductive Leads : Value → List String → Value → Prop
  | here (v : Value) : Leads v [] v
  | tagged {tag key : String} {v found : Value} {keys : List String} (h : Leads v (key :: keys) found) :
      Leads (tagged tag v) (key :: keys) found
  | entry {before after : List (Value × Value)} {key : String} {v found : Value} {keys : List String}
      (hfirst : ∀ e ∈ before, e.1 ≠ string key) (h : Leads v keys found) :
      Leads (mapping (before ++ (string key, v) :: after)) (key :: keys) found

/-- Keys lead to a whole number without a minus sign, tagged or not. -/
def Tells (v : Value) (keys : List String) (n : Nat) : Prop :=
  ∃ found, v.Leads keys found ∧ found.untagged = number (.natural n)

/-- Keys lead to a text, tagged or not. -/
def Says (v : Value) (keys : List String) (text : String) : Prop :=
  ∃ found, v.Leads keys found ∧ found.untagged = string text

variable {v found : Value} {key : String} {keys : List String}

theorem entry?_cons_self (key : String) (v : Value) (rest : List (Value × Value)) :
    entry? key ((string key, v) :: rest) = some v := if_pos rfl

theorem entry?_cons_of_ne {e : Value × Value} (h : e.1 ≠ string key) (rest : List (Value × Value)) :
    entry? key (e :: rest) = entry? key rest := by
  obtain ⟨k, v⟩ := e
  cases k with
  | string k => exact if_neg fun hk => h (congrArg string hk)
  | _ => rfl

theorem entry?_append_of_ne {before : List (Value × Value)} (h : ∀ e ∈ before, e.1 ≠ string key)
    (rest : List (Value × Value)) : entry? key (before ++ rest) = entry? key rest := by
  induction before with
  | nil => rfl
  | cons e before ih =>
    rw [List.cons_append, entry?_cons_of_ne (h e List.mem_cons_self)]
    exact ih fun e he => h e (List.mem_cons_of_mem _ he)

theorem entry?_eq_some {entries : List (Value × Value)} :
    entry? key entries = some v ↔
      ∃ before after, entries = before ++ (string key, v) :: after ∧ ∀ e ∈ before, e.1 ≠ string key := by
  constructor
  · intro h
    induction entries with
    | nil => cases h
    | cons e rest ih =>
      by_cases hkey : e.1 = string key
      · obtain ⟨_, v'⟩ := e
        obtain rfl : _ = string key := hkey
        obtain rfl : v' = v := by rwa [entry?_cons_self, Option.some.injEq] at h
        exact ⟨[], rest, rfl, nofun⟩
      · rw [entry?_cons_of_ne hkey] at h
        obtain ⟨before, after, rfl, hbefore⟩ := ih h
        exact ⟨e :: before, after, rfl, List.forall_mem_cons.mpr ⟨hkey, hbefore⟩⟩
  · rintro ⟨before, after, rfl, hbefore⟩
    rw [entry?_append_of_ne hbefore, entry?_cons_self]

theorem leads_cons_iff :
    Leads v (key :: keys) found ↔ ∃ inner, v.get? key = some inner ∧ inner.Leads keys found := by
  induction v using untagged.induct with
  | case1 tag v ih =>
    have hget : (tagged tag v).get? key = v.get? key := rfl
    rw [hget, ← ih]
    exact ⟨fun h => by cases h; assumption, .tagged⟩
  | case2 v huntagged =>
    constructor
    · intro h
      cases h with
      | tagged => exact absurd rfl (huntagged _ _)
      | entry hfirst h => exact ⟨_, entry?_eq_some.mpr ⟨_, _, rfl, hfirst⟩, h⟩
    · rintro ⟨inner, hget, h⟩
      cases v with
      | mapping entries =>
        obtain ⟨before, after, rfl, hfirst⟩ := entry?_eq_some.mp hget
        exact .entry hfirst h
      | tagged tag v => exact absurd rfl (huntagged tag v)
      | _ => cases hget

theorem follow?_eq_some {keys : List (List Char)} :
    v.follow? keys = some found ↔ v.Leads (keys.map String.ofList) found := by
  induction keys generalizing v with
  | nil =>
    constructor
    · rintro ⟨⟩
      exact .here found
    · rintro ⟨⟩
      rfl
  | cons key keys ih =>
    rw [List.map_cons, leads_cons_iff, follow?]
    cases v.get? (String.ofList key) with
    | none => simp
    | some inner => simpa using ih

theorem lookup?_eq_some {path : String} :
    v.lookup? path = some found ↔ v.Leads (Pieces.texts '.' path) found :=
  follow?_eq_some

theorem natural?_eq_some {n : Nat} : v.natural? = some n ↔ v.untagged = number (.natural n) := by
  unfold natural?
  split
  · next h => simp [h]
  · next h => exact iff_of_false nofun fun heq => h n heq

theorem lookup_natural_eq_some {path : String} {n : Nat} :
    (v.lookup? path).bind natural? = some n ↔ v.Tells (Pieces.texts '.' path) n := by
  simp only [Option.bind_eq_some_iff, lookup?_eq_some, natural?_eq_some, Tells]

theorem string?_eq_some {text : String} : v.string? = some text ↔ v.untagged = string text := by
  unfold string?
  split
  · next h => simp [h]
  · next h => exact iff_of_false nofun fun heq => h text heq

theorem lookup_string_eq_some {path text : String} :
    (v.lookup? path).bind string? = some text ↔ v.Says (Pieces.texts '.' path) text := by
  simp only [Option.bind_eq_some_iff, lookup?_eq_some, string?_eq_some, Says]

/-! ## Paths put together -/

theorem follow?_append (v : Value) (keys more : List (List Char)) :
    v.follow? (keys ++ more) = (v.follow? keys).bind fun inner => inner.follow? more := by
  induction keys generalizing v with
  | nil => rfl
  | cons key keys ih =>
    rw [List.cons_append, follow?, follow?]
    cases v.get? (String.ofList key) with
    | none => rfl
    | some inner => exact ih inner

theorem lookup?_append (v : Value) (p q : String) :
    v.lookup? (p ++ "." ++ q) = (v.lookup? p).bind fun inner => inner.lookup? q := by
  have hsegments : segments (p ++ "." ++ q).toList = segments p.toList ++ segments q.toList := by
    rw [String.toList_append, String.toList_append, List.append_assoc]
    exact Pieces.split_append '.' p.toList q.toList
  rw [lookup?, hsegments, follow?_append]
  rfl

/-- A key without a dot is a path of one part. -/
theorem lookup?_of_not_mem {key : String} (h : '.' ∉ key.toList) : v.lookup? key = v.get? key := by
  rw [lookup?, segments, Pieces.split_of_not_mem h, follow?, String.ofList_toList]
  cases v.get? key <;> rfl

theorem lookup?_eq_some_iff_keys {path : String} :
    v.lookup? path = some found ↔
      ∃ keys, keys ≠ [] ∧ (∀ key ∈ keys, '.' ∉ key.toList) ∧ ".".intercalate keys = path ∧
        v.Leads keys found := by
  rw [lookup?_eq_some]
  constructor
  · intro h
    obtain ⟨hne, hkeys, hpath⟩ := Pieces.texts_eq_iff.mp (Eq.refl (Pieces.texts '.' path))
    exact ⟨_, hne, hkeys, hpath, h⟩
  · rintro ⟨keys, hne, hkeys, hpath, h⟩
    rwa [Pieces.texts_eq_iff.mpr ⟨hne, hkeys, hpath⟩]

/-- A path put together from two is followed along the one and then along the other, whatever the two
are. A key without a dot is looked up just as it is, with the same line where it is missing. And a
value is found at a path just when the texts between its dots lead to it, each through a mapping that
has the text as a key. -/
theorem lookup_composes (v : Value) :
    (∀ p q : String, v.lookup? (p ++ "." ++ q) = (v.lookup? p).bind fun inner => inner.lookup? q) ∧
    (∀ key : String, '.' ∉ key.toList →
      v.lookup? key = v.get? key ∧ (v.get key).1 = v.lookup? key ∧ v.lookup key = v.get key) ∧
    ∀ (path : String) (found : Value), v.lookup? path = some found ↔
      ∃ keys, keys ≠ [] ∧ (∀ key ∈ keys, '.' ∉ key.toList) ∧ ".".intercalate keys = path ∧
        v.Leads keys found := by
  refine ⟨v.lookup?_append, fun key hkey => ?_, fun path found => lookup?_eq_some_iff_keys⟩
  have hsame : v.lookup? key = v.get? key := lookup?_of_not_mem hkey
  refine ⟨hsame, hsame.symm, ?_⟩
  rw [lookup, get, hsame]

/-- An empty key between two dots is a key like any other. -/
theorem lookup_composes_empty_key :
    let inner := mapping [(string "", mapping [(string "b", bool true)])]
    let v := tagged "t" (mapping [(string "a", inner)])
    '.' ∉ "a".toList ∧ v.lookup? "a" = some inner ∧ v.lookup? "a..b" = some (bool true) ∧
      v.lookup? ("a." ++ "." ++ "b") = (v.lookup? "a.").bind fun found => found.lookup? "b" := by
  intro inner v
  obtain ⟨happend, hkey, hpath⟩ := lookup_composes v
  have hdot : '.' ∉ "a".toList := by decide
  have hleads : v.Leads ["a", "", "b"] (bool true) :=
    .tagged (@Leads.entry [] [] _ _ _ _ nofun
      (@Leads.entry [] [] _ _ _ _ nofun (@Leads.entry [] [] _ _ _ _ nofun (.here _))))
  refine ⟨hdot, (hkey "a" hdot).1, (hpath _ _).mpr ⟨_, List.cons_ne_nil _ _, ?_, ?_, hleads⟩, happend "a." "b"⟩
  · decide
  · decide

end Value
end Yaml
end Leasehold
