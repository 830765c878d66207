import Leasehold.Files.Search
import Mathlib.Data.List.Nodup

/-!
# Trees of files and folders

What a tree lists at a location, and which folders above it can be entered.
The two have nothing to do with each other: a folder that cannot be listed may
be entered, and one that is listed may be closed.
-/

namespace Leasehold
namespace Files

namespace Location

variable {p q : Location}

def Below (p folder : Location) : Prop := ∃ name more, p = folder ++ name :: more

@[simp] theorem not_nil_below (folder : Location) : ¬ Below [] folder := by
  rintro ⟨name, more, h⟩
  simp at h

@[simp] theorem cons_below_nil (name : String) (p : Location) : Below (name :: p) [] := ⟨name, p, rfl⟩

@[simp] theorem cons_below_cons {a b : String} : Below (a :: p) (b :: q) ↔ a = b ∧ p.Below q := by
  simp [Below]

end Location

namespace Item

/-- A name that an entry can have. -/
structure IsName (name : String) : Prop where
  ne_empty : name ≠ ""
  ne_dot : name ≠ "."
  ne_dots : name ≠ ".."
  le : name.utf8ByteSize ≤ Disk.nameLimit

/-- Entries have names, and no folder has two entries of one name. -/
inductive Tidy : Item → Prop
  | file (number : Nat) (packed : Bool) (content : List UInt8) : Tidy (file number packed content)
  | folder {rights : Rights} {entries : List (String × Item)} (hdistinct : (entries.map (·.1)).Nodup)
      (hnames : ∀ e ∈ entries, IsName e.1) (hentries : ∀ e ∈ entries, Tidy e.2) : Tidy (folder rights entries)

/-- What is at a location, below folders that can be listed. -/
inductive Listed : Item → Location → Item → Prop
  | here (item : Item) : Listed item [] item
  | inside {rights : Rights} {entries : List (String × Item)} {name : String} {item found : Item}
      {place : Location} (hlist : rights.list = true) (hentry : (name, item) ∈ entries)
      (h : Listed item place found) : Listed (folder rights entries) (name :: place) found

/-- All folders above a location can be entered. -/
inductive Entered : Item → Location → Prop
  | here (item : Item) : Entered item []
  | inside {rights : Rights} {entries : List (String × Item)} {name : String} {item : Item}
      {place : Location} (henter : rights.enter = true) (hentry : (name, item) ∈ entries)
      (h : Entered item place) : Entered (folder rights entries) (name :: place)

/-- The tree where the folder at a location cannot be listed. -/
def hide : Location → Item → Item
  | [], folder rights entries => folder { rights with list := false } entries
  | name :: rest, folder rights entries =>
    folder rights (entries.map fun e => (e.1, if e.1 = name then hide rest e.2 else e.2))
  | _, file number packed content => file number packed content

variable {item inner found holder : Item} {name : String} {place front : Location}

theorem mem_entries_iff {e : String × Item} :
    e ∈ item.entries ↔ e ∈ item.content ∧ ∃ rights content, item = folder rights content ∧ rights.list = true := by
  cases item with
  | file => simp [entries, content]
  | folder rights content =>
    by_cases hlist : rights.list = true
    · simp [entries, Item.content, hlist]
    · simp [entries, hlist]

theorem mem_content_of_mem_entries {e : String × Item} (h : e ∈ item.entries) : e ∈ item.content :=
  (mem_entries_iff.mp h).1

theorem entries_sublist (item : Item) : item.entries.Sublist item.content := by
  cases item with
  | file => exact .slnil
  | folder rights content =>
    by_cases hlist : rights.list = true
    · simp [entries, Item.content, hlist]
    · simp [entries, hlist]

theorem listed_nil_iff : Listed item [] found ↔ found = item := by
  constructor
  · rintro ⟨⟩
    rfl
  · rintro rfl
    exact .here found

theorem listed_cons_iff :
    Listed item (name :: place) found ↔ ∃ inner, (name, inner) ∈ item.entries ∧ Listed inner place found := by
  constructor
  · rintro (_ | ⟨hlist, hentry, h⟩)
    exact ⟨_, mem_entries_iff.mpr ⟨hentry, _, _, rfl, hlist⟩, h⟩
  · rintro ⟨inner, hentry, h⟩
    obtain ⟨hcontent, rights, content, rfl, hlist⟩ := mem_entries_iff.mp hentry
    exact .inside hlist hcontent h

theorem place_of_listed_file {number : Nat} {packed : Bool} {content : List UInt8}
    (h : Listed (file number packed content) place found) : place = [] := by
  cases h
  rfl

theorem listed_one {rights : Rights} {number : Nat} {packed : Bool} {content : List UInt8}
    (h : Listed (folder rights [(name, item)]) place (file number packed content)) :
    ∃ rest, place = name :: rest ∧ Listed item rest (file number packed content) := by
  rcases h with _ | ⟨-, hentry, h⟩
  obtain ⟨rfl, rfl⟩ := Prod.mk.inj (List.mem_singleton.mp hentry)
  exact ⟨_, rfl, h⟩

theorem entered_cons_iff :
    Entered item (name :: place) ↔
      item.opens = true ∧ ∃ inner, (name, inner) ∈ item.content ∧ Entered inner place := by
  constructor
  · rintro (_ | ⟨henter, hentry, h⟩)
    exact ⟨henter, _, hentry, h⟩
  · rintro ⟨hopens, inner, hentry, h⟩
    cases item with
    | file => cases hentry
    | folder rights content => exact .inside hopens hentry h

theorem Tidy.of_content (h : item.Tidy) :
    (item.content.map (·.1)).Nodup ∧ (∀ e ∈ item.content, IsName e.1) ∧ ∀ e ∈ item.content, e.2.Tidy := by
  cases h with
  | file => exact ⟨List.nodup_nil, nofun, nofun⟩
  | folder hdistinct hnames hentries => exact ⟨hdistinct, hnames, hentries⟩

theorem Tidy.unique {other : Item} (h : item.Tidy) (hinner : (name, inner) ∈ item.content)
    (hother : (name, other) ∈ item.content) : inner = other :=
  congrArg Prod.snd (List.inj_on_of_nodup_map h.of_content.1 hinner hother rfl)

theorem find?_append (item : Item) (p q : Location) :
    item.find? (p ++ q) = (item.find? p).bind fun inner => inner.find? q := by
  induction p generalizing item with
  | nil => rfl
  | cons name p ih =>
    cases item with
    | file => rfl
    | folder rights entries =>
      simp only [List.cons_append, find?]
      cases entries.lookup name with
      | none => rfl
      | some inner => exact ih inner

/-- In a tidy tree, what an entry names is what its name leads to. -/
theorem Tidy.find?_cons (h : item.Tidy) (hentry : (name, inner) ∈ item.content) (place : Location) :
    item.find? (name :: place) = inner.find? place := by
  cases item with
  | file => cases hentry
  | folder rights entries =>
    have hlookup : ∃ other, entries.lookup name = some other := by
      refine Option.ne_none_iff_exists'.mp fun hnone => ?_
      have hne := List.lookup_eq_none_iff.mp hnone _ hentry
      simp at hne
    obtain ⟨other, hlookup⟩ := hlookup
    obtain ⟨before, after, heq, -⟩ := List.lookup_eq_some_iff.mp hlookup
    have hother : (name, other) ∈ entries := heq ▸ List.mem_append_right before List.mem_cons_self
    obtain rfl := h.unique hother hentry
    simp only [find?, hlookup]

theorem Tidy.of_find? (h : item.Tidy) (hfound : item.find? place = some found) : found.Tidy := by
  induction place generalizing item with
  | nil => exact Option.some.inj hfound ▸ h
  | cons name place ih =>
    cases item with
    | file => cases hfound
    | folder rights entries =>
      simp only [find?] at hfound
      split at hfound
      · next inner hlookup =>
        obtain ⟨before, after, heq, -⟩ := List.lookup_eq_some_iff.mp hlookup
        have hentry : (name, inner) ∈ entries := heq ▸ List.mem_append_right before List.mem_cons_self
        exact ih (h.of_content.2.2 _ hentry) hfound
      · cases hfound

theorem Listed.exists_holder (h : item.Listed (front ++ [name]) found) (htidy : item.Tidy) :
    ∃ holder, item.find? front = some holder ∧ (name, found) ∈ holder.content := by
  induction front generalizing item with
  | nil =>
    obtain ⟨inner, hentry, h⟩ := listed_cons_iff.mp h
    obtain rfl := listed_nil_iff.mp h
    exact ⟨item, rfl, mem_content_of_mem_entries hentry⟩
  | cons next front ih =>
    obtain ⟨inner, hentry, h⟩ := listed_cons_iff.mp h
    have hcontent := mem_content_of_mem_entries hentry
    rw [htidy.find?_cons hcontent]
    exact ih h (htidy.of_content.2.2 _ hcontent)

theorem entered_concat_iff (htidy : item.Tidy) (hholder : item.find? front = some holder)
    (hentry : (name, inner) ∈ holder.content) :
    item.Entered (front ++ [name]) ↔ item.Entered front ∧ holder.opens = true := by
  induction front generalizing item with
  | nil =>
    obtain rfl : item = holder := Option.some.inj hholder
    rw [List.nil_append, entered_cons_iff]
    exact ⟨fun h => ⟨.here item, h.1⟩, fun h => ⟨h.2, inner, hentry, .here inner⟩⟩
  | cons next front ih =>
    rw [List.cons_append, entered_cons_iff, entered_cons_iff, and_assoc]
    refine and_congr_right fun _ => ?_
    constructor
    · rintro ⟨nested, hnested, h⟩
      have hfind := (htidy.find?_cons hnested front).symm.trans hholder
      obtain ⟨hfront, hopens⟩ := (ih (htidy.of_content.2.2 _ hnested) hfind).mp h
      exact ⟨⟨nested, hnested, hfront⟩, hopens⟩
    · rintro ⟨⟨nested, hnested, hfront⟩, hopens⟩
      have hfind := (htidy.find?_cons hnested front).symm.trans hholder
      exact ⟨nested, hnested, (ih (htidy.of_content.2.2 _ hnested) hfind).mpr ⟨hfront, hopens⟩⟩

theorem tidy_one (hname : IsName name) (h : item.Tidy) : (folder rights [(name, item)]).Tidy :=
  .folder (by simp) (by simpa using hname) (by simpa using h)

theorem tidy_two (hname : IsName name) (hother : IsName other) (hne : name ≠ other) (h : item.Tidy)
    (h' : inner.Tidy) : (folder rights [(name, item), (other, inner)]).Tidy :=
  .folder (by simpa using hne) (by simpa using ⟨hname, hother⟩) (by simpa using ⟨h, h'⟩)

/-! ## Folders that cannot be listed -/

theorem isFolder_hide (hidden : Location) (item : Item) : (item.hide hidden).isFolder = item.isFolder := by
  cases hidden <;> cases item <;> rfl

theorem opens_hide (hidden : Location) (item : Item) : (item.hide hidden).opens = item.opens := by
  cases hidden <;> cases item <;> rfl

theorem Tidy.hide (h : item.Tidy) (hidden : Location) : (item.hide hidden).Tidy := by
  induction hidden generalizing item with
  | nil =>
    cases h with
    | file number packed content => exact .file number packed content
    | folder hdistinct hnames hentries => exact .folder hdistinct hnames hentries
  | cons name rest ih =>
    cases h with
    | file number packed content => exact .file number packed content
    | folder hdistinct hnames hentries =>
      refine .folder (by simpa [Function.comp_def] using hdistinct) ?_ fun e he => ?_
      · intro e he
        obtain ⟨entry, hentry, rfl⟩ := List.mem_map.mp he
        exact hnames entry hentry
      · obtain ⟨⟨name', inner⟩, hentry, rfl⟩ := List.mem_map.mp he
        dsimp only
        split_ifs
        · exact ih (hentries _ hentry)
        · exact hentries _ hentry

theorem mem_content_hide {name next : String} {rest : Location} {inner : Item} :
    (next, inner) ∈ (item.hide (name :: rest)).content ↔
      ∃ shown, (next, shown) ∈ item.content ∧ inner = if next = name then shown.hide rest else shown := by
  cases item with
  | file => simp [hide, content]
  | folder rights entries =>
    simp only [hide, content, List.mem_map, Prod.exists, Prod.mk.injEq]
    constructor
    · rintro ⟨_, shown, hentry, rfl, rfl⟩
      exact ⟨shown, hentry, rfl⟩
    · rintro ⟨shown, hentry, rfl⟩
      exact ⟨next, shown, hentry, rfl, rfl⟩

theorem mem_entries_hide {name next : String} {rest : Location} {inner : Item} :
    (next, inner) ∈ (item.hide (name :: rest)).entries ↔
      ∃ shown, (next, shown) ∈ item.entries ∧ inner = if next = name then shown.hide rest else shown := by
  cases item with
  | file => simp [hide, entries]
  | folder rights content =>
    have hshown : (next, inner) ∈ ((folder rights content).hide (name :: rest)).content ↔ _ := mem_content_hide
    by_cases hlist : rights.list = true
    · simpa only [entries, hide, hlist, if_true, Item.content] using hshown
    · simp [entries, hide, hlist]

/-- Only files in the hidden folder are listed no more. -/
theorem listed_hide {hidden : Location} {number : Nat} {packed : Bool} {content : List UInt8} :
    (item.hide hidden).Listed place (file number packed content) ↔
      item.Listed place (file number packed content) ∧ ¬ place.Below hidden := by
  induction hidden generalizing item place with
  | nil =>
    match place, item with
    | [], file .. => simp [hide]
    | [], folder .. => simp [hide, listed_nil_iff]
    | next :: place, file .. => simp [hide, listed_cons_iff, Item.entries]
    | next :: place, folder .. => simp [hide, listed_cons_iff, Item.entries]
  | cons name rest ih =>
    cases place with
    | nil => cases item <;> simp [hide, listed_nil_iff]
    | cons next place =>
      simp only [listed_cons_iff, mem_entries_hide, Location.cons_below_cons]
      by_cases hname : next = name
      · -- on the way to the hidden folder
        simp only [hname, if_pos, true_and]
        constructor
        · rintro ⟨_, ⟨shown, hentry, rfl⟩, h⟩
          exact ⟨⟨shown, hentry, (ih.mp h).1⟩, (ih.mp h).2⟩
        · rintro ⟨⟨shown, hentry, h⟩, hbelow⟩
          exact ⟨_, ⟨shown, hentry, rfl⟩, ih.mpr ⟨h, hbelow⟩⟩
      · simp [hname]

theorem entered_hide (hidden : Location) : (item.hide hidden).Entered place ↔ item.Entered place := by
  induction place generalizing hidden item with
  | nil => exact iff_of_true (.here _) (.here _)
  | cons next place ih =>
    rw [entered_cons_iff, entered_cons_iff, opens_hide]
    refine and_congr_right fun _ => ?_
    cases hidden with
    | nil =>
      have hcontent : (item.hide []).content = item.content := by cases item <;> rfl
      rw [hcontent]
    | cons name rest =>
      simp only [mem_content_hide]
      constructor
      · rintro ⟨_, ⟨shown, hentry, rfl⟩, h⟩
        refine ⟨shown, hentry, ?_⟩
        split_ifs at h
        · exact (ih rest).mp h
        · exact h
      · rintro ⟨shown, hentry, h⟩
        refine ⟨_, ⟨shown, hentry, rfl⟩, ?_⟩
        split_ifs
        · exact (ih rest).mpr h
        · exact h

theorem lookup_hide (name next : String) (rest : Location) (entries : List (String × Item)) :
    (entries.map fun e => (e.1, if e.1 = name then hide rest e.2 else e.2)).lookup next =
      (entries.lookup next).map fun inner => if next = name then hide rest inner else inner := by
  induction entries with
  | nil => rfl
  | cons entry entries ih =>
    obtain ⟨key, inner⟩ := entry
    by_cases h : next = key
    · simp [h]
    · simpa [List.lookup_cons, beq_eq_false_iff_ne.mpr h] using ih

theorem find?_hide (hidden place : Location) (item : Item) :
    ((item.hide hidden).find? place).map (fun found => (found.isFolder, found.opens)) =
      (item.find? place).map fun found => (found.isFolder, found.opens) := by
  induction place generalizing hidden item with
  | nil => simp [find?, isFolder_hide, opens_hide]
  | cons next place ih =>
    match hidden, item with
    | [], file .. => rfl
    | _ :: _, file .. => rfl
    | [], folder .. => rfl
    | name :: rest, folder rights entries =>
      simp only [hide, find?, lookup_hide]
      cases entries.lookup next with
      | none => rfl
      | some inner =>
        simp only [Option.map_some]
        split_ifs
        · exact ih rest inner
        · rfl

theorem find?_hide_append {hidden : Location} {found : Item} (h : item.find? place = some found) :
    (item.hide (place ++ hidden)).find? place = some (found.hide hidden) := by
  induction place generalizing item with
  | nil => exact congrArg (·.map (Item.hide hidden)) h
  | cons next place ih =>
    match item with
    | folder rights entries =>
      simp only [List.cons_append, hide, find?, lookup_hide] at h ⊢
      cases hentry : entries.lookup next with
      | none => simp [hentry] at h
      | some inner =>
        rw [hentry] at h
        simpa using ih h

end Item

end Files
end Leasehold
