import Leasehold.Proofs.Files.Canonical
import Leasehold.Proofs.Text.Order

/-!
# The nearest file

A visit meets everything down to a depth, and meets it in the order of the
paths: names are compared from the top, byte by byte. A search keeps the first
of the least locations that it meets. So the file that it finds is the nearest
of its name, and of equally near ones the one whose path comes first. What is
in a folder that cannot be listed is all that is overlooked. But a folder may
be listed and not be entered: a file right in it is found and is not reached,
and then the search fails, whatever other files there are.
-/

namespace Leasehold
namespace Files

/-! ## The order of paths -/

namespace Location

/-- Comes first when names are compared from the top, byte by byte. -/
def Precedes (p q : Location) : Prop := p.map Utf8.encode < q.map Utf8.encode

variable {p q : Location}

theorem precedes_of_lt {a b : String} (h : a < b) (p q : Location) : Precedes (a :: p) (b :: q) :=
  List.cons_lt_cons_iff.mpr (Or.inl (Utf8.encode_lt h))

theorem Precedes.cons (h : p.Precedes q) (name : String) : Precedes (name :: p) (name :: q) :=
  List.cons_lt_cons_iff.mpr (Or.inr ⟨rfl, h⟩)

theorem nil_precedes (h : q ≠ []) : Precedes [] q := by
  obtain ⟨name, rest, rfl⟩ := List.exists_cons_of_ne_nil h
  exact .nil

theorem Precedes.asymm (h : p.Precedes q) : ¬ q.Precedes p := List.lt_asymm h

end Location

/-! ## Visits -/

theorem byName_perm (entries : List (String × Item)) : (byName entries).Perm entries :=
  List.mergeSort_perm ..

theorem byName_pairwise {entries : List (String × Item)} (h : (entries.map (·.1)).Nodup) :
    (byName entries).Pairwise fun a b => a.1 < b.1 := by
  have hdistinct : ((byName entries).map (·.1)).Nodup := ((byName_perm entries).map _).nodup_iff.mpr h
  have hle : ∀ a b : String × Item, (!decide (b.1 < a.1)) = true ↔ a.1 ≤ b.1 := by
    intro a b
    simp only [Bool.not_eq_true', decide_eq_false_iff_not, String.not_lt]
  have hsorted : (byName entries).Pairwise fun a b => !decide (b.1 < a.1) := by
    refine List.pairwise_mergeSort ?_ ?_ entries
    · intro a b c hab hbc
      exact (hle a c).mpr (String.le_trans ((hle a b).mp hab) ((hle b c).mp hbc))
    · intro a b
      rw [Bool.or_eq_true, hle, hle]
      exact String.le_total a.1 b.1
  refine hsorted.imp₂ (fun a b h hne => ?_) (List.pairwise_map.mp hdistinct)
  by_contra hge
  exact hne (String.le_antisymm ((hle a b).mp h) (String.not_lt.mp hge))

section Visit

variable {depth room : Nat} {item found : Item} {name : String} {place : Location}

theorem mem_visit_succ :
    (name :: place, found) ∈ visit (depth + 1) room item ↔
      ∃ inner, (name, inner) ∈ item.entries ∧
        ((place = [] ∧ found = inner) ∨
          (item.opens = true ∧ name.utf8ByteSize < room ∧
            (place, found) ∈ visit depth (room - (name.utf8ByteSize + 1)) inner)) := by
  simp only [visit, List.mem_flatMap, (byName_perm _).mem_iff, List.mem_cons, Prod.mk.injEq,
    List.cons.injEq, Prod.exists]
  constructor
  · rintro ⟨n, inner, hentry, ⟨⟨rfl, rfl⟩, rfl⟩ | hvisit⟩
    · exact ⟨_, hentry, Or.inl ⟨rfl, rfl⟩⟩
    · split at hvisit
      · next hopen =>
        obtain ⟨_, hinner, heq⟩ := List.mem_map.mp hvisit
        cases heq
        obtain ⟨hopens, hroom⟩ := Bool.and_eq_true_iff.mp hopen
        exact ⟨_, hentry, Or.inr ⟨hopens, of_decide_eq_true hroom, hinner⟩⟩
      · cases hvisit
  · rintro ⟨inner, hentry, ⟨rfl, rfl⟩ | ⟨hopens, hroom, hvisit⟩⟩
    · exact ⟨_, _, hentry, Or.inl ⟨⟨rfl, rfl⟩, rfl⟩⟩
    · refine ⟨_, _, hentry, Or.inr ?_⟩
      rw [if_pos (Bool.and_eq_true_iff.mpr ⟨hopens, decide_eq_true hroom⟩)]
      exact List.mem_map.mpr ⟨_, hvisit, rfl⟩

theorem nil_not_mem_visit : ([], found) ∉ visit depth room item := by
  cases depth with
  | zero => exact List.not_mem_nil
  | succ depth =>
    simp only [visit, List.mem_flatMap, List.mem_cons, Prod.mk.injEq, reduceCtorEq, false_and, false_or,
      not_exists, not_and]
    intro e _ hvisit
    split at hvisit
    · obtain ⟨_, -, heq⟩ := List.mem_map.mp hvisit
      cases heq
    · cases hvisit

/-- A visit meets what is listed down to its depth, below folders that it can come to. -/
theorem mem_visit (htidy : item.Tidy) :
    (place, found) ∈ visit depth room item ↔
      1 ≤ place.length ∧ place.length ≤ depth ∧ item.Listed place found ∧
        item.Entered place.dropLast ∧ Location.size place.dropLast ≤ room := by
  induction depth generalizing item place room with
  | zero =>
    refine iff_of_false (by simp [visit]) ?_
    rintro ⟨hpos, hle, -⟩
    omega
  | succ depth ih =>
    cases place with
    | nil => exact iff_of_false nil_not_mem_visit (by simp)
    | cons name place =>
      rw [mem_visit_succ, Item.listed_cons_iff]
      cases place with
      | nil =>
        constructor
        · rintro ⟨inner, hentry, ⟨-, rfl⟩ | ⟨-, -, hvisit⟩⟩
          · exact ⟨by simp, by simp, ⟨found, hentry, .here found⟩, .here item, Nat.zero_le room⟩
          · exact absurd hvisit nil_not_mem_visit
        · rintro ⟨-, -, ⟨inner, hentry, h⟩, -, -⟩
          exact ⟨inner, hentry, Or.inl ⟨rfl, Item.listed_nil_iff.mp h⟩⟩
      | cons next place =>
        have hdrop : (name :: next :: place).dropLast = name :: (next :: place).dropLast := rfl
        rw [hdrop, Item.entered_cons_iff, Location.size_cons]
        constructor
        · rintro ⟨inner, hentry, ⟨hnil, -⟩ | ⟨hopens, hroom, hvisit⟩⟩
          · cases hnil
          · have hcontent := Item.mem_content_of_mem_entries hentry
            obtain ⟨-, hle, hlisted, hentered, hsize⟩ := (ih (htidy.of_content.2.2 _ hcontent)).mp hvisit
            refine ⟨by simp, by simpa using hle, ⟨inner, hentry, hlisted⟩, ⟨hopens, inner, hcontent, hentered⟩, ?_⟩
            omega
        · rintro ⟨-, hle, ⟨inner, hentry, hlisted⟩, ⟨hopens, other, hother, hentered⟩, hsize⟩
          have hcontent := Item.mem_content_of_mem_entries hentry
          obtain rfl := htidy.unique hcontent hother
          refine ⟨inner, hentry, Or.inr ⟨hopens, by omega, ?_⟩⟩
          refine (ih (htidy.of_content.2.2 _ hcontent)).mpr ⟨by simp, by simpa using hle, hlisted, hentered, ?_⟩
          omega

theorem places_visit_succ (depth room : Nat) (item : Item) :
    (visit (depth + 1) room item).map (·.1) = (byName item.entries).flatMap fun e =>
      ([] :: if item.opens && decide (e.1.utf8ByteSize < room) then
        (visit depth (room - (e.1.utf8ByteSize + 1)) e.2).map (·.1) else []).map (e.1 :: ·) := by
  simp only [visit, List.map_flatMap, List.map_cons]
  congr 1
  funext e
  split <;> simp [Function.comp_def]

/-- A visit meets locations in the order of their paths. -/
theorem visit_pairwise (h : item.Tidy) :
    ((visit depth room item).map (·.1)).Pairwise Location.Precedes := by
  induction depth generalizing item room with
  | zero => exact List.Pairwise.nil
  | succ depth ih =>
    obtain ⟨hdistinct, -, htidy⟩ := h.of_content
    have hmem : ∀ e ∈ byName item.entries, e ∈ item.content := fun e he =>
      Item.mem_content_of_mem_entries ((byName_perm _).mem_iff.mp he)
    rw [places_visit_succ, List.pairwise_flatMap]
    constructor
    · intro e he
      rw [List.pairwise_map, List.pairwise_cons]
      split
      · constructor
        · intro place hplace
          obtain ⟨⟨place, found⟩, hvisit, rfl⟩ := List.mem_map.mp hplace
          have hpos := ((mem_visit (htidy e (hmem e he))).mp hvisit).1
          exact (Location.nil_precedes (List.length_pos_iff.mp hpos)).cons e.1
        · exact (ih (htidy e (hmem e he))).imp fun h => h.cons e.1
      · exact ⟨nofun, .nil⟩
    · have hshown : (item.entries.map (·.1)).Nodup := hdistinct.sublist (item.entries_sublist.map _)
      refine (byName_pairwise hshown).imp fun {a b} hlt p hp q hq => ?_
      obtain ⟨p, -, rfl⟩ := List.mem_map.mp hp
      obtain ⟨q, -, rfl⟩ := List.mem_map.mp hq
      exact Location.precedes_of_lt hlt p q

end Visit

/-! ## The first of the least -/

/-- Of some locations the first of the least ones is kept. -/
theorem foldl_nearer {places : List Location} (h : places ≠ []) :
    ∃ before place after, places = before ++ place :: after ∧ places.foldl nearer none = some place ∧
      (∀ p ∈ before, place.length < p.length) ∧ ∀ p ∈ after, place.length ≤ p.length := by
  induction places using List.reverseRecOn with
  | nil => exact absurd rfl h
  | append_singleton places last ih =>
    rw [List.foldl_append, List.foldl_cons, List.foldl_nil]
    by_cases hplaces : places = []
    · subst hplaces
      exact ⟨[], last, [], rfl, rfl, nofun, nofun⟩
    · obtain ⟨before, place, after, rfl, hfold, hbefore, hafter⟩ := ih hplaces
      rw [hfold]
      by_cases hlast : last.length < place.length
      · refine ⟨_, last, [], rfl, if_pos hlast, fun p hp => ?_, nofun⟩
        rcases List.mem_append.mp hp with hp | hp
        · exact Nat.lt_trans hlast (hbefore p hp)
        · rcases List.mem_cons.mp hp with rfl | hp
          · exact hlast
          · exact Nat.lt_of_lt_of_le hlast (hafter p hp)
      · refine ⟨before, place, after ++ [last], by simp, if_neg hlast, hbefore, fun p hp => ?_⟩
        rcases List.mem_append.mp hp with hp | hp
        · exact hafter p hp
        · rw [List.mem_singleton.mp hp]
          exact Nat.le_of_not_lt hlast

/-- The place meets the condition, and the others that do are farther, or as near and come later. -/
structure Nearest (P : Location → Prop) (place : Location) : Prop where
  meets : P place
  least : ∀ other, P other → other ≠ place → place.length < other.length ∨
    place.length = other.length ∧ place.Precedes other

theorem Nearest.unique {P : Location → Prop} {place other : Location} (h : Nearest P place)
    (h' : Nearest P other) : place = other := by
  by_contra hne
  rcases h.least other h'.meets (Ne.symm hne) with hfar | ⟨hlength, hfirst⟩
  · rcases h'.least place h.meets hne with hfar' | ⟨hlength, -⟩ <;> omega
  · rcases h'.least place h.meets hne with hfar' | ⟨-, hfirst'⟩
    · omega
    · exact hfirst.asymm hfirst'

theorem Nearest.of_split {P : Location → Prop} {before after : List Location} {place : Location}
    (hP : ∀ p, p ∈ before ++ place :: after ↔ P p)
    (hpairwise : (before ++ place :: after).Pairwise Location.Precedes)
    (hbefore : ∀ p ∈ before, place.length < p.length) (hafter : ∀ p ∈ after, place.length ≤ p.length) :
    Nearest P place := by
  refine ⟨(hP place).mp (by simp), fun other hother hne => ?_⟩
  rcases List.mem_append.mp ((hP other).mpr hother) with hmem | hmem
  · exact Or.inl (hbefore other hmem)
  · have hmem : other ∈ after := (List.mem_cons.mp hmem).resolve_left hne
    have hfirst : place.Precedes other :=
      (List.pairwise_cons.mp (List.pairwise_append.mp hpairwise).2.1).1 other hmem
    exact (Nat.lt_or_eq_of_le (hafter other hmem)).imp_right fun hlength => ⟨hlength, hfirst⟩

theorem foldl_nearest {P : Location → Prop} {places : List Location} (hP : ∀ p, p ∈ places ↔ P p)
    (hpairwise : places.Pairwise Location.Precedes) {place : Location} :
    places.foldl nearer none = some place ↔ Nearest P place := by
  by_cases hplaces : places = []
  · subst hplaces
    exact iff_of_false nofun fun h => absurd ((hP place).mpr h.meets) List.not_mem_nil
  · obtain ⟨before, first, after, rfl, hfold, hbefore, hafter⟩ := foldl_nearer hplaces
    have hfirst : Nearest P first := .of_split hP hpairwise hbefore hafter
    rw [hfold, Option.some.injEq]
    exact ⟨fun h => h ▸ hfirst, hfirst.unique⟩

/-! ## Searches -/

/-- All folders on a path can be entered, and the path is not too long. -/
structure Reached (root : Location) (item : Item) (place : Location) : Prop where
  entered : item.Entered place
  size_le : Location.size (root ++ place) ≤ 4095

/-- A file of the name that is listed from one to four steps down, in a folder that is reached. -/
structure Candidate (root : Location) (item : Item) (name : String) (place : Location) : Prop where
  isFile : ∃ number packed content, item.Listed place (.file number packed content)
  named : place.getLast? = some name
  reached : Reached root item place.dropLast
  pos : 1 ≤ place.length
  le : place.length ≤ 4

section Search

variable {root place : Location} {name : String} {item : Item}

theorem isFolder_eq_false_iff :
    item.isFolder = false ↔ ∃ number packed content, item = .file number packed content := by
  cases item <;> simp [Item.isFolder]

theorem mem_candidates (hroot : root.size ≤ Disk.pathLimit) (htidy : item.Tidy) :
    place ∈ ((visit depthLimit (Disk.pathLimit - root.size) item).filter (isMatch name)).map (·.1) ↔
      Candidate root item name place := by
  have hlimit : Disk.pathLimit = 4095 := rfl
  simp only [List.mem_map, List.mem_filter, isMatch, Bool.and_eq_true, Bool.not_eq_true',
    isFolder_eq_false_iff, beq_iff_eq]
  constructor
  · rintro ⟨⟨place, found⟩, ⟨hvisit, ⟨number, packed, content, rfl⟩, hname⟩, rfl⟩
    obtain ⟨hpos, hle, hlisted, hentered, hsize⟩ := (mem_visit htidy).mp hvisit
    refine ⟨⟨number, packed, content, hlisted⟩, hname, ⟨hentered, ?_⟩, hpos, hle⟩
    rw [Location.size_append]
    dsimp only
    omega
  · rintro ⟨⟨number, packed, content, hlisted⟩, hname, ⟨hentered, hsize⟩, hpos, hle⟩
    rw [Location.size_append] at hsize
    have hroom : Location.size place.dropLast ≤ Disk.pathLimit - root.size := by omega
    have hvisit := (mem_visit htidy).mpr ⟨hpos, hle, hlisted, hentered, hroom⟩
    exact ⟨⟨place, _⟩, ⟨hvisit, ⟨number, packed, content, rfl⟩, hname⟩, rfl⟩

theorem candidates_pairwise (htidy : item.Tidy) (name : String) (room : Nat) :
    (((visit depthLimit room item).filter (isMatch name)).map (·.1)).Pairwise Location.Precedes :=
  (visit_pairwise htidy).sublist (List.filter_sublist.map _)

theorem search?_eq_some (hroot : root.size ≤ Disk.pathLimit) (hfolder : item.isFolder = true)
    (htidy : item.Tidy) (own : Option String) :
    search? name (Disk.pathLimit - root.size) own item = some place ↔
      Nearest (Candidate root item name) place := by
  match item with
  | .folder rights entries =>
    exact foldl_nearest (fun p => mem_candidates hroot htidy) (candidates_pairwise htidy name _)

theorem Candidate.exists_nearest (h : Candidate root item name place) (hroot : root.size ≤ Disk.pathLimit)
    (htidy : item.Tidy) : ∃ first, Nearest (Candidate root item name) first := by
  obtain ⟨-, first, -, -, hfold, -⟩ :=
    foldl_nearer (List.ne_nil_of_mem ((mem_candidates hroot htidy).mpr h))
  have hsorted := candidates_pairwise htidy name (Disk.pathLimit - root.size)
  exact ⟨first, (foldl_nearest (fun p => mem_candidates hroot htidy) hsorted).mp hfold⟩

end Search

namespace Disk

variable {d : Disk} {root place : Location} {name : String} {item : Item}

theorem follow_candidate (hroot : d.IsCanonical root) (hitem : d.find? root = some item) (htidy : item.Tidy)
    (h : Candidate root item name place) :
    (Reached root item place → d.follow [] (root ++ place) = .ok (root ++ place)) ∧
    (¬ Reached root item place → d.follow [] (root ++ place) =
      .error (if 4095 < Location.size (root ++ place) then .nameTooLong else .denied)) := by
  obtain ⟨front, rfl⟩ : ∃ front, place = front ++ [name] := List.getLast?_eq_some_iff.mp h.named
  obtain ⟨number, packed, content, hlisted⟩ := h.isFile
  obtain ⟨holder, hholder, hentry⟩ := hlisted.exists_holder htidy
  obtain ⟨hentered, hsize⟩ := h.reached
  rw [List.dropLast_concat] at hentered hsize
  obtain ⟨hfront, hcanonical⟩ := hroot.follow_entered hitem htidy hentered hsize
  have hthere : d.find? (root ++ front) = some holder := by
    have hitem : d.top.find? root = some item := hitem
    rw [find?, Item.find?_append, hitem]
    exact hholder
  have hlast : d.follow [] (root ++ (front ++ [name])) = d.step (root ++ front) name := by
    rw [follow_append, hroot.follow]
    change d.follow root (front ++ [name]) = _
    rw [follow_append, hfront]
    exact follow_singleton d _ name
  have hstep := hcanonical.step hthere (htidy.of_find? hholder) hentry
  have hlimit : pathLimit = 4095 := rfl
  rw [List.append_assoc, hlimit] at hstep
  rw [hlast, hstep]
  have hiff := Item.entered_concat_iff htidy hholder hentry
  constructor
  · intro hreached
    rw [if_neg (Nat.not_lt.mpr hreached.size_le), if_pos (hiff.mp hreached.entered).2]
  · intro hnot
    by_cases hlong : 4095 < Location.size (root ++ (front ++ [name]))
    · rw [if_pos hlong, if_pos hlong]
    · have hclosed : ¬ holder.opens = true := fun hopens =>
        hnot ⟨hiff.mpr ⟨hentered, hopens⟩, Nat.le_of_not_lt hlong⟩
      rw [if_neg hlong, if_neg hlong, if_neg hclosed]

end Disk

/-- How a search below a folder ends: with the nearest of some places, if it is reached. -/
inductive Ends (root : Location) (item : Item) (name : String) (P : Location → Prop) :
    Except SearchFault Location → Prop
  | found {place : Location} (h : Nearest P place) (hreached : Reached root item place) :
      Ends root item name P (.ok (root ++ place))
  | outOfReach {place : Location} (h : Nearest P place) (hnot : ¬ Reached root item place) :
      Ends root item name P (.error (.outOfReach
        (if 4095 < Location.size (root ++ place) then .nameTooLong else .denied)))
  | notFound (h : ∀ place, ¬ P place) : Ends root item name P (.error (.notFound name root))

theorem Ends.unique {root : Location} {item : Item} {name : String} {P : Location → Prop}
    {answer other : Except SearchFault Location} (h : Ends root item name P answer)
    (h' : Ends root item name P other) : answer = other := by
  cases h with
  | found hnearest hreached =>
    cases h' with
    | found hnearest' => rw [hnearest.unique hnearest']
    | outOfReach hnearest' hnot => exact absurd (hnearest.unique hnearest' ▸ hreached) hnot
    | notFound hnone => exact absurd hnearest.meets (hnone _)
  | outOfReach hnearest hnot =>
    cases h' with
    | found hnearest' hreached => exact absurd (hnearest'.unique hnearest ▸ hreached) hnot
    | outOfReach hnearest' => rw [hnearest.unique hnearest']
    | notFound hnone => exact absurd hnearest.meets (hnone _)
  | notFound hnone =>
    cases h' with
    | found hnearest => exact absurd hnearest.meets (hnone _)
    | outOfReach hnearest => exact absurd hnearest.meets (hnone _)
    | notFound => rfl

namespace Disk

variable {d : Disk} {root place : Location} {path name : String} {item : Item}

theorem search_eq_searchAt (hcanonical : d.canonical path = .ok root) (name : String) :
    d.search (some path) name = d.searchAt root name := by
  simp only [search, searchBelow, hcanonical]

theorem search_ends (hcanonical : d.canonical path = .ok root) (hitem : d.find? root = some item)
    (hfolder : item.isFolder = true) (htidy : item.Tidy) (name : String) :
    Ends root item name (Candidate root item name) (d.search (some path) name) := by
  have hroot := canonical_eq_ok hcanonical
  have hsome (place : Location) :
      search? name (pathLimit - root.size) root.getLast? item = some place ↔
        Nearest (Candidate root item name) place :=
    search?_eq_some hroot.size_le hfolder htidy root.getLast?
  rw [search_eq_searchAt hcanonical, searchAt, hitem, Option.bind_some]
  cases hfound : search? name (pathLimit - root.size) root.getLast? item with
  | none =>
    refine .notFound fun place hplace => ?_
    obtain ⟨first, hnearest⟩ := hplace.exists_nearest hroot.size_le htidy
    have hfirst := (hsome first).mpr hnearest
    rw [hfound] at hfirst
    cases hfirst
  | some place =>
    have hnearest := (hsome place).mp hfound
    obtain ⟨hyes, hno⟩ := follow_candidate hroot hitem htidy hnearest.meets
    by_cases hreached : Reached root item place
    · simp only [hyes hreached]
      exact .found hnearest hreached
    · simp only [hno hreached]
      exact .outOfReach hnearest hreached

end Disk

/-! ## Searches past folders that cannot be listed -/

section Hide

variable {root hidden place : Location} {item : Item}

theorem reached_hide (hidden : Location) : Reached root (item.hide hidden) place ↔ Reached root item place :=
  ⟨fun h => ⟨(Item.entered_hide hidden).mp h.entered, h.size_le⟩,
    fun h => ⟨(Item.entered_hide hidden).mpr h.entered, h.size_le⟩⟩

theorem candidate_hide {name : String} :
    Candidate root (item.hide hidden) name place ↔ Candidate root item name place ∧ ¬ place.Below hidden := by
  constructor
  · rintro ⟨⟨number, packed, content, h⟩, hname, hreached, hpos, hle⟩
    obtain ⟨hlisted, houtside⟩ := Item.listed_hide.mp h
    exact ⟨⟨⟨number, packed, content, hlisted⟩, hname, (reached_hide hidden).mp hreached, hpos, hle⟩, houtside⟩
  · rintro ⟨⟨⟨number, packed, content, h⟩, hname, hreached, hpos, hle⟩, houtside⟩
    exact ⟨⟨number, packed, content, Item.listed_hide.mpr ⟨h, houtside⟩⟩, hname,
      (reached_hide hidden).mpr hreached, hpos, hle⟩

theorem Ends.of_hide {name : String} {P : Location → Prop} {answer : Except SearchFault Location}
    (h : Ends root (item.hide hidden) name P answer) : Ends root item name P answer := by
  cases h with
  | found hnearest hreached => exact .found hnearest ((reached_hide hidden).mp hreached)
  | outOfReach hnearest hnot => exact .outOfReach hnearest (mt (reached_hide hidden).mpr hnot)
  | notFound hnone => exact .notFound hnone

end Hide

namespace Disk

def hide (d : Disk) (place : Location) : Disk := { d with top := d.top.hide place }

variable {d : Disk}

theorem enter_hide (hidden : Location) : (d.hide hidden).enter = d.enter := by
  funext place name
  have hthere : ∀ p, ((d.hide hidden).find? p).map (fun found => (found.isFolder, found.opens)) =
      (d.find? p).map fun found => (found.isFolder, found.opens) :=
    fun p => Item.find?_hide hidden p d.top
  have hsome : ∀ p, ((d.hide hidden).find? p).isSome = (d.find? p).isSome := fun p => by
    simpa using congrArg Option.isSome (hthere p)
  have h := hthere place
  unfold enter
  rw [hsome]
  rcases h₁ : (d.hide hidden).find? place with _ | (_ | _) <;>
    rcases h₂ : d.find? place with _ | (_ | _) <;> simp_all [Item.isFolder, Item.opens]

/-- A path leads to the same place whether or not a folder can be listed. -/
theorem canonical_hide (hidden : Location) (path : String) :
    (d.hide hidden).canonical path = d.canonical path := by
  have hstep : (d.hide hidden).step = d.step := by
    funext place name
    simp only [step, lookAt, walk, enter_hide]
  simp only [canonical, follow, hstep]
  rfl

/-- A search in a tidy tree ends in one way. Where the path cannot be made canonical, there is nothing
to search; a file is searched in its own place. Below a folder, the candidates are the files of the name
that are listed from one to four steps down, in folders that are reached. The nearest is taken, and of
equally near ones the one whose path comes first; the search ends with it, if it is reached itself, and
else fails, whatever other candidates there are. So it finds a file just when there is a candidate, as
long as all candidates are reached. Where a folder cannot be listed, what is in it is overlooked, and
nothing else. -/
theorem search_nearest (htidy : d.top.Tidy) (path name : String) :
    (∀ why, d.canonical path = .error why → d.search (some path) name = .error (.noRoot why)) ∧
    ∀ root, d.canonical path = .ok root → ∃ item, d.find? root = some item ∧
      (item.isFolder = false → d.search (some path) name =
        if root.getLast? = some name then .ok root else .error (.notFound name root)) ∧
      (item.isFolder = true →
        (∀ answer, d.search (some path) name = answer ↔
          Ends root item name (Candidate root item name) answer) ∧
        (∀ place, Candidate root item name place → ∃ first, Nearest (Candidate root item name) first) ∧
        ((∀ place, Candidate root item name place → Reached root item place) →
          ((∃ answer, d.search (some path) name = .ok answer) ↔ ∃ place, Candidate root item name place)) ∧
        ∀ hidden answer, (d.hide (root ++ hidden)).search (some path) name = answer ↔
          Ends root item name (fun p => Candidate root item name p ∧ ¬ p.Below hidden) answer) := by
  refine ⟨fun why h => by simp only [search, searchBelow, h], fun root hcanonical => ?_⟩
  have hroot := canonical_eq_ok hcanonical
  obtain ⟨item, hitem⟩ := hroot.exists_item
  have htidy : item.Tidy := htidy.of_find? hitem
  refine ⟨item, hitem, fun hfile => ?_, fun hfolder => ⟨?_, ?_, ?_, ?_⟩⟩
  · obtain ⟨number, packed, content, rfl⟩ := isFolder_eq_false_iff.mp hfile
    rw [search_eq_searchAt hcanonical, searchAt, hitem, Option.bind_some, search?]
    by_cases hname : root.getLast? = some name
    · simp only [hname, if_true, List.append_nil, hroot.follow]
      rfl
    · simp only [hname, if_false]
  · have hends := search_ends hcanonical hitem hfolder htidy name
    exact fun answer => ⟨fun h => h ▸ hends, fun h => hends.unique h⟩
  · exact fun place h => h.exists_nearest hroot.size_le htidy
  · intro hreached
    have hends := search_ends hcanonical hitem hfolder htidy name
    constructor
    · rintro ⟨answer, hanswer⟩
      rw [hanswer] at hends
      cases hends with
      | found hnearest => exact ⟨_, hnearest.meets⟩
    · rintro ⟨place, hplace⟩
      obtain ⟨first, hnearest⟩ := hplace.exists_nearest hroot.size_le htidy
      exact ⟨_, hends.unique (.found hnearest (hreached first hnearest.meets))⟩
  · intro hidden answer
    have hcandidates : Candidate root (item.hide hidden) name =
        fun p => Candidate root item name p ∧ ¬ p.Below hidden :=
      funext fun p => propext candidate_hide
    have hends := search_ends ((canonical_hide _ path).trans hcanonical) (Item.find?_hide_append hitem)
      ((Item.isFolder_hide hidden item).trans hfolder) (htidy.hide hidden) name
    rw [hcandidates] at hends
    exact ⟨fun h => h ▸ hends.of_hide, fun h => hends.of_hide.unique h⟩

def holding (item : Item) : Disk := ⟨.folder .all [("r", item)], [], 2⟩

/-- A file two steps down, in a folder with some rights, and one of the same name three steps down, in
a folder that comes before or after it. -/
def fork (rights : Rights) (near far : String) : Item :=
  .folder .all
    [(near, .folder rights [("x", .file 0 false [])]),
      (far, .folder .all [("c", .folder .all [("x", .file 1 false [])])])]

theorem fork_tidy {rights : Rights} {near far : String} (hnear : Item.IsName near) (hfar : Item.IsName far)
    (hne : near ≠ far) : (holding (fork rights near far)).top.Tidy := by
  have hx : Item.IsName "x" := ⟨by decide, by decide, by decide, by decide⟩
  have hc : Item.IsName "c" := ⟨by decide, by decide, by decide, by decide⟩
  have hr : Item.IsName "r" := ⟨by decide, by decide, by decide, by decide⟩
  exact Item.tidy_one hr (Item.tidy_two hnear hfar hne (Item.tidy_one hx (.file 0 false []))
    (Item.tidy_one hc (Item.tidy_one hx (.file 1 false []))))

theorem isName_a : Item.IsName "a" := ⟨by decide, by decide, by decide, by decide⟩

theorem isName_b : Item.IsName "b" := ⟨by decide, by decide, by decide, by decide⟩

section Fork

variable {rights : Rights} {near far : String}

theorem listed_near (hlist : rights.list = true) :
    (fork rights near far).Listed [near, "x"] (.file 0 false []) :=
  .inside rfl List.mem_cons_self (.inside hlist List.mem_cons_self (.here _))

theorem listed_far (rights : Rights) (near far : String) :
    (fork rights near far).Listed [far, "c", "x"] (.file 1 false []) :=
  .inside rfl (List.mem_cons_of_mem _ List.mem_cons_self)
    (.inside rfl List.mem_cons_self (.inside rfl List.mem_cons_self (.here _)))

theorem entered_far (rights : Rights) (near far : String) : (fork rights near far).Entered [far, "c", "x"] :=
  .inside rfl (List.mem_cons_of_mem _ List.mem_cons_self)
    (.inside rfl List.mem_cons_self (.inside rfl List.mem_cons_self (.here _)))

theorem not_entered_near (hclosed : rights.enter = false) (hne : near ≠ far) :
    ¬ (fork rights near far).Entered [near, "x"] := by
  rintro (_ | ⟨-, hentry, hbranch⟩)
  simp only [List.mem_cons, Prod.mk.injEq, true_and, hne, false_and, List.not_mem_nil, or_false] at hentry
  subst hentry
  rcases hbranch with _ | ⟨henter, -, -⟩
  rw [hclosed] at henter
  cases henter

/-- No other file is listed. -/
theorem place_of_listed {place : Location} {number : Nat} {packed : Bool} {content : List UInt8}
    (h : (fork rights near far).Listed place (.file number packed content)) :
    place = [near, "x"] ∨ place = [far, "c", "x"] := by
  rcases h with _ | ⟨-, hentry, hbranch⟩
  simp only [List.mem_cons, Prod.mk.injEq, List.not_mem_nil, or_false] at hentry
  rcases hentry with ⟨rfl, rfl⟩ | ⟨rfl, rfl⟩
  · obtain ⟨rest, rfl, hfile⟩ := Item.listed_one hbranch
    exact Or.inl (by rw [Item.place_of_listed_file hfile])
  · obtain ⟨below, rfl, hinner⟩ := Item.listed_one hbranch
    obtain ⟨rest, rfl, hfile⟩ := Item.listed_one hinner
    exact Or.inr (by rw [Item.place_of_listed_file hfile])

theorem fork_nearest (hlist : rights.list = true) (hnear : Item.IsName near) :
    Nearest (Candidate ["r"] (fork rights near far) "x") [near, "x"] := by
  have hsize : Location.size ["r", near] ≤ 4095 := by
    have hlimit : near.utf8ByteSize ≤ 255 := hnear.le
    have hr : "r".utf8ByteSize = 1 := by decide
    simp only [Location.size_cons, Location.size_nil, hr]
    omega
  have hentered : (fork rights near far).Entered [near] := .inside rfl List.mem_cons_self (.here _)
  refine ⟨⟨⟨0, false, [], listed_near hlist⟩, rfl, ⟨hentered, hsize⟩, by simp, by simp⟩, ?_⟩
  intro other hother hne
  obtain ⟨number, packed, content, hlisted⟩ := hother.isFile
  rcases place_of_listed hlisted with rfl | rfl
  · exact absurd rfl hne
  · exact Or.inl (by simp)

end Fork

/-- The nearer file is found, though the other one is met before. -/
theorem search_nearest_fork :
    let d := holding (fork .all "b" "a")
    d.top.Tidy ∧ d.canonical "r" = .ok ["r"] ∧ d.search (some "r") "x" = .ok ["r", "b", "x"] ∧
      Nearest (Candidate ["r"] (fork .all "b" "a") "x") ["b", "x"] := by
  intro d
  have htidy : d.top.Tidy := fork_tidy isName_b isName_a (by decide)
  have hcanonical : d.canonical "r" = .ok ["r"] := by decide +kernel
  have hnearest : Nearest (Candidate ["r"] (fork .all "b" "a") "x") ["b", "x"] := fork_nearest rfl isName_b
  have hentered : (fork .all "b" "a").Entered ["b", "x"] :=
    .inside rfl List.mem_cons_self (.inside rfl List.mem_cons_self (.here _))
  obtain ⟨item, hitem, -, hfolder⟩ := (search_nearest htidy "r" "x").2 ["r"] hcanonical
  obtain rfl : fork .all "b" "a" = item := Option.some.inj hitem
  exact ⟨htidy, hcanonical, ((hfolder rfl).1 _).mpr (.found hnearest ⟨hentered, by decide⟩), hnearest⟩

/-- A search stops at a file that is listed and not reached, though there is another one. And what is
searched may be a file, with nothing below it, and is found. -/
theorem search_stops_out_of_reach :
    let barred := fork ⟨true, false⟩ "a" "b"
    let d := holding barred
    d.top.Tidy ∧ d.canonical "r" = .ok ["r"] ∧
      barred.Listed ["a", "x"] (.file 0 false []) ∧ barred.Listed ["b", "c", "x"] (.file 1 false []) ∧
      Reached ["r"] barred ["b", "c", "x"] ∧
      d.search (some "r") "x" = .error (.outOfReach .denied) ∧
      d.search (some "r/b/c/x") "x" = .ok ["r", "b", "c", "x"] ∧
      d.find? ["r", "b", "c", "x"] = some (.file 1 false []) ∧
      ∀ name place found, ¬ Item.Listed (.file 1 false []) (name :: place) found := by
  intro barred d
  have htidy : d.top.Tidy := fork_tidy isName_a isName_b (by decide)
  have hcanonical : d.canonical "r" = .ok ["r"] := by decide +kernel
  have hnot : ¬ Reached ["r"] barred ["a", "x"] := fun h => not_entered_near rfl (by decide) h.entered
  have hsearch : d.search (some "r") "x" = .error (.outOfReach .denied) := by
    have hitem : d.find? ["r"] = some barred := rfl
    have hends := search_ends hcanonical hitem rfl (htidy.of_find? hitem) "x"
    exact hends.unique (.outOfReach (fork_nearest rfl isName_a) hnot)
  exact ⟨htidy, hcanonical, listed_near rfl, listed_far .., ⟨entered_far .., by decide⟩, hsearch,
    by decide +kernel, rfl, nofun⟩

end Disk

end Files
end Leasehold
