import Leasehold.Proofs.Files.Tree
import Mathlib.Data.List.Induction

/-!
# Canonical locations

What a path is made to is a canonical location: names lead to it from the top
folder, and it is made to itself. On from a canonical location a way can be
followed as long as the folders on it can be entered and the path of it is not
too long.
-/

namespace Leasehold
namespace Files

namespace Location

variable {p q : Location}

@[simp] theorem size_nil : size [] = 0 := rfl

@[simp] theorem size_cons (name : String) (p : Location) : size (name :: p) = name.utf8ByteSize + 1 + p.size := rfl

@[simp] theorem size_append (p q : Location) : size (p ++ q) = p.size + q.size := by
  induction p with
  | nil => simp
  | cons name p ih => simp only [List.cons_append, size_cons, ih, Nat.add_assoc]

end Location

namespace Disk

variable {d : Disk} {place goal : Location} {name : String} {names : List String} {item inner found : Item}

/-- A location that a path can be made to: names lead to it from the top folder, and not too many. -/
structure IsCanonical (d : Disk) (place : Location) : Prop where
  names : ∀ name ∈ place, Item.IsName name
  walk : d.walk [] place = .ok place
  size_le : place.size ≤ pathLimit

theorem walk_concat (d : Disk) (start : Location) (names : List String) (name : String) :
    d.walk start (names ++ [name]) = (d.walk start names).bind fun place => d.enter place name := by
  simp only [walk, List.foldlM_append, List.foldlM_cons, List.foldlM_nil, bind_pure]
  rfl

theorem follow_append (d : Disk) (start : Location) (names more : List String) :
    d.follow start (names ++ more) = (d.follow start names).bind fun place => d.follow place more := by
  simp only [follow, List.foldlM_append]
  rfl

theorem follow_singleton (d : Disk) (start : Location) (name : String) :
    d.follow start [name] = d.step start name := by
  simp only [follow, List.foldlM_cons, List.foldlM_nil, bind_pure]

theorem bind_eq_ok {α β : Type} {x : Except Fault α} {f : α → Except Fault β} {b : β}
    (h : x.bind f = .ok b) : ∃ a, x = .ok a ∧ f a = .ok b := by
  cases x with
  | error why => cases h
  | ok a => exact ⟨a, rfl, h⟩

theorem enter_eq_ok (h : d.enter place name = .ok goal) :
    goal = place ∨ goal = place.dropLast ∨
      goal = place ++ [name] ∧ Item.IsName name ∧ ∃ found, d.find? goal = some found := by
  unfold enter at h
  split at h
  · cases h
  · cases h
  · split_ifs at h with hempty hclosed hdot hdots hlong hthere
    · exact Or.inl (Except.ok.inj h).symm
    · exact Or.inl (Except.ok.inj h).symm
    · exact Or.inr (Or.inl (Except.ok.inj h).symm)
    · obtain rfl := Except.ok.inj h
      exact Or.inr (Or.inr ⟨rfl, ⟨hempty, hdot, hdots, Nat.le_of_not_lt hlong⟩,
        Option.isSome_iff_exists.mp hthere⟩)

theorem enter_name (hname : Item.IsName name) (hitem : d.find? place = some item)
    (hinner : d.find? (place ++ [name]) = some inner) (hfolder : item.isFolder = true) :
    d.enter place name = if item.opens then .ok (place ++ [name]) else .error .denied := by
  cases item with
  | file => cases hfolder
  | folder rights entries =>
    simp only [enter, hitem, hinner, hname.ne_empty, hname.ne_dot, hname.ne_dots, Nat.not_lt.mpr hname.le,
      if_false, Option.isSome_some, if_true, Item.opens]
    by_cases henter : rights.enter = true
    · simp [henter]
    · simp [henter]

theorem enter_name_eq_ok (hname : Item.IsName name) (h : d.enter place name = .ok goal) :
    goal = place ++ [name] := by
  unfold enter at h
  split at h
  · cases h
  · cases h
  · simp only [hname.ne_empty, hname.ne_dot, hname.ne_dots, if_false] at h
    split_ifs at h
    exact (Except.ok.inj h).symm

theorem walk_name_eq_ok (hname : Item.IsName name) (h : d.walk [] (place ++ [name]) = .ok (place ++ [name])) :
    d.walk [] place = .ok place := by
  rw [walk_concat] at h
  obtain ⟨start, hwalk, henter⟩ := bind_eq_ok h
  obtain rfl := List.append_cancel_right (enter_name_eq_ok hname henter)
  exact hwalk

theorem IsCanonical.of_concat (h : d.IsCanonical (place ++ [name])) : d.IsCanonical place where
  names n hn := h.names n (List.mem_append_left _ hn)
  walk := walk_name_eq_ok (h.names name (by simp)) h.walk
  size_le := by
    have hle := h.size_le
    rw [Location.size_append] at hle
    omega

theorem IsCanonical.dropLast (h : d.IsCanonical place) : d.IsCanonical place.dropLast := by
  rcases List.eq_nil_or_concat place with rfl | ⟨front, name, rfl⟩
  · exact h
  · rw [List.concat_eq_append] at h ⊢
    rw [List.dropLast_concat]
    exact h.of_concat

/-- Where names lead, the names of the place lead as well, and there are not more of them. -/
theorem walk_eq_ok (h : d.walk [] names = .ok goal) :
    (∀ name ∈ goal, Item.IsName name) ∧ d.walk [] goal = .ok goal ∧ goal.size ≤ Location.size names := by
  induction names using List.reverseRecOn generalizing goal with
  | nil =>
    obtain rfl : [] = goal := Except.ok.inj h
    exact ⟨nofun, rfl, Nat.le_refl _⟩
  | append_singleton names name ih =>
    rw [walk_concat] at h
    obtain ⟨place, hwalk, henter⟩ := bind_eq_ok h
    obtain ⟨hnames, hself, hsize⟩ := ih hwalk
    rw [Location.size_append]
    rcases enter_eq_ok henter with rfl | rfl | ⟨rfl, hname, -⟩
    · exact ⟨hnames, hself, by omega⟩
    · -- dots lead to the folder above
      rcases List.eq_nil_or_concat place with rfl | ⟨front, last, rfl⟩
      · exact ⟨hnames, hself, Nat.zero_le _⟩
      · rw [List.concat_eq_append] at hnames hself hsize ⊢
        rw [List.dropLast_concat]
        rw [Location.size_append] at hsize
        exact ⟨fun n hn => hnames n (List.mem_append_left _ hn),
          walk_name_eq_ok (hnames last (by simp)) hself, by omega⟩
    · refine ⟨?_, ?_, ?_⟩
      · intro n hn
        rcases List.mem_append.mp hn with hn | hn
        · exact hnames n hn
        · exact List.mem_singleton.mp hn ▸ hname
      · rw [walk_concat, hself]
        exact henter
      · rw [Location.size_append]
        omega

theorem lookAt_eq_ok (h : d.lookAt place = .ok goal) : d.IsCanonical goal := by
  unfold lookAt at h
  split_ifs at h with hlong
  obtain ⟨hnames, hwalk, hsize⟩ := walk_eq_ok h
  exact ⟨hnames, hwalk, Nat.le_trans hsize (Nat.le_of_not_lt hlong)⟩

theorem step_eq_ok (h : d.step place name = .ok goal) : d.IsCanonical goal := by
  unfold step at h
  split_ifs at h
  · exact lookAt_eq_ok h
  · cases hlook : d.lookAt (place ++ [""]) with
    | error why => rw [hlook] at h; cases h
    | ok folder =>
      rw [hlook] at h
      exact Except.ok.inj h ▸ (lookAt_eq_ok hlook).dropLast
  · exact lookAt_eq_ok h

theorem canonical_eq_ok {path : String} (h : d.canonical path = .ok goal) : d.IsCanonical goal := by
  unfold canonical at h
  split at h
  · cases h
  · have hne : Pieces.texts '/' path ≠ [] := mt List.map_eq_nil_iff.mp (Pieces.split_ne_nil _ _)
    rw [← List.dropLast_concat_getLast hne, follow_append] at h
    obtain ⟨place, -, hstep⟩ := bind_eq_ok h
    rw [follow_singleton] at hstep
    exact step_eq_ok hstep

theorem IsCanonical.follow (h : d.IsCanonical place) : d.follow [] place = .ok place := by
  induction place using List.reverseRecOn with
  | nil => rfl
  | append_singleton place name ih =>
    have hname : Item.IsName name := h.names name (by simp)
    rw [follow_append, ih h.of_concat]
    change d.follow place [name] = _
    rw [follow_singleton]
    simp only [step, hname.ne_empty, hname.ne_dot, hname.ne_dots, or_self, if_false, lookAt,
      Nat.not_lt.mpr h.size_le, h.walk]

theorem IsCanonical.exists_item (h : d.IsCanonical place) : ∃ item, d.find? place = some item := by
  rcases List.eq_nil_or_concat place with rfl | ⟨front, name, rfl⟩
  · exact ⟨d.top, rfl⟩
  · rw [List.concat_eq_append] at h ⊢
    have hwalk := h.walk
    rw [walk_concat, h.of_concat.walk] at hwalk
    rcases enter_eq_ok hwalk with heq | heq | ⟨-, -, hfound⟩
    · simp at heq
    · exact absurd (congrArg List.length heq) (by simp; omega)
    · exact hfound

/-! ## The way to a file -/

theorem find?_concat (hitem : d.find? place = some item) (htidy : item.Tidy)
    (hentry : (name, inner) ∈ item.content) : d.find? (place ++ [name]) = some inner := by
  have hitem : d.top.find? place = some item := hitem
  rw [find?, Item.find?_append, hitem]
  exact htidy.find?_cons hentry []

theorem IsCanonical.step (h : d.IsCanonical place) (hitem : d.find? place = some item)
    (htidy : item.Tidy) (hentry : (name, inner) ∈ item.content) :
    d.step place name =
      if pathLimit < Location.size (place ++ [name]) then .error .nameTooLong
      else if item.opens then .ok (place ++ [name]) else .error .denied := by
  have hname : Item.IsName name := htidy.of_content.2.1 _ hentry
  have hfolder : item.isFolder = true := by
    cases item with
    | file => cases hentry
    | folder => rfl
  have hwalk : d.walk [] (place ++ [name]) = d.enter place name := by
    rw [walk_concat, h.walk]
    rfl
  simp only [Disk.step, hname.ne_empty, hname.ne_dot, hname.ne_dots, or_self, if_false, lookAt, hwalk,
    enter_name hname hitem (find?_concat hitem htidy hentry) hfolder]

/-- Folders that can be entered are gone through, if the path is not too long. -/
theorem IsCanonical.follow_entered (h : d.IsCanonical place) (hitem : d.find? place = some item)
    (htidy : item.Tidy) {way : Location} (hentered : item.Entered way)
    (hsize : Location.size (place ++ way) ≤ pathLimit) :
    d.follow place way = .ok (place ++ way) ∧ d.IsCanonical (place ++ way) := by
  induction hentered generalizing place with
  | here item =>
    rw [List.append_nil]
    exact ⟨rfl, h⟩
  | @inside rights entries name inner way henter hentry hentered ih =>
    have hstep := h.step hitem htidy hentry
    have hassoc : place ++ name :: way = place ++ [name] ++ way := by simp
    rw [hassoc, Location.size_append] at hsize
    have hopens : (Item.folder rights entries).opens = true := henter
    rw [if_neg (by omega), if_pos hopens] at hstep
    have hfollow : d.follow place (name :: way) = d.follow (place ++ [name]) way := by
      rw [← List.singleton_append, follow_append, follow_singleton, hstep]
      rfl
    rw [hfollow, hassoc]
    refine ih (step_eq_ok hstep) (find?_concat hitem htidy hentry) (htidy.of_content.2.2 _ hentry) ?_
    rw [Location.size_append]
    omega

end Disk

end Files
end Leasehold
