import Leasehold.Proofs.Logging.Building
import Leasehold.Proofs.Text.Pieces

/-!
# Who takes the lines of a module

The logger of a module takes the lines of the modules below it, and of several
such loggers the one with the longest name does. The look-up of an entry by a
module's path goes another way: it takes the first entry whose prefix begins
the path, no matter where in a name the prefix ends. So it gives the entry in
charge just when no entry before it has a prefix that begins the path, and does
so in any order of the entries only when there is no other such prefix at all.
-/

namespace Leasehold
namespace Logging

open Files

namespace ModulePath

/-- A path is another one, or goes on with a name below it. -/
def Reaches (path other : String) : Prop := other = path ∨ ∃ rest, other = path ++ "::" ++ rest

/-- A path begins another one, maybe in the midst of a name. -/
def Begins (path other : String) : Prop := ∃ rest, other = path ++ rest

def parts (path : String) : List String := (names path.toList).map String.ofList

variable {path other target : String}

theorem Reaches.begins (h : Reaches path other) : Begins path other := by
  rcases h with rfl | ⟨rest, rfl⟩
  · exact ⟨"", by simp⟩
  · exact ⟨"::" ++ rest, String.append_assoc ..⟩

theorem begins_iff : path.toList.isPrefixOf target.toList = true ↔ Begins path target := by
  rw [List.isPrefixOf_iff_prefix]
  constructor
  · rintro ⟨rest, hrest⟩
    refine ⟨String.ofList rest, String.toList_injective ?_⟩
    rw [String.toList_append, String.toList_ofList, hrest]
  · rintro ⟨rest, rfl⟩
    rw [String.toList_append]
    exact List.prefix_append ..

/-! ## Names between colons -/

theorem names_pair (cs : List Char) : names (':' :: ':' :: cs) = [] :: names cs := by
  rw [names]

theorem names_cons {c : Char} {cs : List Char} (h : ∀ rest, c = ':' → cs ≠ ':' :: rest) :
    names (c :: cs) = (names cs).modifyHead (c :: ·) := by
  obtain ⟨n, ns, hnames⟩ := List.exists_cons_of_ne_nil (names_ne_nil cs)
  rw [names, hnames]
  · rfl
  · exact h

theorem intercalate_names (cs : List Char) : [':', ':'].intercalate (names cs) = cs := by
  induction cs using names.induct with
  | case1 => rfl
  | case2 cs ih =>
    rw [names_pair, List.intercalate_cons_of_ne_nil (names_ne_nil cs), ih]
    rfl
  | case3 c cs h hnil => exact absurd hnil (names_ne_nil cs)
  | case4 c cs h n ns hnames ih =>
    rw [names_cons (fun rest hc hcs => h rest hc hcs), hnames, List.modifyHead_cons,
      List.intercalate_cons_cons_left, ← hnames, ih]

theorem pairsFrom_zero_of_two {cs : List Char} (h : pairsFrom 2 cs = true) : pairsFrom 0 cs = true := by
  cases cs with
  | nil => cases h
  | cons c cs =>
    by_cases hc : c = ':'
    · simp [pairsFrom, hc] at h
    · simpa [pairsFrom, hc] using h

theorem pairsFrom_zero_cons {c : Char} {cs : List Char} (hpair : ∀ rest, c = ':' → cs ≠ ':' :: rest)
    (h : pairsFrom 0 (c :: cs) = true) : c ≠ ':' ∧ pairsFrom 0 cs = true := by
  by_cases hc : c = ':'
  · exfalso
    cases cs with
    | nil => simp [pairsFrom, hc] at h
    | cons d cs =>
      have hd : d ≠ ':' := fun hd => hpair cs hc (hd ▸ rfl)
      simp [pairsFrom, hc, hd] at h
  · exact ⟨hc, by simpa [pairsFrom, hc] using h⟩

/-- Behind colons that stand in pairs, another pair ends a name. -/
theorem names_append {cs : List Char} (h : pairsFrom 0 cs = true) (rest : List Char) :
    names (cs ++ ':' :: ':' :: rest) = names cs ++ names rest := by
  induction cs using names.induct with
  | case1 => exact names_pair rest
  | case2 cs ih =>
    have hpairs : pairsFrom 2 cs = true := by simpa [pairsFrom] using h
    rw [names_pair, List.cons_append, List.cons_append, names_pair, ih (pairsFrom_zero_of_two hpairs)]
    rfl
  | case3 c cs hpair hnil => exact absurd hnil (names_ne_nil cs)
  | case4 c cs hpair n ns hnames ih =>
    obtain ⟨hc, hpairs⟩ := pairsFrom_zero_cons (fun rest hc hcs => hpair rest hc hcs) h
    rw [List.cons_append, names_cons (fun _ hcolon => absurd hcolon hc), ih hpairs,
      names_cons (fun _ hcolon => absurd hcolon hc), hnames]
    rfl

/-! ## Paths below a path -/

theorem intercalate_parts (path : String) : "::".intercalate (parts path) = path := by
  apply String.toList_injective
  rw [String.toList_intercalate, parts, Pieces.map_toList_ofList]
  exact intercalate_names path.toList

theorem parts_ne_nil (path : String) : parts path ≠ [] :=
  mt List.map_eq_nil_iff.mp (names_ne_nil path.toList)

theorem reaches_of_parts (h : parts path <+: parts other) : Reaches path other := by
  obtain ⟨more, hmore⟩ := h
  rw [← intercalate_parts other, ← hmore]
  by_cases hnil : more = []
  · left
    rw [hnil, List.append_nil, intercalate_parts]
  · right
    refine ⟨"::".intercalate more, ?_⟩
    rw [String.intercalate_append_of_ne_nil (parts_ne_nil path) hnil, intercalate_parts]

theorem governs_iff_parts : governs path other = true ↔ parts path <+: parts other := by
  rw [governs, List.isPrefixOf_iff_prefix]
  exact (List.prefix_map_iff_of_injective fun _ _ => String.ofList_injective).symm

/-- A sound path governs itself and what is below it. -/
theorem governs_iff (h : isValid path = true) : governs path other = true ↔ Reaches path other := by
  have hpairs : pairsFrom 0 path.toList = true := (Bool.and_eq_true_iff.mp h).2
  rw [governs_iff_parts]
  refine ⟨reaches_of_parts, ?_⟩
  rintro (rfl | ⟨rest, rfl⟩)
  · exact List.prefix_refl _
  · have hnames := names_append hpairs rest.toList
    refine ⟨parts rest, ?_⟩
    rw [parts, parts, parts, ← List.map_append, ← hnames]
    simp

theorem Begins.eq_of_length (h : Begins path target) (h' : Begins other target)
    (hlength : path.length = other.length) : path = other := by
  obtain ⟨rest, rfl⟩ := h
  obtain ⟨rest', heq⟩ := h'
  have hlist : path.toList ++ rest.toList = other.toList ++ rest'.toList := by
    rw [← String.toList_append, heq, String.toList_append]
  have hchars : path.toList.length = other.toList.length := by
    rw [String.length_toList, String.length_toList, hlength]
  exact String.toList_injective (List.append_inj_left hlist hchars)

section Nearest

variable {α : Type} {name : α → String} {values : List α} {a : α}

def depth (path : String) : Nat := (parts path).length

theorem longer_cases (name : α → String) (first next : α) :
    ∃ kept ∈ [first, next], longer name (some first) next = some kept ∧
      depth (name first) ≤ depth (name kept) ∧ depth (name next) ≤ depth (name kept) := by
  simp only [longer, depth, parts, List.length_map]
  split
  · next hlonger => exact ⟨next, by simp, rfl, Nat.le_of_lt hlonger, Nat.le_refl _⟩
  · next hlonger => exact ⟨first, by simp, rfl, Nat.le_refl _, Nat.le_of_not_lt hlonger⟩

theorem foldl_longer (name : α → String) (values : List α) (first : α) :
    ∃ best ∈ first :: values, values.foldl (longer name) (some first) = some best ∧
      ∀ b ∈ first :: values, depth (name b) ≤ depth (name best) := by
  induction values generalizing first with
  | nil => exact ⟨first, List.mem_cons_self, rfl, by simp⟩
  | cons next values ih =>
    obtain ⟨kept, hkept, hstep, hfirst, hnext⟩ := longer_cases name first next
    obtain ⟨best, hbest, hfold, hmost⟩ := ih kept
    have hkept_le : depth (name kept) ≤ depth (name best) := hmost kept List.mem_cons_self
    refine ⟨best, ?_, ?_, ?_⟩
    · rcases List.mem_cons.mp hbest with rfl | hbest
      · exact List.mem_append_left values hkept
      · exact List.mem_append_right [first, next] hbest
    · rw [List.foldl_cons, hstep, hfold]
    · intro b hb
      rcases List.mem_cons.mp hb with rfl | hb
      · exact Nat.le_trans hfirst hkept_le
      · rcases List.mem_cons.mp hb with rfl | hb
        · exact Nat.le_trans hnext hkept_le
        · exact hmost b (List.mem_cons_of_mem kept hb)

theorem exists_nearest? (ha : a ∈ values) (hgoverns : governs (name a) target = true) :
    ∃ best ∈ values, nearest? name values target = some best ∧ governs (name best) target = true ∧
      ∀ b ∈ values, governs (name b) target = true → depth (name b) ≤ depth (name best) := by
  have hmem : ∀ b, b ∈ values.filter (fun b => governs (name b) target) ↔
      b ∈ values ∧ governs (name b) target = true := fun b => List.mem_filter
  obtain ⟨first, rest, hfilter⟩ :=
    List.exists_cons_of_ne_nil (List.ne_nil_of_mem ((hmem a).mpr ⟨ha, hgoverns⟩))
  rw [hfilter] at hmem
  obtain ⟨best, hbest, hfold, hmost⟩ := foldl_longer name rest first
  obtain ⟨hbest, hgoverns'⟩ := (hmem best).mp hbest
  refine ⟨best, hbest, ?_, hgoverns', fun b hb hgoverns'' => hmost b ((hmem b).mpr ⟨hb, hgoverns''⟩)⟩
  rw [nearest?, hfilter]
  exact hfold

/-- The longest of the paths that govern a target is the nearest, if it is there once. -/
theorem nearest?_eq_some (ha : a ∈ values) (hgoverns : governs (name a) target = true)
    (hlongest : ∀ b ∈ values, governs (name b) target = true → (name b).length ≤ (name a).length)
    (honce : ∀ b ∈ values, name b = name a → b = a) : nearest? name values target = some a := by
  obtain ⟨best, hbest, hnearest, hgoverns', hmost⟩ := exists_nearest? ha hgoverns
  have hprefix : parts (name a) <+: parts (name best) :=
    List.prefix_of_prefix_length_le (governs_iff_parts.mp hgoverns) (governs_iff_parts.mp hgoverns')
      (hmost a ha hgoverns)
  have hsame : name best = name a := by
    rcases reaches_of_parts hprefix with hsame | ⟨rest, hbelow⟩
    · exact hsame
    · have hlength := hlongest best hbest hgoverns'
      rw [hbelow, String.length_append, String.length_append] at hlength
      have htwo : "::".length = 2 := rfl
      omega
  rw [hnearest, honce best hbest hsame]

end Nearest

end ModulePath

/-! ## What is accepted -/

namespace Layout

theorem sound_of_loggerFaults {appenders seen : List String} {loggers : List Logger}
    (h : loggerFaults appenders seen loggers = []) :
    (loggers.map Logger.name).Nodup ∧ (∀ l ∈ loggers, ModulePath.isValid l.name = true) ∧
      ∀ l ∈ loggers, l.name ∉ seen := by
  induction loggers generalizing seen with
  | nil => exact ⟨List.nodup_nil, nofun, nofun⟩
  | cons l rest ih =>
    rw [loggerFaults] at h
    split_ifs at h with hseen hvalid
    · obtain ⟨-, hrest⟩ := List.append_eq_nil_iff.mp h
      obtain ⟨hnodup, hsound, hnew⟩ := ih hrest
      refine ⟨?_, List.forall_mem_cons.mpr ⟨hvalid, hsound⟩, ?_⟩
      · rw [List.map_cons, List.nodup_cons]
        refine ⟨fun hmem => ?_, hnodup⟩
        obtain ⟨l', hl', hname⟩ := List.mem_map.mp hmem
        exact hnew l' hl' (hname ▸ List.mem_cons_self)
      · refine List.forall_mem_cons.mpr ⟨?_, ?_⟩
        · exact mt List.contains_iff_mem.mpr hseen
        · exact fun l' hl' hmem => hnew l' hl' (List.mem_cons_of_mem _ hmem)
    · simp at h

theorem sound_of_faults {s : Settings} (h : (ofSettings s).faults = []) :
    (s.modules.map Entry.pathPrefix).Nodup ∧
      ∀ e ∈ s.modules, ModulePath.isValid e.pathPrefix = true := by
  obtain ⟨-, hloggers⟩ := List.append_eq_nil_iff.mp h
  obtain ⟨hnodup, hsound, -⟩ := sound_of_loggerFaults hloggers
  refine ⟨?_, fun e he => hsound (loggerOf e) (List.mem_map_of_mem he)⟩
  rwa [ofSettings, List.map_map] at hnodup

end Layout

namespace Facility

variable {env : Environment} {now : Instant} {s : Settings} {disk : Disk} {f : Facility}

theorem build_eq_ok (h : (build env now s disk).1 = .ok f) :
    f.layout = Layout.ofSettings s ∧ (Layout.ofSettings s).faults = [] := by
  rcases hopened : (openFiles env now s).run disk with ⟨why | files, disk'⟩
  · rw [build_of_error hopened] at h
    cases h
  · rw [build_of_opened hopened] at h
    cases hfaults : (Layout.ofSettings s).faults with
    | nil =>
      rw [hfaults] at h
      cases h
      exact ⟨rfl, rfl⟩
    | cons fault faults =>
      rw [hfaults] at h
      cases h

end Facility

/-! ## Entries in charge -/

namespace Settings

open ModulePath (Reaches Begins)

/-- The entry of a module whose logger takes the lines of a target: its prefix is the target or a path
above it, and no longer prefix is. -/
structure InCharge (s : Settings) (target : String) (e : Entry) : Prop where
  mem : e ∈ s.modules
  reaches : Reaches e.pathPrefix target
  longest : ∀ e' ∈ s.modules, Reaches e'.pathPrefix target → e'.pathPrefix.length ≤ e.pathPrefix.length

variable {s : Settings} {target : String} {e : Entry}

theorem InCharge.mem_entries (h : s.InCharge target e) : e ∈ s.entries := List.mem_of_mem_filter h.mem

theorem InCharge.unique {e' : Entry} (hdistinct : (s.modules.map Entry.pathPrefix).Nodup)
    (h : s.InCharge target e) (h' : s.InCharge target e') : e' = e := by
  have hlength : e'.pathPrefix.length = e.pathPrefix.length :=
    Nat.le_antisymm (h.longest e' h'.mem h'.reaches) (h'.longest e h.mem h.reaches)
  have hprefix := h'.reaches.begins.eq_of_length h.reaches.begins hlength
  exact List.inj_on_of_nodup_map hdistinct h'.mem h.mem hprefix

theorem InCharge.route (hsound : (s.modules.map Entry.pathPrefix).Nodup ∧
      ∀ e ∈ s.modules, ModulePath.isValid e.pathPrefix = true) (h : s.InCharge target e) :
    (Layout.ofSettings s).route target = (.read e.level, [Layout.appenderName e.pathPrefix]) := by
  obtain ⟨hdistinct, hvalid⟩ := hsound
  have hnearest : ModulePath.nearest? Logger.name (Layout.ofSettings s).loggers target =
      some (Layout.loggerOf e) := by
    refine ModulePath.nearest?_eq_some (List.mem_map_of_mem h.mem) ?_ ?_ ?_
    · exact (ModulePath.governs_iff (hvalid e h.mem)).mpr h.reaches
    · intro l hl hgoverns
      obtain ⟨e', he', rfl⟩ := List.mem_map.mp hl
      exact h.longest e' he' ((ModulePath.governs_iff (hvalid e' he')).mp hgoverns)
    · intro l hl hname
      obtain ⟨e', he', rfl⟩ := List.mem_map.mp hl
      rw [List.inj_on_of_nodup_map hdistinct he' h.mem hname]
  rw [Layout.route, hnearest]
  rfl

theorem entryFor?_eq_some :
    s.entryFor? target = some e ↔ Begins e.pathPrefix target ∧
      ∃ before after, s.entries = before ++ e :: after ∧
        ∀ e' ∈ before, ¬ Begins e'.pathPrefix target := by
  simp only [entryFor?, List.find?_eq_some_iff_append, Bool.not_eq_true', Bool.eq_false_iff,
    ModulePath.begins_iff, ne_eq]

theorem mem_of_entryFor? (h : s.entryFor? target = some e) :
    e ∈ s.entries ∧ Begins e.pathPrefix target := by
  obtain ⟨hbegins, before, after, hentries, -⟩ := entryFor?_eq_some.mp h
  exact ⟨hentries ▸ List.mem_append_right before List.mem_cons_self, hbegins⟩

theorem exists_entryFor? (he : e ∈ s.entries) (h : Begins e.pathPrefix target) :
    ∃ first, s.entryFor? target = some first :=
  Option.isSome_iff_exists.mp (List.find?_isSome.mpr ⟨e, he, ModulePath.begins_iff.mpr h⟩)

/-- An entry whose prefix begins a path is the one that is found in every order of the entries, just
when it is the only such entry. -/
theorem entryFor?_perm_iff (he : e ∈ s.entries) (h : Begins e.pathPrefix target) :
    (∀ s' : Settings, s'.entries.Perm s.entries → s'.entryFor? target = some e) ↔
      ∀ e' ∈ s.entries, Begins e'.pathPrefix target → e' = e := by
  constructor
  · intro hfound e' he' hbegins
    let s' : Settings := { s with entries := e' :: s.entries.erase e' }
    have hfirst : s'.entryFor? target = some e' :=
      entryFor?_eq_some.mpr ⟨hbegins, [], s.entries.erase e', rfl, nofun⟩
    have hperm : s'.entries.Perm s.entries := (List.perm_cons_erase he').symm
    exact Option.some.inj (hfirst.symm.trans (hfound s' hperm))
  · intro honly s' hperm
    obtain ⟨first, hfirst⟩ := exists_entryFor? (hperm.mem_iff.mpr he) h
    obtain ⟨hmem, hbegins⟩ := mem_of_entryFor? hfirst
    rw [hfirst, honly first (hperm.mem_iff.mp hmem) hbegins]

end Settings

namespace Facility

variable (env : Environment) (now : Instant) (s : Settings) (disk : Disk)

/-- Where a log is built and a module's entry is in charge of a target, lines of the target go to the
appender of that entry, at its level, and no other entry is in charge. The look-up by the target finds
an entry then, but this one just when no entry before it has a prefix that begins the target; and it
finds this one in every order of the entries just when no other entry has such a prefix. -/
theorem look_up_in_charge {f : Facility} {target : String} {e : Entry}
    (hbuilt : (build env now s disk).1 = .ok f) (h : s.InCharge target e) :
    f.layout.route target = (.read e.level, [e.pathPrefix ++ "_appender"]) ∧
    (∀ e', s.InCharge target e' → e' = e) ∧
    (∃ first ∈ s.entries, s.entryFor? target = some first ∧ ModulePath.Begins first.pathPrefix target) ∧
    (s.entryFor? target = some e ↔ ∃ before after, s.entries = before ++ e :: after ∧
      ∀ e' ∈ before, ¬ ModulePath.Begins e'.pathPrefix target) ∧
    ((∀ s' : Settings, s'.entries.Perm s.entries → s'.entryFor? target = some e) ↔
      ∀ e' ∈ s.entries, ModulePath.Begins e'.pathPrefix target → e' = e) := by
  obtain ⟨hlayout, hfaults⟩ := build_eq_ok hbuilt
  have hsound := Layout.sound_of_faults hfaults
  have hbegins := h.reaches.begins
  refine ⟨?_, fun e' h' => h.unique hsound.1 h', ?_, ?_, Settings.entryFor?_perm_iff h.mem_entries hbegins⟩
  · rw [hlayout]
    exact h.route hsound
  · obtain ⟨first, hfirst⟩ := Settings.exists_entryFor? h.mem_entries hbegins
    obtain ⟨hmem, hfirst_begins⟩ := Settings.mem_of_entryFor? hfirst
    exact ⟨first, hmem, hfirst, hfirst_begins⟩
  · rw [Settings.entryFor?_eq_some]
    exact and_iff_right hbegins

def entryOf (path : String) : Entry := ⟨path, "logs", path ++ ".log", 4096, 2, "debug", true⟩

theorem plain_built (h : (build .empty 0 s .empty).1.isOk = true) :
    ∃ f, (build .empty 0 s .empty).1 = .ok f := by
  cases hbuild : (build .empty 0 s .empty).1 with
  | ok f => exact ⟨f, rfl⟩
  | error why =>
    rw [hbuild] at h
    cases h

/-- With the longer prefix first, its entry is found, but not so in the other order. -/
theorem look_up_in_charge_longer_first :
    let s := plain ["door::bell", "door"]
    let target := "door::bell::ring"
    s.InCharge target (entryOf "door::bell") ∧ ∃ f, (build .empty 0 s .empty).1 = .ok f ∧
      f.layout.route target = (.upTo .debug, ["door::bell_appender"]) ∧
      s.entryFor? target = some (entryOf "door::bell") ∧
      ¬ ∀ s' : Settings, s'.entries.Perm s.entries → s'.entryFor? target = some (entryOf "door::bell") := by
  intro s target
  have hcharge : s.InCharge target (entryOf "door::bell") := by
    refine ⟨by decide +kernel, Or.inr ⟨"ring", by decide +kernel⟩, fun e' he' _ => ?_⟩
    have hshort : ∀ e' ∈ s.modules, e'.pathPrefix.length ≤ (entryOf "door::bell").pathPrefix.length := by
      decide +kernel
    exact hshort e' he'
  obtain ⟨f, hbuilt⟩ := plain_built s (by decide +kernel)
  obtain ⟨hroute, -, -, hfound, horder⟩ := look_up_in_charge .empty 0 s .empty hbuilt hcharge
  refine ⟨hcharge, f, hbuilt, hroute.trans (by decide +kernel), ?_, ?_⟩
  · exact hfound.mpr ⟨[], [entryOf "door"], rfl, nofun⟩
  · intro hall
    have hsame := horder.mp hall (entryOf "door") (by decide +kernel) ⟨"::bell::ring", by decide +kernel⟩
    exact absurd hsame (by decide +kernel)

/-- A prefix that comes first is found in the place of a longer one that is in charge, and so is one
that ends inside a name, which is no path above the target at all. -/
theorem look_up_misses_entry_in_charge :
    let nested := plain ["door", "door::bell"]
    let inside := plain ["door", "doorbell"]
    (∃ f, (build .empty 0 nested .empty).1 = .ok f) ∧
    nested.InCharge "door::bell::ring" (entryOf "door::bell") ∧
    nested.entryFor? "door::bell::ring" = some (entryOf "door") ∧
    (∃ f, (build .empty 0 inside .empty).1 = .ok f) ∧
    inside.InCharge "doorbell::ring" (entryOf "doorbell") ∧
    inside.entryFor? "doorbell::ring" = some (entryOf "door") := by
  intro nested inside
  have hnested : ∀ e ∈ nested.modules, e.pathPrefix.length ≤ (entryOf "door::bell").pathPrefix.length := by
    decide +kernel
  have hinside : ∀ e ∈ inside.modules, e.pathPrefix.length ≤ (entryOf "doorbell").pathPrefix.length := by
    decide +kernel
  refine ⟨plain_built _ (by decide +kernel), ?_, by decide +kernel, plain_built _ (by decide +kernel), ?_,
    by decide +kernel⟩
  · exact ⟨by decide +kernel, Or.inr ⟨"ring", by decide +kernel⟩, fun e he _ => hnested e he⟩
  · exact ⟨by decide +kernel, Or.inr ⟨"ring", by decide +kernel⟩, fun e he _ => hinside e he⟩

end Facility
end Logging
end Leasehold
