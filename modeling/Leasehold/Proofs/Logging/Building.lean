import Leasehold.Logging.Facility
import Mathlib.Data.List.Nodup

/-!
# Which logs can be built

The appender of an entry is named after its prefix, and the one that writes to
the console has a name of its own. Names made from different prefixes differ,
but the prefix `console` makes the name that is meant for the console. So a log
whose modules have sound prefixes, each its own, is built as its settings say,
unless the console is written to and a module has that prefix.
-/

namespace Leasehold

namespace Files.Act

variable {α β : Type}

theorem bind_run (x : Act α) (f : α → Act β) (disk : Disk) :
    (x >>= f).run disk = match x.run disk with
      | (.ok a, disk) => (f a).run disk
      | (.error why, disk) => (.error why, disk) := by
  change (match x disk with | (a, disk) => ExceptT.bindCont f a disk) = _
  rcases h : x disk with ⟨_ | _, disk'⟩ <;> simp only [ExceptT.run, h] <;> rfl

theorem bind_eq_ok {x : Act α} {f : α → Act β} {disk disk' : Disk} {b : β}
    (h : (x >>= f).run disk = (.ok b, disk')) :
    ∃ a disk₁, x.run disk = (.ok a, disk₁) ∧ (f a).run disk₁ = (.ok b, disk') := by
  rw [bind_run] at h
  rcases hx : x.run disk with ⟨why | a, disk₁⟩
  · rw [hx] at h
    cases h
  · rw [hx] at h
    exact ⟨a, disk₁, rfl, h⟩

/-- What each action guarantees of its result holds of all results, when all succeed. -/
theorem forall₂_of_mapM {f : α → Act β} {R : α → β → Prop}
    (hR : ∀ a b disk disk', (f a).run disk = (.ok b, disk') → R a b) {as : List α} {bs : List β}
    {disk disk' : Disk} (h : (as.mapM f).run disk = (.ok bs, disk')) : List.Forall₂ R as bs := by
  induction as generalizing bs disk disk' with
  | nil =>
    cases h
    exact .nil
  | cons a as ih =>
    rw [List.mapM_cons] at h
    obtain ⟨b, disk₁, hfirst, h⟩ := bind_eq_ok h
    obtain ⟨rest, disk₂, hrest, h⟩ := bind_eq_ok h
    cases h
    exact .cons (hR a b disk disk₁ hfirst) (ih hrest)

end Files.Act

namespace Logging

open Files

/-- The entries whose files are opened, in order. -/
def Settings.written (s : Settings) : List Entry := s.modules ++ s.root?.toList

/-- Whether the root writes to the console: it is asked to, or has no entry. -/
def Settings.writesConsole (s : Settings) : Bool := s.root?.all (·.console)

/-- Whether a module has the prefix that makes the name of the console's appender, and the console
is written to. -/
def Settings.Confused (s : Settings) : Prop :=
  s.writesConsole = true ∧ ∃ e ∈ s.modules, e.pathPrefix = "console"

instance (s : Settings) : Decidable s.Confused := inferInstanceAs (Decidable (_ ∧ _))

theorem Settings.root?_prefix {s : Settings} {e : Entry} (h : s.root? = some e) :
    e.pathPrefix = rootPrefix :=
  eq_of_beq (List.find?_some (p := fun e : Entry => e.pathPrefix == rootPrefix) h)

theorem Settings.ne_rootPrefix {s : Settings} {e : Entry} (h : e ∈ s.modules) :
    e.pathPrefix ≠ rootPrefix :=
  bne_iff_ne.mp (List.mem_filter.mp h).2

namespace Layout

theorem appenderName_injective : Function.Injective appenderName := by
  intro a b h
  have hlist := congrArg String.toList h
  simp only [appenderName, String.toList_append] at hlist
  exact String.ext (List.append_cancel_right hlist)

theorem appenderName_eq_consoleName {path : String} :
    appenderName path = consoleName ↔ path = "console" :=
  appenderName_injective.eq_iff' rfl

/-! ## Faults of names -/

theorem repeated_of_nodup {names : List String} (hnodup : names.Nodup) (seen : List String)
    (hnew : ∀ name ∈ names, name ∉ seen) : repeated seen names = [] := by
  induction names generalizing seen with
  | nil => rfl
  | cons name rest ih =>
    obtain ⟨hother, hrest⟩ := List.nodup_cons.mp hnodup
    have hfirst : ¬ seen.contains name = true := by
      simpa using hnew name List.mem_cons_self
    rw [repeated, if_neg hfirst]
    refine ih hrest (name :: seen) ?_
    intro n hn hseen
    rcases List.mem_cons.mp hseen with rfl | hseen
    · exact hother hn
    · exact hnew n (List.mem_cons_of_mem _ hn) hseen

theorem repeated_concat (names : List String) (seen : List String) (last : String) :
    repeated seen (names ++ [last]) =
      repeated seen names ++ if last ∈ seen ∨ last ∈ names then [last] else [] := by
  induction names generalizing seen with
  | nil => simp [repeated]
  | cons name rest ih =>
    rw [List.cons_append, repeated, repeated, ih, ih]
    -- A name that has been seen is not taken up again, so it must count as seen for the last one too.
    by_cases hseen : name ∈ seen
    · have hiff : last ∈ seen ∨ last ∈ rest ↔ last ∈ seen ∨ last ∈ name :: rest := by
        rw [List.mem_cons]
        have hsame : last = name → last ∈ seen := fun h => h ▸ hseen
        tauto
      rw [if_pos (List.contains_iff_mem.mpr hseen), if_pos (List.contains_iff_mem.mpr hseen),
        List.cons_append, if_congr hiff rfl rfl]
    · have hiff : last ∈ name :: seen ∨ last ∈ rest ↔ last ∈ seen ∨ last ∈ name :: rest := by
        simp only [List.mem_cons, or_assoc, or_left_comm]
      rw [if_neg (mt List.contains_iff_mem.mp hseen), if_neg (mt List.contains_iff_mem.mp hseen),
        if_congr hiff rfl rfl]

/-- Loggers with sound names, each its own, and appenders that are there have no faults. -/
theorem loggerFaults_eq_nil {appenders : List String} {loggers : List Logger}
    (hnodup : (loggers.map Logger.name).Nodup)
    (hvalid : ∀ l ∈ loggers, ModulePath.isValid l.name = true)
    (hthere : ∀ l ∈ loggers, ∀ name ∈ l.appenders, name ∈ appenders) (seen : List String)
    (hnew : ∀ l ∈ loggers, l.name ∉ seen) : loggerFaults appenders seen loggers = [] := by
  induction loggers generalizing seen with
  | nil => rfl
  | cons l rest ih =>
    obtain ⟨hother, hrest⟩ := List.nodup_cons.mp hnodup
    rw [List.forall_mem_cons] at hvalid hthere hnew
    have hfirst : ¬ seen.contains l.name = true := by simpa using hnew.1
    have hmissing : l.appenders.filter (!appenders.contains ·) = [] := by
      simpa [List.filter_eq_nil_iff] using hthere.1
    have htail : loggerFaults appenders (l.name :: seen) rest = [] := by
      refine ih hrest hvalid.2 hthere.2 (l.name :: seen) ?_
      intro l' hl' hseen
      rcases List.mem_cons.mp hseen with hsame | hseen
      · exact hother (hsame ▸ List.mem_map_of_mem hl')
      · exact hnew.2 l' hl' hseen
    rw [loggerFaults, if_neg hfirst, if_pos hvalid.1, hmissing, htail]
    rfl

/-! ## The layout of settings -/

variable (s : Settings)

theorem appenders_ofSettings :
    (ofSettings s).appenders = s.written.map (fun e => (appenderName e.pathPrefix, some e)) ++
      if s.writesConsole then [(consoleName, none)] else [] := by
  unfold ofSettings Settings.written Settings.writesConsole
  cases hroot : s.root? with
  | none => simp [rootOf]
  | some e =>
    have hprefix := Settings.root?_prefix hroot
    cases hconsole : e.console <;> simp [rootOf, hconsole, hprefix]

theorem root_ofSettings :
    (ofSettings s).root = match s.root? with
      | none => ⟨.upTo .info, [consoleName]⟩
      | some e => ⟨.read e.level,
        appenderName Settings.rootPrefix :: if e.console then [consoleName] else []⟩ := by
  unfold ofSettings
  cases s.root? with
  | none => rfl
  | some e => cases hconsole : e.console <;> simp [rootOf, hconsole]

variable {s}

theorem written_nodup (h : (s.modules.map Entry.pathPrefix).Nodup) :
    (s.written.map Entry.pathPrefix).Nodup := by
  unfold Settings.written
  cases hroot : s.root? with
  | none => simpa using h
  | some e =>
    have hprefix := Settings.root?_prefix hroot
    rw [List.map_append, Option.toList_some, List.map_singleton, List.nodup_append]
    refine ⟨h, List.nodup_singleton _, ?_⟩
    intro a ha b hb
    obtain ⟨e', he', rfl⟩ := List.mem_map.mp ha
    rw [List.mem_singleton.mp hb, hprefix]
    exact Settings.ne_rootPrefix he'

theorem appenderNames_nodup (h : (s.modules.map Entry.pathPrefix).Nodup) :
    (s.written.map fun e => appenderName e.pathPrefix).Nodup := by
  have hmapped := (written_nodup h).map appenderName_injective
  rwa [List.map_map] at hmapped

theorem consoleName_mem_written :
    consoleName ∈ s.written.map (fun e => appenderName e.pathPrefix) ↔
      ∃ e ∈ s.modules, e.pathPrefix = "console" := by
  rw [List.mem_map]
  constructor
  · rintro ⟨e, he, hname⟩
    have hprefix := appenderName_eq_consoleName.mp hname
    rcases List.mem_append.mp he with he | he
    · exact ⟨e, he, hprefix⟩
    · have hroot := Settings.root?_prefix (Option.mem_toList.mp he)
      exact absurd (hroot.symm.trans hprefix) (by decide)
  · rintro ⟨e, he, hprefix⟩
    exact ⟨e, List.mem_append_left _ he, appenderName_eq_consoleName.mpr hprefix⟩

theorem names_ofSettings (s : Settings) :
    (ofSettings s).appenders.map (·.1) = s.written.map (fun e => appenderName e.pathPrefix) ++
      if s.writesConsole then [consoleName] else [] := by
  rw [appenders_ofSettings, List.map_append, List.map_map]
  cases s.writesConsole <;> rfl

theorem repeated_ofSettings (h : (s.modules.map Entry.pathPrefix).Nodup) :
    repeated [] ((ofSettings s).appenders.map (·.1)) = if s.Confused then [consoleName] else [] := by
  have hfirst := repeated_of_nodup (appenderNames_nodup h) [] (by simp)
  have hconfused : s.Confused ↔ s.writesConsole = true ∧
      consoleName ∈ s.written.map (fun e => appenderName e.pathPrefix) :=
    and_congr_right' consoleName_mem_written.symm
  rw [names_ofSettings, if_congr hconfused rfl rfl]
  cases s.writesConsole with
  | false => simpa using hfirst
  | true => simp [repeated_concat, hfirst]

theorem root_there (s : Settings) :
    ∀ name ∈ (ofSettings s).root.appenders, name ∈ (ofSettings s).appenders.map (·.1) := by
  intro name hname
  rw [root_ofSettings] at hname
  rw [names_ofSettings]
  unfold Settings.writesConsole Settings.written
  cases hroot : s.root? with
  | none => exact List.mem_append_right _ (by simpa [hroot] using hname)
  | some e =>
    have hprefix := Settings.root?_prefix hroot
    cases hconsole : e.console <;> simp_all

theorem module_there (s : Settings) :
    ∀ l ∈ (ofSettings s).loggers, ∀ name ∈ l.appenders,
      name ∈ (ofSettings s).appenders.map (·.1) := by
  intro l hl name hname
  obtain ⟨e, he, rfl⟩ := List.mem_map.mp hl
  rw [List.mem_singleton.mp hname, names_ofSettings]
  refine List.mem_append_left _ (List.mem_map.mpr ⟨e, ?_, rfl⟩)
  exact List.mem_append_left _ he

/-- All that can be wrong with the layout of modules with sound prefixes, each its own: one of them
has taken the name that the console needs. -/
theorem faults_ofSettings (h : (s.modules.map Entry.pathPrefix).Nodup)
    (hvalid : ∀ e ∈ s.modules, ModulePath.isValid e.pathPrefix = true) :
    (ofSettings s).faults = if s.Confused then [.duplicateAppender consoleName] else [] := by
  have hroot : (ofSettings s).root.appenders.filter
      (!((ofSettings s).appenders.map (·.1)).contains ·) = [] := by
    rw [List.filter_eq_nil_iff]
    intro name hname
    simpa using root_there s name hname
  have hloggers : loggerFaults ((ofSettings s).appenders.map (·.1)) [] (ofSettings s).loggers = [] := by
    refine loggerFaults_eq_nil ?_ ?_ (module_there s) [] (by simp)
    · exact (List.map_map ..).symm ▸ h
    · intro l hl
      obtain ⟨e, he, rfl⟩ := List.mem_map.mp hl
      exact hvalid e he
  simp only [faults, repeated_ofSettings h, hroot, hloggers]
  split_ifs <;> rfl

end Layout

namespace Facility

variable (env : Environment) (now : Instant) (base : String)

def ofFiles (es : List Entry) (files : List RollingFile) : List (String × Appender) :=
  (es.zip files).map fun p => (Layout.appenderName p.1.pathPrefix, .file p.2)

theorem openAll_append (es : List Entry) (rest : List (String × Option Entry)) :
    openAll env now base (es.map (fun e => (Layout.appenderName e.pathPrefix, some e)) ++ rest) =
      (do
        let files ← es.mapM (RollingFile.create env now base)
        return ofFiles es files ++ (← openAll env now base rest)) := by
  induction es with
  | nil => simp [ofFiles]
  | cons e es ih => simp [openAll, ih, ofFiles]

variable (s : Settings) (disk : Disk)

def openFiles : Act (List RollingFile) :=
  s.written.mapM (RollingFile.create env now (baseDirectory env s))

theorem openAll_ofSettings :
    (openAll env now (baseDirectory env s) (Layout.ofSettings s).appenders).run disk =
      match (openFiles env now s).run disk with
      | (.error why, disk) => (.error why, disk)
      | (.ok files, disk) => (.ok (ofFiles s.written files ++
          if s.writesConsole then [(Layout.consoleName, .console)] else []), disk) := by
  rw [Layout.appenders_ofSettings, openAll_append, Act.bind_run]
  rcases h : (openFiles env now s).run disk with ⟨_ | files, disk'⟩
  · rw [openFiles] at h
    rw [h]
  · rw [openFiles] at h
    rw [h]
    cases s.writesConsole <;> rfl

/-- A file has the path and the limits of an entry. -/
structure Serves (e : Entry) (f : RollingFile) : Prop where
  path : f.path = RollingFile.pathOf env base e
  maxSize : f.maxSize = e.maxSize
  maxArchives : f.maxArchives = e.maxArchives

variable {env now base s disk} {disk' : Disk}

theorem serves_of_create {e : Entry} {f : RollingFile}
    (h : (RollingFile.create env now base e).run disk = (.ok f, disk')) : Serves env base e f := by
  simp only [RollingFile.create] at h
  obtain ⟨_, disk₁, -, h⟩ := Act.bind_eq_ok h
  obtain ⟨_, disk₂, -, h⟩ := Act.bind_eq_ok h
  obtain ⟨w, disk₃, -, h⟩ := Act.bind_eq_ok h
  cases h
  exact ⟨rfl, rfl, rfl⟩

theorem serves_of_openFiles {files : List RollingFile}
    (h : (openFiles env now s).run disk = (.ok files, disk')) :
    List.Forall₂ (Serves env (baseDirectory env s)) s.written files :=
  Act.forall₂_of_mapM (fun _ _ _ _ => serves_of_create) h

theorem names_ofFiles {files : List RollingFile}
    (h : (openFiles env now s).run disk = (.ok files, disk')) :
    (ofFiles s.written files).map (·.1) = s.written.map fun e => Layout.appenderName e.pathPrefix := by
  have hlength : s.written.length ≤ files.length := Nat.le_of_eq (serves_of_openFiles h).length_eq
  have hnames := congrArg (List.map fun e => Layout.appenderName e.pathPrefix)
    (List.map_fst_zip hlength)
  rw [List.map_map] at hnames
  rw [ofFiles, List.map_map]
  exact hnames

theorem build_of_error {why : Fault} (h : (openFiles env now s).run disk = (.error why, disk')) :
    build env now s disk = (.error (.file why), disk') := by
  have hall := openAll_ofSettings env now s disk
  rw [h] at hall
  simp only [build, hall]

theorem build_of_opened {files : List RollingFile}
    (h : (openFiles env now s).run disk = (.ok files, disk')) :
    build env now s disk =
      (match (Layout.ofSettings s).faults with
        | [] => .ok ⟨Layout.ofSettings s, ofFiles s.written files ++
          if s.writesConsole then [(Layout.consoleName, .console)] else []⟩
        | faults => .error (.layout faults), disk') := by
  have hall := openAll_ofSettings env now s disk
  rw [h] at hall
  simp only [build, hall]
  cases (Layout.ofSettings s).faults <;> rfl

/-- The appenders have different names when the prefixes are different and the console has its own. -/
theorem appenders_nodup {files : List RollingFile} (hdistinct : (s.modules.map Entry.pathPrefix).Nodup)
    (hconfused : ¬ s.Confused) (h : (openFiles env now s).run disk = (.ok files, disk')) :
    ((ofFiles s.written files ++
      if s.writesConsole then [(Layout.consoleName, Appender.console)] else []).map (·.1)).Nodup := by
  have hnames := Layout.appenderNames_nodup hdistinct
  rw [List.map_append, names_ofFiles h]
  cases hconsole : s.writesConsole with
  | false => simpa using hnames
  | true =>
    have hnew : Layout.consoleName ∉ s.written.map fun e => Layout.appenderName e.pathPrefix :=
      fun hmem => hconfused ⟨hconsole, Layout.consoleName_mem_written.mp hmem⟩
    refine List.nodup_append.mpr ⟨hnames, List.nodup_singleton _, ?_⟩
    rintro name ha _ hb rfl
    have hname : name = Layout.consoleName := List.mem_singleton.mp hb
    exact hnew (hname ▸ ha)

variable (env now s disk)

/-- A log with modules that have sound prefixes, each its own, is built as its settings say when its
files can be opened, but not if a module has the prefix of the console that the root writes to. It has
one logger for each module entry, in order, which takes lines of its level for a file of its own, and
the first root entry's level and file for everything else; or the console, without such an entry. -/
theorem build_unless_confused (hdistinct : (s.modules.map Entry.pathPrefix).Nodup)
    (hvalid : ∀ e ∈ s.modules, ModulePath.isValid e.pathPrefix = true) :
    let opened := (openFiles env now s).run disk
    let r := build env now s disk
    r.2 = opened.2 ∧ (∀ why, opened.1 = .error why → r.1 = .error (.file why)) ∧
    ∀ files, opened.1 = .ok files →
      (s.Confused → r.1 = .error (.layout [.duplicateAppender "console_appender"])) ∧
      (¬ s.Confused → ∃ f, r.1 = .ok f ∧
        f.layout.loggers = s.modules.map (fun e =>
          ⟨e.pathPrefix, .read e.level, [e.pathPrefix ++ "_appender"], false⟩) ∧
        f.layout.root = (match s.root? with
          | none => ⟨.upTo .info, ["console_appender"]⟩
          | some e => ⟨.read e.level,
            "root_appender" :: if e.console then ["console_appender"] else []⟩) ∧
        f.appenders = ((s.modules ++ s.root?.toList).zip files).map
            (fun p => (p.1.pathPrefix ++ "_appender", .file p.2)) ++
          (if s.root?.all (·.console) then [("console_appender", .console)] else []) ∧
        (f.appenders.map (·.1)).Nodup ∧
        List.Forall₂ (Serves env (baseDirectory env s)) (s.modules ++ s.root?.toList) files) := by
  intro opened r
  rcases hopened : opened with ⟨why | files, disk'⟩
  · have hr : r = _ := build_of_error hopened
    rw [hr]
    refine ⟨rfl, ?_, nofun⟩
    rintro _ ⟨⟩
    rfl
  · have hr : r = _ := build_of_opened hopened
    rw [Layout.faults_ofSettings hdistinct hvalid] at hr
    rw [hr]
    refine ⟨rfl, nofun, ?_⟩
    rintro _ ⟨⟩
    constructor
    · intro hconfused
      rw [if_pos hconfused]
      rfl
    · intro hconfused
      rw [if_neg hconfused]
      exact ⟨_, rfl, rfl, Layout.root_ofSettings s, rfl, appenders_nodup hdistinct hconfused hopened,
        serves_of_openFiles hopened⟩

def plain (prefixes : List String) : Settings :=
  ⟨some ".", prefixes.map fun p => ⟨p, "logs", p ++ ".log", 4096, 2, "debug", true⟩⟩

/-- A module beside a root that writes to the console too. -/
theorem build_gate_and_root :
    let s := plain ["gate", "root"]
    (s.modules.map Entry.pathPrefix).Nodup ∧
    (∀ e ∈ s.modules, ModulePath.isValid e.pathPrefix = true) ∧
    ∃ f, (build .empty 0 s .empty).1 = .ok f ∧
      f.layout.loggers = [⟨"gate", .upTo .debug, ["gate_appender"], false⟩] ∧
      f.layout.root = ⟨.upTo .debug, ["root_appender", "console_appender"]⟩ := by
  intro s
  have hdistinct : (s.modules.map Entry.pathPrefix).Nodup := by decide
  have hvalid : ∀ e ∈ s.modules, ModulePath.isValid e.pathPrefix = true := by decide +kernel
  have hopens : ((openFiles .empty 0 s).run .empty).1.isOk = true := by decide +kernel
  refine ⟨hdistinct, hvalid, ?_⟩
  rcases hopened : (openFiles .empty 0 s).run .empty with ⟨why | files, disk'⟩
  · simp [hopened, Except.isOk, Except.toBool] at hopens
  · obtain ⟨-, -, hbuild⟩ := build_unless_confused .empty 0 s .empty hdistinct hvalid
    obtain ⟨f, hf, hloggers, hroot, -⟩ :=
      (hbuild files (congrArg Prod.fst hopened)).2 (by decide)
    refine ⟨f, hf, ?_, ?_⟩
    · rw [hloggers]
      decide +kernel
    · rw [hroot]
      decide +kernel

/-- The prefix `console` is sound and its file can be opened, yet without a root entry the log is not
built. -/
theorem build_console_fails :
    let s := plain ["console"]
    (s.modules.map Entry.pathPrefix).Nodup ∧
    (∀ e ∈ s.modules, ModulePath.isValid e.pathPrefix = true) ∧
    ((openFiles .empty 0 s).run .empty).1.isOk = true ∧
    (build .empty 0 s .empty).1 = .error (.layout [.duplicateAppender "console_appender"]) := by
  intro s
  have hdistinct : (s.modules.map Entry.pathPrefix).Nodup := by decide
  have hvalid : ∀ e ∈ s.modules, ModulePath.isValid e.pathPrefix = true := by decide +kernel
  have hopens : ((openFiles .empty 0 s).run .empty).1.isOk = true := by decide +kernel
  refine ⟨hdistinct, hvalid, hopens, ?_⟩
  rcases hopened : (openFiles .empty 0 s).run .empty with ⟨why | files, disk'⟩
  · simp [hopened, Except.isOk, Except.toBool] at hopens
  · rw [build_of_opened hopened, Layout.faults_ofSettings hdistinct hvalid, if_pos (by decide)]
    rfl

end Facility
end Logging
end Leasehold
