import Leasehold.CommandLine
import Leasehold.Proofs.Yaml.Lookup
import Leasehold.Redis.Playback

/-!
# Which server a run reaches

A document says where the server is and how long it may take to show a sign of
life. A URL on the command line goes before the document, and not only before
its URL: the time that the document allows is not looked at either, and the
server has the standard five seconds. So the URL is all that changes just when
the document says five seconds itself, or nothing of the time.
-/

namespace Leasehold

namespace Redis

/-- The keys that lead to the URL of a document. -/
def Settings.urlKeys : List String := ["redis", "url"]

/-- The keys that lead to the time that a document allows. -/
def Settings.limitKeys : List String := ["redis", "connect_timeout_ms"]

/-- How long a document lets a connection take: as many milliseconds as it says, else five seconds. -/
inductive Settings.Allows (v : Yaml.Value) : Duration → Prop
  | said {n : Nat} (h : v.Tells limitKeys n) : Allows v (.ofMillis n)
  | unsaid (h : ∀ n, ¬ v.Tells limitKeys n) : Allows v (.ofMillis 5000)

namespace Settings

variable {v : Yaml.Value} {url : String} {limit : Duration}

theorem exists_allows (v : Yaml.Value) : ∃ limit, Allows v limit := by
  by_cases h : ∃ n, v.Tells limitKeys n
  · obtain ⟨n, h⟩ := h
    exact ⟨_, .said h⟩
  · exact ⟨_, .unsaid (not_exists.mp h)⟩

theorem texts_limit : Pieces.texts '.' "redis.connect_timeout_ms" = limitKeys := by decide +kernel

theorem texts_url : Pieces.texts '.' "redis.url" = urlKeys := by decide +kernel

theorem lookup_url_eq_some :
    (v.lookup? "redis.url").bind Yaml.Value.string? = some url ↔ v.Says urlKeys url :=
  texts_url ▸ Yaml.Value.lookup_string_eq_some

theorem lookup_limit_eq_some {n : Nat} :
    (v.lookup? "redis.connect_timeout_ms").bind Yaml.Value.natural? = some n ↔ v.Tells limitKeys n :=
  texts_limit ▸ Yaml.Value.lookup_natural_eq_some

theorem ofMillis_eq_standard {n : Nat} : Duration.ofMillis n = .ofMillis 5000 ↔ n = 5000 := by
  constructor
  · intro h
    -- A longest duration stands for all longer ones, but five seconds are far below it.
    have hnanos : min (n * 1000000) (Duration.limit - 1) = min (5000 * 1000000) (Duration.limit - 1) :=
      congrArg Duration.nanos h
    unfold Duration.limit at hnanos
    omega
  · rintro rfl
    rfl

theorem Allows.eq_standard_iff (h : Allows v limit) :
    limit = .ofMillis 5000 ↔ ∀ n, v.Tells limitKeys n → n = 5000 := by
  cases h with
  | @said n h =>
    have hunique : ∀ m, v.Tells limitKeys m → m = n := fun m hm =>
      Option.some.inj ((lookup_limit_eq_some.mpr hm).symm.trans (lookup_limit_eq_some.mpr h))
    rw [ofMillis_eq_standard]
    constructor
    · rintro rfl
      exact hunique
    · intro hall
      exact hall n h
  | unsaid h => exact iff_of_true rfl fun n hn => absurd hn (h n)

theorem ofDocument_eq (hurl : v.Says urlKeys url) (hlimit : Allows v limit) :
    ofDocument v = .ok ⟨url, limit⟩ := by
  rw [ofDocument, lookup_url_eq_some.mpr hurl]
  cases hlimit with
  | said h =>
    rw [lookup_limit_eq_some.mpr h]
    rfl
  | unsaid h =>
    have hnone : (v.lookup? "redis.connect_timeout_ms").bind Yaml.Value.natural? = none :=
      Option.eq_none_iff_forall_ne_some.mpr fun n hn => h n (lookup_limit_eq_some.mp hn)
    rw [hnone]
    rfl

/-- The same settings for another URL. -/
def atUrl (s : Settings) (url : String) : Settings := { s with url }

end Settings

namespace Client

variable {σ : Type} (t : Transport σ) (w : Session σ)

theorem ping_timeout {c : Client} {timeout d : Duration} (h : (c.ping t w timeout).1 = .error (.timeout d)) :
    d = timeout := by
  unfold ping at h
  dsimp only at h
  split at h
  · split at h <;> cases h
  · split at h <;> cases h
    rfl

theorem connect_timeout {s : Settings} {d : Duration} (h : (connect t w s).1 = .error (.timeout d)) :
    d = s.connectTimeout := by
  cases haddress : Address.ofUrl s.url with
  | error why =>
    simp only [connect, ofSettings, haddress] at h
    cases h
  | ok address =>
    simp only [connect, ofSettings, haddress, List.foldl_nil] at h
    rcases hping : (Client.mk s address).ping t w s.connectTimeout with ⟨why | _, w'⟩
    · rw [hping] at h
      cases h
      exact ping_timeout t w (congrArg Prod.fst hping)
    · rw [hping] at h
      cases h

/-- Only a ping has a time of its own. -/
theorem remaining_ne_timeout (c : Client) (key : String) (d : Duration) :
    (c.remaining t w key).1 ≠ .error (.timeout d) := by
  have hcall : (c.remaining t w key).1 =
      ((c.hold t w none (Dialogue.remaining t key)).1.mapError StoreError.connection).map fun n =>
        if n < 0 then none else some (.ofMillis n.toNat) := rfl
  rw [hcall]
  cases (c.hold t w none (Dialogue.remaining t key)).1 <;> nofun

end Client
end Redis

namespace CommandLine

variable {σ : Type} (t : Redis.Transport σ)

/-- The time for which a run waited in vain for a sign of life, if it ended because of that. -/
def Ended.vainWait? (e : Ended σ) : Option Duration :=
  match e.result with
  | .error (.store (.timeout d)) => some d
  | _ => none

def Task.reach (settings : Redis.Settings) (document : Option Yaml.Value) (token : Token) (w : Session σ)
    (task : Task) : Progress σ :=
  match Redis.Client.connect t w settings with
  | (.error why, w) => .ended ⟨.error (.store why), .nothing, w⟩
  | (.ok c, w) => task.start t c document token w

/-! ## Waits in vain -/

/-- Who has reached the server does not wait for a sign of life any more. -/
theorem vainWait?_finish (h : Holding σ) : h.finish.vainWait? = none := by
  unfold Holding.finish
  split <;> rfl

theorem vainWait?_takeLock (store : LeaseStore σ) (l : Lock) (hold : Duration) (w : Session σ) :
    (takeLock store l hold w).finish.vainWait? = none := by
  unfold takeLock
  split
  · rfl
  · rfl
  · rfl
  · exact vainWait?_finish _

theorem Task.vainWait?_start (c : Redis.Client) (document : Option Yaml.Value) (token : Token)
    (w : Session σ) (task : Task) : (task.start t c document token w).finish.vainWait? = none := by
  cases task with
  | ping => rfl
  | run key override hold =>
    rw [start]
    split
    · rfl
    · exact vainWait?_takeLock _ _ _ w
  | ttl key =>
    rw [start]
    split
    · next why w' hremaining =>
      have hne : ∀ d, why ≠ .timeout d := by
        rintro d rfl
        exact Redis.Client.remaining_ne_timeout t w c key d (congrArg Prod.fst hremaining)
      unfold Progress.finish Ended.vainWait?
      split
      · next d h => exact absurd (by cases h; rfl) (hne d)
      · rfl
    · rfl
    · rfl

theorem Task.vainWait?_reach {settings : Redis.Settings} {document : Option Yaml.Value} {token : Token}
    {w : Session σ} {task : Task} {d : Duration}
    (h : (task.reach t settings document token w).finish.vainWait? = some d) : d = settings.connectTimeout := by
  unfold reach at h
  split at h
  · next why w' hconnect =>
    refine Redis.Client.connect_timeout t w ?_
    rw [hconnect]
    unfold Progress.finish Ended.vainWait? at h
    split at h
    · next heq =>
      cases heq
      cases h
      rfl
    · cases h
  · rw [Task.vainWait?_start] at h
    cases h

/-! ## URLs of the command line -/

namespace Request

/-- The request with another URL of its own, or with none. -/
def withUrl (r : Request) (url : Option String) : Request := { r with redisUrl := url }

variable {t} {r : Request} {document : Option Yaml.Value} {settings : Redis.Settings} {s : Surroundings}

theorem settings_of_document {v : Yaml.Value} {url : String} {limit : Duration}
    (hurl : v.Says Redis.Settings.urlKeys url) (hlimit : Redis.Settings.Allows v limit) (r : Request)
    (env : Environment) (directory : String) (envFile : Option (List UInt8)) :
    (r.withUrl none).settings (some v) env directory envFile = (.ok ⟨url, limit⟩, []) := by
  have hhas : (v.lookup? "redis.url").isSome = true := by
    obtain ⟨found, hfound, -⟩ := Option.bind_eq_some_iff.mp (Redis.Settings.lookup_url_eq_some.mpr hurl)
    exact Option.isSome_of_eq_some hfound
  have hfilter : (some v).filter (fun v => (v.lookup? "redis.url").isSome) = some v := if_pos hhas
  simp only [settings, withUrl, hfilter, Redis.Settings.ofDocument_eq hurl hlimit]

theorem start_eq_reach (hdocument : r.document? s.disk = .ok document)
    (hsettings : r.settings document s.env s.directory s.envFile = (.ok settings, [])) (token : Token)
    (w : Session σ) : r.start t s token w = r.task.reach t settings document token w := by
  rw [start, hdocument]
  dsimp only
  rw [hsettings]
  rfl

theorem document?_of_text {path text : String} {v : Yaml.Value} (hconfig : r.config = some path)
    (htext : (s.disk.text path).toOption = some text) (hvalue : Yaml.value? text = some v) :
    r.document? s.disk = .ok (some v) := by
  cases h : s.disk.text path with
  | error why => rw [h] at htext; cases htext
  | ok text' =>
    obtain rfl : text' = text := by rw [h] at htext; exact Option.some.inj htext
    simp only [document?, hconfig, CommandLine.document, h, hvalue]
    rfl

/-- Whatever the environment, a URL of its own makes a request forget the document, with the time
that it allows: it has five seconds, and without the URL it has what the document allows. So the URL
is all that changes just when the document says five seconds or nothing. The server is reached with
these settings, and a vain wait for it is as long as they say. -/
theorem own_url_resets_limit {v : Yaml.Value} {url : String} (hurl : v.Says Redis.Settings.urlKeys url)
    (r : Request) (u : String) :
    ∃ limit, Redis.Settings.Allows v limit ∧
      (∀ env directory envFile,
        let plain := (r.withUrl none).settings (some v) env directory envFile
        let own := (r.withUrl (some u)).settings (some v) env directory envFile
        plain = (.ok ⟨url, limit⟩, []) ∧ own = (.ok ⟨u, .ofMillis 5000⟩, []) ∧
        (own.1 = plain.1.map (·.atUrl u) ↔ ∀ n, v.Tells Redis.Settings.limitKeys n → n = 5000)) ∧
      ∀ {σ : Type} (t : Redis.Transport σ) (s : Surroundings) (token : Token) (w : Session σ),
        r.document? s.disk = .ok (some v) →
        (r.withUrl none).start t s token w = r.task.reach t ⟨url, limit⟩ (some v) token w ∧
        (r.withUrl (some u)).start t s token w = r.task.reach t ⟨u, .ofMillis 5000⟩ (some v) token w ∧
        (∀ d, ((r.withUrl none).run t s token w).vainWait? = some d → d = limit) ∧
        ∀ d, ((r.withUrl (some u)).run t s token w).vainWait? = some d → d = .ofMillis 5000 := by
  obtain ⟨limit, hlimit⟩ := Redis.Settings.exists_allows v
  have hplain := settings_of_document hurl hlimit r
  refine ⟨limit, hlimit, fun env directory envFile => ⟨hplain env directory envFile, rfl, ?_⟩,
    fun t s token w hdocument => ?_⟩
  · have hown : ((r.withUrl (some u)).settings (some v) env directory envFile).1 =
        .ok ⟨u, .ofMillis 5000⟩ := rfl
    rw [hplain, hown, ← hlimit.eq_standard_iff]
    simp [Redis.Settings.atUrl, Except.map, eq_comm]
  · have hstart : (r.withUrl none).start t s token w = r.task.reach t ⟨url, limit⟩ (some v) token w :=
      start_eq_reach (r := r.withUrl none) hdocument (hplain _ _ _) token w
    have hown : (r.withUrl (some u)).start t s token w =
        r.task.reach t ⟨u, .ofMillis 5000⟩ (some v) token w :=
      start_eq_reach (r := r.withUrl (some u)) hdocument rfl token w
    refine ⟨hstart, hown, fun d hd => ?_, fun d hd => ?_⟩
    · rw [run, hstart] at hd
      exact Task.vainWait?_reach t hd
    · rw [run, hown] at hd
      exact Task.vainWait?_reach t hd

/-! ## A document in a hurry -/

/-- A document that allows less than a second. -/
def hasty : String := "redis:\n  url: redis://cache\n  connect_timeout_ms: 750\n"

def desk : Surroundings :=
  ⟨⟨.folder .all [("c", .file 0 false (Utf8.encode hasty))], [], 1⟩, "/", .empty⟩

/-- Asks for a sign of life from the server of the document. -/
def knock : Request := ⟨some "c", none, none, .ping⟩

/-- A server that lets everyone in and says nothing. -/
def mute (host : String) : Redis.Network :=
  { Redis.Network.start true (.tcp host 6379) with queue := [.hang] }

theorem value_hasty :
    ∃ v, Yaml.value? hasty = some v ∧ v.Says Redis.Settings.urlKeys "redis://cache" ∧
      v.Tells Redis.Settings.limitKeys 750 := by
  have hurl : (Yaml.value? hasty).bind (fun v => (v.lookup? "redis.url").bind Yaml.Value.string?) =
      some "redis://cache" := by decide +kernel
  have hlimit : (Yaml.value? hasty).bind
      (fun v => (v.lookup? "redis.connect_timeout_ms").bind Yaml.Value.natural?) = some 750 := by
    decide +kernel
  obtain ⟨v, hv, hsays⟩ := Option.bind_eq_some_iff.mp hurl
  rw [hv] at hlimit
  exact ⟨v, hv, Redis.Settings.lookup_url_eq_some.mp hsays, Redis.Settings.lookup_limit_eq_some.mp hlimit⟩

theorem document?_knock {v : Yaml.Value} (hv : Yaml.value? hasty = some v) :
    knock.document? desk.disk = .ok (some v) :=
  document?_of_text rfl (by decide +kernel) hv

theorem vainWait?_knock :
    ((knock.withUrl none).run Redis.Network.transport desk (.ofNumber 0) (.start (mute "cache"))).vainWait? =
      some (.ofMillis 750) := by decide +kernel

/-- From the document the time is three quarters of a second, and with a URL of its own the request
has five seconds again. -/
theorem own_url_resets_limit_hasty :
    ∃ v, v.Says Redis.Settings.urlKeys "redis://cache" ∧ knock.document? desk.disk = .ok (some v) ∧
      ∃ limit, Redis.Settings.Allows v limit ∧ limit = .ofMillis 750 ∧
        ((knock.withUrl (some "redis://other")).settings (some v) .empty "/" none).1 =
          .ok ⟨"redis://other", .ofMillis 5000⟩ := by
  obtain ⟨v, hv, hurl, -⟩ := value_hasty
  have hdocument := document?_knock hv
  obtain ⟨limit, hlimit, hsettings, hrun⟩ := own_url_resets_limit hurl knock "redis://other"
  obtain ⟨-, -, hvain, -⟩ := hrun Redis.Network.transport desk (.ofNumber 0) (.start (mute "cache")) hdocument
  exact ⟨v, hurl, hdocument, limit, hlimit, (hvain _ vainWait?_knock).symm,
    congrArg Prod.fst (hsettings .empty "/" none).2.1⟩

/-- The document allows less than a second, and still the server of the URL has five. -/
theorem own_url_outwaits_document :
    (∃ v, Yaml.value? hasty = some v ∧ v.Says Redis.Settings.urlKeys "redis://cache" ∧
      v.Tells Redis.Settings.limitKeys 750 ∧
      let plain := (knock.withUrl none).settings (some v) .empty "/" none
      let own := (knock.withUrl (some "redis://other")).settings (some v) .empty "/" none
      plain = (.ok ⟨"redis://cache", .ofMillis 750⟩, []) ∧
      own = (.ok ⟨"redis://other", .ofMillis 5000⟩, []) ∧
      own.1 ≠ plain.1.map (·.atUrl "redis://other")) ∧
    ((knock.withUrl none).run Redis.Network.transport desk (.ofNumber 0) (.start (mute "cache"))).vainWait? =
      some (.ofMillis 750) ∧
    ((knock.withUrl (some "redis://other")).run Redis.Network.transport desk (.ofNumber 0)
      (.start (mute "other"))).vainWait? = some (.ofMillis 5000) := by
  refine ⟨?_, vainWait?_knock, by decide +kernel⟩
  obtain ⟨v, hv, hurl, hlimit⟩ := value_hasty
  have hplain := settings_of_document hurl (.said hlimit) knock .empty "/" none
  refine ⟨v, hv, hurl, hlimit, hplain, rfl, ?_⟩
  rw [hplain]
  intro h
  have htimes : Duration.ofMillis 5000 = Duration.ofMillis 750 :=
    congrArg Redis.Settings.connectTimeout (Except.ok.inj h)
  exact absurd htimes (by decide)

end Request

end CommandLine
end Leasehold
