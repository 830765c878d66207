import Leasehold.Redis.Address

/-!
# Which part of a URL becomes which part of an address

A user name and a password are read off a URL apart from everything else: they
decide nothing about the server and the database, and an address has them
exactly when its URL does. So URLs that differ in them alone give addresses
that differ in them alone.
-/

namespace Leasehold
namespace Redis

/-- The URLs differ at most in a user name and in a password that both have. For a socket these
stand in the query. -/
structure Url.Akin (u u' : Url) : Prop where
  scheme : u.scheme = u'.scheme
  host : u.host = u'.host
  port : u.port = u'.port
  path : u.path = u'.path
  query : ∀ name, name ≠ "user" → name ≠ "pass" →
    Url.queryValue? u.query name = Url.queryValue? u'.query name
  user : u.user.isEmpty = u'.user.isEmpty
  password : u.password.isEmpty = u'.password.isEmpty
  queryUser : (Url.queryValue? u.query "user").isSome = (Url.queryValue? u'.query "user").isSome
  queryPassword : (Url.queryValue? u.query "pass").isSome = (Url.queryValue? u'.query "pass").isSome

namespace Address

/-- The addresses differ at most in a user name and in a password that both have. -/
structure Akin (a a' : Address) : Prop where
  endpoint : a.endpoint = a'.endpoint
  database : a.database = a'.database
  user : a.user.isSome = a'.user.isSome
  password : a.password.isSome = a'.password.isSome

theorem bind_eq_ok {α β : Type} {e : Except AddressFault α} {f : α → Except AddressFault β} {b : β}
    (h : (e >>= f) = .ok b) : ∃ a, e = .ok a ∧ f a = .ok b := by
  cases e with
  | error why => cases h
  | ok a => exact ⟨a, rfl, h⟩

theorem secret_eq_ok {fault : AddressFault} {cs : List Char} {o : Option String}
    (h : secret fault cs = .ok o) : o.isSome = !cs.isEmpty := by
  unfold secret at h
  split at h
  · rename_i hempty
    cases h
    simp [hempty]
  · rename_i hfull
    split at h
    · cases h
      simp [hfull]
    · cases h

/-- The number of the database that the path of a server's URL names. -/
def databaseOf (path : List Char) : Except AddressFault Int :=
  if (withoutSlashes path).isEmpty then .ok 0 else readDatabase (String.ofList (withoutSlashes path))

theorem ofServer_eq_ok {u : Url} {a : Address} (h : ofServer u = .ok a) :
    ∃ host, u.host = some host ∧ a.endpoint = .tcp host (u.port.getD defaultPort) ∧
      databaseOf u.path = .ok a.database ∧ a.user.isSome = !u.user.isEmpty ∧
      a.password.isSome = !u.password.isEmpty := by
  obtain ⟨scheme, user, password, host, port, path, query⟩ := u
  unfold ofServer at h
  cases host with
  | none => cases h
  | some host =>
    dsimp only at h ⊢
    split at h
    · cases h
    · have hnumbered : ∃ number, databaseOf path = .ok number ∧
          (do
            let user ← secret .badUser user
            let password ← secret .badPassword password
            pure ⟨.tcp host (port.getD defaultPort), number, user, password⟩) = Except.ok a := by
        unfold databaseOf
        split at h
        · rename_i hempty
          exact ⟨0, if_pos hempty, h⟩
        · rename_i hnumber
          obtain ⟨number, hread, hrest⟩ := bind_eq_ok h
          exact ⟨number, (if_neg hnumber).trans hread, hrest⟩
      obtain ⟨number, hdatabase, hrest⟩ := hnumbered
      obtain ⟨user', huser, hrest⟩ := bind_eq_ok hrest
      obtain ⟨password', hpassword, hrest⟩ := bind_eq_ok hrest
      cases hrest
      exact ⟨host, rfl, rfl, hdatabase, secret_eq_ok huser, secret_eq_ok hpassword⟩

def databaseOfQuery (query : List Char) : Except AddressFault Int :=
  match Url.queryValue? query "db" with
  | some text => readDatabase text
  | none => .ok 0

theorem ofSocket_eq_ok {u : Url} {a : Address} (h : ofSocket u = .ok a) :
    a.endpoint = .socket (Url.unescape u.path) ∧ databaseOfQuery u.query = .ok a.database ∧
      a.user = Url.queryValue? u.query "user" ∧ a.password = Url.queryValue? u.query "pass" := by
  unfold ofSocket at h
  unfold databaseOfQuery
  cases hdatabase : Url.queryValue? u.query "db" with
  | some text =>
    rw [hdatabase] at h
    dsimp only at h ⊢
    split at h
    · obtain ⟨number, hread, hrest⟩ := bind_eq_ok h
      cases hrest
      exact ⟨rfl, hread, rfl, rfl⟩
    · cases h
  | none =>
    rw [hdatabase] at h
    dsimp only at h ⊢
    split at h
    · cases h
      exact ⟨rfl, rfl, rfl, rfl⟩
    · cases h

theorem Akin.of_server {u u' : Url} {a a' : Address} (hu : u.Akin u') (h : ofServer u = .ok a)
    (h' : ofServer u' = .ok a') : a.Akin a' := by
  obtain ⟨host, hhost, hendpoint, hdatabase, huser, hpassword⟩ := ofServer_eq_ok h
  obtain ⟨host', hhost', hendpoint', hdatabase', huser', hpassword'⟩ := ofServer_eq_ok h'
  constructor
  · rw [hu.host, hhost'] at hhost
    cases hhost
    rw [hendpoint, hendpoint', hu.port]
  · rw [hu.path, hdatabase'] at hdatabase
    exact (Except.ok.inj hdatabase).symm
  · rw [huser, huser', hu.user]
  · rw [hpassword, hpassword', hu.password]

theorem Akin.of_socket {u u' : Url} {a a' : Address} (hu : u.Akin u') (h : ofSocket u = .ok a)
    (h' : ofSocket u' = .ok a') : a.Akin a' := by
  obtain ⟨hendpoint, hdatabase, huser, hpassword⟩ := ofSocket_eq_ok h
  obtain ⟨hendpoint', hdatabase', huser', hpassword'⟩ := ofSocket_eq_ok h'
  constructor
  · rw [hendpoint, hendpoint', hu.path]
  · unfold databaseOfQuery at hdatabase hdatabase'
    rw [hu.query "db" (by decide) (by decide), hdatabase'] at hdatabase
    exact (Except.ok.inj hdatabase).symm
  · rw [huser, huser', hu.queryUser]
  · rw [hpassword, hpassword', hu.queryPassword]

theorem Akin.of_url {url url' : String} {u u' : Url} {a a' : Address} (hparse : Url.parse? url = some u)
    (hparse' : Url.parse? url' = some u') (hu : u.Akin u') (h : ofUrl url = .ok a)
    (h' : ofUrl url' = .ok a') : a.Akin a' := by
  unfold ofUrl at h h'
  rw [hparse] at h
  rw [hparse'] at h'
  dsimp only at h h'
  rw [← hu.scheme] at h'
  by_cases hserver : u.scheme = "redis" ∨ u.scheme = "rediss"
  · rw [if_pos hserver] at h h'
    exact .of_server hu h h'
  · rw [if_neg hserver] at h h'
    by_cases hsocket : u.scheme = "unix" ∨ u.scheme = "redis+unix"
    · rw [if_pos hsocket] at h h'
      exact .of_socket hu h h'
    · rw [if_neg hsocket] at h
      cases h

end Address
end Redis
end Leasehold
