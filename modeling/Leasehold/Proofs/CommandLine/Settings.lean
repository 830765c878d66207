import Leasehold.CommandLine
import Leasehold.Proofs.Yaml.Fitting

/-!
# The policy of a run

Lease, wait and pause are each chosen by themselves: what the command line
gives, else what the document says, else the default. Only at the end does a
zero lease or a zero pause become the default; that every layer on the way
does the same makes no difference.
-/

namespace Leasehold
namespace Policy

/-- What a policy sets. -/
inductive Setting where
  | lease
  | wait
  | retry

namespace Setting

def standard : Setting → Duration
  | lease => Duration.ofSeconds 10
  | wait => Duration.zero
  | retry => Duration.ofMillis 100

def keys : Setting → List String
  | lease => ["lock", "lease_ms"]
  | wait => ["lock", "wait_timeout_ms"]
  | retry => ["lock", "retry_interval_ms"]

def value (p : Policy) : Setting → Duration
  | lease => p.lease
  | wait => p.wait
  | retry => p.retry

def given (o : Override) : Setting → Option Nat
  | lease => o.lease
  | wait => o.wait
  | retry => o.retry

/-- A zero wait stays; a zero lease or pause becomes the default. -/
def mended : Setting → Duration → Duration
  | wait, d => d
  | f, d => if d.isZero then f.standard else d

/-- The document says a number for the setting. -/
def Written (f : Setting) (document : Option Yaml.Value) (n : Nat) : Prop :=
  ∃ v ∈ document, v.Tells f.keys n

/-- What is chosen for the setting: the command line goes before the document, and a document that
says no number before nothing else. -/
inductive Chosen (f : Setting) (o : Override) (document : Option Yaml.Value) : Duration → Prop
  | given {n : Nat} (h : f.given o = some n) : Chosen f o document (.ofMillis n)
  | written {n : Nat} (hgiven : f.given o = none) (h : f.Written document n) :
      Chosen f o document (.ofMillis n)
  | standard (hgiven : f.given o = none) (h : ∀ n, ¬ f.Written document n) : Chosen f o document f.standard

variable {f : Setting} {o : Override} {document : Option Yaml.Value} {p q : Policy} {n : Nat}

theorem ext_value (h : ∀ f : Setting, f.value p = f.value q) : p = q := by
  obtain ⟨a, b, c⟩ := p
  obtain ⟨a', b', c'⟩ := q
  obtain rfl : a = a' := h lease
  obtain rfl : b = b' := h wait
  obtain rfl : c = c' := h retry
  rfl

@[simp] theorem mended_mended (f : Setting) (d : Duration) : f.mended (f.mended d) = f.mended d := by
  cases f with
  | wait => rfl
  | lease | retry =>
    simp only [mended]
    split_ifs <;> rfl

@[simp] theorem value_normalized (f : Setting) (p : Policy) : f.value p.normalized = f.mended (f.value p) := by
  cases f <;> rfl

@[simp] theorem value_standard (f : Setting) : f.value Policy.standard = f.standard := by
  cases f <;> rfl

end Setting

/-! ## Policies with zeros -/

/-- The policy that a document sets, as it says it. -/
def draft : Option Yaml.Value → Policy
  | none => standard
  | some v =>
    { lease := millisAt v "lock.lease_ms" standard.lease
      wait := millisAt v "lock.wait_timeout_ms" standard.wait
      retry := millisAt v "lock.retry_interval_ms" standard.retry }

/-- The policy with the given settings, as they are given. -/
def Override.replace (o : Override) (p : Policy) : Policy :=
  { lease := (o.lease.map Duration.ofMillis).getD p.lease
    wait := (o.wait.map Duration.ofMillis).getD p.wait
    retry := (o.retry.map Duration.ofMillis).getD p.retry }

theorem millisAt_eq {v : Yaml.Value} {path : String} {n : Nat} (h : v.Tells (Pieces.texts '.' path) n)
    (d : Duration) : millisAt v path d = .ofMillis n := by
  unfold millisAt
  rw [Yaml.Value.lookup_natural_eq_some.mpr h]

theorem millisAt_eq_default {v : Yaml.Value} {path : String} (h : ∀ n, ¬ v.Tells (Pieces.texts '.' path) n)
    (d : Duration) : millisAt v path d = d := by
  have hnone : (v.lookup? path).bind Yaml.Value.natural? = none :=
    Option.eq_none_iff_forall_ne_some.mpr fun n hn => h n (Yaml.Value.lookup_natural_eq_some.mp hn)
  unfold millisAt
  rw [hnone]

namespace Setting

variable {f : Setting} {o : Override} {document : Option Yaml.Value} {n : Nat}

@[simp] theorem value_replace (f : Setting) (o : Override) (p : Policy) :
    f.value (o.replace p) = ((f.given o).map Duration.ofMillis).getD (f.value p) := by
  cases f <;> rfl

def path : Setting → String
  | lease => "lock.lease_ms"
  | wait => "lock.wait_timeout_ms"
  | retry => "lock.retry_interval_ms"

theorem texts_path (f : Setting) : Pieces.texts '.' f.path = f.keys := by
  cases f <;> decide +kernel

theorem value_draft_some (f : Setting) (v : Yaml.Value) :
    f.value (draft (some v)) = millisAt v f.path f.standard := by
  cases f <;> rfl

theorem value_draft_written (h : f.Written document n) : f.value (draft document) = .ofMillis n := by
  obtain ⟨v, rfl, h⟩ := h
  rw [value_draft_some]
  exact millisAt_eq (f.texts_path ▸ h) _

theorem value_draft_standard (h : ∀ n, ¬ f.Written document n) : f.value (draft document) = f.standard := by
  cases document with
  | none => exact f.value_standard
  | some v =>
    rw [value_draft_some]
    exact millisAt_eq_default (fun n hn => h n ⟨v, rfl, f.texts_path ▸ hn⟩) _

theorem Chosen.eq {d : Duration} (h : f.Chosen o document d) : d = f.value (o.replace (draft document)) := by
  rw [value_replace]
  cases h with
  | given h => rw [h]; rfl
  | written hgiven h => rw [hgiven, value_draft_written h]; rfl
  | standard hgiven h => rw [hgiven, value_draft_standard h]; rfl

theorem exists_chosen (f : Setting) (o : Override) (document : Option Yaml.Value) :
    ∃ d, f.Chosen o document d := by
  cases hgiven : f.given o with
  | some n => exact ⟨_, .given hgiven⟩
  | none =>
    by_cases h : ∃ n, f.Written document n
    · obtain ⟨n, h⟩ := h
      exact ⟨_, .written hgiven h⟩
    · exact ⟨_, .standard hgiven (not_exists.mp h)⟩

/-- What is chosen for a setting hangs on what is given for it, and else on what is written for it. -/
theorem Chosen.congr {o' : Override} {document' : Option Yaml.Value} {d : Duration}
    (h : f.Chosen o document d) (hgiven : f.given o' = f.given o)
    (hwritten : f.given o = none → ∀ n, f.Written document' n ↔ f.Written document n) :
    f.Chosen o' document' d := by
  cases h with
  | given h => exact .given (hgiven.trans h)
  | written h₁ h₂ => exact .written (hgiven.trans h₁) ((hwritten h₁ _).mpr h₂)
  | standard h₁ h₂ => exact .standard (hgiven.trans h₁) fun n h => h₂ n ((hwritten h₁ n).mp h)

theorem value_layers (f : Setting) (o : Override) (document : Option Yaml.Value) :
    f.value (CommandLine.policy document o).normalized = f.mended (f.value (o.replace (draft document))) := by
  have hdocument : f.value ((document.map Policy.ofDocument).getD Policy.standard) =
      f.mended (f.value (draft document)) := by
    cases document with
    | none => cases f <;> rfl
    | some v => exact f.value_normalized _
  have hlayers : CommandLine.policy document o =
      (o.replace ((document.map Policy.ofDocument).getD Policy.standard)).normalized := rfl
  rw [hlayers]
  simp only [value_normalized, value_replace, hdocument, mended_mended]
  cases f.given o <;> simp

end Setting

/-- Zeros are taken out once and for all. -/
theorem layers_eq (o : Override) (document : Option Yaml.Value) :
    (CommandLine.policy document o).normalized = (o.replace (draft document)).normalized :=
  Setting.ext_value fun f => by rw [f.value_layers, f.value_normalized]

end Policy

namespace CommandLine

open Policy (Setting)

/-- A run takes a lock whose lease, wait and pause are each what is chosen for it, zeros mended. The
zeros may be mended after every layer or only at the end. No setting hangs on what is given or
written for another one, nor on the document where it is given; and the numbers of a document that
is read fit a word of 64 bits. -/
theorem Task.start_run_chosen (document : Option Yaml.Value) (o : Policy.Override) (token : Token)
    {key : String} (hkey : key ≠ "") :
    ∃ l, Lock.make key token (policy document o) = .ok l ∧
      (∀ {σ : Type} (t : Redis.Transport σ) (c : Redis.Client) (w : Session σ) (hold : Nat),
        (Task.run key o hold).start t c document token w = takeLock (c.leases t) l (.ofMillis hold) w) ∧
      (∀ f : Setting, (∃ d, f.Chosen o document d) ∧
        ∀ d, f.Chosen o document d → f.value l.policy = f.mended d) ∧
      l.policy = (o.replace (Policy.draft document)).normalized ∧
      0 < l.policy.lease.nanos ∧ 0 < l.policy.retry.nanos ∧
      (∀ (f : Setting) (o' : Policy.Override) (document' : Option Yaml.Value) (l' : Lock),
        Lock.make key token (policy document' o') = .ok l' → f.given o' = f.given o →
        (f.given o = none → ∀ n, f.Written document' n ↔ f.Written document n) →
        f.value l'.policy = f.value l.policy) ∧
      ∀ text, Yaml.value? text = document →
        ∀ (f : Setting) n, f.Written document n → n < 18446744073709551616 := by
  have hmake : ∀ {document o l}, Lock.make key token (policy document o) = .ok l →
      l.policy = (policy document o).normalized := by
    intro document o l h
    simp only [Lock.make, hkey, dite_false, Except.ok.injEq] at h
    exact h ▸ rfl
  obtain ⟨l, hl⟩ : ∃ l, Lock.make key token (policy document o) = .ok l := by
    simp [Lock.make, hkey]
  refine ⟨l, hl, fun t c w hold => ?_, fun f => ⟨f.exists_chosen o document, fun d h => ?_⟩, ?_,
    l.lease_pos, l.retry_pos, fun f o' document' l' hl' hgiven hwritten => ?_, ?_⟩
  · simp only [Task.start, hl]
  · rw [hmake hl, f.value_layers, h.eq]
  · rw [hmake hl, Policy.layers_eq]
  · obtain ⟨d, h⟩ := f.exists_chosen o document
    rw [hmake hl, hmake hl', f.value_layers, f.value_layers, ← h.eq, ← (h.congr hgiven hwritten).eq]
  · rintro text hread f n ⟨v, rfl, h⟩
    exact h.lt (Yaml.value?_fits hread)

/-- The lease is that of the document; a wait of zero is kept against it, and a pause of zero is not. -/
theorem Task.start_run_chosen_mixed :
    "door" ≠ "" ∧ ∃ l, Lock.make "door" (Token.ofNumber 0)
        (policy (Yaml.value? "lock: {lease_ms: 2500, wait_timeout_ms: 250}") ⟨none, some 0, some 0⟩) =
          .ok l ∧
      l.policy = ⟨.ofMillis 2500, .zero, .ofMillis 100⟩ := by
  have hkey : "door" ≠ "" := by decide
  obtain ⟨l, hl, -, -, hpolicy, -⟩ :=
    Task.start_run_chosen (Yaml.value? "lock: {lease_ms: 2500, wait_timeout_ms: 250}")
      ⟨none, some 0, some 0⟩ (Token.ofNumber 0) hkey
  exact ⟨hkey, l, hl, hpolicy.trans (by decide +kernel)⟩

end CommandLine
end Leasehold
