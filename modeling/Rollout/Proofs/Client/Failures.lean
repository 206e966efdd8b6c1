/-
When a client behind a cache fails.

A cache that fails to be read counts as a miss, whatever an entry holds, and a cache that fails to be
written changes nothing for the caller.  Once a subject has a key, only the inner client is left to
fail: the answer of the call that reaches it, if there is one, is the answer of the whole.  A subject
without a key fails before anything is asked, whether or not the inner client would answer.

* `CachingClient.watched` — a caching client whose inner calls are kept;
* `CachingClient.watched_read`, `watched_write`, `watched_fetch` — one lemma a stage;
* `CachingClient.evaluate_failure` — the failures of an evaluation, and where they come from.
-/
import Rollout.Proofs.Client.Storage
import Rollout.Proofs.Fingerprint.Keyed
import Rollout.Proofs.Provider.Watched
import Rollout.Proofs.Record.Rearranged

namespace Rollout

open Watched (act)
open Provider (SameOutside act_eq act_silent)

theorem Record.Plain.keyed {a : Subject} (h : a.Plain) (hshallow : a.Shallow) : a.Keyed :=
  exists_cacheKey_iff.mp (exists_cacheKey h hshallow)

namespace CachingClient

variable {σ : Type}

/-- A caching client whose inner calls and log are kept. -/
def watched (c : CachingClient σ) : CachingClient (Watched σ) where
  inner := c.inner.watched
  cache :=
    { get := fun key => act (fun _ => []) (c.cache.get key)
      set := fun key value ttl => act (fun _ => []) (c.cache.set key value ttl)
      delete := fun key => act (fun _ => []) (c.cache.delete key)
      exists? := fun key => act (fun _ => []) (c.cache.exists? key)
      clear := act (fun _ => []) c.cache.clear }
  ttl := c.ttl
  log event w := { w with outside := c.log event w.outside, logs := w.logs ++ [event] }

variable (c : CachingClient σ) (key : String) (subject : Subject) (flags : List String)
  (w : Watched σ)

/-! ### The cache -/

theorem watched_warn {α : Type} (event : String) (failure : Failure) (result : α) :
    SameOutside (c.watched.warn event key failure result w)
        (c.warn event key failure result w.outside) ∧
      (c.watched.warn event key failure result w).2.calls = w.calls := by
  rw [warn, warn]
  cases failure.message with
  | ok message => exact ⟨⟨rfl, rfl⟩, rfl⟩
  | error other => exact ⟨⟨rfl, rfl⟩, rfl⟩

/-- Reading the cache asks the inner client for nothing. -/
theorem watched_read : SameOutside (c.watched.read key w) (c.read key w.outside) ∧
    (c.watched.read key w).2.calls = w.calls := by
  have hget : c.watched.cache.get key w
      = ((c.cache.get key w.outside).1, w.leave (c.cache.get key w.outside).2) :=
    act_silent (c.cache.get key) w
  rw [read, read, hget]
  rcases c.cache.get key w.outside with ⟨failure | value, outside⟩
  · exact c.watched_warn key (w.leave outside) _ failure none
  · dsimp only
    cases decode value with
    | ok found => exact ⟨⟨rfl, rfl⟩, rfl⟩
    | error failure => exact c.watched_warn key (w.leave outside) _ failure none

/-- Writing the cache asks the inner client for nothing. -/
theorem watched_write (variants : Variants) :
    SameOutside (c.watched.write key variants w) (c.write key variants w.outside) ∧
      (c.watched.write key variants w).2.calls = w.calls := by
  rw [write, write]
  cases variants.dump with
  | error failure => exact c.watched_warn key w _ failure ()
  | ok entries =>
    have hset : c.watched.cache.set key (.map entries) c.watched.ttl w
        = ((c.cache.set key (.map entries) c.ttl w.outside).1,
          w.leave (c.cache.set key (.map entries) c.ttl w.outside).2) :=
      act_silent (c.cache.set key (.map entries) c.ttl) w
    dsimp only
    rw [hset]
    rcases c.cache.set key (.map entries) c.ttl w.outside with ⟨failure | ⟨⟩, outside⟩
    · exact c.watched_warn key (w.leave outside) _ failure ()
    · exact ⟨⟨rfl, rfl⟩, rfl⟩

/-- Reading the cache fails only when the cache fails without a text. -/
theorem read_error_iff {w : σ} {f : Failure} : (c.read key w).1 = .error f ↔
    ∃ thrown, (c.cache.get key w).1 = .error thrown ∧ thrown.message = .error f := by
  rw [read]
  rcases c.cache.get key w with ⟨thrown | value, w'⟩
  · simp only [warn, Except.error.injEq, exists_eq_left']
    cases thrown.message with
    | ok message => simp
    | error other => simp
  · dsimp only
    cases hdecode : decode value with
    | ok found => simp
    | error failure =>
      obtain ⟨message, hmessage⟩ := Variants.hasText_of_decode hdecode
      simp [warn, hmessage]

/-- Writing the cache fails only when variants that can be reduced are written and the cache fails
without a text. -/
theorem write_error_iff {w : σ} {variants : Variants} {f : Failure} :
    (c.write key variants w).1 = .error f ↔ ∃ entries thrown, variants.dump = .ok entries ∧
      (c.cache.set key (.map entries) c.ttl w).1 = .error thrown ∧ thrown.message = .error f := by
  rw [write]
  cases hdump : variants.dump with
  | error failure =>
    obtain ⟨message, hmessage⟩ := Variants.hasText_of_dump hdump
    simp [warn, hmessage]
  | ok entries =>
    simp only [Except.ok.injEq, exists_and_left, exists_eq_left']
    rcases c.cache.set key (.map entries) c.ttl w with ⟨thrown | ⟨⟩, w'⟩
    · simp only [warn, Except.error.injEq, exists_eq_left']
      cases thrown.message with
      | ok message => simp
      | error other => simp
    · simp

/-- A cache that fails without a text: when it is read, or when it is written after the inner client
has answered. -/
inductive Silenced (c : CachingClient σ) (key : String) (subject : Subject) (w : σ) (f : Failure) :
    Prop
  | read (thrown : Failure) (get : (c.cache.get key w).1 = .error thrown)
      (text : thrown.message = .error f)
  | write (w₁ w₂ : σ) (variants : Variants) (entries : Attributes) (thrown : Failure)
      (read : c.read key w = (.ok none, w₁))
      (answer : c.inner.evaluate subject [] w₁ = (.ok variants, w₂))
      (dump : variants.dump = .ok entries)
      (set : (c.cache.set key (.map entries) c.ttl w₂).1 = .error thrown)
      (text : thrown.message = .error f)

/-! ### The inner client -/

/-- What the inner client answers is written, and it is asked once. -/
theorem watched_refresh :
    SameOutside (c.watched.refresh key subject w) (c.refresh key subject w.outside) ∧
    (c.watched.refresh key subject w).2.calls
      = w.calls ++ [.evaluate subject [] (c.inner.evaluate subject [] w.outside).1] := by
  have hinner : c.watched.inner.evaluate subject [] w
      = ((c.inner.evaluate subject [] w.outside).1, { w with
          outside := (c.inner.evaluate subject [] w.outside).2,
          calls := w.calls ++ [.evaluate subject [] (c.inner.evaluate subject [] w.outside).1] }) :=
    act_eq (fun result => [.evaluate subject [] result]) (c.inner.evaluate subject []) w
  rw [refresh, refresh, hinner]
  rcases c.inner.evaluate subject [] w.outside with ⟨failure | vs, outside⟩
  · exact ⟨⟨rfl, rfl⟩, rfl⟩
  · have hwrite := c.watched_write key
      { w with outside, calls := w.calls ++ [.evaluate subject [] (.ok vs)] } vs
    dsimp only at hwrite ⊢
    generalize c.watched.write key vs _ = observed at hwrite ⊢
    generalize c.write key vs outside = plain at hwrite ⊢
    obtain ⟨result, w'⟩ := observed
    obtain ⟨result', outside'⟩ := plain
    obtain ⟨⟨hresult, houtside⟩, hkept⟩ := hwrite
    obtain rfl : result = result' := hresult
    cases result with
    | error failure => exact ⟨⟨rfl, houtside⟩, hkept⟩
    | ok => exact ⟨⟨rfl, houtside⟩, hkept⟩

/-- The inner client is asked once when nothing is found in the cache, and not at all otherwise. -/
theorem watched_fetch :
    SameOutside (c.watched.fetch key subject w) (c.fetch key subject w.outside) ∧
    (((c.read key w.outside).1 ≠ .ok none ∧ (c.watched.fetch key subject w).2.calls = w.calls) ∨
      ∃ w₁, c.read key w.outside = (.ok none, w₁) ∧
        (c.watched.fetch key subject w).2.calls
          = w.calls ++ [.evaluate subject [] (c.inner.evaluate subject [] w₁).1]) := by
  obtain ⟨⟨hfound, houtside⟩, hcalls⟩ := c.watched_read key w
  rw [SameOutside, fetch, fetch]
  rcases hread : c.read key w.outside with ⟨found, outside⟩
  rcases hwatched : c.watched.read key w with ⟨found', w'⟩
  rw [hread, hwatched] at hfound houtside
  rw [hwatched] at hcalls
  obtain rfl : found' = found := hfound
  obtain rfl : w'.outside = outside := houtside
  obtain hcalls : w'.calls = w.calls := hcalls
  rcases found' with failure | (- | vs)
  · exact ⟨⟨rfl, rfl⟩, .inl ⟨fun h => (by cases h), hcalls⟩⟩
  · obtain ⟨hsame, hasked⟩ := c.watched_refresh key subject w'
    rw [hcalls] at hasked
    exact ⟨hsame, .inr ⟨_, rfl, hasked⟩⟩
  · exact ⟨⟨rfl, rfl⟩, .inl ⟨fun h => (by cases h), hcalls⟩⟩

/-! ### Failures -/

theorem refresh_error_iff {w : σ} {f : Failure} : (c.refresh key subject w).1 = .error f ↔
    (c.inner.evaluate subject [] w).1 = .error f ∨
      ∃ vs w', c.inner.evaluate subject [] w = (.ok vs, w') ∧ (c.write key vs w').1 = .error f := by
  rw [refresh]
  rcases c.inner.evaluate subject [] w with ⟨failure | vs, w'⟩
  · simp
  · simp only [Prod.mk.injEq, Except.ok.injEq, reduceCtorEq, false_or]
    rcases hwrite : c.write key vs w' with ⟨failure | ⟨⟩, w''⟩
    · constructor
      · intro h
        cases h
        exact ⟨vs, w', ⟨rfl, rfl⟩, congrArg Prod.fst hwrite⟩
      · rintro ⟨vs', _, ⟨rfl, rfl⟩, h⟩
        rw [hwrite] at h
        cases h
        rfl
    · constructor
      · intro h
        cases h
      · rintro ⟨vs', _, ⟨rfl, rfl⟩, h⟩
        rw [hwrite] at h
        cases h

theorem silenced_iff {w : σ} {f : Failure} : c.Silenced key subject w f ↔
    (c.read key w).1 = .error f ∨ ∃ w₁ vs w₂, c.read key w = (.ok none, w₁) ∧
      c.inner.evaluate subject [] w₁ = (.ok vs, w₂) ∧ (c.write key vs w₂).1 = .error f := by
  simp only [read_error_iff, write_error_iff]
  constructor
  · rintro (⟨thrown, hget, htext⟩ | ⟨w₁, w₂, vs, entries, thrown, hread, hanswer, hdump, hset, htext⟩)
    · exact .inl ⟨thrown, hget, htext⟩
    · exact .inr ⟨w₁, vs, w₂, hread, hanswer, entries, thrown, hdump, hset, htext⟩
  · rintro (⟨thrown, hget, htext⟩ | ⟨w₁, vs, w₂, hread, hanswer, entries, thrown, hdump, hset, htext⟩)
    · exact .read thrown hget htext
    · exact .write w₁ w₂ vs entries thrown hread hanswer hdump hset htext

/-- Coming by variants fails with the inner client, or when the cache fails without a text. -/
theorem fetch_error_iff {w : σ} {f : Failure} : (c.fetch key subject w).1 = .error f ↔
    (∃ w₁, c.read key w = (.ok none, w₁) ∧ (c.inner.evaluate subject [] w₁).1 = .error f) ∨
      c.Silenced key subject w f := by
  rw [silenced_iff, fetch]
  rcases hread : c.read key w with ⟨failure | (- | vs), w₁⟩
  · simp
  · dsimp only
    rw [refresh_error_iff]
    simp
  · simp

/-- Unless the cache fails without a text, the inner client's answer is what is come by. -/
theorem fetch_of_read_none {w w₁ : σ} (hread : c.read key w = (.ok none, w₁))
    (htexts : ∀ f, ¬ c.Silenced key subject w f) :
    (c.fetch key subject w).1 = (c.inner.evaluate subject [] w₁).1 := by
  rw [fetch, hread]
  dsimp only
  rw [refresh]
  rcases hinner : c.inner.evaluate subject [] w₁ with ⟨failure | vs, w₂⟩
  · rfl
  · dsimp only
    rcases hwrite : c.write key vs w₂ with ⟨failure | ⟨⟩, w₃⟩
    -- A write that fails is one that the hypothesis excludes.
    · refine absurd ((c.silenced_iff key subject).mpr (.inr ⟨w₁, vs, w₂, hread, hinner, ?_⟩))
        (htexts failure)
      rw [hwrite]
    · rfl

theorem exists_failure_of_not_keyed {subject : Subject} (h : ¬ subject.Keyed) :
    ∃ f, cacheKey subject = .error f := by
  rcases hkey : cacheKey subject with f | key
  · exact ⟨f, rfl⟩
  · exact absurd (exists_cacheKey_iff.mp ⟨key, hkey⟩) h

/-- Keeping the inner calls changes neither the result nor the world outside. -/
theorem watched_evaluate :
    SameOutside (c.watched.evaluate subject flags w) (c.evaluate subject flags w.outside) := by
  rcases hkey : cacheKey subject with f | key
  · rw [SameOutside, evaluate_of_keyless hkey, evaluate_of_keyless hkey]
    exact ⟨rfl, rfl⟩
  · obtain ⟨⟨hresult, houtside⟩, -⟩ := c.watched_fetch key subject w
    rw [SameOutside, evaluate_of_cacheKey hkey, evaluate_of_cacheKey hkey]
    exact ⟨congrArg (Except.map (Variants.select · flags)) hresult, houtside⟩

/-- **Only the inner client fails an evaluation.**  An evaluation of a subject with a key asks the
inner client at most once, for all flags.  It fails exactly when it asks and the inner client fails,
with that failure, or when the cache fails without a text; otherwise what the inner client answers is
served whatever the cache does.  A subject without a key fails with the cache and the inner client
untouched. -/
theorem evaluate_failure (c : CachingClient σ) (subject : Subject) (flags : List String) (w : σ) :
    let observed := c.watched.evaluate subject flags (.begin w)
    SameOutside observed (c.evaluate subject flags w) ∧
    (subject.Keyed → ∃ key, cacheKey subject = .ok key ∧
      (∀ f, observed.1 = .error f ↔
        observed.2.calls = [.evaluate subject [] (.error f)] ∨ c.Silenced key subject w f) ∧
      (observed.2.calls = [] ∨ ∃ result, observed.2.calls = [.evaluate subject [] result] ∧
        ((∀ f, ¬ c.Silenced key subject w f) → observed.1 = result.map (·.select flags)))) ∧
    (¬ subject.Keyed → ∃ f, observed = (.error f, .begin w)) := by
  intro observed
  refine ⟨c.watched_evaluate subject flags (.begin w), fun hkeyed => ?_, fun hkeyed => ?_⟩
  · obtain ⟨key, hkey⟩ := exists_cacheKey_iff.mpr hkeyed
    obtain ⟨⟨hresult, -⟩, hcalls⟩ := c.watched_fetch key subject (.begin w)
    have hobserved : observed = _ := evaluate_of_cacheKey hkey flags (Watched.begin w)
    have herror : ∀ f, observed.1 = .error f ↔ (c.fetch key subject w).1 = .error f := by
      intro f
      rw [hobserved, hresult, map_eq_error_iff]
      rfl
    have hkept : observed.2.calls = (c.watched.fetch key subject (.begin w)).2.calls := by
      rw [hobserved]
    rw [← hkept] at hcalls
    refine ⟨key, hkey, fun f => ?_, ?_⟩
    · rw [herror, fetch_error_iff]
      refine or_congr_left ?_
      rcases hcalls with ⟨hfound, hcalls⟩ | ⟨w₁, hread, hcalls⟩
      · rw [hcalls]
        refine iff_of_false ?_ (fun h => by cases h)
        rintro ⟨w₁, hread, -⟩
        exact hfound (congrArg Prod.fst hread)
      · have hread : c.read key w = (.ok none, w₁) := hread
        rw [hcalls, hread]
        simp [Watched.begin, eq_comm]
    · rcases hcalls with ⟨-, hcalls⟩ | ⟨w₁, hread, hcalls⟩
      · exact .inl hcalls
      · refine .inr ⟨_, hcalls, fun htexts => ?_⟩
        rw [hobserved, hresult]
        exact congrArg (Except.map (Variants.select · flags))
          (c.fetch_of_read_none key subject hread htexts)
  · obtain ⟨f, hf⟩ := exists_failure_of_not_keyed hkeyed
    exact ⟨f, evaluate_of_keyless hf flags (Watched.begin w)⟩

/-- A cache that is down for every call. -/
def brokenCache : CacheBackend StaticClient where
  get _ w := (.error (.thrown .connection [.text "down"]), w)
  set _ _ _ w := (.error (.thrown .connection [.text "down"]), w)
  delete _ w := (.error (.thrown .connection [.text "down"]), w)
  exists? _ w := (.error (.thrown .connection [.text "down"]), w)
  clear w := (.error (.thrown .connection [.text "down"]), w)

/-- A cache that is down fails nothing, whether or not the payload can be reduced. -/
theorem evaluate_failure_outage :
    let served : Variants := [("seats", ⟨"few", none, .object, []⟩)]
    let c : CachingClient StaticClient :=
      ⟨StaticClient.client served (.whole _), brokenCache, none, fun _ w => w⟩
    let subject : Subject := Record.ofProperties "u1" []
    let observed := c.watched.evaluate subject ["seats"] (.begin .fresh)
    observed.2.calls = [.evaluate subject [] (.ok served)] ∧ ¬ ∃ f, observed.1 = .error f := by
  intro served c subject observed
  have hempty : (Value.map []).Plain := .map [] named_nil (by simp)
  have hshallow : subject.Shallow := (Record.ofProperties_shallow_iff "u1").mpr fun e he => by cases he
  have hkeyed : subject.Keyed := (Record.ofProperties_plain "u1" hempty).keyed hshallow
  have hcalls : observed.2.calls = [.evaluate subject [] (.ok served)] := by
    obtain ⟨key, hkey⟩ := exists_cacheKey_iff.mpr hkeyed
    have hobserved : observed = _ :=
      evaluate_of_cacheKey hkey ["seats"] (Watched.begin StaticClient.fresh)
    rw [hobserved]
    rfl
  refine ⟨hcalls, fun ⟨f, hf⟩ => ?_⟩
  obtain ⟨-, honly, -⟩ := evaluate_failure c subject ["seats"] .fresh
  obtain ⟨key, -, hfails, -⟩ := honly hkeyed
  rcases (hfails f).mp hf with hasked | hsilenced
  · rw [hcalls] at hasked
    cases hasked
  · cases hsilenced with
    | read thrown hget htext =>
      cases hget
      cases htext
    | write w₁ w₂ vs entries thrown hread hanswer hdump hset htext =>
      cases hset
      cases htext

/-- A subject that is built from a context with an object has no key, and no cache serves it although
the inner client has variants for it. -/
theorem evaluate_object_fails :
    let context : Attributes := [(.text "user_id", .text "u"), (.text "o", .object)]
    let served : Variants := [("seats", ⟨"few", none, .int 3, []⟩)]
    let inner := StaticClient.client served (.whole StaticClient)
    ∃ subject, buildSubject [("user_id", .userId)] none context StaticClient.fresh
        = (.ok subject, .fresh) ∧
      (inner.evaluate subject [] .fresh).1 = .ok served ∧
      ∀ cache, (CachingClient.mk inner cache none fun _ w => w).watched.evaluate subject []
        (.begin .fresh) = (.error .undumpable, .begin .fresh) :=
  ⟨_, rfl, rfl, fun _ => rfl⟩

end CachingClient

end Rollout
