/-
A cache in memory and a shared one agree.

The shared cache keeps JSON with a server, the one in memory keeps the values.  As long as there is
room for all keys and no time passes, callers cannot tell them apart, but for one thing: a lifetime
that is beyond the range of the clock is refused in memory, where the end is computed, and left to
the server otherwise.

* `TextServer.Keeps` — what is assumed of the server;
* `CacheBackend.serve`, `liveKeys` — the replies to a list of requests, and the keys left by them;
* `Mirrors`, `Mirrors.step`, `Mirrors.run` — the two caches hold the same, before and after every
  request;
* `backends_agree_iff` — when all replies are the same.
-/
import Mathlib.Data.Finset.Dedup
import Mathlib.Data.Finset.Card
import Mathlib.Data.List.Induction
import Mathlib.Logic.Function.Basic
import Rollout.Cache.Shared
import Rollout.Proofs.Cache.History
import Rollout.Proofs.Json.RoundTrip

namespace Rollout

/-! ### Servers and requests -/

/-- A server keeps the texts that it is given under their keys, until they are replaced or removed.
Looking changes nothing, and a key is there once or not at all. -/
structure TextServer.Keeps {σ : Type} (server : TextServer σ)
    (content : σ → String → Option String) : Prop where
  get : ∀ key w, (server.get key w).1 = content w key ∧ content (server.get key w).2 = content w
  set : ∀ key text w,
    content (server.set key text w) = Function.update (content w) key (some text)
  setFor : ∀ key seconds text w, 0 < seconds →
    content (server.setFor key seconds text w) = Function.update (content w) key (some text)
  delete : ∀ key w, content (server.delete key w) = Function.update (content w) key none
  count : ∀ key w, (server.count key w).1 = (if (content w key).isSome then 1 else 0) ∧
    content (server.count key w).2 = content w
  clear : ∀ w, content (server.clear w) = fun _ => none

/-- A cache in memory on its own. -/
abbrev MemoryCache.alone (cache : MemoryCache) : CacheBackend MemoryState :=
  cache.backend MemoryState.storeSlot MemoryState.clock

/-- A shared cache with the same default lifetime. -/
abbrev MemoryCache.shared {σ : Type} (cache : MemoryCache) (server : TextServer σ) :
    CacheBackend σ :=
  SharedCache.backend server cache.defaultTtl

/-- The replies of a cache to requests one after another, and what becomes of its world. -/
def CacheBackend.serve {σ : Type} (backend : CacheBackend σ) (requests : List CacheRequest)
    (w : σ) : List (Except Failure CacheReply) × σ :=
  requests.foldl (fun r request =>
    (r.1 ++ [(backend.answer request r.2).1], (backend.answer request r.2).2)) ([], w)

namespace CacheRequest

/-- The keys that have a value after a request. -/
def live (keys : Finset String) : CacheRequest → Finset String
  | .set key _ _ => insert key keys
  | .delete key => keys.erase key
  | .clear => ∅
  | .get _ => keys
  | .exists? _ => keys

/-- What is written has a form in JSON, and no lifetime is negative. -/
def Plain (cache : MemoryCache) : CacheRequest → Prop
  | .set _ value ttl =>
    value.Plain ∧ ∀ seconds, (ttl <|> cache.defaultTtl) = some seconds → 0 ≤ seconds
  | _ => True

/-- What is written has a lifetime within the range of the clock. -/
def Measurable (cache : MemoryCache) : CacheRequest → Prop
  | .set _ _ ttl => cache.Measurable ttl
  | _ => True

end CacheRequest

/-- The keys that have a value after all requests to an empty cache that has room for them. -/
def liveKeys (requests : List CacheRequest) : Finset String :=
  requests.foldl CacheRequest.live ∅

theorem liveKeys_concat (requests : List CacheRequest) (request : CacheRequest) :
    liveKeys (requests ++ [request]) = request.live (liveKeys requests) := by
  rw [liveKeys, List.foldl_append, ← liveKeys]
  rfl

theorem CacheBackend.serve_concat {σ : Type} (backend : CacheBackend σ)
    (requests : List CacheRequest) (request : CacheRequest) (w : σ) :
    backend.serve (requests ++ [request]) w
      = ((backend.serve requests w).1 ++ [(backend.answer request (backend.serve requests w).2).1],
        (backend.answer request (backend.serve requests w).2).2) := by
  rw [serve, List.foldl_append, ← serve]
  rfl

/-! ### Replies of the shared cache -/

namespace TextServer.Keeps

variable {σ : Type} {server : TextServer σ} {content : σ → String → Option String}
  {defaultTtl : Option Int}

theorem answer_get (h : server.Keeps content) (key : String) (w : σ) :
    ((SharedCache.backend server defaultTtl).answer (.get key) w).1
        = (match content w key with
          | none => .ok (.value .null)
          | some text => (Json.read text).map .value) ∧
      content ((SharedCache.backend server defaultTtl).answer (.get key) w).2 = content w := by
  obtain ⟨hfound, hsame⟩ := h.get key w
  rw [← hfound, ← hsame]
  simp only [CacheBackend.answer, Action.reply, SharedCache.backend, SharedCache.get]
  rcases server.get key w with ⟨_ | text, w'⟩ <;> exact ⟨rfl, rfl⟩

theorem answer_exists? (h : server.Keeps content) (key : String) (w : σ) :
    ((SharedCache.backend server defaultTtl).answer (.exists? key) w).1
        = .ok (.found (content w key).isSome) ∧
      content ((SharedCache.backend server defaultTtl).answer (.exists? key) w).2 = content w := by
  obtain ⟨hcount, hsame⟩ := h.count key w
  refine ⟨?_, hsame⟩
  change Except.ok (CacheReply.found ((server.count key w).1 != 0)) = _
  rw [hcount]
  cases (content w key).isSome <;> rfl

/-- What JSON holds is written in a form that reads back, whatever its lifetime. -/
theorem answer_set (h : server.Keeps content) {key : String} {value : Value} {ttl : Option Int}
    (hvalue : value.Plain)
    (httl : ∀ seconds, (ttl <|> defaultTtl) = some seconds → 0 ≤ seconds) (w : σ) :
    ((SharedCache.backend server defaultTtl).answer (.set key value ttl) w).1 = .ok .done ∧
      ∃ text, Json.read text = .ok value ∧
        content ((SharedCache.backend server defaultTtl).answer (.set key value ttl) w).2
          = Function.update (content w) key (some text) := by
  obtain ⟨text, hwrite, hread⟩ := Json.exists_write_read Json.readable_spaced hvalue
  simp only [CacheBackend.answer, Action.reply, SharedCache.backend, SharedCache.set, hwrite]
  cases hgiven : (ttl <|> defaultTtl) with
  | none => exact ⟨rfl, text, hread, h.set key text w⟩
  | some seconds =>
    have hnonneg := httl seconds hgiven
    by_cases hzero : seconds = 0
    · simp only [hzero, if_true]
      exact ⟨rfl, text, hread, h.set key text w⟩
    · simp only [hzero, if_false]
      exact ⟨rfl, text, hread, h.setFor key seconds text w (by omega)⟩

end TextServer.Keeps

/-! ### The same content -/

/-- An entry that has not expired, and a text that reads as its value. -/
def Held (now : Rat) (x : CacheEntry) (text : String) : Prop :=
  MemoryCache.expired now x = false ∧ Json.read text = .ok x.value

/-- The entries of a cache in memory and the texts of a server are the same, under the same keys. -/
structure Mirrors (keys : Finset String) (s : MemoryState) (content : String → Option String) :
    Prop where
  distinct : MemoryCache.Distinct s.store
  keys : ∀ key, key ∈ keys ↔ Assoc.find? key s.store ≠ none
  held : ∀ key, Option.Rel (Held s.clock) (Assoc.find? key s.store) (content key)

namespace Mirrors

section Content

variable {cache : MemoryCache} {keys : Finset String} {s : MemoryState}
  {content : String → Option String} {key : String} {store : CacheStore}

theorem empty (clock : Rat) : Mirrors ∅ ⟨[], clock⟩ fun _ => none where
  distinct := List.nodup_nil
  keys key := by simp [Assoc.find?]
  held key := .none

theorem card_eq (h : Mirrors keys s content) : keys.card = s.store.length := by
  have hkeys : keys = (s.store.map Prod.fst).toFinset := by
    ext key
    rw [h.keys, List.mem_toFinset, ne_eq, Assoc.find?_eq_none_iff, not_not]
  rw [hkeys, List.toFinset_card_of_nodup h.distinct, List.length_map]

/-- Entries that move stay what they are. -/
theorem move (h : Mirrors keys s content) (hdistinct : MemoryCache.Distinct store)
    (hfind : ∀ key, Assoc.find? key store = Assoc.find? key s.store) :
    Mirrors keys { s with store } content where
  distinct := hdistinct
  keys key := by rw [hfind, h.keys]
  held key := by rw [hfind]; exact h.held key

theorem write (h : Mirrors keys s content) {x : CacheEntry} {text : String}
    (hheld : Held s.clock x text) (hdistinct : MemoryCache.Distinct store)
    (hfind : ∀ other, Assoc.find? other store
      = if other = key then some x else Assoc.find? other s.store) :
    Mirrors (insert key keys) { s with store } (Function.update content key (some text)) where
  distinct := hdistinct
  keys other := by
    rw [hfind, Finset.mem_insert, h.keys]
    by_cases hsame : other = key <;> simp [hsame]
  held other := by
    rw [hfind]
    by_cases hsame : other = key
    · rw [if_pos hsame, hsame, Function.update_self]
      exact .some hheld
    · rw [if_neg hsame, Function.update_of_ne hsame]
      exact h.held other

theorem delete (h : Mirrors keys s content) (key : String) :
    Mirrors (keys.erase key) { s with store := Assoc.erase key s.store }
      (Function.update content key none) where
  distinct := h.distinct.delete key
  keys other := by
    rw [Finset.mem_erase, h.keys]
    by_cases hsame : other = key
    · simp [hsame, Assoc.find?_erase_self h.distinct]
    · simp [hsame, Assoc.find?_erase_of_ne hsame]
  held other := by
    by_cases hsame : other = key
    · rw [hsame, Function.update_self, Assoc.find?_erase_self h.distinct]
      exact .none
    · rw [Function.update_of_ne hsame, Assoc.find?_erase_of_ne hsame]
      exact h.held other

end Content

/-! ### Every request -/

section Requests

variable {σ : Type} {cache : MemoryCache} {server : TextServer σ}
  {content : σ → String → Option String} {keys : Finset String} {s : MemoryState} {w : σ}

theorem answer_get (h : Mirrors keys s (content w)) (hserver : server.Keeps content)
    (cache : MemoryCache) (key : String) :
    (cache.alone.answer (.get key) s).1 = ((cache.shared server).answer (.get key) w).1 ∧
      Mirrors keys (cache.alone.answer (.get key) s).2
        (content ((cache.shared server).answer (.get key) w).2) := by
  obtain ⟨hreply, hsame⟩ := hserver.answer_get key w
  rw [hreply, hsame]
  change Except.ok (CacheReply.value ((MemoryCache.get s.clock key s.store).1.getD .null)) = _ ∧
    Mirrors keys { s with store := (MemoryCache.get s.clock key s.store).2 } (content w)
  have hheld := h.held key
  generalize hcontent : content w key = found at hheld
  cases hfind : Assoc.find? key s.store with
  | none =>
    rw [hfind] at hheld
    cases hheld
    rw [MemoryCache.get, hfind]
    exact ⟨rfl, h⟩
  | some x =>
    rw [hfind] at hheld
    cases hheld with
    | some hx =>
      obtain ⟨hlive, hread⟩ := hx
      rw [MemoryCache.get_of_find? hfind hlive]
      refine ⟨by simp only [hread]; rfl, h.move (h.distinct.touch key x) fun other => ?_⟩
      rw [MemoryCache.find?_touch h.distinct]
      split
      · rename_i hsame
        rw [hsame, hfind]
      · rfl

theorem answer_exists? (h : Mirrors keys s (content w)) (hserver : server.Keeps content)
    (cache : MemoryCache) (key : String) :
    (cache.alone.answer (.exists? key) s).1
        = ((cache.shared server).answer (.exists? key) w).1 ∧
      Mirrors keys (cache.alone.answer (.exists? key) s).2
        (content ((cache.shared server).answer (.exists? key) w).2) := by
  obtain ⟨hreply, hsame⟩ := hserver.answer_exists? key w
  rw [hreply, hsame]
  change Except.ok (CacheReply.found (MemoryCache.exists? s.clock key s.store).1) = _ ∧
    Mirrors keys { s with store := (MemoryCache.exists? s.clock key s.store).2 } (content w)
  have hheld := h.held key
  generalize content w key = found at hheld
  cases hfind : Assoc.find? key s.store with
  | none =>
    rw [hfind] at hheld
    cases hheld
    rw [MemoryCache.exists?, hfind]
    exact ⟨rfl, h⟩
  | some x =>
    rw [hfind] at hheld
    cases hheld with
    | some hx =>
      rw [MemoryCache.exists?, hfind]
      simp only [hx.1, Bool.false_eq_true, if_false]
      exact ⟨rfl, h⟩

/-- A written value is the same in both, if its lifetime can be measured.  The server takes it in
any case. -/
theorem answer_set (h : Mirrors keys s (content w)) (hserver : server.Keeps content) {key : String}
    {value : Value} {ttl : Option Int} (hvalue : value.Plain)
    (httl : ∀ seconds, (ttl <|> cache.defaultTtl) = some seconds → 0 ≤ seconds)
    (hroom : (insert key keys).card ≤ cache.maxSize) :
    ((cache.alone.answer (.set key value ttl) s).1
        = ((cache.shared server).answer (.set key value ttl) w).1 ↔ cache.Measurable ttl) ∧
      (cache.Measurable ttl →
        Mirrors (insert key keys) (cache.alone.answer (.set key value ttl) s).2
          (content ((cache.shared server).answer (.set key value ttl) w).2)) := by
  obtain ⟨hdone, text, hread, hcontent⟩ := hserver.answer_set hvalue httl w
  have hpos : 0 < (insert key keys).card := Finset.card_pos.mpr (Finset.insert_nonempty key keys)
  rw [hdone]
  refine ⟨MemoryCache.reply_set_iff (by omega) s key value ttl, fun hmeasurable => ?_⟩
  obtain ⟨store, hset⟩ := (@MemoryCache.exists_set_iff cache s.clock key value ttl
    s.store (by omega)).mpr hmeasurable
  obtain ⟨expiresAt, hexpiry, hput⟩ := MemoryCache.set_eq_ok hset
  have hstore : (cache.alone.answer (.set key value ttl) s).2 = { s with store } := by
    change (cache.event s (.request (.set key value ttl))).after = _
    rw [MemoryCache.event_set, hset]
  rw [hcontent, hstore]
  refine h.write ⟨?_, hread⟩ (h.distinct.set hset) (MemoryCache.find?_put h.distinct ?_ hput)
  · refine (MemoryCache.expired_iff_reaches hexpiry).mpr fun seconds hgiven _ => ?_
    exact le_add_of_nonneg_right (Int.cast_nonneg (httl seconds hgiven))
  · intro hnew
    have hcard : (insert key keys).card = keys.card + 1 := by
      refine Finset.card_insert_of_notMem ?_
      rw [h.keys, ne_eq, Assoc.find?_eq_none_iff, not_not]
      exact hnew
    have hlength := h.card_eq
    omega

/-- **One request.**  The replies are the same unless a lifetime cannot be measured, and so is what
the caches hold afterwards. -/
theorem step (h : Mirrors keys s (content w)) (hserver : server.Keeps content)
    {request : CacheRequest} (hplain : request.Plain cache)
    (hroom : (request.live keys).card ≤ cache.maxSize) :
    ((cache.alone.answer request s).1 = ((cache.shared server).answer request w).1 ↔
        request.Measurable cache) ∧
      (request.Measurable cache →
        Mirrors (request.live keys) (cache.alone.answer request s).2
          (content ((cache.shared server).answer request w).2)) := by
  cases request with
  | get key =>
    obtain ⟨hreply, hafter⟩ := h.answer_get hserver cache key
    exact ⟨iff_of_true hreply trivial, fun _ => hafter⟩
  | exists? key =>
    obtain ⟨hreply, hafter⟩ := h.answer_exists? hserver cache key
    exact ⟨iff_of_true hreply trivial, fun _ => hafter⟩
  | set key value ttl => exact h.answer_set hserver hplain.1 hplain.2 hroom
  | delete key =>
    refine ⟨iff_of_true rfl trivial, fun _ => ?_⟩
    change Mirrors (keys.erase key) { s with store := Assoc.erase key s.store }
      (content (server.delete key w))
    rw [hserver.delete]
    exact h.delete key
  | clear =>
    refine ⟨iff_of_true rfl trivial, fun _ => ?_⟩
    change Mirrors ∅ ⟨[], s.clock⟩ (content (server.clear w))
    rw [hserver.clear]
    exact .empty s.clock

end Requests

end Mirrors

/-! ### All requests -/

/-- Two caches that are empty at first reply the same to all requests exactly if all lifetimes can
be measured, and hold the same as long as they are. -/
theorem Mirrors.run {σ : Type} {cache : MemoryCache} {server : TextServer σ}
    {content : σ → String → Option String} (hserver : server.Keeps content) {w : σ}
    (hempty : ∀ key, content w key = none) (clock : Rat) {requests : List CacheRequest}
    (hplain : ∀ request ∈ requests, request.Plain cache)
    (hroom : ∀ earlier, earlier <+: requests → (liveKeys earlier).card ≤ cache.maxSize) :
    ((cache.alone.serve requests ⟨[], clock⟩).1 = ((cache.shared server).serve requests w).1 ↔
        ∀ request ∈ requests, request.Measurable cache) ∧
      ((∀ request ∈ requests, request.Measurable cache) →
        Mirrors (liveKeys requests) (cache.alone.serve requests ⟨[], clock⟩).2
          (content ((cache.shared server).serve requests w).2)) := by
  induction requests using List.reverseRecOn with
  | nil =>
    refine ⟨iff_of_true rfl (by simp), fun _ => ?_⟩
    change Mirrors ∅ ⟨[], clock⟩ (content w)
    rw [funext hempty]
    exact .empty clock
  | append_singleton requests request ih =>
    obtain ⟨hiff, hmirrors⟩ := ih (fun q hq => hplain q (List.mem_append_left _ hq))
      fun earlier h => hroom earlier (h.trans (List.prefix_append _ _))
    rw [List.forall_mem_append, List.forall_mem_singleton] at hplain
    have hcard := hroom _ (List.prefix_refl _)
    rw [liveKeys_concat] at hcard
    simp only [CacheBackend.serve_concat, List.forall_mem_append, List.forall_mem_singleton,
      liveKeys_concat]
    refine ⟨⟨fun h => ?_, fun h => ?_⟩, fun h => ?_⟩
    · obtain ⟨hsame, hlast⟩ := List.append_inj' h rfl
      have hmeasurable := hiff.mp hsame
      exact ⟨hmeasurable, ((hmirrors hmeasurable).step hserver hplain.2 hcard).1.mp
        (List.head_eq_of_cons_eq hlast)⟩
    · rw [hiff.mpr h.1, ((hmirrors h.1).step hserver hplain.2 hcard).1.mpr h.2]
    · exact ((hmirrors h.1).step hserver hplain.2 hcard).2 h.2

/-- **A cache in memory and a shared one agree.**  As long as no time passes, no more keys have a
value than the cache in memory has room for, and all that is written has a form in JSON and no
negative lifetime, the two reply the same to every request, exactly if every lifetime is within the
range of the clock. -/
theorem backends_agree_iff {σ : Type} (cache : MemoryCache) (server : TextServer σ)
    (content : σ → String → Option String) (hserver : server.Keeps content) (w : σ)
    (hempty : ∀ key, content w key = none) (clock : Rat) (requests : List CacheRequest)
    (hplain : ∀ request ∈ requests, request.Plain cache)
    (hroom : ∀ earlier, earlier <+: requests → (liveKeys earlier).card ≤ cache.maxSize) :
    (cache.alone.serve requests ⟨[], clock⟩).1 = ((cache.shared server).serve requests w).1 ↔
      ∀ request ∈ requests, request.Measurable cache :=
  (Mirrors.run hserver hempty clock hplain hroom).1

/-- A server whose state is what it keeps. -/
def TextServer.direct : TextServer (String → Option String) where
  get key w := (w key, w)
  set key text w := Function.update w key (some text)
  setFor key _ text w := Function.update w key (some text)
  delete key w := Function.update w key none
  count key w := (if (w key).isSome then 1 else 0, w)
  clear _ := fun _ => none

theorem TextServer.keeps_direct : TextServer.direct.Keeps id where
  get _ _ := ⟨rfl, rfl⟩
  set _ _ _ := rfl
  setFor _ _ _ _ _ := rfl
  delete _ _ := rfl
  count _ _ := ⟨rfl, rfl⟩
  clear _ := rfl

/-- A cache for a single key, in which one key takes the place of another that was deleted. -/
theorem backends_agree_single :
    let cache : MemoryCache := ⟨1, some 60⟩
    let requests : List CacheRequest := [
      .set "a" (.list [.int (-1), .text "\"é\"", .null]) none, .get "a", .exists? "a", .delete "a",
      .get "a", .set "b" (.map [(.text "on", .bool true)]) (some 0), .get "b"]
    (cache.alone.serve requests ⟨[], 0⟩).1
      = ((cache.shared .direct).serve requests fun _ => none).1 := by
  intro cache requests
  have hlist : (Value.list [.int (-1), .text "\"é\"", .null]).Plain := by
    refine .list _ fun v hv => ?_
    simp only [List.mem_cons, List.not_mem_nil, or_false] at hv
    rcases hv with rfl | rfl | rfl
    · exact .int _ (by decide)
    · exact .text _
    · exact .null
  have hmap : (Value.map [(.text "on", .bool true)]).Plain := by
    refine .map _ ⟨?_, List.nodup_singleton _⟩ ?_
    · exact List.forall_mem_singleton.mpr ⟨"on", rfl⟩
    · exact List.forall_mem_singleton.mpr (.bool true)
  refine (backends_agree_iff cache .direct id TextServer.keeps_direct _ (fun _ => rfl) 0 requests
    ?plain ?room).mpr ?measurable
  case plain =>
    simp [requests, CacheRequest.Plain, cache, hlist, hmap]
  case room =>
    intro earlier h
    rw [← List.mem_inits] at h
    revert earlier
    decide
  case measurable =>
    have hdefault : MemoryCache.measurable 60 = true := by decide
    simp [requests, CacheRequest.Measurable, MemoryCache.Measurable, cache, hdefault]

/-- A lifetime beyond the range of the clock: the cache in memory refuses it, the shared one takes
it. -/
theorem backends_differ_beyond_clock :
    let cache : MemoryCache := ⟨1, none⟩
    let requests : List CacheRequest :=
      [.set "a" (.int 1) (some (10 ^ 200 * 10 ^ 200)), .get "a"]
    (∀ request ∈ requests, request.Plain cache) ∧
      (∀ earlier, earlier <+: requests → (liveKeys earlier).card ≤ cache.maxSize) ∧
      (cache.alone.serve requests ⟨[], 0⟩).1 = [.error .floatOverflow, .ok (.value .null)] ∧
      ((cache.shared .direct).serve requests fun _ => none).1 = [.ok .done, .ok (.value (.int 1))] := by
  intro cache requests
  have hplain : (Value.int 1).Plain := .int 1 (by decide)
  have hset : cache.set 0 "a" (.int 1) (some (10 ^ 200 * 10 ^ 200)) [] = .error .floatOverflow := by
    have hunmeasurable : MemoryCache.measurable (10 ^ 200 * 10 ^ 200) = false := by decide +kernel
    rw [MemoryCache.set, MemoryCache.expiry_of_pos (by decide), hunmeasurable]
    rfl
  refine ⟨by simp [requests, CacheRequest.Plain, cache, hplain], fun earlier h => ?_, ?_, rfl⟩
  · rw [← List.mem_inits] at h
    revert earlier
    decide
  · have hrefused : cache.alone.answer (.set "a" (.int 1) (some (10 ^ 200 * 10 ^ 200))) ⟨[], 0⟩
        = (.error .floatOverflow, ⟨[], 0⟩) := by
      simp only [CacheBackend.answer, Action.reply, MemoryCache.backend_set, hset]
      rfl
    simp only [CacheBackend.serve, requests, List.foldl_cons, List.foldl_nil, hrefused]
    rfl

end Rollout
