/-
A cache that several processes share through a server of texts.

Values are kept as JSON.  The server counts the lifetimes; an entry whose lifetime is zero or not
given is kept without one.

* `TextServer` — what the server offers;
* `SharedCache.backend` — the server as a cache backend.
-/
import Rollout.Cache.Basic
import Rollout.Json.Reader
import Rollout.Json.Writer

namespace Rollout

/-- A server that keeps texts under keys. -/
structure TextServer (σ : Type) where
  get : String → σ → Option String × σ
  set : String → String → σ → σ
  /-- Keeps a text for a number of seconds. -/
  setFor : String → Int → String → σ → σ
  delete : String → σ → σ
  /-- How many of the keys asked for, which is one, are there. -/
  count : String → σ → Nat × σ
  clear : σ → σ

namespace SharedCache

/-- Writes a value, with the lifetime given or else the default. -/
def set {σ : Type} (server : TextServer σ) (defaultTtl : Option Int) (key : String) (value : Value)
    (ttl : Option Int) : Action σ Unit := fun w =>
  match Json.write .spaced value with
  | .error failure => (.error failure, w)
  | .ok text =>
    match ttl <|> defaultTtl with
    | some seconds =>
      if seconds = 0 then (.ok (), server.set key text w)
      else (.ok (), server.setFor key seconds text w)
    | none => (.ok (), server.set key text w)

/-- The value under a key, null when there is none. -/
def get {σ : Type} (server : TextServer σ) (key : String) : Action σ Value := fun w =>
  match server.get key w with
  | (none, w) => (.ok .null, w)
  | (some text, w) => (Json.read text, w)

/-- The server as a cache. -/
def backend {σ : Type} (server : TextServer σ) (defaultTtl : Option Int) : CacheBackend σ where
  get := get server
  set := set server defaultTtl
  delete key w := (.ok (), server.delete key w)
  exists? key w :=
    let (count, w) := server.count key w
    (.ok (count != 0), w)
  clear w := (.ok (), server.clear w)

end SharedCache

end Rollout
