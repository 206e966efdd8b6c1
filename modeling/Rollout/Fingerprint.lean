/-
Content keys of subjects.

A subject is identified by its fields, whatever their spelling and order were: its fingerprint is
the compact JSON text of its fields with all names sorted, and its cache key is the digest of that.

* `fingerprint` — the text;
* `cacheKey` — the key under which the variants of a subject are cached;
* `contentHash` — the digest of a list of values.
-/
import Rollout.Digest.Sha256
import Rollout.Dump
import Rollout.Json.Writer

namespace Rollout

/-- The values joined by bars. -/
def joinedContent (values : List Value) : String :=
  "|".intercalate (values.map Value.display)

/-- As many leading characters as asked for; a negative number counts from the end. -/
def leading (count : Int) (cs : List Char) : List Char :=
  cs.take (if count < 0 then cs.length + count else count).toNat

/-- The leading hexadecimal digits of the digest of a text. -/
def textHash (count : Int) (s : String) : String :=
  .ofList (leading count (Sha256.hexDigest (Text.encodeUtf8 s.toList)))

/-- The leading hexadecimal digits of the digest of a list of values, in their order. -/
def contentHash (count : Int) (values : List Value) : String :=
  textHash count (joinedContent values)

/-- The text that stands for a subject. -/
def fingerprint (subject : Subject) : Except Failure String :=
  match subject.dump with
  | .ok fields => Json.write .compact (Json.sortNames fields)
  | .error failure => .error failure

/-- What the cache keys of variants begin with. -/
def cachePrefix : String := "flagbridge:variants:"

/-- The key under which the variants of a subject are cached. -/
def cacheKeyWith (start : String) (subject : Subject) : Except Failure String :=
  (fingerprint subject).map fun s => start ++ contentHash 64 [.text s]

/-- The key under which the variants of a subject are cached. -/
def cacheKey (subject : Subject) : Except Failure String := cacheKeyWith cachePrefix subject

end Rollout
