/-
Alias tables: which canonical key a spelling stands for.

The spellings of every key are generated up front, so a lookup is an exact match.  Aliases that a
caller adds are written last and as they are.

* `AliasTable.generate` — the spellings of a list of keys and of the targeting key;
* `AliasTable.build` — a table with added aliases, or the target that names no key.
-/
import Rollout.Spelling
import Rollout.Failure

namespace Rollout

/-- Spellings with the keys they stand for. -/
abbrev AliasTable := Assoc String CanonicalKey

/-- The name under which callers pass the identifier that flags are bucketed by. -/
def targetingKey : String := "targeting_key"

namespace AliasTable

/-- The key that a spelling stands for. -/
def lookup (table : AliasTable) (spelling : String) : Option CanonicalKey :=
  Assoc.find? spelling table

/-- The table with all spellings of a name standing for a key. -/
def register (key : CanonicalKey) (name : String) (table : AliasTable) : AliasTable :=
  (spellings name).foldl (fun table spelling => Assoc.insert spelling key table) table

/-- The spellings of the given keys, and those of the targeting key, which identifies a user. -/
def generate (keys : List CanonicalKey) : AliasTable :=
  register .userId targetingKey (keys.foldl (fun table key => register key key.wireName table) [])

/-- The key that an added alias names. -/
def target (name : Value) : Except Failure CanonicalKey :=
  let key? := match name with
    | .text s => CanonicalKey.ofWireName? s
    | _ => none
  match key? with
  | some key => .ok key
  | none => .error (.reportCause .invalidConfig
      ("unknown canonical key in alias configuration: " ++ name.literal)
      (.notMember name "CanonicalKey"))

/-- The table with added aliases; the first that names no key is a failure. -/
def extend (table : AliasTable) : List (String × Value) → Except Failure AliasTable
  | [] => .ok table
  | (spelling, name) :: rest =>
    match target name with
    | .ok key => extend (Assoc.insert spelling key table) rest
    | .error failure => .error failure

/-- The table for a list of keys, with added aliases. -/
def build (extra : List (String × Value)) (keys : List CanonicalKey) :
    Except Failure AliasTable :=
  extend (generate keys) extra

/-- The table for all keys without added aliases. -/
def standard : AliasTable := generate CanonicalKey.all

end AliasTable

end Rollout
