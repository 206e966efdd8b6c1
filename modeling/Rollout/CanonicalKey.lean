/-
The closed set of attribute names that have a meaning of their own.

A subject is who a flag is evaluated for, an occurrence is a tracked event.  Each key belongs to
one of the two shapes or to both, and each shape has one key that holds its custom properties.

* `CanonicalKey.scope` — which shapes accept a key;
* `CanonicalKey.wireName`, `CanonicalKey.ofWireName?` — the name a key is sent under;
* `Shape.keys` — the keys of a shape in the order of its record's fields.
-/

namespace Rollout

/-- A field of the subject or occurrence record. -/
inductive CanonicalKey
  | userId | deviceId | country | region | dma | city | language | platform
  | deviceManufacturer | deviceBrand | deviceModel | carrier | library
  | userProperties | groupProperties | groups
  | version | os | cohortIds | groupCohortIds
  | time | insertId | locationLat | locationLng | appVersion | versionName | osName | osVersion
  | idfa | idfv | adid | androidId | ip | price | quantity | revenue | currency
  | productId | revenueType | eventId | sessionId | partnerId | plan | ingestionMetadata
  | eventProperties | eventType
deriving DecidableEq, Repr, Inhabited

/-- The record shapes that accept a key. -/
inductive Scope
  | shared | subjectOnly | occurrenceOnly
deriving DecidableEq, Repr

/-- The two records that a context can be projected onto. -/
inductive Shape
  | subject | occurrence
deriving DecidableEq, Repr, Inhabited

namespace CanonicalKey

/-- Every key, in the order in which aliases are generated. -/
def all : List CanonicalKey := [
  .userId, .deviceId, .country, .region, .dma, .city, .language, .platform,
  .deviceManufacturer, .deviceBrand, .deviceModel, .carrier, .library,
  .userProperties, .groupProperties, .groups,
  .version, .os, .cohortIds, .groupCohortIds,
  .time, .insertId, .locationLat, .locationLng, .appVersion, .versionName, .osName, .osVersion,
  .idfa, .idfv, .adid, .androidId, .ip, .price, .quantity, .revenue, .currency,
  .productId, .revenueType, .eventId, .sessionId, .partnerId, .plan, .ingestionMetadata,
  .eventProperties, .eventType]

theorem mem_all (key : CanonicalKey) : key ∈ all := by cases key <;> decide

/-- The name of the record field that a key stands for. -/
def fieldName : CanonicalKey → String
  | userId => "user_id"
  | deviceId => "device_id"
  | country => "country"
  | region => "region"
  | dma => "dma"
  | city => "city"
  | language => "language"
  | platform => "platform"
  | deviceManufacturer => "device_manufacturer"
  | deviceBrand => "device_brand"
  | deviceModel => "device_model"
  | carrier => "carrier"
  | library => "library"
  | userProperties => "user_properties"
  | groupProperties => "group_properties"
  | groups => "groups"
  | version => "version"
  | os => "os"
  | cohortIds => "cohort_ids"
  | groupCohortIds => "group_cohort_ids"
  | time => "time"
  | insertId => "insert_id"
  | locationLat => "location_lat"
  | locationLng => "location_lng"
  | appVersion => "app_version"
  | versionName => "version_name"
  | osName => "os_name"
  | osVersion => "os_version"
  | idfa => "idfa"
  | idfv => "idfv"
  | adid => "adid"
  | androidId => "android_id"
  | ip => "ip"
  | price => "price"
  | quantity => "quantity"
  | revenue => "revenue"
  | currency => "currency"
  | productId => "product_id"
  | revenueType => "revenue_type"
  | eventId => "event_id"
  | sessionId => "session_id"
  | partnerId => "partner_id"
  | plan => "plan"
  | ingestionMetadata => "ingestion_metadata"
  | eventProperties => "event_properties"
  | eventType => "event_type"

/-- The name a key is sent under: that of its field, but for two keys in camel case. -/
def wireName : CanonicalKey → String
  | productId => "productId"
  | revenueType => "revenueType"
  | key => key.fieldName

/-- The key sent under a name. -/
def ofWireName? (name : String) : Option CanonicalKey := all.find? (·.wireName == name)

/-- The key whose record field has a name. -/
def ofFieldName? (name : String) : Option CanonicalKey := all.find? (·.fieldName == name)

/-- Which shapes accept a key. -/
def scope : CanonicalKey → Scope
  | userId | deviceId | country | region | dma | city | language | platform
  | deviceManufacturer | deviceBrand | deviceModel | carrier | library
  | userProperties | groupProperties | groups => .shared
  | version | os | cohortIds | groupCohortIds => .subjectOnly
  | _ => .occurrenceOnly

/-- Whether the field of a key holds a map. -/
def holdsMap : CanonicalKey → Bool
  | userProperties | groupProperties | groups | groupCohortIds | plan | ingestionMetadata
  | eventProperties => true
  | _ => false

/-- The keys of which a subject needs at least one. -/
def identity : List CanonicalKey := [userId, deviceId]

def isIdentity (key : CanonicalKey) : Bool := identity.contains key

end CanonicalKey

namespace Shape

/-- Whether a record of this shape has a field for a key. -/
def accepts (shape : Shape) (key : CanonicalKey) : Bool :=
  match shape, key.scope with
  | _, .shared => true
  | .subject, .subjectOnly => true
  | .occurrence, .occurrenceOnly => true
  | _, _ => false

/-- The key that holds the custom properties of a record. -/
def overflowKey : Shape → CanonicalKey
  | .subject => .userProperties
  | .occurrence => .eventProperties

/-- The fields of a record in the order in which they are declared. -/
def keys : Shape → List CanonicalKey
  | .subject => [
    .userId, .deviceId, .country, .region, .dma, .city, .language, .platform, .version, .os,
    .deviceManufacturer, .deviceBrand, .deviceModel, .carrier, .library,
    .userProperties, .groupProperties, .groups, .cohortIds, .groupCohortIds]
  | .occurrence => [
    .eventType, .userId, .deviceId, .time, .insertId, .locationLat, .locationLng, .appVersion,
    .versionName, .library, .platform, .osName, .osVersion, .deviceBrand, .deviceManufacturer,
    .deviceModel, .carrier, .country, .region, .city, .dma, .idfa, .idfv, .adid, .androidId,
    .language, .ip, .price, .quantity, .revenue, .currency, .productId, .revenueType, .eventId,
    .sessionId, .partnerId, .plan, .ingestionMetadata, .eventProperties, .userProperties,
    .groups, .groupProperties]

theorem mem_keys_iff (shape : Shape) (key : CanonicalKey) :
    key ∈ shape.keys ↔ shape.accepts key = true := by
  cases shape <;> cases key <;> decide

/-- The name of a shape in configuration and output. -/
def name : Shape → String
  | .subject => "subject"
  | .occurrence => "occurrence"

def ofName? (name : String) : Option Shape := [subject, occurrence].find? (·.name == name)

/-- The name of the record type of a shape in messages. -/
def recordName : Shape → String
  | .subject => "Subject"
  | .occurrence => "Occurrence"

end Shape

end Rollout
