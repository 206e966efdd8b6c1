/-
The outcome for a variant, by its payload.

The key decides first: a subject outside the rollout gets the default, whatever the payload is.  An
absent payload asks for the default too, except that it turns a truth value on.  What is left is taken
or refused by its kind, and never by whether it counts as given: zero, `false` and what is empty are
payloads like any other.

* `Variant.Defaults`, `Mismatched`, `Resolves` — the payloads of each outcome, and the value;
* `Mismatched.coerce_error`, `exists_resolves` — what coercing does with them;
* `evaluateVariant_partition` — every variant has exactly one of the three outcomes.
-/
import Rollout.Evaluation
import Rollout.Proofs.Coercion.Numerals
import Rollout.Proofs.Coercion.Truncation
import Rollout.Proofs.Provider.Escape

namespace Rollout

open Rollout.Text Rollout.Numeral Rollout.Binary64

/-- A variant asks for the caller's default. -/
def Variant.Defaults (type : FlagType) (v : Variant) : Prop :=
  v.key = "off" ∨ v.payload = .null ∧ type ≠ .boolean

/-- A payload is of a kind that no decoder produces. -/
inductive Unsupported : Value → Prop
  | bytes (octets : List UInt8) : Unsupported (.bytes octets)
  | set (items : List Value) : Unsupported (.set items)
  | object : Unsupported .object

/-- A payload is a truth value, a sequence or a mapping. -/
inductive NonNumeric : Value → Prop
  | bool (b : Bool) : NonNumeric (.bool b)
  | list (items : List Value) : NonNumeric (.list items)
  | tuple (items : List Value) : NonNumeric (.tuple items)
  | map (entries : Attributes) : NonNumeric (.map entries)

/-- A type of numbers. -/
def FlagType.IsNumeric (type : FlagType) : Prop := type = .integer ∨ type = .float

/-- A payload has no value of a type.  Infinities and `NaN`s are floats but no integers.  An integer
has a float unless it is out of range, while a decimal out of range has an infinity for one. -/
inductive Mismatched : FlagType → Value → Prop
  | unsupported {type : FlagType} {v : Value} (h : Unsupported v) : Mismatched type v
  | noText {v : Value} (h : ∀ s, v ≠ .text s) : Mismatched .string v
  | nonNumeric {type : FlagType} {v : Value} (ht : type.IsNumeric) (h : NonNumeric v) :
      Mismatched type v
  | noInteger {s : String} (h : ¬ ∃ n, DenotesInteger s n) : Mismatched .integer (.text s)
  | noDecimal {s : String} (h : ¬ ∃ n, DecimalText digit? s.toList n) : Mismatched .float (.text s)
  | notExact {n : Number} (h : n.toRat? = none) : Mismatched .integer n.value
  | notInRange {n : Int} (h : limit ≤ |(n : ℚ)|) : Mismatched .float (.int n)

/-- The value of a type that a payload has. -/
inductive Resolves : FlagType → Value → Value → Prop
  | string (s : String) : Resolves .string (.text s) (.text s)
  | object (v : Value) : Resolves .object v v
  | truth (b : Bool) : Resolves .boolean (.bool b) (.bool b)
  | on {v : Value} (h : ∀ b, v ≠ .bool b) : Resolves .boolean v (.bool true)
  | truncated {n : Number} {q : ℚ} {k : Int} (hq : n.toRat? = some q) (hk : Truncates q k) :
      Resolves .integer n.value (.int k)
  | integer {s : String} {n : Int} (h : DenotesInteger s n) : Resolves .integer (.text s) (.int n)
  | float (x : Binary64) : Resolves .float (.float x) (.float x)
  | rounded {n : Int} {x : Binary64} (h : RoundsTo n x) : Resolves .float (.int n) (.float x)
  | decimal {d : Decimal} {x : Binary64} (h : d.toBinary64? = some x) :
      Resolves .float (.decimal d) (.float x)
  | numeral {s : String} {n : Scientific} (h : DecimalText digit? s.toList n) :
      Resolves .float (.text s) (.float n.toBinary64)

/-- A failure is a type mismatch that says something. -/
def Failure.IsMismatch (f : Failure) : Prop :=
  ∃ report cause, f = .reported report cause ∧ report.cls = .typeMismatch ∧ report.message ≠ ""

theorem isMismatch_typeMismatch {message expected found : String} {cause : Option Failure}
    (h : message ≠ "") : (Failure.typeMismatch message expected found cause).IsMismatch :=
  ⟨_, _, rfl, rfl, h⟩

theorem isMismatch_wrongKind (expected : String) (p : Payload) :
    (wrongKind expected p).IsMismatch := isMismatch_typeMismatch (by simp)

theorem isMismatch_outOfRange : outOfRange.IsMismatch := isMismatch_typeMismatch (by simp)

/-! ### Coercing a payload -/

theorem Variant.coerce_eq_bind (type : FlagType) (v : Variant) :
    v.coerce type = (Payload.ofValue v.payload).bind type.coerce := by
  rw [Variant.coerce]
  cases Payload.ofValue v.payload <;> rfl

theorem Payload.ofValue_number (n : Number) : ofValue n.value = .ok (.number n) := by
  cases n <;> rfl

theorem Unsupported.coerce_error (type : FlagType) {v : Value} (h : Unsupported v) :
    ∃ f, (Payload.ofValue v).bind type.coerce = .error f ∧ f.IsMismatch := by
  cases h <;> exact ⟨_, rfl, _, _, rfl, rfl, by simp⟩

theorem NonNumeric.coerce_error {type : FlagType} (ht : type.IsNumeric) {v : Value}
    (h : NonNumeric v) : ∃ f, (Payload.ofValue v).bind type.coerce = .error f ∧ f.IsMismatch := by
  rcases ht with rfl | rfl <;> cases h <;> exact ⟨_, rfl, isMismatch_wrongKind _ _⟩

theorem coerceString_error {v : Value} (htext : ∀ s, v ≠ .text s) (hnull : v ≠ .null) :
    ∃ f, (Payload.ofValue v).bind FlagType.string.coerce = .error f ∧ f.IsMismatch := by
  cases v with
  | text s => exact absurd rfl (htext s)
  | null => exact absurd rfl hnull
  | bytes octets => exact (Unsupported.bytes octets).coerce_error _
  | set items => exact (Unsupported.set items).coerce_error _
  | object => exact Unsupported.object.coerce_error _
  | _ => exact ⟨_, rfl, isMismatch_wrongKind _ _⟩

/-- A payload without a value of the type is refused, unless it is absent. -/
theorem Mismatched.coerce_error {type : FlagType} {v : Value} (h : Mismatched type v)
    (hnull : ¬ (v = .null ∧ type ≠ .boolean)) :
    ∃ f, (Payload.ofValue v).bind type.coerce = .error f ∧ f.IsMismatch := by
  cases h with
  | unsupported h => exact h.coerce_error _
  | noText h => exact coerceString_error h fun hv => hnull ⟨hv, nofun⟩
  | nonNumeric ht h => exact h.coerce_error ht
  | noInteger h =>
    obtain ⟨message, cause, hmessage, hf⟩ := coerceInteger_text_of_not_denotes h
    exact ⟨_, hf, isMismatch_typeMismatch hmessage⟩
  | noDecimal h =>
    exact ⟨_, coerceFloat_text_of_not_decimalText h, isMismatch_typeMismatch (by simp)⟩
  | @notExact n h =>
    rw [Payload.ofValue_number]
    exact ⟨_, coerceInteger_of_toRat?_eq_none h, isMismatch_typeMismatch (by simp)⟩
  | @notInRange n h =>
    exact ⟨_, (coerceFloat_int n).trans (if_neg h.not_gt), isMismatch_outOfRange⟩

/-! ### Coercing a payload that has a value of the type -/

theorem exists_ofValue {v : Value} (h : ¬ Unsupported v) : ∃ p, Payload.ofValue v = .ok p := by
  cases v with
  | bytes octets => exact absurd (.bytes octets) h
  | set items => exact absurd (.set items) h
  | object => exact absurd .object h
  | _ => exact ⟨_, rfl⟩

/-- A payload that a type of numbers takes is a number or a text. -/
theorem number_or_text {type : FlagType} (ht : type.IsNumeric) {p : Payload}
    (h : ¬ Mismatched type p.value) (hp : p ≠ .absent) :
    (∃ n, p = .number n) ∨ ∃ s, p = .text s := by
  have hnumeric : ¬ NonNumeric p.value := fun hv => h (.nonNumeric ht hv)
  cases p with
  | absent => exact absurd rfl hp
  | number n => exact .inl ⟨n, rfl⟩
  | text s => exact .inr ⟨s, rfl⟩
  | bool b => exact absurd (.bool b) hnumeric
  | list items => exact absurd (.list items) hnumeric
  | tuple items => exact absurd (.tuple items) hnumeric
  | mapping entries => exact absurd (.map entries) hnumeric

theorem resolves_boolean (p : Payload) :
    Resolves .boolean p.value (.bool (coerceBoolean p)) := by
  cases p with
  | bool b => exact .truth b
  | number n => exact .on fun b => by cases n <;> nofun
  | _ => exact .on nofun

theorem exists_resolves_integer {p : Payload} (h : ¬ Mismatched .integer p.value)
    (hp : p ≠ .absent) :
    ∃ value, coerceInteger p = .ok (some value) ∧ Resolves .integer p.value value := by
  rcases number_or_text (.inl rfl) h hp with ⟨n, rfl⟩ | ⟨s, rfl⟩
  · cases hq : n.toRat? with
    | none => exact absurd (.notExact hq) h
    | some q =>
      obtain ⟨k, hk, htruncates⟩ := coerceInteger_of_toRat? hq
      exact ⟨_, hk, .truncated hq htruncates⟩
  · by_cases hn : ∃ n, DenotesInteger s n
    · obtain ⟨n, hn⟩ := hn
      exact ⟨_, hn.coerceInteger, .integer hn⟩
    · exact absurd (.noInteger hn) h

theorem exists_toBinary64 {d : Decimal}
    (h : ∀ negative diagnostic, d ≠ .nan negative true diagnostic) :
    ∃ x, d.toBinary64? = some x := by
  cases d with
  | nan negative signaling diagnostic =>
    cases signaling with
    | false => exact ⟨_, rfl⟩
    | true => exact absurd rfl (h negative diagnostic)
  | _ => exact ⟨_, rfl⟩

theorem exists_resolves_float {p : Payload} (h : ¬ Mismatched .float p.value) (hp : p ≠ .absent)
    (hnan : ∀ negative diagnostic, p.value ≠ .decimal (.nan negative true diagnostic)) :
    ∃ value, coerceFloat p = .ok (some value) ∧ Resolves .float p.value value := by
  rcases number_or_text (.inr rfl) h hp with ⟨n, rfl⟩ | ⟨s, rfl⟩
  · cases n with
    | int n =>
      by_cases hn : |(n : ℚ)| < limit
      · exact ⟨_, (coerceFloat_int n).trans (if_pos hn), .rounded (roundsTo_ofInt hn)⟩
      · exact absurd (.notInRange (not_lt.mp hn)) h
    | float x => exact ⟨_, rfl, .float x⟩
    | decimal d =>
      obtain ⟨x, hx⟩ := exists_toBinary64 fun negative diagnostic hd =>
        hnan negative diagnostic (congrArg Value.decimal hd)
      refine ⟨.float x, ?_, .decimal hx⟩
      rw [coerceFloat, Number.toFloat, hx]
      rfl
  · by_cases hn : ∃ n, DecimalText digit? s.toList n
    · obtain ⟨n, hn⟩ := hn
      exact ⟨_, coerceFloat_text hn, .numeral hn⟩
    · exact absurd (.noDecimal hn) h

/-- A payload that has a value of the type is coerced to it, unless it is absent or a signaling
`NaN`. -/
theorem exists_resolves {type : FlagType} {v : Value} (h : ¬ Mismatched type v)
    (hnull : ¬ (v = .null ∧ type ≠ .boolean))
    (hnan : type = .float → ∀ negative diagnostic, v ≠ .decimal (.nan negative true diagnostic)) :
    ∃ value, (Payload.ofValue v).bind type.coerce = .ok (some value) ∧ Resolves type v value := by
  obtain ⟨p, hp⟩ := exists_ofValue fun hv => h (.unsupported hv)
  obtain rfl := Payload.value_of_ofValue hp
  rw [hp]
  cases type with
  | boolean => exact ⟨_, rfl, resolves_boolean p⟩
  | string =>
    cases p with
    | text s => exact ⟨_, rfl, .string s⟩
    | absent => exact absurd ⟨rfl, nofun⟩ hnull
    | number n => exact absurd (.noText fun s => by cases n <;> nofun) h
    | _ => exact absurd (.noText nofun) h
  | integer => exact exists_resolves_integer h fun hp => hnull ⟨congrArg Payload.value hp, nofun⟩
  | float =>
    exact exists_resolves_float h (fun hp => hnull ⟨congrArg Payload.value hp, nofun⟩) (hnan rfl)
  | object =>
    cases p with
    | absent => exact absurd ⟨rfl, nofun⟩ hnull
    | _ => exact ⟨_, rfl, .object _⟩

/-! ### The three outcomes -/

section Outcomes

variable {type : FlagType} {v : Variant}

theorem Variant.Defaults.evaluate_eq (h : v.Defaults type) (default : Value) :
    evaluateVariant type v default = .ok (.defaulted default) := by
  by_cases hoff : v.isOff = true
  · rw [evaluateVariant, if_pos hoff]
  · obtain hkey | ⟨hnull, htype⟩ := h
    · exact absurd (beq_iff_eq.mpr hkey) hoff
    · have hcoerce : v.coerce type = .ok none := by
        rw [Variant.coerce_eq_bind, hnull]
        cases type with
        | boolean => exact absurd rfl htype
        | _ => rfl
      rw [evaluateVariant, if_neg hoff, hcoerce]

theorem isOff_of_not_defaults (h : ¬ v.Defaults type) : v.isOff = false := by
  rw [Variant.isOff, beq_eq_false_iff_ne]
  exact fun hkey => h (.inl hkey)

theorem Mismatched.evaluate_eq (hdefaults : ¬ v.Defaults type) (h : Mismatched type v.payload)
    (default : Value) : ∃ message, message ≠ "" ∧
      evaluateVariant type v default = .ok (.failed default .typeMismatch message) := by
  obtain ⟨f, hf, report, cause, rfl, hcls, hmessage⟩ :=
    h.coerce_error fun hnull => hdefaults (.inr hnull)
  refine ⟨report.message, hmessage, ?_⟩
  rw [← Variant.coerce_eq_bind] at hf
  simp only [evaluateVariant, isOff_of_not_defaults hdefaults, hf, hcls]
  rfl

theorem exists_evaluate_resolved (hdefaults : ¬ v.Defaults type)
    (h : ¬ Mismatched type v.payload) (hescapes : ¬ v.Escapes type) (default : Value) :
    ∃ value, Resolves type v.payload value ∧
      evaluateVariant type v default = .ok (.resolved value v.key v.details) := by
  have hkey : v.key ≠ Variant.offKey := fun hkey => hdefaults (.inl hkey)
  obtain ⟨value, hvalue, hresolves⟩ := exists_resolves h (fun hnull => hdefaults (.inr hnull))
    fun htype negative diagnostic hv => hescapes ⟨htype, hkey, negative, diagnostic, hv⟩
  refine ⟨value, hresolves, ?_⟩
  rw [← Variant.coerce_eq_bind] at hvalue
  simp only [evaluateVariant, isOff_of_not_defaults hdefaults, hvalue]
  rfl

end Outcomes

/-- **The three outcomes share out all variants.**  A variant with the key for subjects outside a
rollout, or with an absent payload unless a truth value is asked for, gets the default.  Of the
others, those whose payload has no value of the type fail as type mismatches with a message, and the
rest resolve to the value that the payload has, under the key of the variant.  Only these carry a
variant or metadata.  No outcome at all has a signaling `NaN` that is asked for as a float. -/
theorem evaluateVariant_partition {type : FlagType} {v : Variant} (h : ¬ v.Escapes type)
    (default : Value) :
    ∃ outcome, evaluateVariant type v default = .ok outcome ∧
      (outcome = .defaulted default ↔ v.key = "off" ∨ v.payload = .null ∧ type ≠ .boolean) ∧
      ((∃ message, message ≠ "" ∧ outcome = .failed default .typeMismatch message) ↔
        ¬ v.Defaults type ∧ Mismatched type v.payload) ∧
      ((∃ value, Resolves type v.payload value ∧ v.key ≠ "off" ∧
          outcome = .resolved value v.key v.details) ↔
        ¬ v.Defaults type ∧ ¬ Mismatched type v.payload) ∧
      (outcome.reason ≠ .resolved → outcome.variant? = none ∧ outcome.metadata = []) := by
  by_cases hdefaults : v.Defaults type
  · refine ⟨_, hdefaults.evaluate_eq default, iff_of_true rfl hdefaults, ?_, ?_,
      fun _ => ⟨rfl, rfl⟩⟩
    · exact iff_of_false (fun ⟨_, _, hfailed⟩ => nomatch hfailed) fun hnot => hnot.1 hdefaults
    · exact iff_of_false (fun ⟨_, _, _, hresolved⟩ => nomatch hresolved) fun hnot =>
        hnot.1 hdefaults
  · by_cases hmismatched : Mismatched type v.payload
    · obtain ⟨message, hmessage, heq⟩ := hmismatched.evaluate_eq hdefaults default
      refine ⟨_, heq, iff_of_false nofun hdefaults, ?_, ?_, fun _ => ⟨rfl, rfl⟩⟩
      · exact iff_of_true ⟨message, hmessage, rfl⟩ ⟨hdefaults, hmismatched⟩
      · exact iff_of_false (fun ⟨_, _, _, hresolved⟩ => nomatch hresolved) fun hnot =>
          hnot.2 hmismatched
    · obtain ⟨value, hresolves, heq⟩ := exists_evaluate_resolved hdefaults hmismatched h default
      refine ⟨_, heq, iff_of_false nofun hdefaults, ?_, ?_, fun hreason => absurd rfl hreason⟩
      · exact iff_of_false (fun ⟨_, _, hfailed⟩ => nomatch hfailed) fun hnot =>
          hmismatched hnot.2
      · exact iff_of_true ⟨value, hresolves, fun hkey => hdefaults (.inl hkey), rfl⟩
          ⟨hdefaults, hmismatched⟩

/-- An empty text is a payload like any other. -/
theorem evaluateVariant_partition_empty :
    let v : Variant := ⟨"on", none, .text "", []⟩
    ¬ v.Escapes .string ∧ ¬ v.Defaults .string ∧ ¬ Mismatched .string v.payload ∧
      evaluateVariant .string v (.text "x") = .ok (.resolved (.text "") "on" v.details) := by
  intro v
  have hescapes : ¬ v.Escapes .string := fun h => nomatch h.1
  have hdefaults : ¬ v.Defaults .string := by
    rintro (hkey | ⟨hnull, -⟩)
    · exact absurd hkey (by decide)
    · cases hnull
  have hfits : ¬ Mismatched .string v.payload := by
    rintro (h | h | ⟨ht, h⟩)
    · cases h
    · exact h "" rfl
    · cases h
  obtain ⟨outcome, heq, -, -, hresolved, -⟩ := evaluateVariant_partition hescapes (.text "x")
  obtain ⟨value, hvalue, -, rfl⟩ := hresolved.mpr ⟨hdefaults, hfits⟩
  cases hvalue
  exact ⟨hescapes, hdefaults, hfits, heq⟩

end Rollout
