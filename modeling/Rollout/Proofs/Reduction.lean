/-
Evaluating a variant after it was reduced.

Most payloads evaluate alike before and after they are reduced to what JSON holds.  The others are
those that JSON has no form for: a float that is no number becomes null, a decimal becomes a text,
and the parts of an object may change their kind.

* `SameResult` — outcomes of the same class, value, variant and kind of failure;
* `FlagType.Keeps`, `Variant.Survives` — the variants that evaluate alike;
* `seen_coerce_iff_keeps` — a payload coerces as its reduction exactly when the type keeps it;
* `sameResult_iff_survives` — a variant evaluates as its reduction exactly when it survives.
-/
import Rollout.Evaluation
import Rollout.Proofs.Number.DecimalText
import Rollout.Proofs.Variant

namespace Rollout

open Rollout.Text Rollout.Numeral

/-! ### Outcomes compared -/

/-- The class, the value, the variant and the kind of failure of an outcome. -/
def Outcome.summary (o : Outcome) : Reason × Value × Option String × ErrorKind :=
  (o.reason, o.value, o.variant?, o.kind)

/-- Two evaluations with the same class of outcome, value, variant and kind of failure. -/
def SameResult (a b : Except Failure Outcome) : Prop :=
  a.map Outcome.summary = b.map Outcome.summary

/-- What an outcome shows of a coercion: the value, or the kind of a reported failure, or a failure
that is passed on. -/
def seen : Except Failure (Option Value) → Except (ErrorKind ⊕ Failure) (Option Value)
  | .ok value => .ok value
  | .error (.reported report _) => .error (.inl report.cls.kind)
  | .error failure => .error (.inr failure)

/-- The summary of the outcome in which a coercion is seen. -/
def summaryOf (key : String) (default : Value) : Except (ErrorKind ⊕ Failure) (Option Value) →
    Except Failure (Reason × Value × Option String × ErrorKind)
  | .ok (some value) => .ok (.resolved, value, some key, .none)
  | .ok none => .ok (.default, default, none, .none)
  | .error (.inl kind) => .ok (.error, default, none, kind)
  | .error (.inr failure) => .error failure

theorem summary_evaluateVariant {v : Variant} (hoff : v.isOff = false) (type : FlagType)
    (default : Value) :
    (evaluateVariant type v default).map Outcome.summary
      = summaryOf v.key default (seen (v.coerce type)) := by
  rw [evaluateVariant, hoff]
  cases v.coerce type with
  | ok value => cases value <;> rfl
  | error failure => cases failure <;> rfl

theorem summaryOf_injective (key : String) (default : Value) :
    Function.Injective (summaryOf key default) := by
  intro x y h
  -- The reason tells three classes of outcome apart, and the fourth has none.
  match x, y with
  | .ok (some _), .ok (some _) => simpa [summaryOf] using h
  | .ok none, .ok none => rfl
  | .error (.inl _), .error (.inl _) => simpa [summaryOf] using h
  | .error (.inr _), .error (.inr _) => simpa [summaryOf] using h
  | .ok (some _), .ok none | .ok (some _), .error (.inl _) | .ok (some _), .error (.inr _)
  | .ok none, .ok (some _) | .ok none, .error (.inl _) | .ok none, .error (.inr _)
  | .error (.inl _), .ok (some _) | .error (.inl _), .ok none | .error (.inl _), .error (.inr _)
  | .error (.inr _), .ok (some _) | .error (.inr _), .ok none
  | .error (.inr _), .error (.inl _) => simp [summaryOf] at h

/-- Variants with one key evaluate alike exactly when their coercions are seen alike. -/
theorem sameResult_iff_seen {v w : Variant} (hkey : w.key = v.key) (hoff : v.isOff = false)
    (type : FlagType) (default : Value) :
    SameResult (evaluateVariant type v default) (evaluateVariant type w default)
      ↔ seen (v.coerce type) = seen (w.coerce type) := by
  have hoff' : w.isOff = false := by rw [Variant.isOff, hkey]; exact hoff
  rw [SameResult, summary_evaluateVariant hoff, summary_evaluateVariant hoff', hkey]
  exact (summaryOf_injective v.key default).eq_iff

/-! ### Payloads that survive -/

/-- The payloads that evaluate to a type alike before and after they are reduced.  As a truth value
every payload does.  A float that is no number becomes null, and a decimal becomes its text: as a
float the text of a finite decimal denotes the decimal, but as an integer it must be a numeral. -/
def FlagType.Keeps : FlagType → Value → Prop
  | .object, p => p.dump = .ok p
  | .boolean, _ => True
  | _, .float x => x.isFinite = true
  | .string, .decimal _ => False
  | .integer, .decimal (.finite _ coefficient exponent) =>
    exponent = 0 ∧ digitCount coefficient ≤ maxDigits
  | .float, .decimal d => d.isFinite = true
  | _, _ => True

/-- A variant that evaluates alike before and after it is reduced. -/
def Variant.Survives (type : FlagType) (v : Variant) : Prop :=
  v.isOff = true ∨ type.Keeps v.payload

theorem seen_ok_ne_mismatch (value : Option Value) :
    (.ok value : Except (ErrorKind ⊕ Failure) (Option Value)) ≠ .error (.inl .typeMismatch) := by
  intro h
  cases h

/-- A finite decimal and its text are the same integer when the text is a numeral of few digits. -/
theorem integer_finite (negative : Bool) (coefficient : Nat) (exponent : Int) :
    seen (coerceInteger (.number (.decimal (.finite negative coefficient exponent))))
        = seen (coerceInteger (.text (Decimal.finite negative coefficient exponent).text))
      ↔ exponent = 0 ∧ digitCount coefficient ≤ maxDigits := by
  have hdigits : ofDigits ((natText coefficient).map digitValue) = coefficient :=
    decimalValue_natText coefficient
  have hlength : ((natText coefficient).map digitValue).length = digitCount coefficient :=
    List.length_map _
  rw [coerceInteger, coerceInteger, integerOfText, integer?_text_finite]
  by_cases hzero : exponent = 0
  · subst hzero
    rw [if_pos rfl]
    simp only [hlength, hdigits]
    by_cases hshort : digitCount coefficient ≤ maxDigits
    · rw [if_pos hshort]
      have hwhole : (Number.decimal (.finite negative coefficient 0)).toInteger
          = .ok (Binary64.signed negative coefficient) := by
        simp [Number.toInteger, Decimal.truncate?, tenPow]
      rw [hwhole]
      exact ⟨fun _ => ⟨trivial, hshort⟩, fun _ => rfl⟩
    · rw [if_neg hshort]
      exact ⟨fun h => absurd h (seen_ok_ne_mismatch _), fun h => absurd h.2 hshort⟩
  · rw [if_neg hzero]
    exact ⟨fun h => absurd h (seen_ok_ne_mismatch _), fun h => absurd h.1 hzero⟩

/-- A decimal and its text are the same integer when the text is a numeral of few digits, or when
neither has an integer part. -/
theorem integer_decimal (d : Decimal) :
    seen (coerceInteger (.number (.decimal d))) = seen (coerceInteger (.text d.text))
      ↔ FlagType.integer.Keeps (.decimal d) := by
  cases hfinite : d.isFinite with
  | false =>
    have htext : seen (coerceInteger (.text d.text)) = .error (.inl .typeMismatch) := by
      rw [coerceInteger, integerOfText, (numeral_none_of_not_isFinite hfinite).2]
      rfl
    rw [htext]
    cases d with
    | finite => cases hfinite
    | infinity negative => exact ⟨fun _ => trivial, fun _ => rfl⟩
    | nan negative signaling diagnostic => exact ⟨fun _ => trivial, fun _ => rfl⟩
  | true =>
    cases d with
    | infinity => cases hfinite
    | nan => cases hfinite
    | finite negative coefficient exponent => exact integer_finite negative coefficient exponent

/-- A decimal and its text are the same float when the decimal is finite. -/
theorem float_decimal (d : Decimal) :
    seen (coerceFloat (.number (.decimal d))) = seen (coerceFloat (.text d.text))
      ↔ FlagType.float.Keeps (.decimal d) := by
  cases hfinite : d.isFinite with
  | false =>
    have htext : seen (coerceFloat (.text d.text)) = .error (.inl .typeMismatch) := by
      rw [coerceFloat, floatOfText, (numeral_none_of_not_isFinite hfinite).1]
      rfl
    have hnumber : seen (coerceFloat (.number (.decimal d))) ≠ .error (.inl .typeMismatch) := by
      cases d with
      | finite => cases hfinite
      | infinity negative => exact seen_ok_ne_mismatch _
      | nan negative signaling diagnostic =>
        cases signaling with
        | false => exact seen_ok_ne_mismatch _
        | true => exact fun h => by cases h
    rw [htext, FlagType.Keeps, hfinite]
    exact ⟨fun h => absurd h hnumber, fun h => by cases h⟩
  | true =>
    cases d with
    | infinity => cases hfinite
    | nan => cases hfinite
    | finite negative coefficient exponent =>
      rw [coerceFloat, coerceFloat, floatOfText, scientific?_text_finite]
      exact ⟨fun _ => rfl, fun _ => rfl⟩

/-! ### Payloads and their reductions -/

theorem Value.dump_float (x : Binary64) :
    (Value.float x).dump = .ok (if x.isFinite then .float x else .null) := rfl

theorem Value.dump_decimal (d : Decimal) : (Value.decimal d).dump = .ok (.text d.text) := rfl

/-- A payload that is its own reduction is kept by every type. -/
theorem keeps_of_dump_eq {p : Value} (h : p.dump = .ok p) (type : FlagType) : type.Keeps p := by
  cases type with
  | boolean => trivial
  | object => exact h
  | string | integer | float =>
    cases p with
    | float x =>
      rw [Value.dump_float] at h
      split at h
      · assumption
      · cases h
    | decimal d => cases h
    | _ => trivial

/-- Lists, tuples and maps. -/
inductive Value.Compound : Value → Prop
  | list (items : List Value) : Compound (.list items)
  | tuple (items : List Value) : Compound (.tuple items)
  | map (entries : Attributes) : Compound (.map entries)

/-- What is seen of lists, tuples and maps. -/
def seenCompound (p : Value) : FlagType → Except (ErrorKind ⊕ Failure) (Option Value)
  | .boolean => .ok (some (.bool true))
  | .object => .ok (some p)
  | _ => .error (.inl .typeMismatch)

theorem seen_coerce_of_compound (type : FlagType) {v : Variant} (h : v.payload.Compound) :
    seen (v.coerce type) = seenCompound v.payload type := by
  obtain ⟨key, value, p, metadata⟩ := v
  cases h <;> cases type <;> rfl

/-- Lists, tuples and maps are reduced to lists and maps. -/
theorem Value.Compound.of_dump {p q : Value} (hp : p.Compound) (hdump : p.dump = .ok q) :
    q.Compound := by
  cases hp with
  | list items =>
    obtain ⟨others, -, rfl⟩ := map_eq_ok_iff.mp hdump
    exact .list others
  | tuple items =>
    obtain ⟨others, -, rfl⟩ := map_eq_ok_iff.mp hdump
    exact .list others
  | map entries =>
    obtain ⟨others, -, rfl⟩ := map_eq_ok_iff.mp hdump
    exact .map _

theorem keeps_compound_iff {p q : Value} (hp : p.Compound) (hdump : p.dump = .ok q)
    (type : FlagType) : seenCompound p type = seenCompound q type ↔ type.Keeps p := by
  cases type with
  | object =>
    simp only [seenCompound, FlagType.Keeps, hdump, Except.ok.injEq, Option.some.injEq]
    exact eq_comm
  | boolean => exact ⟨fun _ => trivial, fun _ => rfl⟩
  | string | integer | float => cases hp <;> exact ⟨fun _ => trivial, fun _ => rfl⟩

theorem coerce_of_payload {v : Variant} {value : Value} {p : Payload} (hvalue : v.payload = value)
    (hp : Payload.ofValue value = .ok p) (type : FlagType) : v.coerce type = type.coerce p := by
  rw [Variant.coerce, hvalue, hp]

theorem keeps_decimal_iff (type : FlagType) {v w : Variant} {d : Decimal}
    (hv : v.payload = .decimal d) (hw : w.payload = .text d.text) :
    seen (v.coerce type) = seen (w.coerce type) ↔ type.Keeps (.decimal d) := by
  rw [coerce_of_payload hv rfl, coerce_of_payload hw rfl]
  cases type with
  | boolean => exact ⟨fun _ => trivial, fun _ => rfl⟩
  | string => exact ⟨fun h => (by cases h), fun h => (by cases h)⟩
  | integer => exact integer_decimal d
  | float => exact float_decimal d
  | object => exact ⟨fun h => (by cases h), fun h => (by cases h)⟩

theorem keeps_float_iff (type : FlagType) {v w : Variant} {x : Binary64}
    (hx : x.isFinite = false) (hv : v.payload = .float x) (hw : w.payload = .null) :
    seen (v.coerce type) = seen (w.coerce type) ↔ type.Keeps (.float x) := by
  rw [coerce_of_payload hv rfl, coerce_of_payload hw rfl]
  have hnot : ¬ x.isFinite = true := by simp [hx]
  cases type with
  | boolean => exact ⟨fun _ => trivial, fun _ => rfl⟩
  | string => exact ⟨fun h => (by cases h), fun h => absurd h hnot⟩
  | float => exact ⟨fun h => (by cases h), fun h => absurd h hnot⟩
  | integer =>
    refine ⟨fun h => ?_, fun h => absurd h hnot⟩
    cases x with
    | finite => cases hx
    | nan => cases h
    | infinity negative => cases h
  | object =>
    refine ⟨fun h => (by cases h), fun h => ?_⟩
    rw [FlagType.Keeps, Value.dump_float, if_neg hnot] at h
    cases h

/-- A payload and its reduction are seen alike exactly when the type keeps the payload. -/
theorem seen_coerce_iff_keeps (type : FlagType) {v w : Variant}
    (haccepted : ∃ p, Payload.ofValue v.payload = .ok p)
    (hdump : v.payload.dump = .ok w.payload) :
    seen (v.coerce type) = seen (w.coerce type) ↔ type.Keeps v.payload := by
  by_cases hsame : v.payload.dump = .ok v.payload
  -- The reduction is the payload itself.
  · have hcoerce : v.coerce type = w.coerce type := by
      rw [hsame, Except.ok.injEq] at hdump
      rw [Variant.coerce, Variant.coerce, hdump]
    exact ⟨fun _ => keeps_of_dump_eq hsame type, fun _ => by rw [hcoerce]⟩
  by_cases hcompound : v.payload.Compound
  · rw [seen_coerce_of_compound type hcompound,
      seen_coerce_of_compound type (hcompound.of_dump hdump)]
    exact keeps_compound_iff hcompound hdump type
  -- What is left are decimals and floats that are no number.
  cases hv : v.payload with
  | null | bool | int | text =>
    rw [hv] at hsame
    exact absurd rfl hsame
  | list | tuple | map =>
    rw [hv] at hcompound
    exact absurd (by constructor) hcompound
  | bytes | set | object =>
    obtain ⟨_, h⟩ := haccepted
    rw [hv] at h
    cases h
  | decimal d =>
    rw [hv, Value.dump_decimal, Except.ok.injEq] at hdump
    exact keeps_decimal_iff type hv hdump.symm
  | float x =>
    rw [hv] at hdump hsame
    cases hx : x.isFinite with
    | true =>
      rw [Value.dump_float, if_pos hx] at hsame
      exact absurd rfl hsame
    | false =>
      rw [Value.dump_float, if_neg (by simp [hx]), Except.ok.injEq] at hdump
      exact keeps_float_iff type hx hv hdump.symm

/-- **A variant and its reduction evaluate alike exactly when the variant survives.** -/
theorem sameResult_iff_survives {v w : Variant} (hreduces : v.Reduces w)
    (haccepted : ∃ p, Payload.ofValue v.payload = .ok p) (type : FlagType) (default : Value) :
    SameResult (evaluateVariant type v default) (evaluateVariant type w default)
      ↔ v.Survives type := by
  cases hoff : v.isOff with
  | true =>
    have hoff' : w.isOff = true := by rw [Variant.isOff, hreduces.key]; exact hoff
    refine ⟨fun _ => .inl hoff, fun _ => ?_⟩
    rw [evaluateVariant, evaluateVariant, hoff, hoff']
    rfl
  | false =>
    rw [sameResult_iff_seen hreduces.key hoff, seen_coerce_iff_keeps type haccepted hreduces.payload,
      Variant.Survives, hoff]
    simp

end Rollout
