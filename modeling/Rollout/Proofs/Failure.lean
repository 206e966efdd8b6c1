/-
Texts of failures.

A handler that puts the text of a failure into what it makes of it works as long as there is a text.
A failure that was thrown with an integer of too many digits has none, and one that makes its own
text may have none either: asking for it fails, and the handler with it.

* `Failure.HasText`, `Failure.Silent` — failures that have a text, and faults that have none;
* `Failure.not_isReported_of_silent` — what comes of asking for a text is no report of the library;
* `Failure.handled_of_message`, `Failure.handled_of_silent` — what a handler makes of a failure;
* `Failure.overlong` — a failure without a text.
-/
import Rollout.Failure
import Rollout.Proofs.Number.Digits

namespace Rollout

open Rollout.Text

namespace Failure

/-- A failure that can be asked for its text. -/
def HasText (f : Failure) : Prop := ∃ message, f.message = .ok message

theorem HasText.message_ne {f other : Failure} (h : f.HasText) : f.message ≠ .error other := by
  obtain ⟨message, hmessage⟩ := h
  simp [hmessage]

theorem handled_of_message {f : Failure} {message : String} (h : f.message = .ok message)
    (handler : String → Failure) : f.handled handler = handler message := by
  rw [handled, h]

/-- A failure without a text gets past every handler that asks for one. -/
theorem handled_of_silent {f other : Failure} (h : f.message = .error other)
    (handler : String → Failure) : f.handled handler = other := by
  rw [handled, h]

/-- A handler makes something of a failure, or the failure has no text. -/
theorem handled_cases (f : Failure) (handler : String → Failure) :
    (∃ message, f.message = .ok message ∧ f.handled handler = handler message) ∨
      f.message = .error (f.handled handler) := by
  cases hmessage : f.message with
  | ok message => exact .inl ⟨message, rfl, handled_of_message hmessage handler⟩
  | error other => exact .inr (by rw [handled_of_silent hmessage])

/-- A failure that the library reports. -/
def IsReported (f : Failure) : Prop := ∃ report cause, f = .reported report cause

/-- Asking for a text never fails with a report of the library. -/
theorem not_isReported_of_silent {f other : Failure} (h : f.message = .error other) :
    ¬ other.IsReported := by
  rintro ⟨report, cause, rfl⟩
  unfold message at h
  split at h
  · cases h
  · cases h
  · split at h <;> cases h

/-- A fault of the moment without a text; `other` is the failure of asking for it. -/
def Silent (fault : Option Failure) (other : Failure) : Prop :=
  ∃ failure, fault = some failure ∧ failure.message = .error other

@[simp] theorem silent_some_iff {failure other : Failure} :
    Silent (some failure) other ↔ failure.message = .error other := by
  simp [Silent]

@[simp] theorem not_silent_none {other : Failure} : ¬ Silent none other := by
  simp [Silent]

/-- A failure thrown with an integer of 5001 digits. -/
def overlong : Failure := .thrown .value [.int (10 ^ 5000)]

theorem hasLiteral_pow_eq_false {n : Nat} (h : Numeral.maxDigits ≤ n) :
    (Value.int (10 ^ n)).hasLiteral = false := by
  rw [Value.hasLiteral, decide_eq_false_iff_not, Int.natAbs_pow]
  intro hle
  -- A power of ten has more digits than its exponent says.
  have hlt : 10 ^ n < 10 ^ digitCount (10 ^ n) := lt_pow_digitCount _
  exact absurd (((Nat.pow_lt_pow_iff_right (by decide)).mp hlt).trans_le hle) h.not_gt

theorem message_overlong : overlong.message = .error .integerTooLong := by
  have hliteral : (Value.int (10 ^ 5000)).hasLiteral = false :=
    hasLiteral_pow_eq_false (by decide)
  -- Unfolding leaves two side conditions: the failure does not make its own text.
  rw [overlong, message, quoted, List.all_cons, hliteral]
  · rfl
  · intro text h
    cases h
  · intro what args h
    cases h

end Failure

end Rollout
