/-
When two values are the same key.

What makes a key is its form: a null, a text, bytes, a number however it is written, or the forms of
the items of a tuple.  Values without a form are the same key as nothing, not even as themselves.

* `Value.form?` — the form of a key;
* `Value.sameKey_iff` — values are the same key exactly when they have a form and share it.
-/
import Rollout.Value

namespace Rollout

namespace Value

/-- What makes a key of a map. -/
inductive KeyForm
  | null
  | text (s : String)
  | octets (octets : List UInt8)
  | quantity (q : Quantity)
  | tuple (items : List KeyForm)

mutual

/-- The form of a value as a key; none for what is no key, or never the same key. -/
def form? : Value → Option KeyForm
  | .null => some .null
  | .text s => some (.text s)
  | .bytes octets => some (.octets octets)
  | .tuple items => (forms? items).map .tuple
  | v => v.quantity?.map .quantity

/-- The forms of a list of values, if all have one. -/
def forms? : List Value → Option (List KeyForm)
  | [] => some []
  | v :: rest =>
    match form? v, forms? rest with
    | some form, some forms => some (form :: forms)
    | _, _ => none

end

theorem sameQuantity_iff {a b : Value} :
    sameQuantity a b = true ↔ ∃ q, a.quantity? = some q ∧ b.quantity? = some q := by
  unfold sameQuantity
  cases a.quantity? with
  | none => simp
  | some p =>
    cases b.quantity? with
    | none => simp
    | some q => simp [eq_comm]

theorem forms?_cons {v : Value} {rest : List Value} {forms : List KeyForm} :
    forms? (v :: rest) = some forms ↔
      ∃ form others, v.form? = some form ∧ forms? rest = some others ∧ forms = form :: others := by
  rw [forms?]
  cases v.form? with
  | none => simp
  | some form =>
    cases forms? rest with
    | none => simp
    | some others => simp [eq_comm]

/-! ### What a form says about its value -/

theorem form?_eq_null {v : Value} : v.form? = some .null ↔ v = .null := by
  cases v <;> simp [form?]

theorem form?_eq_text {v : Value} {s : String} : v.form? = some (.text s) ↔ v = .text s := by
  cases v <;> simp [form?]

theorem form?_eq_octets {v : Value} {octets : List UInt8} :
    v.form? = some (.octets octets) ↔ v = .bytes octets := by
  cases v <;> simp [form?]

theorem form?_eq_quantity {v : Value} {q : Quantity} :
    v.form? = some (.quantity q) ↔ v.quantity? = some q := by
  cases v with
  | null | text | bytes | tuple => simp [form?, quantity?]
  | _ => simp only [form?, Option.map_eq_some_iff, KeyForm.quantity.injEq, exists_eq_right]

theorem exists_tuple_of_form? {v : Value} {forms : List KeyForm}
    (h : v.form? = some (.tuple forms)) : ∃ items, v = .tuple items := by
  cases v <;> simp_all [form?]

/-! ### Keys and forms -/

theorem sameKey_iff_of_not_tuple {a b : Value} (h : ∀ as bs, a = .tuple as → b ≠ .tuple bs) :
    sameKey a b = true ↔ ∃ form, a.form? = some form ∧ b.form? = some form := by
  unfold sameKey
  split
  · simp [form?]
  · simp only [beq_iff_eq, form?, Option.some.injEq, exists_eq_left', KeyForm.text.injEq]
    exact eq_comm
  · simp only [beq_iff_eq, form?, Option.some.injEq, exists_eq_left', KeyForm.octets.injEq]
    exact eq_comm
  · have hform : ∀ k : Int, form? (.int k) = some (.quantity (.exact k)) := fun k => rfl
    simp only [beq_iff_eq, hform, Option.some.injEq, exists_eq_left', KeyForm.quantity.injEq,
      Quantity.exact.injEq, Rat.intCast_inj]
    exact eq_comm
  · exact absurd rfl (h _ _ rfl)
  · rename_i hnull htext hbytes _ _
    rw [sameQuantity_iff]
    constructor
    · rintro ⟨q, ha, hb⟩
      exact ⟨.quantity q, form?_eq_quantity.mpr ha, form?_eq_quantity.mpr hb⟩
    · rintro ⟨form, ha, hb⟩
      -- Only numbers are left, the other forms belong to the cases before.
      cases form with
      | quantity q => exact ⟨q, form?_eq_quantity.mp ha, form?_eq_quantity.mp hb⟩
      | null => exact absurd (form?_eq_null.mp hb) (hnull (form?_eq_null.mp ha))
      | text s => exact absurd (form?_eq_text.mp hb) (htext s s (form?_eq_text.mp ha))
      | octets octets =>
        exact absurd (form?_eq_octets.mp hb) (hbytes octets octets (form?_eq_octets.mp ha))
      | tuple forms =>
        obtain ⟨as, has⟩ := exists_tuple_of_form? ha
        obtain ⟨bs, hbs⟩ := exists_tuple_of_form? hb
        exact absurd hbs (h as bs has)

mutual

/-- Two values are the same key exactly when they have a form and share it. -/
theorem sameKey_iff (a b : Value) :
    sameKey a b = true ↔ ∃ form, a.form? = some form ∧ b.form? = some form := by
  cases a with
  | tuple as =>
    cases b with
    | tuple bs =>
      rw [sameKey, sameKeys_iff as bs]
      simp only [form?, Option.map_eq_some_iff]
      constructor
      · rintro ⟨forms, ha, hb⟩
        exact ⟨_, ⟨forms, ha, rfl⟩, forms, hb, rfl⟩
      · rintro ⟨_, ⟨forms, ha, rfl⟩, others, hb, hforms⟩
        rw [KeyForm.tuple.injEq] at hforms
        exact ⟨forms, ha, hforms ▸ hb⟩
    | _ => exact sameKey_iff_of_not_tuple fun _ _ _ => Value.noConfusion
  | _ => exact sameKey_iff_of_not_tuple fun _ _ h => Value.noConfusion h

theorem sameKeys_iff (as bs : List Value) :
    sameKeys as bs = true ↔ ∃ forms, forms? as = some forms ∧ forms? bs = some forms := by
  cases as with
  | nil =>
    cases bs with
    | nil => simp [sameKeys, forms?]
    | cons b bs =>
      simp only [sameKeys, forms?_cons]
      simp [forms?]
  | cons a as =>
    cases bs with
    | nil =>
      simp only [sameKeys, forms?_cons]
      simp [forms?]
    | cons b bs =>
      rw [sameKeys, Bool.and_eq_true, sameKey_iff a b, sameKeys_iff as bs]
      simp only [forms?_cons]
      constructor
      · rintro ⟨⟨form, ha, hb⟩, forms, has, hbs⟩
        exact ⟨_, ⟨form, forms, ha, has, rfl⟩, form, forms, hb, hbs, rfl⟩
      · rintro ⟨_, ⟨form, forms, ha, has, rfl⟩, form', forms', hb, hbs, h⟩
        rw [List.cons.injEq] at h
        exact ⟨⟨form, ha, h.1 ▸ hb⟩, forms, has, h.2 ▸ hbs⟩

end

/-- No other value is the same key as a text. -/
theorem eq_text_of_beq {v : Value} {s : String} (h : (v == .text s) = true) : v = .text s := by
  obtain ⟨form, hv, hs⟩ := (sameKey_iff v (.text s)).mp h
  rw [← Option.some.inj hs] at hv
  exact form?_eq_text.mp hv

/-- Nor as bytes, which are the same key as themselves. -/
theorem beq_bytes_iff {v : Value} {octets : List UInt8} :
    (v == .bytes octets) = true ↔ v = .bytes octets := by
  constructor
  · intro h
    obtain ⟨form, hv, hoctets⟩ := (sameKey_iff v (.bytes octets)).mp h
    rw [← Option.some.inj hoctets] at hv
    exact form?_eq_octets.mp hv
  · rintro rfl
    exact (sameKey_iff _ _).mpr ⟨.octets octets, rfl, rfl⟩

/-- Being the same key is symmetric and transitive, though not everything is the same key as
itself. -/
instance : PartialEquivBEq Value where
  symm {a b} h := by
    obtain ⟨form, ha, hb⟩ := (sameKey_iff a b).mp h
    exact (sameKey_iff b a).mpr ⟨form, hb, ha⟩
  trans {a b c} hab hbc := by
    obtain ⟨form, ha, hb⟩ := (sameKey_iff a b).mp hab
    obtain ⟨form', hb', hc⟩ := (sameKey_iff b c).mp hbc
    rw [hb, Option.some.injEq] at hb'
    exact (sameKey_iff a c).mpr ⟨form, ha, hb' ▸ hc⟩

end Value

end Rollout
