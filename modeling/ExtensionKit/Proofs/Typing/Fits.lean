import ExtensionKit.Typing.Coercion

/-!
# Values that fit a representation

A value *fits* a representation if it is held in it and is no infinity and not `nan`. Records hold
fitting values only, and three facts about them are all that records need to know of coercions:

* what a coercion gives fits its target (`Coercion.fits_of_apply`);
* the zero of a representation fits it (`Representation.fits_zero`);
* a value that fits comes back when its projection is coerced (`Coercion.apply_toJson`). Dates are
  the exception, since they are projected to text; no field of a record has them.
-/

namespace ExtensionKit

/-- A value that is held in a representation and is finite if it is a number. -/
structure Value.Fits (v : Value) (r : Representation) : Prop where
  /-- the value is held in the representation -/
  held : v.representation = r
  /-- a number is neither infinite nor `nan` -/
  finite : ∀ x, v = .float64 x → x.isFinite = true

/-- Inversion for mapping over a result. -/
theorem map_eq_ok {f : α → β} {x : Except ε α} {b : β} (h : x.map f = .ok b) :
    ∃ a, x = .ok a ∧ f a = b := by
  cases x with
  | error e => cases h
  | ok a => exact ⟨a, rfl, Except.ok.inj h⟩

/-- Only numbers have to be finite. -/
theorem Value.fits_of_ne_float64 {v : Value} {r : Representation} (held : v.representation = r)
    (hr : r ≠ .float64) : v.Fits r := by
  refine ⟨held, ?_⟩
  rintro x rfl
  exact absurd held.symm hr

theorem Value.fits_float64 {x : Binary64} (hx : x.isFinite = true) :
    (Value.float64 x).Fits .float64 := by
  refine ⟨rfl, ?_⟩
  rintro y hy
  obtain rfl := Value.float64.inj hy
  exact hx

theorem Representation.fits_zero (r : Representation) : r.zero.Fits r := by
  cases r with
  | float64 => exact Value.fits_float64 rfl
  | _ => exact Value.fits_of_ne_float64 rfl (by decide)

/-! ## What coercions give -/

theorem Json.isFinite_of_requireFinite {raw : Json} {x y : Binary64}
    (h : raw.requireFinite x = .ok y) : y.isFinite = true := by
  rw [Json.requireFinite] at h
  split at h
  · next hx =>
    obtain rfl := Except.ok.inj h
    exact hx
  · cases h

/-- A number that a coercion gives is finite. -/
theorem Json.isFinite_of_toFloat64 {raw : Json} {x : Binary64} (h : raw.toFloat64 = .ok x) :
    x.isFinite = true := by
  cases raw with
  | null =>
    obtain rfl := Except.ok.inj h
    rfl
  | bool b =>
    obtain rfl := Except.ok.inj h
    cases b <;> decide +kernel
  | number n => exact isFinite_of_requireFinite h
  | string s =>
    simp only [Json.toFloat64] at h
    split at h
    · obtain rfl := Except.ok.inj h
      rfl
    · split at h
      · exact isFinite_of_requireFinite h
      · cases h
  | array items => cases h
  | object members => cases h

/-- **What a coercion gives fits its target.** -/
theorem Coercion.fits_of_apply {c : Coercion} {raw : Json} {v : Value} (h : c.apply raw = .ok v) :
    v.Fits c.target := by
  cases c with
  | toFloat64 =>
    obtain ⟨x, hx, rfl⟩ := map_eq_ok h
    exact Value.fits_float64 (Json.isFinite_of_toFloat64 hx)
  | toString =>
    obtain rfl := Except.ok.inj h
    exact Value.fits_of_ne_float64 rfl (by decide)
  | passthrough =>
    obtain rfl := Except.ok.inj h
    exact Value.fits_of_ne_float64 rfl (by decide)
  | toInt64 =>
    obtain ⟨i, -, rfl⟩ := map_eq_ok h
    exact Value.fits_of_ne_float64 rfl (by decide)
  | toBool =>
    obtain ⟨b, -, rfl⟩ := map_eq_ok h
    exact Value.fits_of_ne_float64 rfl (by decide)
  | toObject =>
    obtain ⟨members, -, rfl⟩ := map_eq_ok h
    exact Value.fits_of_ne_float64 rfl (by decide)
  | toDateTime =>
    obtain ⟨t, -, rfl⟩ := map_eq_ok h
    exact Value.fits_of_ne_float64 rfl (by decide)

/-! ## Projections -/

/-- A finite number has a numeral. -/
theorem Value.Fits.toJson_ne_null {v : Value} (fits : v.Fits .float64) : v.toJson ≠ .null := by
  cases v with
  | float64 x =>
    cases x with
    | finite x => nofun
    | infinite negative => cases fits.finite _ rfl
    | nan => cases fits.finite _ rfl
  | _ => cases fits.held

/-- An integer of 64 bits is coerced to itself. -/
theorem Json.toInt64_ofInt64 (i : Int64) : (Json.ofInt64 i).toInt64 = .ok i := by
  have hlt : i.toInt < 0x8000000000000000 := i.toInt_lt
  rw [Json.ofInt64, Number.ofInt64, Json.toInt64, if_pos hlt, Int64.ofInt_toInt]

/-- **A value that fits comes back** when its projection is coerced, unless it is a date. -/
theorem Coercion.apply_toJson {c : Coercion} {v : Value} (fits : v.Fits c.target)
    (hc : c ≠ .toDateTime) : c.apply v.toJson = .ok v := by
  have held := fits.held
  cases c <;> cases v <;> try cases held
  case toFloat64.float64 x =>
    cases x with
    | finite x => rfl
    | infinite negative => cases fits.finite _ rfl
    | nan => cases fits.finite _ rfl
  case toInt64.int64 i =>
    rw [Coercion.apply, Value.toJson, Json.toInt64_ofInt64]
    rfl
  case toDateTime.datetime t => exact absurd rfl hc
  all_goals rfl

/-- Fields of records never hold dates. -/
theorem FieldType.fieldCoercion_ne_toDateTime (t : FieldType) : t.fieldCoercion ≠ .toDateTime := by
  cases t <;> decide

end ExtensionKit
