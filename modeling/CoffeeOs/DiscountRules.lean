import CoffeeOs.Discounts
import CoffeeOs.Runs

/-!
The rules of a discount: its value fits its type, and its dates are in order.

Each rule is about two columns. An update checks a rule only if its payload carries both, so
that a payload with one of them has to fit what is stored in the other.
-/

namespace CoffeeOs.DiscountRules

open CoffeeOs.KeyedTable CoffeeOs.Payload CoffeeOs.Runs CoffeeOs.Schema CoffeeOs.Discounts

variable {db : Db} {d d' : Discount}

def ValueFits (type : DiscountType) (value : ℚ) : Prop :=
  (type = .percentage → 0 ≤ value ∧ value ≤ 100) ∧ (type = .fixedAmount → 0 < value)

def DatesFit (validFrom validUntil : Option Instant) : Prop :=
  ∀ f u, validFrom = some f → validUntil = some u → f ≤ u

structure Valid (d : Discount) : Prop where
  value : ValueFits d.type d.value
  dates : DatesFit d.validFrom d.validUntil

def AllValid (db : Db) : Prop := ∀ id d, db.discounts.find? id = some d → Valid d

/-- The payload carries no `null` for a required column. -/
structure Writable (dto : UpdateDiscountDto) : Prop where
  code : dto.code ≠ .null
  name : dto.name ≠ .null
  type : dto.type ≠ .null
  value : dto.value ≠ .null
  usageCount : dto.usageCount ≠ .null
  isActive : dto.isActive ≠ .null
  organizationId : dto.organizationId ≠ .null

/-- Where the payload carries only one of two columns, it fits the stored other one. -/
structure Fits (dto : UpdateDiscountDto) (d : Discount) : Prop where
  value : ∀ v, dto.type = .undefined → dto.value = .val v → ValueFits d.type v
  type : ∀ t, dto.type = .val t → dto.value = .undefined → ValueFits t d.value
  validFrom : ∀ f, dto.validFrom = .val f → dto.validUntil = .undefined →
    DatesFit (some f) d.validUntil
  validUntil : ∀ u, dto.validFrom = .undefined → dto.validUntil = .val u →
    DatesFit d.validFrom (some u)

/-- The call is no update that passes the checks and does not fit the stored row. -/
def KeepsRules (db : Db) : Op → Prop
  | .update id dto => ∀ d, db.discounts.find? id = some d → UpdateChecked db id dto →
      Writable dto → Fits dto d
  | _ => True

/-! ### The row after an update -/

lemma apply_of_writable {dto : UpdateDiscountDto} (h : Writable dto) (d : Discount) :
    ∃ d', dto.apply d = some d' ∧ d'.type = dto.type.orElse d.type ∧
      d'.value = (dto.value.map Subtype.val).orElse d.value ∧
      d'.validFrom = dto.validFrom.intoNullable d.validFrom ∧
      d'.validUntil = dto.validUntil.intoNullable d.validUntil := by
  unfold UpdateDiscountDto.apply
  rw [Property.intoRequired_of_ne_null h.code, Property.intoRequired_of_ne_null h.name,
    Property.intoRequired_of_ne_null h.type,
    Property.intoRequired_of_ne_null (Property.map_ne_null h.value),
    Property.intoRequired_of_ne_null (Property.map_ne_null h.usageCount),
    Property.intoRequired_of_ne_null h.isActive,
    Property.intoRequired_of_ne_null h.organizationId]
  exact ⟨_, rfl, rfl, rfl, rfl, rfl⟩

lemma writable_of_apply {dto : UpdateDiscountDto} (h : dto.apply d = some d') : Writable dto := by
  unfold UpdateDiscountDto.apply at h
  simp only [Option.bind_eq_bind, Option.bind_eq_some_iff] at h
  obtain ⟨code, hc, name, hn, type, ht, value, hv, usageCount, hu, isActive, ha,
    organizationId, ho, -⟩ := h
  exact ⟨Property.ne_null_of_intoRequired hc, Property.ne_null_of_intoRequired hn,
    Property.ne_null_of_intoRequired ht,
    Property.ne_null_of_map (Property.ne_null_of_intoRequired hv),
    Property.ne_null_of_map (Property.ne_null_of_intoRequired hu),
    Property.ne_null_of_intoRequired ha, Property.ne_null_of_intoRequired ho⟩

lemma valueFits_of_checked {id : Id} {dto : UpdateDiscountDto} (h : UpdateChecked db id dto)
    {t : DiscountType} {v : AtLeast 0} (ht : dto.type = .val t) (hv : dto.value = .val v) :
    ValueFits t v := by
  obtain ⟨-, hp, hf, -⟩ := h
  rw [ht, hv] at hp hf
  refine ⟨?_, ?_⟩
  · rintro rfl
    refine ⟨v.2, le_of_not_gt fun hlt => hp ⟨rfl, ?_⟩⟩
    simpa [number] using Or.inr hlt
  · rintro rfl
    refine lt_of_not_ge fun hle => hf ⟨rfl, ?_⟩
    simpa [number] using hle

/-- The value of the new row fits its type exactly if the payload fits. -/
lemma valueFits_iff {id : Id} {dto : UpdateDiscountDto} (h : ValueFits d.type d.value)
    (hc : UpdateChecked db id dto) (hw : Writable dto) :
    ValueFits (dto.type.orElse d.type) ((dto.value.map Subtype.val).orElse d.value) ↔
      (∀ v, dto.type = .undefined → dto.value = .val v → ValueFits d.type v) ∧
      (∀ t, dto.type = .val t → dto.value = .undefined → ValueFits t d.value) := by
  rcases ht : dto.type with _ | _ | t
  · rcases hv : dto.value with _ | _ | v
    · exact iff_of_true h ⟨by simp, by simp⟩
    · exact absurd hv hw.value
    · refine ⟨fun hfit => ⟨fun v' _ he => ?_, by simp⟩, fun hfit => hfit.1 v rfl rfl⟩
      cases he
      exact hfit
  · exact absurd ht hw.type
  · rcases hv : dto.value with _ | _ | v
    · refine ⟨fun hfit => ⟨by simp, fun t' he _ => ?_⟩, fun hfit => hfit.2 t rfl rfl⟩
      cases he
      exact hfit
    · exact absurd hv hw.value
    · exact iff_of_true (valueFits_of_checked hc ht hv) ⟨by simp, by simp⟩

lemma datesFit_none_left (validUntil : Option Instant) : DatesFit none validUntil :=
  fun _ _ h => by cases h

lemma datesFit_none_right (validFrom : Option Instant) : DatesFit validFrom none :=
  fun _ _ _ h => by cases h

/-- The dates of the new row are in order exactly if the payload fits. -/
lemma datesFit_iff {id : Id} {dto : UpdateDiscountDto} (h : DatesFit d.validFrom d.validUntil)
    (hc : UpdateChecked db id dto) :
    DatesFit (dto.validFrom.intoNullable d.validFrom) (dto.validUntil.intoNullable d.validUntil) ↔
      (∀ f, dto.validFrom = .val f → dto.validUntil = .undefined →
        DatesFit (some f) d.validUntil) ∧
      (∀ u, dto.validFrom = .undefined → dto.validUntil = .val u →
        DatesFit d.validFrom (some u)) := by
  rcases hf : dto.validFrom with _ | _ | f
  · rcases hu : dto.validUntil with _ | _ | u
    · -- neither date is written, and the stored ones fit
      exact iff_of_true h ⟨by simp, by simp⟩
    · exact iff_of_true (datesFit_none_right _) ⟨by simp, by simp⟩
    · refine ⟨fun hfit => ⟨by simp, fun u' _ he => ?_⟩, fun hfit => hfit.2 u rfl rfl⟩
      cases he
      exact hfit
  · exact iff_of_true (datesFit_none_left _) ⟨by simp, by simp⟩
  · rcases hu : dto.validUntil with _ | _ | u
    · refine ⟨fun hfit => ⟨fun f' he _ => ?_, by simp⟩, fun hfit => hfit.1 f rfl rfl⟩
      cases he
      exact hfit
    · exact iff_of_true (datesFit_none_right _) ⟨by simp, by simp⟩
    · refine iff_of_true ?_ ⟨by simp, by simp⟩
      intro f' u' hf' hu'
      cases hf'
      cases hu'
      -- both dates are written, and the request has been checked for their order
      have hd := hc.2.2.2
      rw [hf, hu] at hd
      exact not_lt.mp hd

/-- An accepted update leaves a valid row exactly if its payload fits. -/
lemma valid_apply_iff {id : Id} {dto : UpdateDiscountDto} (h : Valid d)
    (hc : UpdateChecked db id dto) (ha : dto.apply d = some d') : Valid d' ↔ Fits dto d := by
  have hw : Writable dto := writable_of_apply ha
  obtain ⟨d'', ha', ht, hv, hf, hu⟩ := apply_of_writable hw d
  obtain rfl : d'' = d' := Option.some.inj (ha'.symm.trans ha)
  have hvalue := valueFits_iff h.value hc hw
  have hdates := datesFit_iff h.dates hc
  rw [← ht, ← hv] at hvalue
  rw [← hf, ← hu] at hdates
  refine ⟨fun ⟨hv, hd⟩ => ?_, fun ⟨hv, ht, hf, hu⟩ => ⟨hvalue.mpr ⟨hv, ht⟩, hdates.mpr ⟨hf, hu⟩⟩⟩
  exact ⟨(hvalue.mp hv).1, (hvalue.mp hv).2, (hdates.mp hd).1, (hdates.mp hd).2⟩

/-! ### Calls and runs -/

lemma valid_row {dto : CreateDiscountDto} (hc : CreateChecked db dto) (hd : dto.row = some d) :
    Valid d := by
  obtain ⟨-, hp, hf, hdates⟩ := hc
  unfold CreateDiscountDto.row at hd
  simp only [Option.bind_eq_bind, Option.bind_eq_some_iff] at hd
  obtain ⟨usageCount, -, isActive, -, hd⟩ := hd
  rw [← Option.some.inj hd]
  refine ⟨⟨fun ht => ⟨dto.value.2, ?_⟩, fun ht => ?_⟩, fun f u hfrom huntil => ?_⟩
  · exact le_of_not_gt fun hlt => hp ⟨ht, Or.inr hlt⟩
  · exact lt_of_not_ge fun hle => hf ⟨ht, hle⟩
  · dsimp only at hfrom huntil
    rcases hvf : dto.validFrom with _ | _ | f' <;> rw [hvf] at hfrom hdates <;> cases hfrom
    rcases hvu : dto.validUntil with _ | _ | u' <;> rw [hvu] at huntil hdates <;> cases huntil
    exact not_lt.mp hdates

lemma allValid_step_iff (op : Op) (h : AllValid db) : AllValid (step db op) ↔ KeepsRules db op := by
  refine ⟨fun hall => ?_, fun hkeep id d' hd' => ?_⟩
  · cases op with
    | update id dto =>
      intro d hd hc hw
      obtain ⟨d', ha, -⟩ := apply_of_writable hw d
      have hafter : (step db (.update id dto)).discounts.find? id = some d' := by
        rw [step_update, hd]
        dsimp only
        rw [if_pos hc, ha]
        exact Table.find?_put_self
      exact (valid_apply_iff (h id d hd) hc ha).mp (hall id d' hafter)
    | _ => trivial
  · cases step_row hd' with
    | kept stored => exact h id d' stored
    | created checked row => exact valid_row checked row
    | updated stored checked applied =>
      have hfits : Fits _ _ := hkeep _ stored checked (writable_of_apply applied)
      exact (valid_apply_iff (h id _ stored) checked applied).mpr hfits
    | activated stored => exact ⟨(h id _ stored).value, (h id _ stored).dates⟩
    | deactivated stored => exact ⟨(h id _ stored).value, (h id _ stored).dates⟩
    | counted stored => exact ⟨(h id _ stored).value, (h id _ stored).dates⟩

/-- **The rules of a discount.** A run keeps all discounts valid exactly if every accepted
update that carries only one of value and type, or only one of the dates, fits the other one in
the stored row. -/
theorem discounts_valid_iff (db : Db) (ops : List Op) (h0 : AllValid db) :
    Always step AllValid db ops ↔ Along step KeepsRules db ops :=
  always_iff_along (fun _ op h => allValid_step_iff op h) h0

/-- A discount of 20 percent. -/
def summer : CreateDiscountDto where
  code := "SUMMER20"
  name := "Verano 20% OFF"
  type := .percentage
  value := .ofNat 20
  organizationId := "org-1"

theorem summer_valid_iff :
    Always step AllValid ∅ [.create "summer" summer, .update "summer" { value := .val (.ofNat 30) },
      .incrementUsage "summer"] ↔
    Along step KeepsRules ∅ [.create "summer" summer,
      .update "summer" { value := .val (.ofNat 30) }, .incrementUsage "summer"] :=
  discounts_valid_iff ∅ _ fun _ _ h => by cases h

/-- An update makes it 150 percent. -/
theorem summer_not_valid :
    ¬ Always step AllValid ∅
      [.create "summer" summer, .update "summer" { value := .val (.ofNat 150) }] := by
  intro h
  have hd : (run step ∅ [.create "summer" summer,
      .update "summer" { value := .val (.ofNat 150) }]).discounts.find? "summer" =
      some { code := "SUMMER20", name := "Verano 20% OFF", type := .percentage, value := 150,
             organizationId := "org-1" } := by decide +kernel
  have hle := ((h.last "summer" _ hd).value.1 rfl).2
  revert hle
  decide +kernel

end CoffeeOs.DiscountRules
