import CoffeeOs.Discounts
import CoffeeOs.Growth
import CoffeeOs.Runs
import Mathlib.Algebra.Order.Field.Basic
import Mathlib.Tactic.NormNum

/-!
The amount of a discount, as a function of the purchase.

The amount is the least of what the discount is worth, its cap and the purchase, except that a
cap of 0 is taken for none. Whatever the cap, what the customer is granted and what is left to
pay both grow with the purchase.
-/

namespace CoffeeOs.DiscountAmounts

open CoffeeOs.Growth CoffeeOs.KeyedTable CoffeeOs.Payload CoffeeOs.Runs CoffeeOs.Schema
open CoffeeOs.Discounts

variable {db : Db} {id : Id} {d : Discount} {s x cap : ℚ}

/-- The numbers of a row that the payloads bound by 0. -/
structure Nonneg (d : Discount) : Prop where
  value : 0 ≤ d.value
  cap : ∀ cap, d.maxDiscountAmount = some cap → 0 ≤ cap

def AllNonneg (db : Db) : Prop := ∀ id d, db.discounts.find? id = some d → Nonneg d

/-! ### Rows stay bounded by 0 -/

lemma nonneg_row {dto : CreateDiscountDto} (h : dto.row = some d) : Nonneg d := by
  unfold CreateDiscountDto.row at h
  simp only [Option.bind_eq_bind, Option.bind_eq_some_iff] at h
  obtain ⟨usageCount, -, isActive, -, h⟩ := h
  rw [← Option.some.inj h]
  refine ⟨dto.value.2, fun cap hcap => ?_⟩
  obtain ⟨bound, -, rfl⟩ := Option.map_eq_some_iff.mp hcap
  exact bound.2

lemma nonneg_apply {d' : Discount} {dto : UpdateDiscountDto} (h : dto.apply d = some d')
    (hd : Nonneg d) : Nonneg d' := by
  unfold UpdateDiscountDto.apply at h
  simp only [Option.bind_eq_bind, Option.bind_eq_some_iff] at h
  obtain ⟨code, -, name, -, type, -, value, hvalue, usageCount, -, isActive, -, organizationId, -,
    h⟩ := h
  rw [← Option.some.inj h]
  refine ⟨?_, ?_⟩
  · refine (Property.forall_intoRequired_iff (P := fun v => 0 ≤ v) hd.value hvalue).mpr ?_
    intro v hv
    obtain ⟨bound, -, rfl⟩ := Property.map_eq_val_iff.mp hv
    exact bound.2
  · refine (Property.forall_intoNullable_iff (P := fun v => 0 ≤ v) hd.cap).mpr ?_
    intro v hv
    obtain ⟨bound, -, rfl⟩ := Property.map_eq_val_iff.mp hv
    exact bound.2

lemma allNonneg_step (op : Op) (h : AllNonneg db) : AllNonneg (step db op) := by
  intro id d' hd'
  cases step_row hd' with
  | kept stored => exact h id d' stored
  | created _ row => exact nonneg_row row
  | updated stored _ applied => exact nonneg_apply applied (h id _ stored)
  | activated stored => exact ⟨(h id _ stored).value, (h id _ stored).cap⟩
  | deactivated stored => exact ⟨(h id _ stored).value, (h id _ stored).cap⟩
  | counted stored => exact ⟨(h id _ stored).value, (h id _ stored).cap⟩

/-! ### The cap -/

lemma capped_none : capped none s x = min x s := by
  unfold capped
  dsimp only
  split
  · rename_i h
    exact (min_eq_right h.le).symm
  · rename_i h
    exact (min_eq_left (not_lt.mp h)).symm

lemma capped_zero : capped (some 0) s x = min x s := by
  rw [← capped_none]
  have hoff : ¬ ((0 : ℚ) ≠ 0 ∧ x > 0) := fun h => h.1 rfl
  simp only [capped, if_neg hoff]

lemma capped_some (h : cap ≠ 0) : capped (some cap) s x = min (min x cap) s := by
  rw [← capped_none]
  rcases lt_or_ge cap x with hlt | hle
  · have hon : cap ≠ 0 ∧ x > cap := ⟨h, hlt⟩
    rw [min_eq_right hlt.le]
    simp only [capped, if_pos hon]
  · have hoff : ¬ (cap ≠ 0 ∧ x > cap) := fun h' => hle.not_gt h'.2
    rw [min_eq_left hle]
    simp only [capped, if_neg hoff]

lemma capped_le : capped d.maxDiscountAmount s x ≤ s := by
  rcases d.maxDiscountAmount with _ | cap
  · rw [capped_none]
    exact min_le_right _ _
  by_cases h : cap = 0
  · rw [h, capped_zero]
    exact min_le_right _ _
  · rw [capped_some h]
    exact min_le_right _ _

lemma rawAmount_nonneg (hd : Nonneg d) (hs : 0 ≤ s) : 0 ≤ rawAmount d s := by
  unfold rawAmount
  cases d.type with
  | percentage => exact div_nonneg (mul_nonneg hs hd.value) (by norm_num)
  | fixedAmount => exact hd.value
  | buyXGetY => exact le_rfl

lemma amount_nonneg (hd : Nonneg d) (hs : 0 ≤ s) :
    0 ≤ capped d.maxDiscountAmount s (rawAmount d s) := by
  have hraw : 0 ≤ rawAmount d s := rawAmount_nonneg hd hs
  rcases hm : d.maxDiscountAmount with _ | cap
  · rw [capped_none]
    exact le_min hraw hs
  by_cases h : cap = 0
  · rw [h, capped_zero]
    exact le_min hraw hs
  · rw [capped_some h]
    exact le_min (le_min hraw (hd.cap cap hm)) hs

/-! ### The amount grows with the purchase -/

/-- What the discount is worth, and no more than the purchase. -/
lemma gradual_rawAmount (hd : Nonneg d) : Gradual fun s => min (rawAmount d s) s := by
  unfold rawAmount
  cases d.type with
  | percentage =>
    simp only [mul_div_assoc]
    exact gradual_mul_min (div_nonneg hd.value (by norm_num))
  | fixedAmount => exact gradual_min (gradual_const d.value) gradual_id
  | buyXGetY => exact gradual_min (gradual_const 0) gradual_id

lemma gradual_amount (hd : Nonneg d) :
    Gradual fun s => capped d.maxDiscountAmount s (rawAmount d s) := by
  rcases d.maxDiscountAmount with _ | cap
  · simp only [capped_none]
    exact gradual_rawAmount hd
  by_cases h : cap = 0
  · simp only [h, capped_zero]
    exact gradual_rawAmount hd
  · simp only [capped_some h, min_right_comm _ cap]
    exact gradual_min (gradual_rawAmount hd) (gradual_const cap)

/-- Of two purchases, the smaller one is granted no more and pays no more; an amount is never
negative and never exceeds the purchase. -/
def Fair (db : Db) : Prop :=
  ∀ id s t now now' a b, 0 ≤ s → s ≤ t → ((calculateDiscount id s now).exec db).1 = .ok a →
    ((calculateDiscount id t now').exec db).1 = .ok b → 0 ≤ a ∧ a ≤ s ∧ a ≤ b ∧ s - a ≤ t - b

lemma fair_of_allNonneg (h : AllNonneg db) : Fair db := by
  intro id s t now now' a b hs hst ha hb
  obtain ⟨d, hd, rfl⟩ := amount_of_granted ha
  obtain ⟨d', hd', rfl⟩ := amount_of_granted hb
  obtain rfl : d = d' := Option.some.inj (hd.symm.trans hd')
  obtain ⟨hgrow, hrest⟩ := gradual_amount (h id d hd) s t hs hst
  exact ⟨amount_nonneg (h id d hd) hs, capped_le, hgrow, hrest⟩

/-- **Fair amounts.** In a run from tables of discounts bounded by 0, the amounts that are granted
grow with the purchase, and so does what is left to pay. -/
theorem amounts_fair (db : Db) (ops : List Op) (h0 : AllNonneg db) : Always step Fair db ops :=
  (always_of_step (fun _ op h => allNonneg_step op h) h0).imp fun _ h => fair_of_allNonneg h

lemma allNonneg_empty : AllNonneg ∅ := fun _ _ h => by cases h

/-- A discount of 150 percent, which an update can store. -/
def generous : List Op :=
  [.create "summer" { code := "SUMMER", name := "Verano", type := .percentage, value := .ofNat 20,
                      maxDiscountAmount := .val (.ofNat 50), organizationId := "org-1" },
   .update "summer" { value := .val (.ofNat 150) }]

theorem generous_amounts_fair : Always step Fair ∅ generous :=
  amounts_fair ∅ generous allNonneg_empty

/-! ### The amount as the least of three -/

/-- The least of what the discount is worth, its cap and the purchase. -/
def Least (d : Discount) (cap subtotal amount : ℚ) : Prop :=
  amount = min (min (rawAmount d subtotal) cap) subtotal ∧ amount ≤ cap

/-- The cap is not 0, or there is nothing for it to hold back. -/
def CapCounts (d : Discount) (cap subtotal : ℚ) : Prop :=
  cap ≠ 0 ∨ d.value = 0 ∨ d.type = .buyXGetY ∨ subtotal ≤ 0

lemma rawAmount_nonpos_iff (hd : Nonneg d) (hs : 0 < s) :
    rawAmount d s ≤ 0 ↔ d.value = 0 ∨ d.type = .buyXGetY := by
  have hvalue : d.value ≤ 0 ↔ d.value = 0 := ⟨fun h => le_antisymm h hd.value, fun h => h.le⟩
  unfold rawAmount
  cases d.type with
  | percentage =>
    dsimp only
    have hhundred : (0 : ℚ) < 100 := by norm_num
    rw [← not_lt, div_pos_iff_of_pos_right hhundred, mul_pos_iff_of_pos_left hs, not_lt, hvalue]
    simp
  | fixedAmount => simp [hvalue]
  | buyXGetY => simp

/-- An amount that is granted is the least of the three exactly if the cap counts. -/
lemma least_iff (hd : Nonneg d) (hcap : d.maxDiscountAmount = some cap) :
    Least d cap s (capped d.maxDiscountAmount s (rawAmount d s)) ↔ CapCounts d cap s := by
  unfold Least CapCounts
  rw [hcap]
  by_cases h : cap = 0
  swap
  · rw [capped_some h]
    exact iff_of_true ⟨rfl, (min_le_left _ _).trans (min_le_right _ _)⟩ (Or.inl h)
  subst h
  rw [capped_zero, or_iff_right (not_not.mpr rfl)]
  -- without a cap the amount is at most 0 exactly if the least of the three is the same
  have hleast : min (rawAmount d s) s = min (min (rawAmount d s) 0) s ↔
      min (rawAmount d s) s ≤ 0 := by
    rw [min_right_comm, eq_comm, min_eq_left_iff]
  rw [hleast, and_self, min_le_iff]
  rcases le_or_gt s 0 with hs | hs
  · exact iff_of_true (Or.inr hs) (Or.inr (Or.inr hs))
  · rw [rawAmount_nonpos_iff hd hs, or_iff_left hs.not_ge, or_iff_left hs.not_ge]

/-- Every amount that is granted with a cap is the least of the three exactly if the cap counts. -/
def CapsExact (db : Db) : Prop :=
  ∀ id d cap subtotal now a, db.discounts.find? id = some d → d.maxDiscountAmount = some cap →
    ((calculateDiscount id subtotal now).exec db).1 = .ok a →
      (Least d cap subtotal a ↔ CapCounts d cap subtotal)

lemma capsExact_of_allNonneg (h : AllNonneg db) : CapsExact db := by
  intro id d cap subtotal now a hd hcap ha
  obtain ⟨d', hd', rfl⟩ := amount_of_granted ha
  obtain rfl : d = d' := Option.some.inj (hd.symm.trans hd')
  exact least_iff (h id d hd) hcap

/-- **Caps.** In every state of a run from tables of discounts bounded by 0, what is granted with
a cap is the least of the discount's worth, the cap and the purchase, exactly if the cap is not 0
or the discount or the purchase is worth nothing. -/
theorem caps_exact (db : Db) (ops : List Op) (h0 : AllNonneg db) :
    Always step CapsExact db ops :=
  (always_of_step (fun _ op h => allNonneg_step op h) h0).imp fun _ h => capsExact_of_allNonneg h

theorem generous_caps_exact : Always step CapsExact ∅ generous :=
  caps_exact ∅ generous allNonneg_empty

/-- A discount that is capped at nothing. -/
def nothing : List Op :=
  [.create "nothing" { code := "NOTHING", name := "Nada", type := .percentage, value := .ofNat 20,
                       maxDiscountAmount := .val (.ofNat 0), organizationId := "org-1" }]

/-- Of a purchase of 250, a fifth is granted nevertheless. -/
theorem cap_of_zero_exceeded :
    ¬ Always step (fun db => ∀ id d cap subtotal now a, db.discounts.find? id = some d →
      d.maxDiscountAmount = some cap → ((calculateDiscount id subtotal now).exec db).1 = .ok a →
        Least d cap subtotal a) ∅ nothing := by
  intro h
  obtain ⟨d, hd, hcap⟩ : ∃ d, (run step ∅ nothing).discounts.find? "nothing" = some d ∧
      d.maxDiscountAmount = some 0 := ⟨_, rfl, rfl⟩
  have hgrant : ((calculateDiscount "nothing" 250 0).exec (run step ∅ nothing)).1 = .ok 50 := by
    decide +kernel
  have hle : (50 : ℚ) ≤ 0 := (h.last "nothing" d 0 250 0 50 hd hcap hgrant).2
  revert hle
  decide +kernel

end CoffeeOs.DiscountAmounts
