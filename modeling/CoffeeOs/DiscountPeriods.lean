import CoffeeOs.Discounts

/-!
The period of a discount, written twice.

`findActive` selects the discounts of the moment by a disjunction over the dates that are set, and
`calculateDiscount` turns away, date by date, what is outside its period. Both mean the same.
-/

namespace CoffeeOs.DiscountPeriods

open CoffeeOs.KeyedTable CoffeeOs.Numerals CoffeeOs.Schema CoffeeOs.Discounts

variable {db : Db} {id : Id} {d : Discount} {subtotal : ℚ} {now : Instant}

/-- The discount is active, and the moment lies between the dates that are set, both included. -/
def Current (d : Discount) (now : Instant) : Prop :=
  d.isActive ∧ (∀ f ∈ d.validFrom, f ≤ now) ∧ ∀ u ∈ d.validUntil, now ≤ u

/-- What `calculateDiscount` throws in its activity and date checks. -/
def periodMessages : List String :=
  ["Discount is not active", "Discount is not yet valid", "Discount has expired"]

/-- `calculateDiscount` does not throw in its activity and date checks. -/
def PassesPeriod (db : Db) (id : Id) (subtotal : ℚ) (now : Instant) : Prop :=
  ∀ m ∈ periodMessages, ((calculateDiscount id subtotal now).exec db).1 ≠ .error (.badRequest m)

lemma activeAt_iff : ActiveAt now d ↔ Current d now := by
  unfold ActiveAt Current
  rcases d.validFrom with _ | f <;> rcases d.validUntil with _ | u <;> simp

/-- The refusals after the date checks have other messages. -/
lemma minimum_notMem (amount : String) :
    s!"Minimum purchase amount of {amount} not met" ∉ periodMessages := by
  intro hm
  have hfirst : ∀ m ∈ periodMessages, m.toList.head? = some 'D' := by decide
  have htext := hfirst _ hm
  simp only [toString, String.toList_append] at htext
  cases htext

lemma passesPeriod_iff (hd : db.discounts.find? id = some d) :
    PassesPeriod db id subtotal now ↔ Current d now := by
  unfold PassesPeriod Current
  rw [exec_calculateDiscount hd, exec_grant]
  have hlate : (d.validFrom.any fun validFrom => validFrom > now) ↔
      ¬ ∀ f ∈ d.validFrom, f ≤ now := by
    rcases d.validFrom with _ | f <;> simp
  have hover : (d.validUntil.any fun validUntil => validUntil < now) ↔
      ¬ ∀ u ∈ d.validUntil, now ≤ u := by
    rcases d.validUntil with _ | u <;> simp
  by_cases ha : d.isActive
  swap
  · rw [if_pos ha]
    exact iff_of_false (fun h => h _ (by decide) rfl) fun h => ha h.1
  rw [if_neg (not_not.mpr ha), if_congr hlate rfl rfl]
  by_cases hf : ∀ f ∈ d.validFrom, f ≤ now
  swap
  · rw [if_pos hf]
    exact iff_of_false (fun h => h _ (by decide) rfl) fun h => hf h.2.1
  rw [if_neg (not_not.mpr hf), if_congr hover rfl rfl]
  by_cases hu : ∀ u ∈ d.validUntil, now ≤ u
  swap
  · rw [if_pos hu]
    exact iff_of_false (fun h => h _ (by decide) rfl) fun h => hu h.2.2
  rw [if_neg (not_not.mpr hu)]
  -- what is thrown from here on has other messages
  refine iff_of_true (fun m hm he => ?_) ⟨ha, hf, hu⟩
  split_ifs at he
  · exact minimum_notMem _ (Error.badRequest.inj (Except.error.inj he) ▸ hm)
  · have hlimit : "Discount usage limit reached" ∉ periodMessages := by decide
    exact hlimit (Error.badRequest.inj (Except.error.inj he) ▸ hm)

/-- **Periods.** `findActive` selects a stored discount exactly if `calculateDiscount` passes its
activity and date checks for it at the same moment. -/
theorem selected_iff (db : Db) (id : Id) (d : Discount) (subtotal : ℚ) (now : Instant)
    (hd : db.discounts.find? id = some d) :
    (∃ rows, ((findActive now).exec db).1 = .ok rows ∧ ⟨id, d⟩ ∈ rows) ↔
      PassesPeriod db id subtotal now := by
  rw [passesPeriod_iff hd, ← activeAt_iff]
  refine ⟨?_, fun h => ⟨_, rfl, ?_⟩⟩
  · rintro ⟨rows, hrows, hmem⟩
    rw [← Except.ok.inj hrows, List.mem_reverse] at hmem
    obtain ⟨e, he, hview⟩ := List.mem_map.mp hmem
    obtain ⟨rfl, rfl⟩ := DiscountView.mk.inj hview
    exact of_decide_eq_true (List.mem_filter.mp he).2
  · rw [List.mem_reverse]
    exact List.mem_map.mpr ⟨(id, d), List.mem_filter.mpr
      ⟨Table.mem_rows_iff.mpr hd, decide_eq_true h⟩, rfl⟩

/-- A discount for a single moment. -/
def momentary : Db where
  discounts := (∅ : Table Id Discount).put "now"
    { code := "NOW", name := "Ahora", type := .fixedAmount, value := 10, validFrom := some 5,
      validUntil := some 5, organizationId := "org-1" }

/-- The moment itself is a case, where both dates are met at once. -/
theorem momentary_selected : ∃ d, momentary.discounts.find? "now" = some d ∧
    ((∃ rows, ((findActive 5).exec momentary).1 = .ok rows ∧ ⟨"now", d⟩ ∈ rows) ↔
      PassesPeriod momentary "now" 100 5) :=
  ⟨_, rfl, selected_iff momentary "now" _ 100 5 rfl⟩

end CoffeeOs.DiscountPeriods
