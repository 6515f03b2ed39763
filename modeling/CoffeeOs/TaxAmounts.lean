import CoffeeOs.Growth
import CoffeeOs.Services
import Mathlib.Algebra.Order.BigOperators.Group.List
import Mathlib.Algebra.Order.Field.Basic
import Mathlib.Tactic.NormNum

/-!
The amount of a tax, as a function of the subtotal.

A rate is a percentage in every payload that carries one, and so in every row that is stored. The
amounts therefore grow with the subtotal, and by no more than the subtotal does, for a tax on its
own as well as for each of several that are computed together. The total of several taxes grows as
well, but may grow faster than the subtotal.
-/

namespace CoffeeOs.TaxAmounts

open CoffeeOs.Growth CoffeeOs.KeyedTable CoffeeOs.Payload CoffeeOs.Runs CoffeeOs.Schema
open CoffeeOs.Services
open CoffeeOs.Taxes hiding step Op

variable {midnight : Instant → Instant} {fold : String → String} {db : Db} {row : Tax} {s t : ℚ}

/-- Every rate is a percentage. -/
def Percentages (db : Db) : Prop :=
  ∀ id row, db.taxes.find? id = some row → 0 ≤ row.rate ∧ row.rate ≤ 100

/-! ### Rates stay percentages -/

lemma percentages_put {id : Id} (h : Percentages db) (hrow : 0 ≤ row.rate ∧ row.rate ≤ 100) :
    Percentages { db with taxes := db.taxes.put id row } := by
  intro k row' hrow'
  rcases Table.of_find?_put hrow' with ⟨-, rfl⟩ | ⟨-, hold⟩
  · exact hrow
  · exact h k row' hold

lemma percentages_taxes (op : Taxes.Op) (h : Percentages db) : Percentages (Taxes.step db op) := by
  cases op with
  | create newId dto =>
    rw [Taxes.step_create]
    split
    swap
    · exact h
    rcases hrow : dto.row with _ | row
    · exact h
    · exact percentages_put h (row_rate hrow ▸ dto.rate.2)
  | update id dto =>
    rw [Taxes.step_update]
    rcases hold : db.taxes.find? id with _ | old
    · exact h
    dsimp only
    rcases ha : dto.apply old with _ | row
    · exact h
    refine percentages_put h ?_
    rcases apply_rate ha with hsame | ⟨rate, -, hnew⟩
    · exact hsame ▸ h id old hold
    · exact hnew ▸ rate.2
  | remove id =>
    rw [Taxes.step_remove]
    rcases db.taxes.find? id with _ | row
    · exact h
    · exact fun k row' hrow' => h k row' (Table.of_find?_erase hrow').2

lemma reads_percentages : Reads Percentages [.taxes] := by
  intro db db' hsame h
  simp only [List.forall_mem_cons, SameAt] at hsame
  unfold Percentages
  rw [hsame.1]
  exact h

lemma percentages_step (op : Op) (h : Percentages db) :
    Percentages (step midnight fold db op) := by
  cases op with
  | taxes op => exact percentages_taxes op h
  | _ => exact reads_percentages.step (by simp [Op.writes]) h

/-! ### The amounts grow with the subtotal -/

lemma gradual_rate (h : 0 ≤ row.rate ∧ row.rate ≤ 100) :
    Gradual fun s => s * row.rate / 100 := by
  simp only [mul_div_assoc]
  refine gradual_mul (div_nonneg h.1 (by norm_num)) ?_
  rw [div_le_one (by norm_num)]
  exact h.2

lemma gradual_amountOf (h : 0 ≤ row.rate ∧ row.rate ≤ 100) : Gradual fun s => amountOf s row := by
  unfold amountOf
  cases row.isActive with
  | true => exact gradual_rate h
  | false => exact gradual_const 0

/-- What a tax takes of a subtotal is at least nothing and at most the subtotal. -/
lemma amountOf_bounds (h : 0 ≤ row.rate ∧ row.rate ≤ 100) (hs : 0 ≤ s) :
    0 ≤ amountOf s row ∧ amountOf s row ≤ s := by
  have hzero : amountOf 0 row = 0 := by
    unfold amountOf
    split <;> simp
  obtain ⟨hgrow, hrest⟩ := gradual_amountOf h 0 s le_rfl hs
  dsimp only at hgrow hrest
  rw [hzero] at hgrow hrest
  exact ⟨hgrow, by simpa using hrest⟩

lemma of_calculateTax {id : Id} {a : ℚ} (h : ((calculateTax id s).exec db).1 = .ok a) :
    ∃ row, db.taxes.find? id = some row ∧ a = amountOf s row := by
  rcases hrow : db.taxes.find? id with _ | row
  · rw [calculateTax, exec_findOne_bind, hrow] at h
    cases h
  · rw [exec_calculateTax hrow] at h
    exact ⟨row, rfl, (Except.ok.inj h).symm⟩

/-- What is taken of a subtotal, `a` of `s`, and of one that is no smaller, `b` of `t`: at least
nothing and at most all of it, and with the subtotal both what is taken and what is left grow. -/
structure FairAmounts (s t a b : ℚ) : Prop where
  nonneg : 0 ≤ a
  le_subtotal : a ≤ s
  grows : a ≤ b
  leaves : s - a ≤ t - b

/-- The amounts of a tax on its own are fair. -/
def Fair (db : Db) : Prop :=
  ∀ id s t a b, 0 ≤ s → s ≤ t → ((calculateTax id s).exec db).1 = .ok a →
    ((calculateTax id t).exec db).1 = .ok b → FairAmounts s t a b

lemma fairAmounts_amountOf (h : 0 ≤ row.rate ∧ row.rate ≤ 100) (hs : 0 ≤ s) (hst : s ≤ t) :
    FairAmounts s t (amountOf s row) (amountOf t row) := by
  obtain ⟨hnonneg, hle⟩ := amountOf_bounds h hs
  obtain ⟨hgrows, hleaves⟩ := gradual_amountOf h s t hs hst
  exact ⟨hnonneg, hle, hgrows, hleaves⟩

lemma fair_of_percentages (h : Percentages db) : Fair db := by
  intro id s t a b hs hst ha hb
  obtain ⟨row, hrow, rfl⟩ := of_calculateTax ha
  obtain ⟨row', hrow', rfl⟩ := of_calculateTax hb
  obtain rfl : row = row' := Option.some.inj (hrow.symm.trans hrow')
  exact fairAmounts_amountOf (h id row hrow) hs hst

/-- The breakdowns of a subtotal and of a larger one: they list the same taxes, the amounts of each
of them are fair, and the total grows and is at most the subtotal for each tax. -/
structure FairBreakdowns (s t : ℚ) (r r' : MultipleTaxes) : Prop where
  same : (r.breakdown.map TaxAmount.taxId).Perm (r'.breakdown.map TaxAmount.taxId)
  entries : ∀ item ∈ r.breakdown, ∃ item' ∈ r'.breakdown, item'.taxId = item.taxId ∧
    FairAmounts s t item.amount item'.amount
  total_nonneg : 0 ≤ r.total
  total_le : r.total ≤ r.breakdown.length * s
  total_grows : r.total ≤ r'.total

/-- The amounts of taxes that are computed together are fair, whatever order the database returns
their rows in. -/
def FairTogether (db : Db) : Prop :=
  ∀ arrange arrange' : List (Id × Tax) → List (Id × Tax),
    (∀ rows, (arrange rows).Perm rows) → (∀ rows, (arrange' rows).Perm rows) →
      ∀ taxIds s t r r', 0 ≤ s → s ≤ t →
        ((calculateMultipleTaxes arrange taxIds s).exec db).1 = .ok r →
          ((calculateMultipleTaxes arrange' taxIds t).exec db).1 = .ok r' → FairBreakdowns s t r r'

lemma fairTogether_of_percentages (h : Percentages db) : FairTogether db := by
  intro arrange arrange' harrange harrange' taxIds s t r r' hs hst hr hr'
  obtain rfl := Except.ok.inj (exec_calculateMultipleTaxes.symm.trans hr)
  obtain rfl := Except.ok.inj (exec_calculateMultipleTaxes.symm.trans hr')
  have hperm : (arrange (activeIn db taxIds)).Perm (arrange' (activeIn db taxIds)) :=
    (harrange _).trans (harrange' _).symm
  -- a row of the query is active, and its rate is a percentage
  have hfair {e : Id × Tax} (he : e ∈ arrange (activeIn db taxIds)) :
      FairAmounts s t (s * e.2.rate / 100) (t * e.2.rate / 100) := by
    obtain ⟨hmem, hmatch⟩ := List.mem_filter.mp ((harrange _).mem_iff.mp he)
    have hactive : e.2.isActive = true := (Bool.and_eq_true_iff.mp hmatch).2
    have hamounts := fairAmounts_amountOf (h e.1 e.2 (Table.mem_rows_iff.mp hmem)) hs hst
    rwa [amountOf, amountOf, if_pos hactive, if_pos hactive] at hamounts
  refine ⟨?_, fun item hitem => ?_, ?_, ?_, ?_⟩
  · dsimp only
    rw [List.map_map, List.map_map]
    exact hperm.map _
  · obtain ⟨e, he, rfl⟩ := List.mem_map.mp hitem
    exact ⟨_, List.mem_map_of_mem (hperm.mem_iff.mp he), rfl, hfair he⟩
  · refine List.sum_nonneg fun a ha => ?_
    obtain ⟨e, he, rfl⟩ := List.mem_map.mp ha
    exact (hfair he).nonneg
  · dsimp only
    rw [List.length_map, ← nsmul_eq_mul, ← List.length_map fun e : Id × Tax => s * e.2.rate / 100]
    refine List.sum_le_card_nsmul _ s fun a ha => ?_
    obtain ⟨e, he, rfl⟩ := List.mem_map.mp ha
    exact (hfair he).le_subtotal
  · dsimp only
    rw [← (hperm.map fun e : Id × Tax => t * e.2.rate / 100).sum_eq]
    exact List.sum_le_sum fun e he => (hfair he).grows

/-- **Fair taxes.** In every run of the API from tables whose rates are percentages, the amounts of
a tax are fair, whether it is computed on its own or together with others. -/
theorem taxes_fair (midnight : Instant → Instant) (fold : String → String) (db : Db)
    (ops : List Op) (h0 : Percentages db) :
    Always (step midnight fold) (fun db => Fair db ∧ FairTogether db) db ops :=
  (always_of_step (fun _ op h => percentages_step op h) h0).imp fun _ h =>
    ⟨fair_of_percentages h, fairTogether_of_percentages h⟩

/-- Two taxes, the rate of one of which is raised before it is switched off and removed. -/
def raised : List Op :=
  [.taxes (.create "iva" { name := "IVA", category := .iva, rate := ⟨16, by norm_num⟩,
                           organizationId := "shop" }),
   .taxes (.create "ieps" { name := "IEPS", category := .ieps, rate := ⟨8, by norm_num⟩,
                            organizationId := "shop" }),
   .taxes (.update "iva" { rate := .val ⟨100, by norm_num⟩ }),
   .taxes (.update "iva" { isActive := .val false }),
   .taxes (.remove "iva")]

theorem taxes_fair_raised :
    Always (step (fun t => t) String.toLower) (fun db => Fair db ∧ FairTogether db) ∅ raised :=
  taxes_fair (fun t => t) String.toLower ∅ raised fun _ _ h => by cases h

end CoffeeOs.TaxAmounts
