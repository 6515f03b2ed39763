import CoffeeOs.AnyOrder
import CoffeeOs.CashSummaries
import CoffeeOs.DiscountAmounts
import CoffeeOs.RecipeCosts
import CoffeeOs.TaxAmounts
import CoffeeOs.TransactionTotals

/-!
The figures that the API reports while calls are under way.

Every report is made of the rows that are stored when it looks, which are well-formed then, even
where a call has stored some of its rows and not yet the others. So no sum, cost, tax or discount is
ever negative, the parts of a report are within its totals, and its figures agree.
-/

namespace CoffeeOs.Figures

open CoffeeOs.Interleaving CoffeeOs.KeyedTable CoffeeOs.Loops CoffeeOs.RelyGuarantee
open CoffeeOs.Requests CoffeeOs.Requests.Request CoffeeOs.Runs CoffeeOs.Schema
open CoffeeOs.AnyOrder (sum_nonneg)
open CoffeeOs.Services (Op)

/-! ### What a report owes -/

structure SaleSound (r : Transactions.Totals) : Prop where
  parts : 0 ≤ r.subtotal ∧ 0 ≤ r.tax ∧ 0 ≤ r.discount ∧ 0 ≤ r.totalPaid
  total : r.total = r.subtotal + r.tax - r.discount
  balance : r.balance = r.total - r.totalPaid
  lines : (r.lineItems.map Transactions.LineDetail.total).sum = r.subtotal
  line : ∀ line ∈ r.lineItems, 0 ≤ line.total ∧ line.total ≤ r.subtotal

structure CostSound (r : Recipes.RecipeCost) : Prop where
  parts : (r.ingredients.map Recipes.IngredientCost.totalCost).sum = r.totalCost
  part : ∀ i ∈ r.ingredients, 0 ≤ i.totalCost ∧ i.totalCost ≤ r.totalCost

structure RegisterSound (r : CashRegisters.Summary) : Prop where
  cash : 0 ≤ r.expectedCash ∧ 0 ≤ r.countedCash ∧ 0 ≤ r.totalExpenses
  variance : r.variance = r.countedCash - r.expectedCash
  netCash : r.netCash = r.countedCash - r.totalExpenses
  expense : ∀ e ∈ r.expenses, 0 ≤ e.amount ∧ e.amount ≤ r.totalExpenses

structure ShiftSound (r : Shifts.ShiftSummary) : Prop where
  cash : 0 ≤ r.openingCash ∧ 0 ≤ r.totalClosing ∧ 0 ≤ r.totalExpected
  variance : r.variance = r.totalClosing - r.totalExpected
  unclosed : r.status = .open → r.closedAt = none ∧ r.totalClosing = 0 ∧ r.totalExpected = 0

/-- Whatever is asked for, what is answered is sound. -/
structure Sound (db : Db) : Prop where
  sale : ∀ id r, ((Transactions.calculateTotal id).exec db).1 = .ok r → SaleSound r
  recipe : ∀ id r, ((Recipes.calculateCost id).exec db).1 = .ok r → CostSound r
  discount : ∀ id s now a, 0 ≤ s → ((Discounts.calculateDiscount id s now).exec db).1 = .ok a →
    0 ≤ a ∧ a ≤ s
  tax : ∀ id s a, 0 ≤ s → ((Taxes.calculateTax id s).exec db).1 = .ok a → 0 ≤ a ∧ a ≤ s
  register : ∀ id r, ((CashRegisters.getSummary id).exec db).1 = .ok r → RegisterSound r
  shift : ∀ id r, ((Shifts.calculateShiftSummary id).exec db).1 = .ok r → ShiftSound r

variable {db : Db} {id : Id}

lemma le_sum {α : Type} {f : α → ℚ} {l : List α} (h : ∀ a ∈ l, 0 ≤ f a) :
    ∀ a ∈ l, 0 ≤ f a ∧ f a ≤ (l.map f).sum := by
  intro a ha
  refine ⟨h a ha, List.single_le_sum (fun x hx => ?_) _ (List.mem_map_of_mem ha)⟩
  obtain ⟨b, hb, rfl⟩ := List.mem_map.mp hx
  exact h b hb

/-! ### Sales -/

lemma getD_nonneg {o : Option ℚ} {b : ℚ} (h : ∀ a ∈ o, 0 ≤ a) (hb : 0 ≤ b) : 0 ≤ o.getD b := by
  cases o with
  | none => exact hb
  | some a => exact h a rfl

lemma saleSound (h : db.WellFormed) {r : Transactions.Totals}
    (hr : ((Transactions.calculateTotal id).exec db).1 = .ok r) : SaleSound r := by
  rcases hrow : db.transactions.find? id with _ | row
  · rw [TransactionSpec.exec_calculateTotal, hrow] at hr
    cases hr
  obtain ⟨hp, hsubtotal, hlines, htax, hdiscount, htotal, hpaid, hbalance⟩ :=
    TransactionTotals.calculateTotal_eq hrow hr
  have hwf := h.transactions row (Table.mem_values_iff.mpr ⟨id, hrow⟩)
  have hline : ∀ l ∈ Transactions.linesOf db id, 0 ≤ l.quantity * l.unitPrice := by
    intro l hl
    have hl' := h.lineItems l (List.mem_of_mem_filter hl)
    exact mul_nonneg (zero_le_one.trans hl'.quantity) hl'.unitPrice
  have hpayment : ∀ e ∈ Transactions.paymentsOf db id, 0 ≤ e.2.amount := fun e he =>
    (h.payments e.2 (List.mem_map_of_mem (List.mem_of_mem_filter he))).amount.le
  have hdetail : ∀ line ∈ r.lineItems, 0 ≤ line.total := by
    rw [TransactionSpec.exec_calculateTotal, hrow] at hr
    obtain rfl := Except.ok.inj ((TransactionSpec.totals_eq hp row).symm.trans hr)
    intro line hmem
    obtain ⟨e, he, rfl⟩ := List.mem_map.mp hmem
    obtain ⟨l, hl, rfl⟩ := List.mem_map.mp he
    exact hline l hl
  refine ⟨⟨?_, ?_, ?_, ?_⟩, ?_, ?_, hlines.trans hsubtotal.symm, fun line hmem => ?_⟩
  · rw [hsubtotal]
    exact sum_nonneg hline
  · rw [htax]
    exact getD_nonneg hwf.taxAmount le_rfl
  · rw [hdiscount]
    exact getD_nonneg hwf.discountAmount le_rfl
  · rw [hpaid]
    exact sum_nonneg hpayment
  · rw [htotal, hsubtotal, htax, hdiscount]
  · rw [hbalance, htotal, hpaid]
    rfl
  · rw [hsubtotal, ← hlines]
    exact le_sum hdetail line hmem

/-! ### Recipes -/

/-- A cost that is answered is that of ingredients whose items are all stored. -/
lemma hasItems_of_cost {view : Recipes.RecipeView} {r : Recipes.RecipeCost}
    (h : Recipes.cost view = .ok r) : ∀ e ∈ view.ingredients, e.2.isSome := by
  by_contra hsome
  have hmiss : ∃ e ∈ view.ingredients, e.2 = none := by
    by_contra hc
    refine hsome fun e he => ?_
    by_contra he'
    exact hc ⟨e, he, by simpa using he'⟩
  have hthrow : view.ingredients.foldlM Recipes.addIngredient 0 = .error .typeError := by
    refine foldlM_error (fun e total he => ?_) (fun e total he => ?_) hmiss 0
    · rw [Recipes.addIngredient, he]
    · exact ⟨_, RecipeCosts.addIngredient_eq (Option.isSome_iff_ne_none.mpr he) total⟩
  rw [Recipes.cost, hthrow] at h
  cases h

lemma costSound (h : db.WellFormed) {r : Recipes.RecipeCost}
    (hr : ((Recipes.calculateCost id).exec db).1 = .ok r) : CostSound r := by
  rcases hrow : db.recipes.find? id with _ | row
  · rw [Recipes.calculateCost, Recipes.findOne, exec_bind, exec_look_bind, hrow] at hr
    cases hr
  have hcost : Recipes.cost (Recipes.viewOf db id row) = .ok r := by
    rw [Recipes.calculateCost, Recipes.findOne, exec_bind, exec_look_bind, hrow] at hr
    exact hr
  obtain rfl := Except.ok.inj ((RecipeCosts.cost_eq (hasItems_of_cost hcost)).symm.trans hcost)
  have hpart : ∀ e ∈ (Recipes.viewOf db id row).ingredients, 0 ≤ RecipeCosts.costOf e := by
    intro e he
    obtain ⟨i, hi, rfl⟩ := List.mem_map.mp he
    -- an item without a cost is counted as 0
    refine mul_nonneg (h.recipeIngredients i (List.mem_of_mem_filter hi)).quantity ?_
    refine getD_nonneg (fun c hc => ?_) le_rfl
    obtain ⟨item, hitem, hcost⟩ := Option.bind_eq_some_iff.mp hc
    have hwf := h.inventoryItems item (Table.mem_values_iff.mpr ⟨i.inventoryItemId, hitem⟩)
    exact hwf.costPerUnit c hcost
  refine ⟨?_, fun i hi => ?_⟩
  · rw [List.map_map]
    rfl
  · obtain ⟨e, he, rfl⟩ := List.mem_map.mp hi
    exact le_sum hpart e he

/-! ### Discounts and taxes -/

lemma discount_bounds (h : db.WellFormed) {s a : ℚ} {now : Instant} (hs : 0 ≤ s)
    (ha : ((Discounts.calculateDiscount id s now).exec db).1 = .ok a) : 0 ≤ a ∧ a ≤ s := by
  obtain ⟨d, hd, rfl⟩ := Discounts.amount_of_granted ha
  have hwf := h.discounts d (Table.mem_values_iff.mpr ⟨id, hd⟩)
  have hnonneg : DiscountAmounts.Nonneg d := ⟨hwf.value, hwf.maxDiscountAmount⟩
  exact ⟨DiscountAmounts.amount_nonneg hnonneg hs, DiscountAmounts.capped_le⟩

lemma tax_bounds (h : db.WellFormed) {s a : ℚ} (hs : 0 ≤ s)
    (ha : ((Taxes.calculateTax id s).exec db).1 = .ok a) : 0 ≤ a ∧ a ≤ s := by
  obtain ⟨row, hrow, rfl⟩ := TaxAmounts.of_calculateTax ha
  have hwf := h.taxes row (Table.mem_values_iff.mpr ⟨id, hrow⟩)
  exact TaxAmounts.amountOf_bounds hwf.rate hs

/-! ### Registers and shifts -/

lemma registerSound (h : db.WellFormed) {r : CashRegisters.Summary}
    (hr : ((CashRegisters.getSummary id).exec db).1 = .ok r) : RegisterSound r := by
  rcases hrow : db.cashRegisters.find? id with _ | row
  · rw [CashRegisters.getSummary, exec_bind, CashRegisters.exec_findOne, hrow] at hr
    cases hr
  obtain rfl := Except.ok.inj ((CashSummaries.exec_getSummary hrow).symm.trans hr)
  have hwf := h.cashRegisters row (Table.mem_values_iff.mpr ⟨id, hrow⟩)
  have hcount : ∀ d ∈ CashRegisters.denominationsOf db id, 0 ≤ d.total := by
    intro d hd
    have hd' := h.cashDenominations d (List.mem_of_mem_filter hd)
    rw [hd'.total]
    exact (mul_pos hd'.denomination hd'.count).le
  have hexpense : ∀ e ∈ CashRegisters.expensesOf db id, 0 ≤ e.amount :=
    fun e he => (h.cashExpenses e (List.mem_of_mem_filter he)).amount
  refine ⟨⟨hwf.expectedCash, ?_, ?_⟩, rfl, rfl, ?_⟩
  · rw [CashSummaries.countedCash_summaryOf]
    refine getD_nonneg (fun c hc => ?_) (sum_nonneg hcount)
    exact hwf.countedCash c (Option.filter_eq_some_iff.mp hc).1
  · rw [CashSummaries.totalExpenses_summaryOf]
    exact sum_nonneg hexpense
  · rw [CashSummaries.totalExpenses_summaryOf]
    exact le_sum hexpense

lemma shiftSound (h : db.WellFormed) {r : Shifts.ShiftSummary}
    (hr : ((Shifts.calculateShiftSummary id).exec db).1 = .ok r) : ShiftSound r := by
  rw [Shifts.calculateShiftSummary, Shifts.exec_findOne_bind] at hr
  rcases hrow : db.shifts.find? id with _ | row
  · rw [hrow] at hr
    cases hr
  rw [hrow] at hr
  obtain rfl := Except.ok.inj hr
  have hwf := h.shifts row (Table.mem_values_iff.mpr ⟨id, hrow⟩)
  unfold Shifts.summary
  rcases hwf.closing with ⟨status, closedAt, -, -, -, -, hclosing, hexpected, hvariance⟩ |
    ⟨status, -, -, bounds, hclosing, hexpected, hvariance⟩
  · rw [hclosing, hexpected, hvariance]
    exact ⟨⟨hwf.openingCash, le_rfl, le_rfl⟩, (sub_self 0).symm, fun _ => ⟨closedAt, rfl, rfl⟩⟩
  · obtain ⟨hcash, hcard, htransfers, hother, hnonneg⟩ := bounds
    rw [hclosing, hexpected, hvariance]
    refine ⟨⟨hwf.openingCash, ?_, hnonneg⟩, rfl, fun hopen => ?_⟩
    · exact add_nonneg (add_nonneg (add_nonneg hcash hcard) htransfers) hother
    · cases status.symm.trans hopen

lemma sound_of_wellFormed (h : db.WellFormed) : Sound db where
  sale _ _ hr := saleSound h hr
  recipe _ _ hr := costSound h hr
  discount _ _ _ _ hs ha := discount_bounds h hs ha
  tax _ _ _ hs ha := tax_bounds h hs ha
  register _ _ hr := registerSound h hr
  shift _ _ hr := shiftSound h hr

/-- **Sound figures.** Whatever calls of the API are under way and in whatever order their turns
come, what the API reports between any two turns is sound. -/
theorem figures_sound {ι : Type} [DecidableEq ι] (midnight : Instant → Instant)
    (fold : String → String) (db : Db) (ops : ι → Op) (is : List ι) (h0 : db.WellFormed) :
    Always Pool.step (fun q => Sound q.store)
      ⟨db, fun i => AnyOrder.request midnight fold (ops i)⟩ is :=
  (AnyOrder.always_wellFormed midnight fold ops h0 is).imp fun _ h => sound_of_wellFormed h

/-- An evening with an open shift, a till and a sale that is not paid. -/
def evening : Db where
  transactions := (∅ : Table Id Transaction).put "sale" { status := .pending }
  shifts := (∅ : Table Id Shift).put "late"
    { openingCash := 60, userId := "ana", locationId := "bar", organizationId := "shop",
      status := .open, openedAt := 14 }
  cashRegisters := (∅ : Table Id CashRegister).put "till"
    { shiftId := "late", expectedCash := 60, locationId := "bar", organizationId := "shop" }

lemma wellFormed_evening : evening.WellFormed where
  __ := Db.wellFormed_empty
  transactions row hrow := by
    obtain rfl | hrow := Table.of_mem_values_put hrow
    · exact ⟨nofun, nofun⟩
    · cases hrow
  shifts row hrow := by
    obtain rfl | hrow := Table.of_mem_values_put hrow
    · exact ⟨show (0 : ℚ) ≤ 60 by norm_num, .none rfl rfl ⟨rfl, rfl, rfl, rfl, rfl, rfl, rfl⟩⟩
    · cases hrow
  cashRegisters row hrow := by
    obtain rfl | hrow := Table.of_mem_values_put hrow
    · exact ⟨show (0 : ℚ) ≤ 60 by norm_num, nofun, nofun⟩
    · cases hrow

/-- The sale is changed and paid while an expense is recorded and the shift closed. -/
def rush : Fin 4 → Op
  | 0 => .transactions (.update "sale" { taxAmount := .val (.ofNat 8), discountAmount := .null })
  | 1 => .payments (.create "cash" { transactionId := "sale", amount := .succ 49, method := .cash })
  | 2 => .cashRegisters (.recordExpense "till" { amount := .ofNat 12, description := "cups" })
  | 3 => .shifts (.close "late" { closingCash := .ofNat 70, closingCard := .ofNat 25,
                                  closingTransfers := .least _, closingOther := .least _ } 22)

theorem figures_sound_rush : Always Pool.step (fun q => Sound q.store)
    ⟨evening, fun i => AnyOrder.request (fun t => t) String.toLower (rush i)⟩
    [3, 0, 2, 1, 2, 0, 1, 2, 3] :=
  figures_sound (fun t => t) String.toLower evening rush [3, 0, 2, 1, 2, 0, 1, 2, 3]
    wellFormed_evening

end CoffeeOs.Figures
