import CoffeeOs.Services
import Mathlib.Tactic.NormNum

/-!
What the payloads are checked for, asked of the rows.

The pipe bounds the numbers of a payload, and the services compute some figures of a row from
others. A row is well-formed if its columns are within these bounds and its figures agree. The rows
that the services make of payloads are, and so are those that they make of well-formed rows.
-/

namespace CoffeeOs.Schema

open CoffeeOs.KeyedTable

/-! ### Well-formed rows -/

structure Transaction.WellFormed (row : Transaction) : Prop where
  taxAmount : ∀ a ∈ row.taxAmount, 0 ≤ a
  discountAmount : ∀ a ∈ row.discountAmount, 0 ≤ a

structure LineItem.WellFormed (row : LineItem) : Prop where
  quantity : 1 ≤ row.quantity
  unitPrice : 0 ≤ row.unitPrice

structure Payment.WellFormed (row : Payment) : Prop where
  amount : 0 < row.amount

/-- The number of an order is made of a date, that of the clock reading, and a positive count. -/
structure Order.WellFormed (row : Order) : Prop where
  guestCount : ∀ n ∈ row.guestCount, 1 ≤ n
  number : ∃ now n, row.orderNumber = Orders.orderNumber (Orders.dateStr now) (n + 1)

structure Category.WellFormed (row : Category) : Prop where
  name : row.name ≠ ""

structure Product.WellFormed (row : Product) : Prop where
  categoryId : row.categoryId ≠ ""
  sku : row.sku ≠ ""
  name : row.name ≠ ""
  price : 0 ≤ row.price
  cost : 0 ≤ row.cost
  taxRate : 0 ≤ row.taxRate

structure Modifier.WellFormed (row : Modifier) : Prop where
  name : row.name ≠ ""

structure Discount.WellFormed (row : Discount) : Prop where
  value : 0 ≤ row.value
  maxDiscountAmount : ∀ a ∈ row.maxDiscountAmount, 0 ≤ a
  minPurchaseAmount : ∀ a ∈ row.minPurchaseAmount, 0 ≤ a
  usageLimit : ∀ n ∈ row.usageLimit, 1 ≤ n
  usageCount : 0 ≤ row.usageCount

structure InventoryItem.WellFormed (row : InventoryItem) : Prop where
  code : row.code ≠ ""
  name : row.name ≠ ""
  unitOfMeasure : row.unitOfMeasure ≠ ""
  costPerUnit : ∀ c ∈ row.costPerUnit, 0 ≤ c
  parLevel : 0 ≤ row.parLevel
  reorderPoint : 0 ≤ row.reorderPoint

structure Supplier.WellFormed (row : Supplier) : Prop where
  code : row.code ≠ "" ∧ row.code.toList.all Suppliers.codeChar ∧ row.code.length ≤ 50
  name : row.name ≠ ""
  contactName : ∀ n ∈ row.contactName, n ≠ ""
  leadTime : ∀ n ∈ row.leadTime, 0 ≤ n

structure InventoryMovement.WellFormed (row : InventoryMovement) : Prop where
  quantity : 0 < row.quantity

structure Recipe.WellFormed (row : Recipe) : Prop where
  servings : ∀ n ∈ row.servings, 1 ≤ n
  prepTimeMinutes : ∀ n ∈ row.prepTimeMinutes, 0 ≤ n

structure RecipeIngredient.WellFormed (row : RecipeIngredient) : Prop where
  quantity : 0 ≤ row.quantity

/-- The figures of a closing. -/
inductive Shift.Closing (row : Shift) : Prop
  | none (status : row.status = .open) (closedAt : row.closedAt = none)
      (figures : row.closingCash = none ∧ row.closingCard = none ∧ row.closingTransfers = none ∧
        row.closingOther = none ∧ row.totalClosing = none ∧ row.totalExpected = none ∧
        row.variance = none)
  | made {cash card transfers other expected : ℚ} (status : row.status = .closed)
      (closedAt : row.closedAt.isSome)
      (counted : row.closingCash = some cash ∧ row.closingCard = some card ∧
        row.closingTransfers = some transfers ∧ row.closingOther = some other)
      (bounds : 0 ≤ cash ∧ 0 ≤ card ∧ 0 ≤ transfers ∧ 0 ≤ other ∧ 0 ≤ expected)
      (totalClosing : row.totalClosing = some (cash + card + transfers + other))
      (totalExpected : row.totalExpected = some expected)
      (variance : row.variance = some (cash + card + transfers + other - expected))

structure Shift.WellFormed (row : Shift) : Prop where
  openingCash : 0 ≤ row.openingCash
  closing : row.Closing

structure CashRegister.WellFormed (row : CashRegister) : Prop where
  expectedCash : 0 ≤ row.expectedCash
  countedCash : ∀ a ∈ row.countedCash, 0 ≤ a
  totalExpenses : ∀ a ∈ row.totalExpenses, 0 ≤ a

structure CashDenomination.WellFormed (row : CashDenomination) : Prop where
  denomination : 0 < row.denomination
  count : 0 < row.count
  total : row.total = row.denomination * row.count

structure CashExpense.WellFormed (row : CashExpense) : Prop where
  amount : 0 ≤ row.amount

structure Tax.WellFormed (row : Tax) : Prop where
  rate : 0 ≤ row.rate ∧ row.rate ≤ 100

/-- Every row that the services write is well-formed. -/
structure Db.WellFormed (db : Db) : Prop where
  transactions : ∀ row ∈ db.transactions.values, row.WellFormed
  lineItems : ∀ row ∈ db.lineItems, row.WellFormed
  payments : ∀ row ∈ db.payments.values, row.WellFormed
  orders : ∀ row ∈ db.orders.values, row.WellFormed
  categories : ∀ row ∈ db.categories.values, row.WellFormed
  products : ∀ row ∈ db.products.values, row.WellFormed
  modifiers : ∀ row ∈ db.modifiers.values, row.WellFormed
  discounts : ∀ row ∈ db.discounts.values, row.WellFormed
  inventoryItems : ∀ row ∈ db.inventoryItems.values, row.WellFormed
  suppliers : ∀ row ∈ db.suppliers.values, row.WellFormed
  inventoryMovements : ∀ row ∈ db.inventoryMovements.values, row.WellFormed
  recipes : ∀ row ∈ db.recipes.values, row.WellFormed
  recipeIngredients : ∀ row ∈ db.recipeIngredients, row.WellFormed
  shifts : ∀ row ∈ db.shifts.values, row.WellFormed
  cashRegisters : ∀ row ∈ db.cashRegisters.values, row.WellFormed
  cashDenominations : ∀ row ∈ db.cashDenominations, row.WellFormed
  cashExpenses : ∀ row ∈ db.cashExpenses, row.WellFormed
  taxes : ∀ row ∈ db.taxes.values, row.WellFormed

lemma Db.wellFormed_empty : Db.WellFormed ∅ := by
  constructor <;> exact fun _ h => by cases h

end CoffeeOs.Schema

namespace CoffeeOs.WellFormed

open CoffeeOs.Payload CoffeeOs.Payload.Property CoffeeOs.Schema

/-! ### The rows of payloads -/

lemma transaction_row (dto : Transactions.CreateTransactionDto) : dto.row.WellFormed :=
  ⟨fun _ => of_mem_toOption, fun _ => of_mem_toOption⟩

lemma transaction_apply {dto : Transactions.UpdateTransactionDto} {row row' : Transaction}
    (h : row.WellFormed) (ha : dto.apply row = some row') : row'.WellFormed := by
  obtain ⟨status, -, rfl⟩ := Option.map_eq_some_iff.mp ha
  exact ⟨of_mem_intoNullable h.taxAmount, of_mem_intoNullable h.discountAmount⟩

lemma lineItem_rows (id : Id) (items : List Transactions.TransactionLineItemDto) :
    ∀ row ∈ Transactions.lineRows id items, row.WellFormed := by
  intro row hrow
  obtain ⟨item, -, rfl⟩ := List.mem_map.mp hrow
  exact ⟨item.quantity.2, item.unitPrice.2⟩

lemma payment_row (dto : Payments.CreatePaymentDto) : dto.row.WellFormed := ⟨dto.amount.2⟩

lemma payment_apply {dto : Payments.UpdatePaymentDto} {row row' : Payment} (h : row.WellFormed)
    (ha : dto.apply row = some row') : row'.WellFormed := by
  unfold Payments.UpdatePaymentDto.apply at ha
  simp only [Option.bind_eq_bind, Option.bind_eq_some_iff] at ha
  obtain ⟨_, -, amount, hamount, _, -, _, -, ha⟩ := ha
  rw [← Option.some.inj ha]
  exact ⟨of_intoRequired h.amount hamount⟩

lemma order_row (dto : Orders.CreateOrderDto) (n : ℕ) (now createdAt : Instant) :
    (dto.row (Orders.orderNumber (Orders.dateStr now) (n + 1)) createdAt).WellFormed :=
  ⟨fun _ => of_mem_toOption, now, n, rfl⟩

lemma order_apply {dto : Orders.UpdateOrderDto} {row row' : Order} (h : row.WellFormed)
    (ha : dto.apply row = some row') : row'.WellFormed := by
  unfold Orders.UpdateOrderDto.apply at ha
  simp only [Option.bind_eq_bind, Option.bind_eq_some_iff] at ha
  obtain ⟨_, -, _, -, ha⟩ := ha
  rw [← Option.some.inj ha]
  exact ⟨of_mem_intoNullable h.guestCount, h.number⟩

lemma category_row {dto : Categories.CreateCategoryDto} {highest : Option ℤ} {row : Category}
    (hrow : dto.row highest = some row) : row.WellFormed := by
  unfold Categories.CreateCategoryDto.row at hrow
  simp only [Option.bind_eq_bind, Option.bind_eq_some_iff] at hrow
  obtain ⟨_, -, hrow⟩ := hrow
  rw [← Option.some.inj hrow]
  exact ⟨dto.name.2⟩

lemma category_apply {dto : Categories.UpdateCategoryDto} {row row' : Category}
    (h : row.WellFormed) (ha : dto.apply row = some row') : row'.WellFormed := by
  unfold Categories.UpdateCategoryDto.apply at ha
  simp only [Option.bind_eq_bind, Option.bind_eq_some_iff] at ha
  obtain ⟨name, hname, _, -, _, -, ha⟩ := ha
  rw [← Option.some.inj ha]
  exact ⟨ne_empty_of_intoRequired h.name hname⟩

lemma product_row {dto : Products.CreateProductDto} {row : Product} (hrow : dto.row = some row) :
    row.WellFormed := by
  unfold Products.CreateProductDto.row at hrow
  simp only [Option.bind_eq_bind, Option.bind_eq_some_iff] at hrow
  obtain ⟨cost, hcost, taxRate, htaxRate, _, -, _, -, _, -, hrow⟩ := hrow
  rw [← Option.some.inj hrow]
  exact ⟨dto.categoryId.2, dto.sku.2, dto.name.2, dto.price.2, of_intoRequired le_rfl hcost,
    of_intoRequired (show (0 : ℚ) ≤ 4 / 25 by norm_num) htaxRate⟩

lemma product_apply {dto : Products.UpdateProductDto} {row row' : Product} (h : row.WellFormed)
    (ha : dto.apply row = some row') : row'.WellFormed := by
  unfold Products.UpdateProductDto.apply at ha
  simp only [Option.bind_eq_bind, Option.bind_eq_some_iff] at ha
  obtain ⟨categoryId, hcategory, sku, hsku, name, hname, price, hprice, cost, hcost, taxRate,
    htaxRate, _, -, _, -, _, -, ha⟩ := ha
  rw [← Option.some.inj ha]
  exact ⟨ne_empty_of_intoRequired h.categoryId hcategory, ne_empty_of_intoRequired h.sku hsku,
    ne_empty_of_intoRequired h.name hname, of_intoRequired h.price hprice,
    of_intoRequired h.cost hcost, of_intoRequired h.taxRate htaxRate⟩

lemma modifier_row {dto : Modifiers.CreateModifierDto} {row : Modifier}
    (hrow : dto.row = some row) : row.WellFormed := by
  unfold Modifiers.CreateModifierDto.row at hrow
  simp only [Option.bind_eq_bind, Option.bind_eq_some_iff] at hrow
  obtain ⟨_, -, _, -, hrow⟩ := hrow
  rw [← Option.some.inj hrow]
  exact ⟨dto.name.2⟩

lemma modifier_apply {dto : Modifiers.UpdateModifierDto} {row row' : Modifier}
    (h : row.WellFormed) (ha : dto.apply row = some row') : row'.WellFormed := by
  unfold Modifiers.UpdateModifierDto.apply at ha
  simp only [Option.bind_eq_bind, Option.bind_eq_some_iff] at ha
  obtain ⟨name, hname, _, -, _, -, _, -, ha⟩ := ha
  rw [← Option.some.inj ha]
  exact ⟨ne_empty_of_intoRequired h.name hname⟩

lemma discount_row {dto : Discounts.CreateDiscountDto} {row : Discount}
    (hrow : dto.row = some row) : row.WellFormed := by
  unfold Discounts.CreateDiscountDto.row at hrow
  simp only [Option.bind_eq_bind, Option.bind_eq_some_iff] at hrow
  obtain ⟨usageCount, husageCount, _, -, hrow⟩ := hrow
  rw [← Option.some.inj hrow]
  exact ⟨dto.value.2, fun _ => of_mem_toOption, fun _ => of_mem_toOption,
    fun _ => of_mem_toOption, of_intoRequired le_rfl husageCount⟩

lemma discount_apply {dto : Discounts.UpdateDiscountDto} {row row' : Discount}
    (h : row.WellFormed) (ha : dto.apply row = some row') : row'.WellFormed := by
  unfold Discounts.UpdateDiscountDto.apply at ha
  simp only [Option.bind_eq_bind, Option.bind_eq_some_iff] at ha
  obtain ⟨_, -, _, -, _, -, value, hvalue, usageCount, husageCount, _, -, _, -, ha⟩ := ha
  rw [← Option.some.inj ha]
  exact ⟨of_intoRequired h.value hvalue, of_mem_intoNullable h.maxDiscountAmount,
    of_mem_intoNullable h.minPurchaseAmount, of_mem_intoNullable h.usageLimit,
    of_intoRequired h.usageCount husageCount⟩

lemma inventoryItem_row {dto : InventoryItems.CreateInventoryItemDto} {row : InventoryItem}
    (hrow : dto.row = some row) : row.WellFormed := by
  unfold InventoryItems.CreateInventoryItemDto.row at hrow
  simp only [Option.bind_eq_bind, Option.bind_eq_some_iff] at hrow
  obtain ⟨cost, hcost, parLevel, hparLevel, reorderPoint, hreorderPoint, hrow⟩ := hrow
  rw [← Option.some.inj hrow]
  refine ⟨dto.code.2, dto.name.2, dto.unitOfMeasure.2, fun c hc => ?_,
    of_intoRequired le_rfl hparLevel, of_intoRequired le_rfl hreorderPoint⟩
  rw [← Option.some.inj hc]
  exact of_intoRequired le_rfl hcost

lemma inventoryItem_apply {dto : InventoryItems.UpdateInventoryItemDto}
    {row row' : InventoryItem} (h : row.WellFormed) (ha : dto.apply row = some row') :
    row'.WellFormed := by
  unfold InventoryItems.UpdateInventoryItemDto.apply at ha
  simp only [Option.bind_eq_bind, Option.bind_eq_some_iff] at ha
  obtain ⟨code, hcode, name, hname, unit, hunit, cost, hcost, parLevel, hparLevel, reorderPoint,
    hreorderPoint, _, -, ha⟩ := ha
  rw [← Option.some.inj ha]
  refine ⟨ne_empty_of_intoRequired h.code hcode, ne_empty_of_intoRequired h.name hname,
    ne_empty_of_intoRequired h.unitOfMeasure hunit, ?_, of_intoRequired h.parLevel hparLevel,
    of_intoRequired h.reorderPoint hreorderPoint⟩
  refine (forall_intoRequired_iff (P := fun cost => ∀ c ∈ cost, 0 ≤ c) h.costPerUnit hcost).mpr ?_
  intro cost' hval c hc
  obtain ⟨least, -, rfl⟩ := map_eq_val_iff.mp hval
  rw [← Option.some.inj hc]
  exact least.2

lemma supplier_row (dto : Suppliers.CreateSupplierDto) : dto.row.WellFormed := by
  refine ⟨dto.code.2, dto.name.2, fun n hn => ?_, fun _ => of_mem_toOption⟩
  rw [← Option.some.inj hn]
  exact dto.contactName.2

lemma supplier_apply {dto : Suppliers.UpdateSupplierDto} {row row' : Supplier}
    (h : row.WellFormed) (ha : dto.apply row = some row') : row'.WellFormed := by
  unfold Suppliers.UpdateSupplierDto.apply at ha
  simp only [Option.bind_eq_bind, Option.bind_eq_some_iff] at ha
  obtain ⟨code, hcode, name, hname, _, -, ha⟩ := ha
  rw [← Option.some.inj ha]
  refine ⟨?_, ne_empty_of_intoRequired h.name hname, of_mem_intoNullable h.contactName,
    of_mem_intoNullable h.leadTime⟩
  exact of_intoRequired (P := fun s => s ≠ "" ∧ s.toList.all Suppliers.codeChar ∧ s.length ≤ 50)
    h.code hcode

lemma movement_row (dto : InventoryMovements.CreateInventoryMovementDto) : dto.row.WellFormed :=
  ⟨dto.quantity.2⟩

lemma movement_apply {dto : InventoryMovements.UpdateInventoryMovementDto}
    {row row' : InventoryMovement} (h : row.WellFormed) (ha : dto.apply row = some row') :
    row'.WellFormed := by
  unfold InventoryMovements.UpdateInventoryMovementDto.apply at ha
  simp only [Option.bind_eq_bind, Option.bind_eq_some_iff] at ha
  obtain ⟨_, -, _, -, _, -, quantity, hquantity, ha⟩ := ha
  rw [← Option.some.inj ha]
  exact ⟨of_intoRequired h.quantity hquantity⟩

lemma recipe_row (dto : Recipes.CreateRecipeDto) : dto.row.WellFormed :=
  ⟨fun _ => of_mem_toOption, fun _ => of_mem_toOption⟩

lemma recipe_apply {dto : Recipes.UpdateRecipeDto} {row row' : Recipe} (h : row.WellFormed)
    (ha : dto.apply row = some row') : row'.WellFormed := by
  unfold Recipes.UpdateRecipeDto.apply at ha
  simp only [Option.bind_eq_bind, Option.bind_eq_some_iff] at ha
  obtain ⟨_, -, _, -, _, -, ha⟩ := ha
  rw [← Option.some.inj ha]
  exact ⟨of_mem_intoNullable h.servings, of_mem_intoNullable h.prepTimeMinutes⟩

lemma ingredient_rows (id : Id) (ingredients : List Recipes.RecipeIngredientDto) :
    ∀ row ∈ Recipes.ingredientRows id ingredients, row.WellFormed := by
  intro row hrow
  obtain ⟨ingredient, -, rfl⟩ := List.mem_map.mp hrow
  exact ⟨ingredient.quantity.2⟩

lemma shift_row (dto : Shifts.CreateShiftDto) (now : Instant) : (dto.row now).WellFormed :=
  ⟨dto.openingCash.2, .none rfl rfl ⟨rfl, rfl, rfl, rfl, rfl, rfl, rfl⟩⟩

lemma shift_apply {dto : Shifts.UpdateShiftDto} {row row' : Shift} (h : row.WellFormed)
    (ha : dto.apply row = some row') : row'.WellFormed := by
  unfold Shifts.UpdateShiftDto.apply at ha
  simp only [Option.bind_eq_bind, Option.bind_eq_some_iff] at ha
  obtain ⟨cash, hcash, _, -, _, -, _, -, ha⟩ := ha
  rw [← Option.some.inj ha]
  refine ⟨of_intoRequired h.openingCash hcash, ?_⟩
  rcases h.closing with ⟨status, closedAt, figures⟩ |
    ⟨status, closedAt, counted, bounds, totalClosing, totalExpected, variance⟩
  · exact .none status closedAt figures
  · exact .made status closedAt counted bounds totalClosing totalExpected variance

/-- The figures of a closing agree, whatever the row has become since the shift was read. -/
lemma shift_closed (dto : Shifts.CloseShiftDto) {read row : Shift} (now : Instant)
    (hread : read.WellFormed) (h : row.WellFormed) : (dto.apply read now row).WellFormed :=
  ⟨h.openingCash, .made rfl rfl ⟨rfl, rfl, rfl, rfl⟩ ⟨dto.closingCash.2, dto.closingCard.2,
    dto.closingTransfers.2, dto.closingOther.2, hread.openingCash⟩ rfl rfl rfl⟩

lemma register_row (dto : CashRegisters.CreateCashRegisterDto) : dto.row.WellFormed :=
  ⟨dto.expectedCash.2, fun _ => of_mem_toOption, fun _ => of_mem_toOption⟩

lemma register_apply {dto : CashRegisters.UpdateCashRegisterDto} {row row' : CashRegister}
    (h : row.WellFormed) (ha : dto.apply row = some row') : row'.WellFormed := by
  unfold CashRegisters.UpdateCashRegisterDto.apply at ha
  simp only [Option.bind_eq_bind, Option.bind_eq_some_iff] at ha
  obtain ⟨_, -, cash, hcash, _, -, _, -, ha⟩ := ha
  rw [← Option.some.inj ha]
  exact ⟨of_intoRequired h.expectedCash hcash, of_mem_intoNullable h.countedCash,
    of_mem_intoNullable h.totalExpenses⟩

/-- The denominations are positive and their counts are not negative. -/
lemma entry_bounds (dto : CashRegisters.RecordDenominationDto) :
    ∀ entry ∈ dto.entries, 0 < entry.1 ∧ 0 ≤ entry.2 := by
  simp only [CashRegisters.RecordDenominationDto.entries, List.forall_mem_cons]
  exact ⟨⟨by norm_num, dto.count1.2⟩, ⟨by norm_num, dto.count2.2⟩, ⟨by norm_num, dto.count5.2⟩,
    ⟨by norm_num, dto.count10.2⟩, ⟨by norm_num, dto.count20.2⟩, ⟨by norm_num, dto.count50.2⟩,
    ⟨by norm_num, dto.count100.2⟩, ⟨by norm_num, dto.count200.2⟩, ⟨by norm_num, dto.count500.2⟩,
    ⟨by norm_num, dto.count1000.2⟩, ⟨by norm_num, dto.count05.2⟩, nofun⟩

lemma denomination_row (id : Id) {entry : ℚ × ℚ} (h : 0 < entry.1 ∧ 0 ≤ entry.2)
    (hcount : entry.2 ≠ 0) : (CashRegisters.denominationRow id entry).WellFormed :=
  ⟨h.1, lt_of_le_of_ne h.2 hcount.symm, rfl⟩

lemma expense_row (dto : CashRegisters.RecordExpenseDto) (id : Id) : (dto.row id).WellFormed :=
  ⟨dto.amount.2⟩

lemma tax_row {dto : Taxes.CreateTaxDto} {row : Tax} (hrow : dto.row = some row) :
    row.WellFormed :=
  ⟨Taxes.row_rate hrow ▸ dto.rate.2⟩

lemma tax_apply {dto : Taxes.UpdateTaxDto} {row row' : Tax} (h : row.WellFormed)
    (ha : dto.apply row = some row') : row'.WellFormed := by
  rcases Taxes.apply_rate ha with hrate | ⟨rate, -, hrate⟩
  · exact ⟨hrate ▸ h.rate⟩
  · exact ⟨hrate ▸ rate.2⟩

end CoffeeOs.WellFormed
