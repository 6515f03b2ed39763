import CoffeeOs.Services

/-!
What no call takes back.

Rows appear only where a call creates them. The number of an order, the instants at which rows came
into being and the stock of an item are never rewritten, instants of moves are never emptied, closed
shifts are never opened again, and counts and expenses go only with their register.
-/

namespace CoffeeOs.Permanence

open CoffeeOs.KeyedTable CoffeeOs.Schema CoffeeOs.Services

/-! ### Tables -/

section Tables

variable {ρ : Type} {new new' : Id → Prop} {R : ρ → ρ → Prop} {t t' t'' : Table Id ρ} {k : Id}
  {r r' : ρ}

/-- Where nothing is `new`, no row has appeared, and the rows that are left have become what `R`
lets them become. -/
structure Steady (new : Id → Prop) (R : ρ → ρ → Prop) (t t' : Table Id ρ) : Prop where
  absent : ∀ k, ¬ new k → t.find? k = none → t'.find? k = none
  kept : ∀ k, ¬ new k → ∀ r r', t.find? k = some r → t'.find? k = some r' → R r r'

lemma Steady.refl (hR : ∀ r, R r r) : Steady new R t t where
  absent _ _ h := h
  kept k _ r r' hr hr' := by
    obtain rfl := Option.some.inj (hr.symm.trans hr')
    exact hR r

lemma Steady.trans (hR : ∀ r r' r'', R r r' → R r' r'' → R r r'') (h : Steady new R t t')
    (h' : Steady new R t' t'') : Steady new R t t'' where
  absent k hk hnone := h'.absent k hk (h.absent k hk hnone)
  kept k hk r r'' hr hr'' := by
    rcases hmid : t'.find? k with _ | r'
    · cases (h'.absent k hk hmid).symm.trans hr''
    · exact hR r r' r'' (h.kept k hk r r' hr hmid) (h'.kept k hk r' r'' hmid hr'')

lemma Steady.mono (h : Steady new R t t') (hnew : ∀ k, new k → new' k) : Steady new' R t t' where
  absent k hk := h.absent k fun hk' => hk (hnew k hk')
  kept k hk := h.kept k fun hk' => hk (hnew k hk')

lemma Steady.create (hR : ∀ r, R r r) (hk : new k) : Steady new R t (t.put k r) where
  absent j hj hnone := by rwa [Table.find?_put_ne fun he => hj (by rwa [he])]
  kept j hj a b ha hb := by
    rw [Table.find?_put_ne fun he => hj (by rwa [he])] at hb
    obtain rfl := Option.some.inj (ha.symm.trans hb)
    exact hR a

lemma Steady.update (hR : ∀ r, R r r) (hr : t.find? k = some r) (h : R r r') :
    Steady new R t (t.put k r') where
  absent j _ hnone := by
    refine (Table.find?_put_ne fun he => ?_).trans hnone
    cases hnone.symm.trans (he ▸ hr)
  kept j _ a b ha hb := by
    rcases Table.of_find?_put hb with ⟨rfl, rfl⟩ | ⟨-, hold⟩
    · obtain rfl := Option.some.inj (hr.symm.trans ha)
      exact h
    · obtain rfl := Option.some.inj (ha.symm.trans hold)
      exact hR a

/-- Dropping rows. -/
lemma Steady.keep (hR : ∀ r, R r r) (p : Id → ρ → Bool) : Steady new R t (t.keep p) where
  absent j _ hnone := by rw [Table.find?_keep, hnone, Option.filter_none]
  kept j _ a b ha hb := by
    rw [Table.find?_keep, ha] at hb
    obtain rfl := Option.some.inj (Option.filter_eq_some_iff.mp hb).1
    exact hR a

end Tables

/-! ### Rows -/

/-- A row without anything that has to stay. -/
def Free {ρ : Type} (_ _ : ρ) : Prop := True

structure TransactionKeeps (row row' : Transaction) : Prop where
  completedAt : row.completedAt.isSome → row'.completedAt.isSome

structure PaymentKeeps (row row' : Payment) : Prop where
  refundedAt : row.refundedAt.isSome → row'.refundedAt.isSome

structure OrderKeeps (row row' : Order) : Prop where
  orderNumber : row'.orderNumber = row.orderNumber
  createdAt : row'.createdAt = row.createdAt
  startedAt : row.startedAt.isSome → row'.startedAt.isSome
  readyAt : row.readyAt.isSome → row'.readyAt.isSome
  servedAt : row.servedAt.isSome → row'.servedAt.isSome
  cancelledAt : row.cancelledAt.isSome → row'.cancelledAt.isSome

structure InventoryItemKeeps (row row' : InventoryItem) : Prop where
  sku : row'.sku = row.sku
  currentStock : row'.currentStock = row.currentStock

structure ShiftKeeps (row row' : Shift) : Prop where
  openedAt : row'.openedAt = row.openedAt
  closed : row.status = .closed → row'.status = .closed
  closedAt : row.closedAt.isSome → row'.closedAt.isSome

lemma transactionKeeps_refl (row : Transaction) : TransactionKeeps row row := ⟨fun h => h⟩

lemma paymentKeeps_refl (row : Payment) : PaymentKeeps row row := ⟨fun h => h⟩

lemma orderKeeps_refl (row : Order) : OrderKeeps row row :=
  ⟨rfl, rfl, fun h => h, fun h => h, fun h => h, fun h => h⟩

lemma inventoryItemKeeps_refl (row : InventoryItem) : InventoryItemKeeps row row := ⟨rfl, rfl⟩

lemma shiftKeeps_refl (row : Shift) : ShiftKeeps row row := ⟨rfl, fun h => h, fun h => h⟩

/-! ### The database -/

/-- From `db` to `db'` nothing has been taken back, if rows are `born` in a table under these ids
only, and only registers with these ids are `gone`. -/
structure Permanent (born : TableName → Id → Prop) (gone : Id → Prop) (db db' : Db) : Prop where
  transactions : Steady (born .transactions) TransactionKeeps db.transactions db'.transactions
  payments : Steady (born .payments) PaymentKeeps db.payments db'.payments
  orders : Steady (born .orders) OrderKeeps db.orders db'.orders
  categories : Steady (born .categories) Free db.categories db'.categories
  products : Steady (born .products) Free db.products db'.products
  modifiers : Steady (born .modifiers) Free db.modifiers db'.modifiers
  discounts : Steady (born .discounts) Free db.discounts db'.discounts
  inventoryItems :
    Steady (born .inventoryItems) InventoryItemKeeps db.inventoryItems db'.inventoryItems
  suppliers : Steady (born .suppliers) Free db.suppliers db'.suppliers
  inventoryMovements :
    Steady (born .inventoryMovements) Free db.inventoryMovements db'.inventoryMovements
  recipes : Steady (born .recipes) Free db.recipes db'.recipes
  shifts : Steady (born .shifts) ShiftKeeps db.shifts db'.shifts
  cashRegisters : Steady (born .cashRegisters) Free db.cashRegisters db'.cashRegisters
  taxes : Steady (born .taxes) Free db.taxes db'.taxes
  denominations : ∀ row : CashDenomination, ¬ gone row.cashRegisterId →
    db.cashDenominations.count row ≤ db'.cashDenominations.count row
  expenses : ∀ row : CashExpense, ¬ gone row.cashRegisterId →
    db.cashExpenses.count row ≤ db'.cashExpenses.count row
  productModifiers : db'.productModifiers ⊆ db.productModifiers
  unwritten : db'.ticketLines = db.ticketLines ∧ db'.ticketLineModifiers = db.ticketLineModifiers ∧
    db'.purchaseOrders = db.purchaseOrders ∧ db'.goodsReceipts = db.goodsReceipts

variable {born born' : TableName → Id → Prop} {gone gone' : Id → Prop} {db db' db'' : Db}

lemma free_refl {ρ : Type} (row : ρ) : Free row row := trivial

lemma Permanent.refl (db : Db) : Permanent born gone db db where
  transactions := .refl transactionKeeps_refl
  payments := .refl paymentKeeps_refl
  orders := .refl orderKeeps_refl
  categories := .refl free_refl
  products := .refl free_refl
  modifiers := .refl free_refl
  discounts := .refl free_refl
  inventoryItems := .refl inventoryItemKeeps_refl
  suppliers := .refl free_refl
  inventoryMovements := .refl free_refl
  recipes := .refl free_refl
  shifts := .refl shiftKeeps_refl
  cashRegisters := .refl free_refl
  taxes := .refl free_refl
  denominations _ _ := le_rfl
  expenses _ _ := le_rfl
  productModifiers := List.Subset.refl _
  unwritten := ⟨rfl, rfl, rfl, rfl⟩

lemma Permanent.trans (h : Permanent born gone db db') (h' : Permanent born gone db' db'') :
    Permanent born gone db db'' where
  transactions := h.transactions.trans (fun _ _ _ k k' => ⟨fun hs => k'.1 (k.1 hs)⟩) h'.transactions
  payments := h.payments.trans (fun _ _ _ k k' => ⟨fun hs => k'.1 (k.1 hs)⟩) h'.payments
  orders := h.orders.trans (fun _ _ _ k k' =>
    ⟨k'.orderNumber.trans k.orderNumber, k'.createdAt.trans k.createdAt,
      fun hs => k'.startedAt (k.startedAt hs), fun hs => k'.readyAt (k.readyAt hs),
      fun hs => k'.servedAt (k.servedAt hs), fun hs => k'.cancelledAt (k.cancelledAt hs)⟩) h'.orders
  categories := h.categories.trans (fun _ _ _ _ _ => trivial) h'.categories
  products := h.products.trans (fun _ _ _ _ _ => trivial) h'.products
  modifiers := h.modifiers.trans (fun _ _ _ _ _ => trivial) h'.modifiers
  discounts := h.discounts.trans (fun _ _ _ _ _ => trivial) h'.discounts
  inventoryItems := h.inventoryItems.trans (fun _ _ _ k k' =>
    ⟨k'.sku.trans k.sku, k'.currentStock.trans k.currentStock⟩) h'.inventoryItems
  suppliers := h.suppliers.trans (fun _ _ _ _ _ => trivial) h'.suppliers
  inventoryMovements := h.inventoryMovements.trans (fun _ _ _ _ _ => trivial) h'.inventoryMovements
  recipes := h.recipes.trans (fun _ _ _ _ _ => trivial) h'.recipes
  shifts := h.shifts.trans (fun _ _ _ k k' => ⟨k'.openedAt.trans k.openedAt,
    fun hs => k'.closed (k.closed hs), fun hs => k'.closedAt (k.closedAt hs)⟩) h'.shifts
  cashRegisters := h.cashRegisters.trans (fun _ _ _ _ _ => trivial) h'.cashRegisters
  taxes := h.taxes.trans (fun _ _ _ _ _ => trivial) h'.taxes
  denominations row hrow := (h.denominations row hrow).trans (h'.denominations row hrow)
  expenses row hrow := (h.expenses row hrow).trans (h'.expenses row hrow)
  productModifiers := List.Subset.trans h'.productModifiers h.productModifiers
  unwritten := ⟨h'.unwritten.1.trans h.unwritten.1, h'.unwritten.2.1.trans h.unwritten.2.1,
    h'.unwritten.2.2.1.trans h.unwritten.2.2.1, h'.unwritten.2.2.2.trans h.unwritten.2.2.2⟩

lemma Permanent.mono (h : Permanent born gone db db') (hborn : ∀ t id, born t id → born' t id)
    (hgone : ∀ id, gone id → gone' id) : Permanent born' gone' db db' where
  transactions := h.transactions.mono (hborn _)
  payments := h.payments.mono (hborn _)
  orders := h.orders.mono (hborn _)
  categories := h.categories.mono (hborn _)
  products := h.products.mono (hborn _)
  modifiers := h.modifiers.mono (hborn _)
  discounts := h.discounts.mono (hborn _)
  inventoryItems := h.inventoryItems.mono (hborn _)
  suppliers := h.suppliers.mono (hborn _)
  inventoryMovements := h.inventoryMovements.mono (hborn _)
  recipes := h.recipes.mono (hborn _)
  shifts := h.shifts.mono (hborn _)
  cashRegisters := h.cashRegisters.mono (hborn _)
  taxes := h.taxes.mono (hborn _)
  denominations row hrow := h.denominations row fun hg => hrow (hgone _ hg)
  expenses row hrow := h.expenses row fun hg => hrow (hgone _ hg)
  productModifiers := h.productModifiers
  unwritten := h.unwritten

/-- The table has no row with this id; the rows of the other tables have none. -/
def Absent (db : Db) (t : TableName) (id : Id) : Prop :=
  match t with
  | .transactions => db.transactions.find? id = none
  | .payments => db.payments.find? id = none
  | .orders => db.orders.find? id = none
  | .categories => db.categories.find? id = none
  | .products => db.products.find? id = none
  | .modifiers => db.modifiers.find? id = none
  | .discounts => db.discounts.find? id = none
  | .suppliers => db.suppliers.find? id = none
  | .inventoryItems => db.inventoryItems.find? id = none
  | .inventoryMovements => db.inventoryMovements.find? id = none
  | .recipes => db.recipes.find? id = none
  | .shifts => db.shifts.find? id = none
  | .cashRegisters => db.cashRegisters.find? id = none
  | .taxes => db.taxes.find? id = none
  | .lineItems | .productModifiers | .recipeIngredients | .cashDenominations | .cashExpenses
  | .ticketLines | .ticketLineModifiers | .purchaseOrders | .goodsReceipts => True

lemma Permanent.absent (h : Permanent born gone db db') {t : TableName} {id : Id}
    (hborn : ¬ born t id) (habsent : Absent db t id) : Absent db' t id := by
  cases t with
  | transactions => exact h.transactions.absent id hborn habsent
  | payments => exact h.payments.absent id hborn habsent
  | orders => exact h.orders.absent id hborn habsent
  | categories => exact h.categories.absent id hborn habsent
  | products => exact h.products.absent id hborn habsent
  | modifiers => exact h.modifiers.absent id hborn habsent
  | discounts => exact h.discounts.absent id hborn habsent
  | suppliers => exact h.suppliers.absent id hborn habsent
  | inventoryItems => exact h.inventoryItems.absent id hborn habsent
  | inventoryMovements => exact h.inventoryMovements.absent id hborn habsent
  | recipes => exact h.recipes.absent id hborn habsent
  | shifts => exact h.shifts.absent id hborn habsent
  | cashRegisters => exact h.cashRegisters.absent id hborn habsent
  | taxes => exact h.taxes.absent id hborn habsent
  | _ => trivial

/-! ### The rows of payloads -/

lemma transaction_apply {dto : Transactions.UpdateTransactionDto} {row row' : Transaction}
    (ha : dto.apply row = some row') : TransactionKeeps row row' := by
  obtain ⟨status, -, rfl⟩ := Option.map_eq_some_iff.mp ha
  exact ⟨fun h => h⟩

lemma payment_apply {dto : Payments.UpdatePaymentDto} {row row' : Payment}
    (ha : dto.apply row = some row') : PaymentKeeps row row' := by
  unfold Payments.UpdatePaymentDto.apply at ha
  simp only [Option.bind_eq_bind, Option.bind_eq_some_iff] at ha
  obtain ⟨_, -, _, -, _, -, _, -, ha⟩ := ha
  rw [← Option.some.inj ha]
  exact ⟨fun h => h⟩

lemma order_apply {dto : Orders.UpdateOrderDto} {row row' : Order}
    (ha : dto.apply row = some row') : OrderKeeps row row' := by
  unfold Orders.UpdateOrderDto.apply at ha
  simp only [Option.bind_eq_bind, Option.bind_eq_some_iff] at ha
  obtain ⟨_, -, _, -, ha⟩ := ha
  rw [← Option.some.inj ha]
  exact ⟨rfl, rfl, fun h => h, fun h => h, fun h => h, fun h => h⟩

lemma inventoryItem_apply {dto : InventoryItems.UpdateInventoryItemDto}
    {row row' : InventoryItem} (ha : dto.apply row = some row') : InventoryItemKeeps row row' := by
  unfold InventoryItems.UpdateInventoryItemDto.apply at ha
  simp only [Option.bind_eq_bind, Option.bind_eq_some_iff] at ha
  obtain ⟨_, -, _, -, _, -, _, -, _, -, _, -, _, -, ha⟩ := ha
  rw [← Option.some.inj ha]
  exact ⟨rfl, rfl⟩

lemma shift_apply {dto : Shifts.UpdateShiftDto} {row row' : Shift}
    (ha : dto.apply row = some row') : ShiftKeeps row row' := by
  unfold Shifts.UpdateShiftDto.apply at ha
  simp only [Option.bind_eq_bind, Option.bind_eq_some_iff] at ha
  obtain ⟨_, -, _, -, _, -, _, -, ha⟩ := ha
  rw [← Option.some.inj ha]
  exact ⟨rfl, fun h => h, fun h => h⟩

end CoffeeOs.Permanence
