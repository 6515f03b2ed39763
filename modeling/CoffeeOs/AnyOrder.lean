import CoffeeOs.Terms
import Mathlib.Algebra.Order.BigOperators.Group.List

/-!
The calls of all services at once, their turns in any order.

Checks that one call makes of what others store can be overtaken, and what rests on them breaks.
What a row owes to the payload it is made of, and to the row it is made from, cannot.
-/

namespace CoffeeOs.AnyOrder

open CoffeeOs.Interleaving CoffeeOs.KeyedTable CoffeeOs.Payload CoffeeOs.Permanence
open CoffeeOs.RelyGuarantee CoffeeOs.Requests CoffeeOs.Requests.Request CoffeeOs.Runs
open CoffeeOs.Schema CoffeeOs.Terms
open CoffeeOs.Services (Op TableName)

section Calls

variable {db₀ db : Db} {born : TableName → Id → Prop} {gone : Id → Prop} {id : Id}

/-! ### Sales -/

lemma transactions_create (newId : Id) (dto : Transactions.CreateTransactionDto)
    (hid : born .transactions newId) :
    Honours (terms db₀ born gone) (Transactions.create newId dto) := by
  have hwrite : Honours (terms db₀ born gone) (Transactions.writeCreate newId dto) := by
    refine honours_atomically fun db a db' hdb h => ?_
    split at h
    · cases h
    · obtain ⟨-, rfl⟩ := Prod.mk.inj (Except.ok.inj h)
      exact (transactions.put hdb hid fun _ => WellFormed.transaction_row dto).trans fun h =>
        lineItems_append h (WellFormed.lineItem_rows newId dto.lineItems)
  unfold Transactions.create
  split
  · exact .after ((onlyLooks_look _).bind fun _ => onlyLooks_throwIf) fun _ => hwrite
  · exact hwrite

lemma transactions_deleteLineItems (id : Id) :
    Honours (terms db₀ born gone) (Transactions.deleteLineItems id) := by
  refine honours_atomically fun db a db' hdb h => ?_
  obtain ⟨-, rfl⟩ := Prod.mk.inj (Except.ok.inj h)
  exact ⟨{ Permanent.refl db with }, fun hw => { hdb hw with
    lineItems := fun row hrow => (hdb hw).lineItems row (List.mem_of_mem_filter hrow) }⟩

lemma transactions_update (id : Id) (dto : Transactions.UpdateTransactionDto) :
    Honours (terms db₀ born gone) (Transactions.update id dto) := by
  have hwrite : Honours (terms db₀ born gone) (Transactions.writeUpdate id dto) := by
    refine honours_atomically fun db a db' hdb h => ?_
    split at h
    · cases h
    rename_i row hrow
    split at h
    · cases h
    · rename_i row' hrow'
      obtain ⟨-, rfl⟩ := Prod.mk.inj (Except.ok.inj h)
      refine (transactions.rewrite hdb hrow (fun hw => ?_) (transaction_apply hrow')).trans fun h =>
        lineItems_append h (WellFormed.lineItem_rows id dto.items)
      exact WellFormed.transaction_apply
        ((hdb hw).transactions row (Table.mem_values_iff.mpr ⟨id, hrow⟩)) hrow'
  refine .after Delegate.onlyLooks_findUnique fun _ => .after onlyLooks_orThrow fun _ =>
    .after onlyLooks_throwIf fun _ => ?_
  split
  · exact .after ((onlyLooks_look _).bind fun _ => onlyLooks_throwIf) fun _ =>
      (transactions_deleteLineItems id).bind fun _ => hwrite
  · exact hwrite

lemma transactions_cancel (id : Id) :
    Honours (terms db₀ born gone) (Transactions.cancel id) := by
  refine .after Delegate.onlyLooks_findUnique fun _ => .after onlyLooks_orThrow fun _ =>
    .after onlyLooks_throwIf fun _ => transactions.updateSome ?_ _
  exact fun _ h => ⟨fun hw => ⟨(h hw).taxAmount, (h hw).discountAmount⟩, ⟨fun hs => hs⟩⟩

lemma onlyLooks_findOne (id : Id) : (Transactions.findOne id).OnlyLooks :=
  (onlyLooks_look _).bind fun _ => onlyLooks_orThrow

lemma transactions_complete (id : Id) (now : Instant) :
    Honours (terms db₀ born gone) (Transactions.complete id now) := by
  refine .after (onlyLooks_findOne id) fun _ =>
    .after ((onlyLooks_findOne id).bind fun _ => .done _) fun _ =>
      .after onlyLooks_throwIf fun _ => transactions.updateSome ?_ _
  exact fun _ h => ⟨fun hw => ⟨(h hw).taxAmount, (h hw).discountAmount⟩, ⟨fun _ => rfl⟩⟩

lemma transactions_remove (id : Id) :
    Honours (terms db₀ born gone) (Transactions.remove id) := by
  have hpayments : Honours (terms db₀ born gone) (Transactions.deletePayments id) := by
    refine honours_atomically fun db a db' hdb h => ?_
    obtain ⟨-, rfl⟩ := Prod.mk.inj (Except.ok.inj h)
    exact payments.keep hdb _
  exact .after Delegate.onlyLooks_findUnique fun _ => .after onlyLooks_orThrow fun _ =>
    .after onlyLooks_throwIf fun _ => (transactions_deleteLineItems id).bind fun _ =>
      hpayments.bind fun _ => transactions.delete

lemma payments_create (newId : Id) (dto : Payments.CreatePaymentDto)
    (hid : born .payments newId) :
    Honours (terms db₀ born gone) (Payments.create newId dto) :=
  .after Delegate.onlyLooks_findUnique fun _ => .after onlyLooks_orThrow fun _ =>
    payments.create hid (fun _ => WellFormed.payment_row dto) _

lemma payments_update (id : Id) (dto : Payments.UpdatePaymentDto) :
    Honours (terms db₀ born gone) (Payments.update id dto) :=
  .after (Delegate.onlyLooks_found _) fun _ => .after onlyLooks_throwIf fun _ =>
    .after onlyLooks_throwIf fun _ => payments.update (fun _ _ h ha =>
      ⟨fun hw => WellFormed.payment_apply (h hw) ha, payment_apply ha⟩) _

lemma payments_refund (id : Id) (now : Instant) :
    Honours (terms db₀ born gone) (Payments.refund id now) := by
  refine .after (Delegate.onlyLooks_found _) fun _ => .after onlyLooks_throwIf fun _ =>
    payments.updateSome ?_ _
  exact fun _ h => ⟨fun hw => ⟨(h hw).amount⟩, ⟨fun _ => rfl⟩⟩

lemma payments_remove (id : Id) : Honours (terms db₀ born gone) (Payments.remove id) :=
  .after (Delegate.onlyLooks_found _) fun _ => .after onlyLooks_throwIf fun _ => payments.delete

/-- The number of a new order is made of the day of the clock reading, whatever count it comes
from. -/
lemma orders_create (midnight : Instant → Instant) (newId : Id) (dto : Orders.CreateOrderDto)
    (now createdAt : Instant) (hid : born .orders newId) :
    Honours (terms db₀ born gone) (Orders.create midnight newId dto now createdAt) := by
  refine .after ?_ fun _ => ?_
  · unfold Orders.verifyTransaction
    split
    · exact .done _
    · exact Delegate.onlyLooks_findUnique.bind fun _ => onlyLooks_orThrow.bind fun _ => .done _
  · exact upholds_look_bind (f := fun count => order.create newId
      (dto.row (Orders.orderNumber (Orders.dateStr now) (count + 1)) createdAt)
      (Orders.viewOf newId
        (dto.row (Orders.orderNumber (Orders.dateStr now) (count + 1)) createdAt)))
      fun _ _ => orders.create hid (fun _ => WellFormed.order_row dto _ now createdAt) _

lemma orders_update (id : Id) (dto : Orders.UpdateOrderDto) :
    Honours (terms db₀ born gone) (Orders.update id dto) :=
  .after (Delegate.onlyLooks_found _) fun _ => .after onlyLooks_throwIf fun _ =>
    .after onlyLooks_throwIf fun _ => orders.update (fun _ _ h ha =>
      ⟨fun hw => WellFormed.order_apply (h hw) ha, order_apply ha⟩) _

/-- A move along the line stores an instant of its own and leaves the others. -/
lemma orders_advance (id : Id) (source : OrderStatus) (message : String) {f : Order → Order}
    (hf : ∀ row, (row.WellFormed → (f row).WellFormed) ∧ OrderKeeps row (f row)) :
    Honours (terms db₀ born gone) (Orders.advance id source message f) :=
  .after (Delegate.onlyLooks_found _) fun _ => .after onlyLooks_throwIf fun _ =>
    orders.updateSome (fun row h => ⟨fun hw => (hf row).1 (h hw), (hf row).2⟩) _

lemma orders_startOrder (id : Id) (now : Instant) :
    Honours (terms db₀ born gone) (Orders.startOrder id now) := by
  refine orders_advance id _ _ fun row => ⟨fun h => ⟨h.guestCount, h.number⟩, ?_⟩
  exact { orderKeeps_refl row with startedAt := fun _ => rfl }

lemma orders_markReady (id : Id) (now : Instant) :
    Honours (terms db₀ born gone) (Orders.markReady id now) := by
  refine orders_advance id _ _ fun row => ⟨fun h => ⟨h.guestCount, h.number⟩, ?_⟩
  exact { orderKeeps_refl row with readyAt := fun _ => rfl }

lemma orders_markServed (id : Id) (now : Instant) :
    Honours (terms db₀ born gone) (Orders.markServed id now) := by
  refine orders_advance id _ _ fun row => ⟨fun h => ⟨h.guestCount, h.number⟩, ?_⟩
  exact { orderKeeps_refl row with servedAt := fun _ => rfl }

lemma orders_cancel (id : Id) (now : Instant) :
    Honours (terms db₀ born gone) (Orders.cancel id now) := by
  refine .after (Delegate.onlyLooks_found _) fun _ => .after onlyLooks_throwIf fun _ =>
    .after onlyLooks_throwIf fun _ => orders.updateSome ?_ _
  exact fun row h => ⟨fun hw => ⟨(h hw).guestCount, (h hw).number⟩,
    { orderKeeps_refl row with cancelledAt := fun _ => rfl }⟩

lemma orders_remove (id : Id) : Honours (terms db₀ born gone) (Orders.remove id) :=
  .after (Delegate.onlyLooks_found _) fun _ => .after onlyLooks_throwIf fun _ => orders.delete

/-! ### The catalog -/

lemma onlyLooks_findFirst {ρ : Type} {d : Delegate ρ} {p : ρ → Bool} {e : Error} :
    (d.findFirst p >>= fun found => throwIf found.isSome e).OnlyLooks :=
  (onlyLooks_look _).bind fun _ => onlyLooks_throwIf

lemma onlyLooks_verifyCategory (categoryId : Id) : (Products.verifyCategory categoryId).OnlyLooks :=
  Delegate.onlyLooks_findUnique.bind fun _ => onlyLooks_orThrow.bind fun _ => .done _

lemma categories_create (fold : String → String) (newId : Id)
    (dto : Categories.CreateCategoryDto) (hid : born .categories newId) :
    Honours (terms db₀ born gone) (Categories.create fold newId dto) :=
  .after (onlyLooks_look _) fun _ => .after onlyLooks_throwIf fun _ => .after (onlyLooks_look _)
    fun _ => categories.createFrom hid (fun _ hrow _ => WellFormed.category_row hrow) _

lemma categories_update (fold : String → String) (id : Id) (dto : Categories.UpdateCategoryDto) :
    Honours (terms db₀ born gone) (Categories.update fold id dto) :=
  .after (Delegate.onlyLooks_found _) fun _ =>
    .after (onlyLooks_checkSome fun _ => (onlyLooks_look _).bind fun _ => onlyLooks_throwIf)
      fun _ => categories.update (fun _ _ h ha =>
        ⟨fun hw => WellFormed.category_apply (h hw) ha, trivial⟩) _

lemma categories_updateSortOrder (id : Id) (sortOrder : ℤ) :
    Honours (terms db₀ born gone) (Categories.updateSortOrder id sortOrder) := by
  refine .after (Delegate.onlyLooks_found _) fun _ => categories.updateSome ?_ _
  exact fun _ h => ⟨fun hw => ⟨(h hw).name⟩, trivial⟩

lemma categories_remove (id : Id) : Honours (terms db₀ born gone) (Categories.remove id) :=
  categories.removeUnused (fun _ h => ⟨fun hw => ⟨(h hw).name⟩, trivial⟩) fun db h =>
    ⟨Permanent.refl db, h⟩

lemma products_create (newId : Id) (dto : Products.CreateProductDto)
    (hid : born .products newId) :
    Honours (terms db₀ born gone) (Products.create newId dto) :=
  .after (onlyLooks_look _) fun _ => .after onlyLooks_throwIf fun _ =>
    .after (onlyLooks_verifyCategory _) fun _ =>
      products.createFrom hid (fun _ hrow _ => WellFormed.product_row hrow) _

lemma products_update (id : Id) (dto : Products.UpdateProductDto) :
    Honours (terms db₀ born gone) (Products.update id dto) :=
  .after Delegate.onlyLooks_findUnique fun _ => .after onlyLooks_orThrow fun _ =>
    .after (onlyLooks_checkSome fun _ => onlyLooks_findFirst) fun _ =>
      .after (onlyLooks_checkSome fun _ => onlyLooks_verifyCategory _) fun _ =>
        products.update (fun _ _ h ha =>
          ⟨fun hw => WellFormed.product_apply (h hw) ha, trivial⟩) _

lemma products_remove (id : Id) : Honours (terms db₀ born gone) (Products.remove id) := by
  refine products.removeUnused (fun _ h => ⟨fun hw => ?_, trivial⟩) fun db h => ?_
  · exact ⟨(h hw).1, (h hw).2, (h hw).3, (h hw).4, (h hw).5, (h hw).6⟩
  · refine ((recipes.keep h fun _ r => r.productId ≠ id).trans fun h => ingredients_filter (fun i =>
      ¬ (db.recipes.find? i.recipeId).any fun r => r.productId = id) h).trans fun h => ?_
    exact productModifiers_filter (fun m => m.productId ≠ id) h

lemma modifiers_create (fold : String → String) (newId : Id) (dto : Modifiers.CreateModifierDto)
    (hid : born .modifiers newId) :
    Honours (terms db₀ born gone) (Modifiers.create fold newId dto) :=
  .after (onlyLooks_look _) fun _ => .after onlyLooks_throwIf fun _ =>
    modifiers.createFrom hid (fun _ hrow _ => WellFormed.modifier_row hrow) _

lemma modifiers_update (fold : String → String) (id : Id) (dto : Modifiers.UpdateModifierDto) :
    Honours (terms db₀ born gone) (Modifiers.update fold id dto) :=
  .after Delegate.onlyLooks_findUnique fun _ => .after onlyLooks_orThrow fun _ =>
    .after (onlyLooks_checkSome fun _ => (onlyLooks_look _).bind fun _ => onlyLooks_throwIf)
      fun _ => modifiers.update (fun _ _ h ha =>
        ⟨fun hw => WellFormed.modifier_apply (h hw) ha, trivial⟩) _

lemma modifiers_remove (id : Id) : Honours (terms db₀ born gone) (Modifiers.remove id) :=
  modifiers.removeUnused (fun _ h => ⟨fun hw => ⟨(h hw).name⟩, trivial⟩) fun _ h =>
    productModifiers_filter _ h

lemma discounts_create (newId : Id) (dto : Discounts.CreateDiscountDto)
    (hid : born .discounts newId) :
    Honours (terms db₀ born gone) (Discounts.create newId dto) :=
  .after (onlyLooks_look _) fun _ => .after onlyLooks_throwIf fun _ => .after onlyLooks_throwIf
    fun _ => .after onlyLooks_throwIf fun _ => .after onlyLooks_throwIf fun _ =>
      discounts.createFrom hid (fun _ hrow _ => WellFormed.discount_row hrow) _

lemma discounts_update (id : Id) (dto : Discounts.UpdateDiscountDto) :
    Honours (terms db₀ born gone) (Discounts.update id dto) :=
  .after (Delegate.onlyLooks_found _) fun _ =>
    .after (onlyLooks_checkSome fun _ => (onlyLooks_look _).bind fun _ => onlyLooks_throwIf)
      fun _ => .after onlyLooks_throwIf fun _ => .after onlyLooks_throwIf fun _ =>
        .after onlyLooks_throwIf fun _ => discounts.update (fun _ _ h ha =>
          ⟨fun hw => WellFormed.discount_apply (h hw) ha, trivial⟩) _

/-- Switching a discount on or off. -/
lemma discounts_switch (id : Id) (isActive : Bool) : Honours (terms db₀ born gone)
    (Discounts.findOne id >>= fun _ => discount.update id (fun row => some { row with isActive })
      fun row _ => Discounts.DiscountView.mk id row) := by
  refine .after (Delegate.onlyLooks_found _) fun _ => discounts.updateSome ?_ _
  exact fun _ h =>
    ⟨fun hw => ⟨(h hw).1, (h hw).2, (h hw).3, (h hw).4, (h hw).5⟩, trivial⟩

lemma discounts_incrementUsage (id : Id) :
    Honours (terms db₀ born gone) (Discounts.incrementUsage id) := by
  refine discounts.updateSome (fun _ h => ⟨fun hw => ?_, trivial⟩) _
  exact ⟨(h hw).1, (h hw).2, (h hw).3, (h hw).4, add_nonneg (h hw).usageCount zero_le_one⟩

lemma discounts_remove (id : Id) : Honours (terms db₀ born gone) (Discounts.remove id) :=
  .after (Delegate.onlyLooks_found _) fun _ => discounts.deleteRow fun db h =>
    ⟨Permanent.refl db, h⟩

/-! ### Inventory -/

lemma onlyLooks_verifySupplier (supplierId : Property Id) :
    (InventoryItems.verifySupplier supplierId).OnlyLooks :=
  onlyLooks_checkSome fun _ => Delegate.onlyLooks_findUnique.bind fun _ =>
    onlyLooks_orThrow.bind fun _ => .done _

lemma inventoryItems_create (newId : Id) (dto : InventoryItems.CreateInventoryItemDto)
    (hid : born .inventoryItems newId) :
    Honours (terms db₀ born gone) (InventoryItems.create newId dto) :=
  .after (onlyLooks_look _) fun _ => .after onlyLooks_throwIf fun _ =>
    .after (onlyLooks_verifySupplier _) fun _ =>
      inventoryItems.createFrom hid (fun _ hrow _ => WellFormed.inventoryItem_row hrow) _

lemma inventoryItems_update (id : Id) (dto : InventoryItems.UpdateInventoryItemDto) :
    Honours (terms db₀ born gone) (InventoryItems.update id dto) :=
  .after Delegate.onlyLooks_findUnique fun _ => .after onlyLooks_orThrow fun _ =>
    .after (onlyLooks_checkSome fun _ => onlyLooks_findFirst) fun _ =>
      .after (onlyLooks_verifySupplier _) fun _ => inventoryItems.update (fun _ _ h ha =>
        ⟨fun hw => WellFormed.inventoryItem_apply (h hw) ha, inventoryItem_apply ha⟩) _

lemma inventoryItems_remove (id : Id) :
    Honours (terms db₀ born gone) (InventoryItems.remove id) := by
  refine inventoryItems.removeUnused (fun _ h => ⟨fun hw => ?_, rfl, rfl⟩) fun db h =>
    ⟨Permanent.refl db, h⟩
  exact ⟨(h hw).1, (h hw).2, (h hw).3, (h hw).4, (h hw).5, (h hw).6⟩

lemma inventoryMovements_create (newId : Id)
    (dto : InventoryMovements.CreateInventoryMovementDto) (hid : born .inventoryMovements newId) :
    Honours (terms db₀ born gone) (InventoryMovements.create newId dto) := by
  have hwrite : Honours (terms db₀ born gone) (inventoryMovement.create newId dto.row
      (InventoryMovements.viewOf newId dto.row)) :=
    inventoryMovements.create hid (fun _ => WellFormed.movement_row dto) _
  refine .after Delegate.onlyLooks_findUnique fun _ => .after onlyLooks_orThrow fun _ => ?_
  split
  · exact .after (onlyLooks_look _) fun _ => .after onlyLooks_throwIf fun _ => hwrite
  · exact hwrite

lemma inventoryMovements_update (id : Id) (dto : InventoryMovements.UpdateInventoryMovementDto) :
    Honours (terms db₀ born gone) (InventoryMovements.update id dto) :=
  .after (Delegate.onlyLooks_found _) fun _ => inventoryMovements.update (fun _ _ h ha =>
    ⟨fun hw => WellFormed.movement_apply (h hw) ha, trivial⟩) _

lemma inventoryMovements_remove (id : Id) :
    Honours (terms db₀ born gone) (InventoryMovements.remove id) :=
  .after (Delegate.onlyLooks_found _) fun _ => inventoryMovements.delete

lemma suppliers_create (newId : Id) (dto : Suppliers.CreateSupplierDto)
    (hid : born .suppliers newId) :
    Honours (terms db₀ born gone) (Suppliers.create newId dto) :=
  .after (onlyLooks_look _) fun _ => .after onlyLooks_throwIf fun _ =>
    suppliers.create hid (fun _ => WellFormed.supplier_row dto) _

lemma suppliers_update (id : Id) (dto : Suppliers.UpdateSupplierDto) :
    Honours (terms db₀ born gone) (Suppliers.update id dto) :=
  .after Delegate.onlyLooks_findUnique fun _ => .after onlyLooks_orThrow fun _ =>
    .after (onlyLooks_checkSome fun _ => onlyLooks_findFirst) fun _ =>
      suppliers.update (fun _ _ h ha =>
        ⟨fun hw => WellFormed.supplier_apply (h hw) ha, trivial⟩) _

lemma suppliers_remove (id : Id) : Honours (terms db₀ born gone) (Suppliers.remove id) := by
  refine .after (onlyLooks_look _) fun _ => .after onlyLooks_orThrow fun _ => ?_
  split
  · refine suppliers.updateSome ?_ _
    exact fun _ h =>
      ⟨fun hw => ⟨(h hw).code, (h hw).name, (h hw).contactName, (h hw).leadTime⟩, trivial⟩
  · exact suppliers.delete.bind fun _ => honours_pure _

lemma onlyLooks_verifyIngredients (ingredients : List Recipes.RecipeIngredientDto) :
    (Recipes.verifyIngredients ingredients).OnlyLooks :=
  (onlyLooks_look _).bind fun _ => onlyLooks_throwIf

lemma recipes_create (newId : Id) (dto : Recipes.CreateRecipeDto) (hid : born .recipes newId) :
    Honours (terms db₀ born gone) (Recipes.create newId dto) := by
  have hwrite : Honours (terms db₀ born gone) (Recipes.writeCreate newId dto) := by
    refine honours_atomically fun db a db' hdb h => ?_
    split at h
    · cases h
    split at h
    · cases h
    · obtain ⟨-, rfl⟩ := Prod.mk.inj (Except.ok.inj h)
      exact (recipes.put hdb hid fun _ => WellFormed.recipe_row dto).trans fun h =>
        ingredients_append h (WellFormed.ingredient_rows newId dto.items)
  refine .after Delegate.onlyLooks_findUnique fun _ => .after onlyLooks_orThrow fun _ => ?_
  split
  · exact .after (onlyLooks_verifyIngredients _) fun _ => hwrite
  · exact hwrite

lemma recipes_deleteIngredients (id : Id) :
    Honours (terms db₀ born gone) (Recipes.deleteIngredients id) := by
  refine honours_atomically fun db a db' hdb h => ?_
  obtain ⟨-, rfl⟩ := Prod.mk.inj (Except.ok.inj h)
  exact ingredients_filter _ hdb

lemma recipes_update (id : Id) (dto : Recipes.UpdateRecipeDto) :
    Honours (terms db₀ born gone) (Recipes.update id dto) := by
  have hwrite : Honours (terms db₀ born gone) (Recipes.writeUpdate id dto) := by
    refine honours_atomically fun db a db' hdb h => ?_
    split at h
    · cases h
    rename_i row hrow
    split at h
    · cases h
    rename_i row' hrow'
    split at h
    · cases h
    · obtain ⟨-, rfl⟩ := Prod.mk.inj (Except.ok.inj h)
      refine (recipes.rewrite hdb hrow (fun hw => ?_) trivial).trans fun h =>
        ingredients_append h (WellFormed.ingredient_rows id dto.items)
      exact WellFormed.recipe_apply
        ((hdb hw).recipes row (Table.mem_values_iff.mpr ⟨id, hrow⟩)) hrow'
  refine .after Delegate.onlyLooks_findUnique fun _ => .after onlyLooks_orThrow fun _ =>
    .after ?_ fun _ => ?_
  · unfold Recipes.verifyProduct
    split
    · exact .done _
    · exact Delegate.onlyLooks_findUnique.bind fun _ => onlyLooks_orThrow.bind fun _ => .done _
  · split
    · exact .after (onlyLooks_verifyIngredients _) fun _ =>
        (recipes_deleteIngredients id).bind fun _ => hwrite
    · exact hwrite

lemma recipes_remove (id : Id) : Honours (terms db₀ born gone) (Recipes.remove id) :=
  .after Delegate.onlyLooks_findUnique fun _ => .after onlyLooks_orThrow fun _ =>
    (recipes_deleteIngredients id).bind fun _ => recipes.delete

/-! ### Shifts, registers and taxes -/

lemma shifts_create (newId : Id) (dto : Shifts.CreateShiftDto) (now : Instant)
    (hid : born .shifts newId) : Honours (terms db₀ born gone) (Shifts.create newId dto now) :=
  .after (onlyLooks_look _) fun _ => .after onlyLooks_throwIf fun _ =>
    shifts.create hid (fun _ => WellFormed.shift_row dto now) _

lemma shifts_update (id : Id) (dto : Shifts.UpdateShiftDto) :
    Honours (terms db₀ born gone) (Shifts.update id dto) :=
  .after (Delegate.onlyLooks_found _) fun _ => shifts.update (fun _ _ h ha =>
    ⟨fun hw => WellFormed.shift_apply (h hw) ha, shift_apply ha⟩) _

/-- The opening cash that a closing expects is that of a row that was stored when it was read. -/
lemma shifts_close (id : Id) (dto : Shifts.CloseShiftDto) (now : Instant) :
    Honours (terms db₀ born gone) (Shifts.close id dto now) := by
  refine shifts.found_bind fun _ hread => .after onlyLooks_throwIf fun _ =>
    shifts.updateSome (fun _ h => ⟨fun hw => ?_, ?_⟩) _
  · exact WellFormed.shift_closed dto now (hread hw) (h hw)
  · exact ⟨rfl, fun _ => rfl, fun _ => rfl⟩

lemma shifts_remove (id : Id) : Honours (terms db₀ born gone) (Shifts.remove id) :=
  .after (Delegate.onlyLooks_found _) fun _ => .after onlyLooks_throwIf fun _ => shifts.delete

lemma onlyLooks_findRegister (id : Id) : (CashRegisters.findOne id).OnlyLooks :=
  (onlyLooks_look _).bind fun _ => onlyLooks_orThrow

lemma cashRegisters_create (newId : Id) (dto : CashRegisters.CreateCashRegisterDto)
    (hid : born .cashRegisters newId) :
    Honours (terms db₀ born gone) (CashRegisters.create newId dto) :=
  cashRegisters.create hid (fun _ => WellFormed.register_row dto) _

lemma cashRegisters_update (id : Id) (dto : CashRegisters.UpdateCashRegisterDto) :
    Honours (terms db₀ born gone) (CashRegisters.update id dto) :=
  .after (onlyLooks_findRegister id) fun _ => cashRegisters.update (fun _ _ h ha =>
    ⟨fun hw => WellFormed.register_apply (h hw) ha, trivial⟩) _

lemma sum_nonneg {α : Type} {f : α → ℚ} {l : List α} (h : ∀ a ∈ l, 0 ≤ f a) :
    0 ≤ (l.map f).sum := by
  refine List.sum_nonneg fun x hx => ?_
  obtain ⟨a, ha, rfl⟩ := List.mem_map.mp hx
  exact h a ha

/-- A count of the bills, which is well-formed, is stored. -/
lemma upholds_createDenomination {row : CashDenomination} (hrow : row.WellFormed) :
    Upholds (terms db₀ born gone) (fun row => row.WellFormed)
      (CashRegisters.createDenomination row) := by
  refine upholds_atomically fun db a db' hdb h => ?_
  obtain ⟨rfl, rfl⟩ := Prod.mk.inj (Except.ok.inj h)
  refine ⟨hrow, ?_, fun hw => ?_⟩
  · exact { Permanent.refl db with denominations := fun row _ =>
      (List.sublist_append_left _ _).count_le row }
  · have hrows := List.forall_mem_append.mpr
      ⟨(hdb hw).cashDenominations, List.forall_mem_singleton.mpr hrow⟩
    exact { hdb hw with cashDenominations := hrows }

/-- What is written as counted adds up the rows of the call, which are well-formed. -/
lemma cashRegisters_recordDenominations (id : Id) (dto : CashRegisters.RecordDenominationDto) :
    Honours (terms db₀ born gone) (CashRegisters.recordDenominations id dto) := by
  refine .after (onlyLooks_findRegister id) fun _ => ?_
  have hcreates : ∀ p ∈ dto.entries.map (fun entry => if entry.2 = 0 then pure none
      else some <$> CashRegisters.createDenomination (CashRegisters.denominationRow id entry)),
      Upholds (terms db₀ born gone) (fun d => ∀ row ∈ d, row.WellFormed) p := by
    intro p hp
    obtain ⟨entry, hentry, rfl⟩ := List.mem_map.mp hp
    split
    · exact .ok nofun
    · rename_i hzero
      have hrow := WellFormed.denomination_row id (WellFormed.entry_bounds dto entry hentry) hzero
      exact (upholds_createDenomination hrow).map fun row h r hr => Option.some.inj hr ▸ h
  refine (upholds_all hcreates).bind fun created hcreated => ?_
  refine Honours.bind ?_ fun _ => honours_of_onlyLooks (onlyLooks_findRegister id)
  have htotal : 0 ≤ (created.filterMap fun d => d).foldl (fun sum d => sum + d.total) 0 := by
    rw [foldl_add_map CashDenomination.total]
    refine sum_nonneg fun row hrow => ?_
    obtain ⟨d, hd, rfl⟩ := List.mem_filterMap.mp hrow
    have hwf := hcreated _ hd row rfl
    rw [hwf.total]
    exact (mul_pos hwf.denomination hwf.count).le
  refine cashRegisters.updateSome (fun row h => ⟨fun hw => ?_, trivial⟩) _
  exact ⟨(h hw).expectedCash, fun a ha => Option.some.inj ha ▸ htotal, (h hw).totalExpenses⟩

/-- What is written as spent adds up the expenses that are stored when they are read. -/
lemma cashRegisters_recordExpense (id : Id) (dto : CashRegisters.RecordExpenseDto) :
    Honours (terms db₀ born gone) (CashRegisters.recordExpense id dto) := by
  have hcreate : Honours (terms db₀ born gone) (CashRegisters.createExpense (dto.row id)) := by
    refine honours_atomically fun db a db' hdb h => ?_
    obtain ⟨-, rfl⟩ := Prod.mk.inj (Except.ok.inj h)
    refine ⟨?_, fun hw => ?_⟩
    · exact { Permanent.refl db with expenses := fun row _ =>
        (List.sublist_append_left _ _).count_le row }
    · have hrows := List.forall_mem_append.mpr
        ⟨(hdb hw).cashExpenses, List.forall_mem_singleton.mpr (WellFormed.expense_row dto id)⟩
      exact { hdb hw with cashExpenses := hrows }
  refine .after (onlyLooks_findRegister id) fun _ => hcreate.bind fun _ =>
    upholds_look_bind fun db hdb => ?_
  refine Honours.bind ?_ fun _ => honours_of_onlyLooks (onlyLooks_findRegister id)
  refine cashRegisters.updateSome (fun row h => ⟨fun hw => ?_, trivial⟩) _
  have hspent : 0 ≤ (CashRegisters.expensesOf db id).foldl (fun sum e => sum + e.amount) 0 := by
    rw [foldl_add_map CashExpense.amount]
    exact sum_nonneg fun e he => ((hdb hw).cashExpenses e (List.mem_of_mem_filter he)).amount
  exact ⟨(h hw).expectedCash, (h hw).countedCash, fun a ha => Option.some.inj ha ▸ hspent⟩

/-- The counts and the expenses of a register go with it, and no others do. -/
lemma cashRegisters_remove (id : Id) (hgone : gone id) :
    Honours (terms db₀ born gone) (CashRegisters.remove id) := by
  have hdenominations : Honours (terms db₀ born gone) (CashRegisters.deleteDenominations id) := by
    refine honours_atomically fun db a db' hdb h => ?_
    obtain ⟨-, rfl⟩ := Prod.mk.inj (Except.ok.inj h)
    refine ⟨{ Permanent.refl db with denominations := fun row hrow => ?_ }, fun hw => ?_⟩
    · have hne : row.cashRegisterId ≠ id := fun he => hrow (by rwa [he])
      exact (List.count_filter (by simpa using hne)).ge
    · exact { hdb hw with cashDenominations := fun row hrow =>
        (hdb hw).cashDenominations row (List.mem_of_mem_filter hrow) }
  have hexpenses : Honours (terms db₀ born gone) (CashRegisters.deleteExpenses id) := by
    refine honours_atomically fun db a db' hdb h => ?_
    obtain ⟨-, rfl⟩ := Prod.mk.inj (Except.ok.inj h)
    refine ⟨{ Permanent.refl db with expenses := fun row hrow => ?_ }, fun hw => ?_⟩
    · have hne : row.cashRegisterId ≠ id := fun he => hrow (by rwa [he])
      exact (List.count_filter (by simpa using hne)).ge
    · exact { hdb hw with cashExpenses := fun row hrow =>
        (hdb hw).cashExpenses row (List.mem_of_mem_filter hrow) }
  exact .after (onlyLooks_findRegister id) fun _ => hdenominations.bind fun _ =>
    hexpenses.bind fun _ => cashRegisters.delete

lemma taxes_create (newId : Id) (dto : Taxes.CreateTaxDto) (hid : born .taxes newId) :
    Honours (terms db₀ born gone) (Taxes.create newId dto) :=
  taxes.createFrom hid (fun _ hrow _ => WellFormed.tax_row hrow) _

lemma taxes_update (id : Id) (dto : Taxes.UpdateTaxDto) :
    Honours (terms db₀ born gone) (Taxes.update id dto) :=
  .after (Delegate.onlyLooks_found _) fun _ => taxes.update (fun _ _ h ha =>
    ⟨fun hw => WellFormed.tax_apply (h hw) ha, trivial⟩) _

lemma taxes_remove (id : Id) : Honours (terms db₀ born gone) (Taxes.remove id) :=
  .after (Delegate.onlyLooks_found _) fun _ => taxes.deleteRow fun db h =>
    ⟨Permanent.refl db, h⟩

end Calls

/-! ### All services -/

variable (midnight : Instant → Instant) (fold : String → String)

/-- A call whose answer nobody waits for. -/
def unanswered {α : Type} (p : Api α) : Api Unit := (fun _ => ()) <$> p

def request : Op → Api Unit
  | .transactions (.create newId dto) => unanswered (Transactions.create newId dto)
  | .transactions (.update id dto) => unanswered (Transactions.update id dto)
  | .transactions (.cancel id) => unanswered (Transactions.cancel id)
  | .transactions (.complete id now) => unanswered (Transactions.complete id now)
  | .transactions (.remove id) => unanswered (Transactions.remove id)
  | .payments (.create newId dto) => unanswered (Payments.create newId dto)
  | .payments (.update id dto) => unanswered (Payments.update id dto)
  | .payments (.refund id now) => unanswered (Payments.refund id now)
  | .payments (.remove id) => unanswered (Payments.remove id)
  | .orders (.create newId dto now createdAt) =>
    unanswered (Orders.create midnight newId dto now createdAt)
  | .orders (.update id dto) => unanswered (Orders.update id dto)
  | .orders (.startOrder id now) => unanswered (Orders.startOrder id now)
  | .orders (.markReady id now) => unanswered (Orders.markReady id now)
  | .orders (.markServed id now) => unanswered (Orders.markServed id now)
  | .orders (.cancel id now) => unanswered (Orders.cancel id now)
  | .orders (.remove id) => unanswered (Orders.remove id)
  | .categories (.create newId dto) => unanswered (Categories.create fold newId dto)
  | .categories (.update id dto) => unanswered (Categories.update fold id dto)
  | .categories (.updateSortOrder id sortOrder) =>
    unanswered (Categories.updateSortOrder id sortOrder)
  | .categories (.remove id) => unanswered (Categories.remove id)
  | .products (.create newId dto) => unanswered (Products.create newId dto)
  | .products (.update id dto) => unanswered (Products.update id dto)
  | .products (.remove id) => unanswered (Products.remove id)
  | .modifiers (.create newId dto) => unanswered (Modifiers.create fold newId dto)
  | .modifiers (.update id dto) => unanswered (Modifiers.update fold id dto)
  | .modifiers (.remove id) => unanswered (Modifiers.remove id)
  | .discounts (.create newId dto) _ => unanswered (Discounts.create newId dto)
  | .discounts (.update id dto) _ => unanswered (Discounts.update id dto)
  | .discounts (.activate id) _ => unanswered (Discounts.activate id)
  | .discounts (.deactivate id) _ => unanswered (Discounts.deactivate id)
  | .discounts (.incrementUsage id) _ => unanswered (Discounts.incrementUsage id)
  | .discounts (.remove id) _ => unanswered (Discounts.remove id)
  | .inventoryItems (.create newId dto) => unanswered (InventoryItems.create newId dto)
  | .inventoryItems (.update id dto) => unanswered (InventoryItems.update id dto)
  | .inventoryItems (.remove id) => unanswered (InventoryItems.remove id)
  | .inventoryMovements (.create newId dto) => unanswered (InventoryMovements.create newId dto)
  | .inventoryMovements (.update id dto) => unanswered (InventoryMovements.update id dto)
  | .inventoryMovements (.remove id) => unanswered (InventoryMovements.remove id)
  | .suppliers (.create newId dto) => unanswered (Suppliers.create newId dto)
  | .suppliers (.update id dto) => unanswered (Suppliers.update id dto)
  | .suppliers (.remove id) => unanswered (Suppliers.remove id)
  | .recipes (.create newId dto) _ => unanswered (Recipes.create newId dto)
  | .recipes (.update id dto) _ => unanswered (Recipes.update id dto)
  | .recipes (.remove id) _ => unanswered (Recipes.remove id)
  | .shifts (.create newId dto now) => unanswered (Shifts.create newId dto now)
  | .shifts (.update id dto) => unanswered (Shifts.update id dto)
  | .shifts (.close id dto now) => unanswered (Shifts.close id dto now)
  | .shifts (.remove id) => unanswered (Shifts.remove id)
  | .cashRegisters (.create newId dto) => unanswered (CashRegisters.create newId dto)
  | .cashRegisters (.update id dto) => unanswered (CashRegisters.update id dto)
  | .cashRegisters (.recordDenominations id dto) =>
    unanswered (CashRegisters.recordDenominations id dto)
  | .cashRegisters (.recordExpense id dto) => unanswered (CashRegisters.recordExpense id dto)
  | .cashRegisters (.remove id) => unanswered (CashRegisters.remove id)
  | .taxes (.create newId dto) => unanswered (Taxes.create newId dto)
  | .taxes (.update id dto) => unanswered (Taxes.update id dto)
  | .taxes (.remove id) => unanswered (Taxes.remove id)

/-- Run alone, a call leaves the tables as the run of its service has it. -/
lemma exec_request (db : Db) (op : Op) :
    ((request midnight fold op).exec db).2 = Services.step midnight fold db op := by
  have hunanswered {α : Type} (p : Api α) : ((unanswered p).exec db).2 = (p.exec db).2 := by
    show ((p >>= fun _ => pure ()).exec db).2 = _
    rw [exec_bind]
    rcases p.exec db with ⟨e | a, db'⟩ <;> rfl
  cases op with
  | discounts op _ => cases op <;> exact hunanswered _
  | recipes op _ => cases op <;> exact hunanswered _
  | _ op => cases op <;> exact hunanswered _

/-- The table and the id of the row that a call would create. -/
def creates : Op → Option (TableName × Id)
  | .transactions (.create newId _) => some (.transactions, newId)
  | .payments (.create newId _) => some (.payments, newId)
  | .orders (.create newId _ _ _) => some (.orders, newId)
  | .categories (.create newId _) => some (.categories, newId)
  | .products (.create newId _) => some (.products, newId)
  | .modifiers (.create newId _) => some (.modifiers, newId)
  | .discounts (.create newId _) _ => some (.discounts, newId)
  | .inventoryItems (.create newId _) => some (.inventoryItems, newId)
  | .inventoryMovements (.create newId _) => some (.inventoryMovements, newId)
  | .suppliers (.create newId _) => some (.suppliers, newId)
  | .recipes (.create newId _) _ => some (.recipes, newId)
  | .shifts (.create newId _ _) => some (.shifts, newId)
  | .cashRegisters (.create newId _) => some (.cashRegisters, newId)
  | .taxes (.create newId _) => some (.taxes, newId)
  | _ => none

/-- The register that a call would remove. -/
def removes : Op → Option Id
  | .cashRegisters (.remove id) => some id
  | _ => none

/-- **One call.** A call keeps to the terms, as long as those that come between do. -/
lemma honours_request {db₀ : Db} {born : TableName → Id → Prop} {gone : Id → Prop} (op : Op)
    (hborn : ∀ name id, creates op = some (name, id) → born name id)
    (hgone : ∀ id, removes op = some id → gone id) :
    Honours (terms db₀ born gone) (request midnight fold op) := by
  cases op with
  | transactions op =>
    cases op with
    | create newId dto => exact (transactions_create newId dto (hborn _ _ rfl)).map _
    | update id dto => exact (transactions_update id dto).map _
    | cancel id => exact (transactions_cancel id).map _
    | complete id now => exact (transactions_complete id now).map _
    | remove id => exact (transactions_remove id).map _
  | payments op =>
    cases op with
    | create newId dto => exact (payments_create newId dto (hborn _ _ rfl)).map _
    | update id dto => exact (payments_update id dto).map _
    | refund id now => exact (payments_refund id now).map _
    | remove id => exact (payments_remove id).map _
  | orders op =>
    cases op with
    | create newId dto now createdAt =>
      exact (orders_create midnight newId dto now createdAt (hborn _ _ rfl)).map _
    | update id dto => exact (orders_update id dto).map _
    | startOrder id now => exact (orders_startOrder id now).map _
    | markReady id now => exact (orders_markReady id now).map _
    | markServed id now => exact (orders_markServed id now).map _
    | cancel id now => exact (orders_cancel id now).map _
    | remove id => exact (orders_remove id).map _
  | categories op =>
    cases op with
    | create newId dto => exact (categories_create fold newId dto (hborn _ _ rfl)).map _
    | update id dto => exact (categories_update fold id dto).map _
    | updateSortOrder id sortOrder => exact (categories_updateSortOrder id sortOrder).map _
    | remove id => exact (categories_remove id).map _
  | products op =>
    cases op with
    | create newId dto => exact (products_create newId dto (hborn _ _ rfl)).map _
    | update id dto => exact (products_update id dto).map _
    | remove id => exact (products_remove id).map _
  | modifiers op =>
    cases op with
    | create newId dto => exact (modifiers_create fold newId dto (hborn _ _ rfl)).map _
    | update id dto => exact (modifiers_update fold id dto).map _
    | remove id => exact (modifiers_remove id).map _
  | discounts op _ =>
    cases op with
    | create newId dto => exact (discounts_create newId dto (hborn _ _ rfl)).map _
    | update id dto => exact (discounts_update id dto).map _
    | activate id => exact (discounts_switch id true).map _
    | deactivate id => exact (discounts_switch id false).map _
    | incrementUsage id => exact (discounts_incrementUsage id).map _
    | remove id => exact (discounts_remove id).map _
  | inventoryItems op =>
    cases op with
    | create newId dto => exact (inventoryItems_create newId dto (hborn _ _ rfl)).map _
    | update id dto => exact (inventoryItems_update id dto).map _
    | remove id => exact (inventoryItems_remove id).map _
  | inventoryMovements op =>
    cases op with
    | create newId dto => exact (inventoryMovements_create newId dto (hborn _ _ rfl)).map _
    | update id dto => exact (inventoryMovements_update id dto).map _
    | remove id => exact (inventoryMovements_remove id).map _
  | suppliers op =>
    cases op with
    | create newId dto => exact (suppliers_create newId dto (hborn _ _ rfl)).map _
    | update id dto => exact (suppliers_update id dto).map _
    | remove id => exact (suppliers_remove id).map _
  | recipes op _ =>
    cases op with
    | create newId dto => exact (recipes_create newId dto (hborn _ _ rfl)).map _
    | update id dto => exact (recipes_update id dto).map _
    | remove id => exact (recipes_remove id).map _
  | shifts op =>
    cases op with
    | create newId dto now => exact (shifts_create newId dto now (hborn _ _ rfl)).map _
    | update id dto => exact (shifts_update id dto).map _
    | close id dto now => exact (shifts_close id dto now).map _
    | remove id => exact (shifts_remove id).map _
  | cashRegisters op =>
    cases op with
    | create newId dto => exact (cashRegisters_create newId dto (hborn _ _ rfl)).map _
    | update id dto => exact (cashRegisters_update id dto).map _
    | recordDenominations id dto => exact (cashRegisters_recordDenominations id dto).map _
    | recordExpense id dto => exact (cashRegisters_recordExpense id dto).map _
    | remove id => exact (cashRegisters_remove id (hgone _ rfl)).map _
  | taxes op =>
    cases op with
    | create newId dto => exact (taxes_create newId dto (hborn _ _ rfl)).map _
    | update id dto => exact (taxes_update id dto).map _
    | remove id => exact (taxes_remove id).map _

variable {ι : Type} [DecidableEq ι]

/-- Whatever its calls create or remove, a call of the API keeps the rows well-formed. -/
lemma honours_anything (db : Db) (op : Op) :
    Honours (terms db (fun _ _ => True) fun _ => True) (request midnight fold op) :=
  honours_request midnight fold op (fun _ _ _ => trivial) fun _ _ => trivial

lemma always_wellFormed {db : Db} (ops : ι → Op) (h0 : db.WellFormed) (is : List ι) :
    Always Pool.step (fun q => q.store.WellFormed)
      ⟨db, fun i => request midnight fold (ops i)⟩ is := by
  have hpool := always_upheld (p := ⟨db, fun i => request midnight fold (ops i)⟩)
    (D := fun _ => terms db (fun _ _ => True) fun _ => True)
    (fun i => honours_anything midnight fold db (ops i)) (fun h => h) is
  exact hpool.imp fun _ h => h h0

/-- A morning whose calls do not wait for each other. -/
def morning : Fin 5 → Op
  | 0 => .shifts (.create "early" { openingCash := .ofNat 80, userId := "ana", locationId := "bar",
                                    organizationId := "shop" } 6)
  | 1 => .shifts (.close "early" { closingCash := .ofNat 90, closingCard := .ofNat 40,
                                   closingTransfers := .least _, closingOther := .least _ } 14)
  | 2 => .cashRegisters (.create "till" { shiftId := "early", expectedCash := .ofNat 80,
                                          locationId := "bar", organizationId := "shop" })
  | 3 => .cashRegisters (.recordExpense "till" { amount := .ofNat 15, description := "milk" })
  | 4 => .orders (.create "first" { type := .takeOut } 7 8)

end CoffeeOs.AnyOrder
