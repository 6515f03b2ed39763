import CoffeeOs.Categories
import CoffeeOs.InventoryItems
import CoffeeOs.Modifiers
import CoffeeOs.Products
import CoffeeOs.Suppliers

/-!
Hard deletes and the foreign keys of the schema.

Five services choose between the soft and the hard delete of a row by counting the rows that
depend on it. The schema says which rows those are: the ones that refer to it by a relation that is
required and does not cascade, for which the database would refuse the delete.
-/

namespace CoffeeOs.HardDeletes

open CoffeeOs.KeyedTable CoffeeOs.Requests.Request CoffeeOs.Schema

/-- What the five services remove. -/
inductive Entity | category | product | modifier | inventoryItem | supplier

/-- The relations that the schema declares to one of these, by the row that has the column. -/
inductive Relation
  | productCategory
  | productModifierProduct
  | productModifierModifier
  | recipeProduct
  | inventoryItemSupplier
  | recipeIngredientInventoryItem
  | inventoryMovementInventoryItem
  | purchaseOrderSupplier
  | goodsReceiptInventoryItem
  | ticketLineProduct
  | ticketLineModifierModifier

namespace Relation

/-- What the relation refers to. -/
def entity : Relation → Entity
  | productCategory => .category
  | productModifierProduct => .product
  | productModifierModifier => .modifier
  | recipeProduct => .product
  | inventoryItemSupplier => .supplier
  | recipeIngredientInventoryItem => .inventoryItem
  | inventoryMovementInventoryItem => .inventoryItem
  | purchaseOrderSupplier => .supplier
  | goodsReceiptInventoryItem => .inventoryItem
  | ticketLineProduct => .product
  | ticketLineModifierModifier => .modifier

/-- An item need not have a supplier. -/
def required : Relation → Bool
  | inventoryItemSupplier => false
  | _ => true

/-- `onDelete: Cascade`. -/
def cascades : Relation → Bool
  | productModifierProduct => true
  | productModifierModifier => true
  | recipeProduct => true
  | _ => false

/-- The column of the relation, row by row. -/
def column (db : Db) : Relation → List (Option Id)
  | productCategory => db.products.values.map fun p => some p.categoryId
  | productModifierProduct => db.productModifiers.map fun m => some m.productId
  | productModifierModifier => db.productModifiers.map fun m => some m.modifierId
  | recipeProduct => db.recipes.values.map fun r => some r.productId
  | inventoryItemSupplier => db.inventoryItems.values.map fun i => i.supplierId
  | recipeIngredientInventoryItem => db.recipeIngredients.map fun i => some i.inventoryItemId
  | inventoryMovementInventoryItem => db.inventoryMovements.values.map fun m =>
    some m.inventoryItemId
  | purchaseOrderSupplier => db.purchaseOrders.map fun o => some o.supplierId
  | goodsReceiptInventoryItem => db.goodsReceipts.map fun g => some g.inventoryItemId
  | ticketLineProduct => db.ticketLines.map fun l => some l.productId
  | ticketLineModifierModifier => db.ticketLineModifiers.map fun m => some m.modifierId

end Relation

/-- Some row refers to the entity by a required relation without a cascade. -/
def Restricted (db : Db) (id : Id) (e : Entity) : Prop :=
  ∃ r : Relation, r.entity = e ∧ r.required ∧ ¬ r.cascades ∧ some id ∈ r.column db

def stored (db : Db) (id : Id) : Entity → Bool
  | .category => (db.categories.find? id).isSome
  | .product => (db.products.find? id).isSome
  | .modifier => (db.modifiers.find? id).isSome
  | .inventoryItem => (db.inventoryItems.find? id).isSome
  | .supplier => (db.suppliers.find? id).isSome

/-- The tables after the removal by the service of the entity, without a database that refuses. -/
def remove (db : Db) (id : Id) : Entity → Db
  | .category => ((Categories.remove id).exec db).2
  | .product => ((Products.remove id).exec db).2
  | .modifier => ((Modifiers.remove id).exec db).2
  | .inventoryItem => ((InventoryItems.remove id).exec db).2
  | .supplier => ((Suppliers.remove id).exec db).2

/-- The removal reaches its hard delete. -/
def Deletes (db : Db) (id : Id) (e : Entity) : Prop :=
  stored db id e ∧ ¬ stored (remove db id e) id e

/-- An item or a supplier that is unused as its service counts is not named by a goods receipt or
a purchase order either. -/
def CountsAll (db : Db) (id : Id) : Entity → Prop
  | .inventoryItem => (db.inventoryItems.find? id).isSome →
    InventoryItems.countRecipeIngredients db id = 0 → InventoryItems.countMovements db id = 0 →
      ∀ g ∈ db.goodsReceipts, g.inventoryItemId ≠ id
  | .supplier => (db.suppliers.find? id).isSome → Suppliers.countInventoryItems db id = 0 →
    ∀ o ∈ db.purchaseOrders, o.supplierId ≠ id
  | _ => True

variable {db : Db} {id : Id}

/-! ### What a removal deletes -/

/-- The service counts the entity as used. -/
def Used (db : Db) (id : Id) : Entity → Prop
  | .category => Categories.countProducts db id > 0
  | .product => Products.countTicketLines db id > 0
  | .modifier =>
    Modifiers.countProducts db id > 0 ∨ Modifiers.countTicketLineModifiers db id > 0
  | .inventoryItem =>
    InventoryItems.countRecipeIngredients db id > 0 ∨ InventoryItems.countMovements db id > 0
  | .supplier => Suppliers.countInventoryItems db id > 0

lemma stored_remove_iff {e : Entity} (h : stored db id e) :
    stored (remove db id e) id e ↔ Used db id e := by
  cases e with
  | category =>
    exact (Delegate.stored_removeUnused_iff (d := category) (fun db => db) (fun _ _ => rfl)
      (fun _ => rfl) h).trans ((forall_prop_of_true rfl).trans decide_eq_true_iff)
  | product =>
    exact (Delegate.stored_removeUnused_iff (d := product) (Products.cascade id) (fun _ _ => rfl)
      (fun _ => rfl) h).trans ((forall_prop_of_true rfl).trans decide_eq_true_iff)
  | modifier =>
    exact (Delegate.stored_removeUnused_iff (d := modifier) (Modifiers.cascade id) (fun _ _ => rfl)
      (fun _ => rfl) h).trans ((forall_prop_of_true rfl).trans decide_eq_true_iff)
  | inventoryItem =>
    exact (Delegate.stored_removeUnused_iff (d := inventoryItem) (fun db => db) (fun _ _ => rfl)
      (fun _ => rfl) h).trans ((forall_prop_of_true rfl).trans decide_eq_true_iff)
  | supplier =>
    obtain ⟨row, hrow⟩ := Option.isSome_iff_exists.mp h
    show ((((Suppliers.remove id).exec db).2.suppliers.find? id).isSome ↔ _)
    rw [Suppliers.exec_remove, hrow]
    dsimp only
    by_cases hcount : Suppliers.countInventoryItems db id > 0
    · rw [if_pos hcount]
      simp [Used, hcount]
    · rw [if_neg hcount]
      simp [Used, hcount]

lemma deletes_iff {e : Entity} : Deletes db id e ↔ stored db id e ∧ ¬ Used db id e :=
  and_congr_right fun h => not_congr (stored_remove_iff h)

/-! ### What restricts a delete -/

/-- The relations that restrict the deletion of each, read off the schema. -/
def restricting : Entity → List Relation
  | .category => [.productCategory]
  | .product => [.ticketLineProduct]
  | .modifier => [.ticketLineModifierModifier]
  | .inventoryItem =>
    [.recipeIngredientInventoryItem, .inventoryMovementInventoryItem, .goodsReceiptInventoryItem]
  | .supplier => [.purchaseOrderSupplier]

lemma mem_restricting_iff {r : Relation} {e : Entity} :
    r ∈ restricting e ↔ r.entity = e ∧ r.required ∧ ¬ r.cascades := by
  cases e <;> cases r <;> simp [restricting, Relation.entity, Relation.required, Relation.cascades]

lemma restricted_iff {e : Entity} :
    Restricted db id e ↔ ∃ r ∈ restricting e, some id ∈ r.column db := by
  simp only [Restricted, mem_restricting_iff, and_assoc]

lemma restricted_category_iff : Restricted db id .category ↔ Used db id .category := by
  rw [restricted_iff, Used, Categories.countProducts_pos_iff]
  simp [restricting, Relation.column]

lemma restricted_product_iff : Restricted db id .product ↔ Used db id .product := by
  simp [restricted_iff, restricting, Relation.column, Used, Products.countTicketLines]

lemma restricted_modifier_iff :
    Restricted db id .modifier ↔ Modifiers.countTicketLineModifiers db id > 0 := by
  simp [restricted_iff, restricting, Relation.column, Modifiers.countTicketLineModifiers]

lemma restricted_inventoryItem_iff : Restricted db id .inventoryItem ↔
    Used db id .inventoryItem ∨ ∃ g ∈ db.goodsReceipts, g.inventoryItemId = id := by
  rw [restricted_iff, Used, InventoryItems.countRecipeIngredients_pos_iff,
    InventoryItems.countMovements_pos_iff]
  simp [restricting, Relation.column, or_assoc]

lemma restricted_supplier_iff :
    Restricted db id .supplier ↔ ∃ o ∈ db.purchaseOrders, o.supplierId = id := by
  simp [restricted_iff, restricting, Relation.column]

/-! ### What the removals leave to the database -/

/-- **Hard deletes.** A removal that reaches its hard delete is not restricted by a foreign key,
exactly if the service counts all there is to count: always for categories, products and
modifiers, but for items only without goods receipts and for suppliers without purchase orders. -/
theorem hardDelete_unrestricted_iff (e : Entity) (db : Db) (id : Id) :
    (Deletes db id e → ¬ Restricted db id e) ↔ CountsAll db id e := by
  rw [deletes_iff, and_imp]
  cases e with
  | category =>
    exact iff_of_true (fun _ hunused hr => hunused (restricted_category_iff.mp hr)) trivial
  | product =>
    exact iff_of_true (fun _ hunused hr => hunused (restricted_product_iff.mp hr)) trivial
  | modifier =>
    exact iff_of_true (fun _ hunused hr => hunused (Or.inr (restricted_modifier_iff.mp hr))) trivial
  | inventoryItem =>
    refine imp_congr_right fun _ => ?_
    rw [restricted_inventoryItem_iff]
    simp only [Used, gt_iff_lt, Nat.pos_iff_ne_zero, not_or, not_not, and_imp, not_exists, not_and]
    exact ⟨fun h hi hm => (h hi hm).2, fun h hi hm => ⟨⟨hi, hm⟩, h hi hm⟩⟩
  | supplier =>
    refine imp_congr_right fun _ => ?_
    rw [restricted_supplier_iff]
    simp only [Used, gt_iff_lt, Nat.pos_iff_ne_zero, not_not, not_exists, not_and]

/-- Beans that were received from a supplier by a purchase order. -/
def received : Db where
  inventoryItems := (∅ : Table Id InventoryItem).put "beans"
    { code := "BEANS", name := "Beans", unitOfMeasure := "kg" }
  suppliers := (∅ : Table Id Supplier).put "farm" { code := "FARM", name := "Farm" }
  purchaseOrders := [⟨"farm"⟩]
  goodsReceipts := [⟨"beans"⟩]

/-- The services would delete both the beans and the supplier, and the database refuses. -/
theorem hardDelete_restricted :
    ¬ (Deletes received "beans" .inventoryItem → ¬ Restricted received "beans" .inventoryItem) ∧
    ¬ (Deletes received "farm" .supplier → ¬ Restricted received "farm" .supplier) := by
  refine ⟨fun h => h ?_ ?_, fun h => h ?_ ?_⟩
  · exact ⟨rfl, by decide +kernel⟩
  · exact ⟨.goodsReceiptInventoryItem, rfl, rfl, by decide, List.mem_singleton_self _⟩
  · exact ⟨rfl, by decide +kernel⟩
  · exact ⟨.purchaseOrderSupplier, rfl, rfl, by decide, List.mem_singleton_self _⟩

end CoffeeOs.HardDeletes
