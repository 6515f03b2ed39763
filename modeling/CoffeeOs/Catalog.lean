import CoffeeOs.Categories
import CoffeeOs.InventoryItems
import CoffeeOs.Products
import CoffeeOs.RecipeItems

/-!
The catalog: categories, products, recipes and the items they are made of.

Four services write its tables. Each checks what a row of its own refers to, deletes only what it
counts as unused, and leaves the rest to the cascades; together they keep every reference whole
without the database having to refuse anything.
-/

namespace CoffeeOs.Catalog

open CoffeeOs.KeyedTable CoffeeOs.Payload CoffeeOs.Runs CoffeeOs.Schema

variable {fold : String → String} {db : Db} {id : Id}

inductive Op
  | categories (op : Categories.Op)
  | products (op : Products.Op)
  | recipes (op : Recipes.Op) (validated : op.Validated)
  | inventoryItems (op : InventoryItems.Op)

/-- The tables after a call that runs alone. -/
def step (fold : String → String) (db : Db) : Op → Db
  | .categories op => Categories.step fold db op
  | .products op => Products.step db op
  | .recipes op _ => Recipes.step db op
  | .inventoryItems op => InventoryItems.step db op

/-- Each row of the catalog refers to stored rows. -/
structure Linked (db : Db) : Prop where
  productCategory : Table.Refers (fun p : Product => some p.categoryId) db.products.values
    db.categories
  recipeProduct : Table.Refers (fun r : Recipe => some r.productId) db.recipes.values db.products
  ingredientRecipe : Table.Refers (fun i : RecipeIngredient => some i.recipeId)
    db.recipeIngredients db.recipes
  ingredientItem : Table.Refers (fun i : RecipeIngredient => some i.inventoryItemId)
    db.recipeIngredients db.inventoryItems

/-! ### Categories -/

lemma linked_categories (op : Categories.Op) (h : Linked db) :
    Linked (Categories.step fold db op) := by
  have hcategory : Table.Refers (fun p : Product => some p.categoryId) db.products.values
      (Categories.step fold db op).categories := by
    intro p hp k hk
    refine (Categories.stored_step_iff op (h.productCategory p hp k hk)).mpr fun _ => ?_
    exact Categories.countProducts_pos_iff.mpr ⟨p, hp, Option.some.inj hk⟩
  rw [Categories.step_frame]
  exact ⟨hcategory, h.recipeProduct, h.ingredientRecipe, h.ingredientItem⟩

/-! ### Products -/

lemma linked_put_product {row : Product} (h : Linked db)
    (hrow : (db.categories.find? row.categoryId).isSome) :
    Linked { db with products := db.products.put id row } where
  productCategory := h.productCategory.put fun _ hk => Option.some.inj hk ▸ hrow
  recipeProduct := h.recipeProduct.put_parent
  ingredientRecipe := h.ingredientRecipe
  ingredientItem := h.ingredientItem

/-- With a product go its recipes, and with these their ingredients. -/
lemma linked_cascade (h : Linked db) :
    Linked (Products.cascade id { db with products := db.products.erase id }) where
  productCategory := h.productCategory.mono fun _ hp => Table.of_mem_values_erase hp
  recipeProduct := by
    refine (h.recipeProduct.mono fun r hr => Table.of_mem_values_keep hr).erase_parent ?_
    intro r hr he
    obtain ⟨e, hmem, rfl⟩ := List.mem_map.mp hr
    have hne := (List.mem_filter.mp hmem).2
    exact of_decide_eq_true hne (Option.some.inj he)
  ingredientRecipe := by
    intro i hi k hk
    obtain rfl : i.recipeId = k := Option.some.inj hk
    obtain ⟨hi, hnot⟩ := List.mem_filter.mp hi
    obtain ⟨r, hr⟩ := Option.isSome_iff_exists.mp (h.ingredientRecipe i hi _ rfl)
    show ((db.recipes.keep fun _ r => r.productId ≠ id).find? i.recipeId).isSome
    rw [Table.find?_keep, hr]
    have hproduct : r.productId ≠ id := by
      intro he
      simp [hr, he] at hnot
    simp [Option.filter, hproduct]
  ingredientItem := h.ingredientItem.mono fun _ hi => List.mem_of_mem_filter hi

lemma linked_products (op : Products.Op) (h : Linked db) : Linked (Products.step db op) := by
  have houtcome : Products.Outcome db op (Products.step db op) := Products.step_outcome op
  generalize Products.step db op = db' at houtcome ⊢
  cases houtcome with
  | kept => exact h
  | created hchecked _ hrow =>
    refine linked_put_product h ?_
    rw [Products.row_categoryId hrow]
    exact hchecked.2
  | @updated id dto row row' hrow _ hcategory ha =>
    refine linked_put_product h ?_
    rcases Products.apply_categoryId ha with hold | ⟨k, hk, hnew⟩
    · rw [hold]
      exact h.productCategory row (Table.mem_values_iff.mpr ⟨id, hrow⟩) _ rfl
    · rw [hnew]
      exact hcategory k (by rw [hk]; rfl)
  | @retired id row hrow =>
    exact linked_put_product h
      (h.productCategory row (Table.mem_values_iff.mpr ⟨id, hrow⟩) _ rfl)
  | removed => exact linked_cascade h

/-! ### Recipes -/

lemma refers_ingredientRows {items : List Recipes.RecipeIngredientDto}
    (hv : Recipes.Verified db items) :
    Table.Refers (fun i : RecipeIngredient => some i.inventoryItemId)
      (Recipes.ingredientRows id items) db.inventoryItems := by
  intro i hi k hk
  obtain ⟨item, hitem, rfl⟩ := List.mem_map.mp hi
  rw [← Option.some.inj hk]
  exact (Recipes.verified_iff.mp hv).2 _ (List.mem_map_of_mem hitem)

lemma recipeProduct_step {op : Recipes.Op} (hop : op.Validated) (h : Linked db) :
    Table.Refers (fun r : Recipe => some r.productId) (Recipes.step db op).recipes.values
      db.products := by
  have houtcome : Recipes.Outcome db op (Recipes.step db op) := Recipes.step_outcome op
  generalize Recipes.step db op = db' at houtcome ⊢
  cases houtcome with
  | kept => exact h.recipeProduct
  | created product => exact h.recipeProduct.put fun _ hk => Option.some.inj hk ▸ product
  | cleared => exact h.recipeProduct
  | @updated id dto row row' stored product verified applied =>
    refine h.recipeProduct.put fun k hk => ?_
    obtain rfl : row'.productId = k := Option.some.inj hk
    rcases Recipes.apply_productId applied with hold | hnew
    · rw [hold]
      exact h.recipeProduct row (Table.mem_values_iff.mpr ⟨id, stored⟩) _ rfl
    · -- the new product is looked up, since its id is not empty
      have hne : row'.productId ≠ "" := fun he => hop (by rw [hnew, he])
      refine product _ ?_
      rw [hnew]
      simp [Property.toOption, Option.filter, hne]
  | removed => exact h.recipeProduct.mono fun _ hr => Table.of_mem_values_erase hr

lemma ingredientItem_step (op : Recipes.Op) (h : Linked db) :
    Table.Refers (fun i : RecipeIngredient => some i.inventoryItemId)
      (Recipes.step db op).recipeIngredients db.inventoryItems := by
  have hkept {id : Id} {dto : Recipes.UpdateRecipeDto} :
      Table.Refers (fun i : RecipeIngredient => some i.inventoryItemId)
        (Recipes.keptIngredients db id dto) db.inventoryItems :=
    h.ingredientItem.mono fun _ hi => RecipeItems.mem_of_mem_keptIngredients hi
  have houtcome : Recipes.Outcome db op (Recipes.step db op) := Recipes.step_outcome op
  generalize Recipes.step db op = db' at houtcome ⊢
  cases houtcome with
  | kept => exact h.ingredientItem
  | created _ verified => exact h.ingredientItem.append (refers_ingredientRows verified)
  | cleared => exact hkept
  | updated _ _ verified => exact hkept.append (refers_ingredientRows verified)
  | removed => exact h.ingredientItem.mono fun _ hi => List.mem_of_mem_filter hi

lemma linked_recipes {op : Recipes.Op} (hop : op.Validated) (h : Linked db) :
    Linked (Recipes.step db op) := by
  have hfound : RecipeItems.RecipesFound db := fun i hi => h.ingredientRecipe i hi _ rfl
  have hproduct := recipeProduct_step hop h
  have hrecipe := RecipeItems.recipesFound_step op hfound
  have hitem := ingredientItem_step op h
  rw [Recipes.step_frame] at hrecipe ⊢
  exact ⟨h.productCategory, hproduct, fun i hi _ hk => Option.some.inj hk ▸ hrecipe i hi, hitem⟩

/-! ### Inventory items -/

lemma linked_inventoryItems (op : InventoryItems.Op) (h : Linked db) :
    Linked (InventoryItems.step db op) := by
  have hitem : Table.Refers (fun i : RecipeIngredient => some i.inventoryItemId)
      db.recipeIngredients (InventoryItems.step db op).inventoryItems := by
    intro i hi k hk
    refine (InventoryItems.stored_step_iff op (h.ingredientItem i hi k hk)).mpr fun _ => Or.inl ?_
    exact InventoryItems.countRecipeIngredients_pos_iff.mpr ⟨i, hi, Option.some.inj hk⟩
  rw [InventoryItems.step_frame]
  exact ⟨h.productCategory, h.recipeProduct, h.ingredientRecipe, hitem⟩

/-! ### Runs of the four services -/

lemma linked_step (op : Op) (h : Linked db) : Linked (step fold db op) := by
  cases op with
  | categories op => exact linked_categories op h
  | products op => exact linked_products op h
  | recipes op hop => exact linked_recipes hop h
  | inventoryItems op => exact linked_inventoryItems op h

/-- **References stay whole.** In every run of the four services, however their calls are mixed,
every product's category, every recipe's product and every ingredient's recipe and item are
stored, by the checks of the services and the cascades alone. -/
theorem references_stored (fold : String → String) (db : Db) (ops : List Op) (h0 : Linked db) :
    Always (step fold) Linked db ops :=
  always_of_step (fun _ op h => linked_step op h) h0

lemma linked_empty : Linked ∅ :=
  ⟨Table.refers_nil, Table.refers_nil, Table.refers_nil, Table.refers_nil⟩

/-- A recipe is made, and then the product, its category and its item are removed. -/
def seasonal : List Op :=
  [.categories (.create "coffee" { name := ⟨"Coffee", by decide⟩ }),
   .products (.create "latte" { categoryId := ⟨"coffee", by decide⟩, sku := ⟨"LATTE", by decide⟩,
                                name := ⟨"Latte", by decide⟩, price := .ofNat 45 }),
   .inventoryItems (.create "milk" { code := ⟨"MILK", by decide⟩, name := ⟨"Milk", by decide⟩,
                                     unitOfMeasure := ⟨"ml", by decide⟩ }),
   .recipes (.create "recipe" { productId := "latte", name := "Latte",
                                ingredients := .val [⟨"milk", .ofNat 200, "ml"⟩] }) trivial,
   .inventoryItems (.remove "milk"), .categories (.remove "coffee"), .products (.remove "latte"),
   .categories (.remove "coffee")]

theorem seasonal_references_stored : Always (step String.toLower) Linked ∅ seasonal :=
  references_stored String.toLower ∅ seasonal linked_empty

end CoffeeOs.Catalog
