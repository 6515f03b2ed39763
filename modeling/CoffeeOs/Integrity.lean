import CoffeeOs.Belongings
import CoffeeOs.Catalog
import CoffeeOs.Names
import CoffeeOs.Services

/-!
What no call of the API can break.

Each of these properties is kept by the services whose tables it is about, and the other services
leave these tables alone. So it holds throughout every run of the whole API, in whatever order the
calls of the services come.
-/

namespace CoffeeOs.Integrity

open CoffeeOs.Belongings CoffeeOs.KeyedTable CoffeeOs.Payload CoffeeOs.Runs CoffeeOs.Schema
open CoffeeOs.Services
open CoffeeOs.Codes (CodesUnique)
open CoffeeOs.Names (NamesUnique)

variable {midnight : Instant → Instant} {fold : String → String} {db : Db}

/-! ### Codes -/

lemma reads_codesUnique :
    Reads CodesUnique [.products, .inventoryItems, .suppliers, .discounts] := by
  intro db db' hsame h
  simp only [List.forall_mem_cons, SameAt] at hsame
  obtain ⟨hproducts, hitems, hsuppliers, hdiscounts, -⟩ := hsame
  exact ⟨hproducts ▸ h.products, hitems ▸ h.inventoryItems, hsuppliers ▸ h.suppliers,
    hdiscounts ▸ h.discounts⟩

lemma codesUnique_step (op : Op) (h : CodesUnique db) :
    CodesUnique (step midnight fold db op) := by
  cases op with
  | products op =>
    have hproducts := Codes.products_step op h.products
    rw [step, Products.step_frame]
    exact ⟨hproducts, h.inventoryItems, h.suppliers, h.discounts⟩
  | inventoryItems op =>
    have hitems := Codes.inventoryItems_step op h.inventoryItems
    rw [step, InventoryItems.step_frame]
    exact ⟨h.products, hitems, h.suppliers, h.discounts⟩
  | suppliers op =>
    have hsuppliers := Codes.suppliers_step op h.suppliers
    rw [step, Suppliers.step_frame]
    exact ⟨h.products, h.inventoryItems, hsuppliers, h.discounts⟩
  | discounts op hv =>
    have hdiscounts := Codes.discounts_step hv h.discounts
    rw [step, Discounts.step_frame]
    exact ⟨h.products, h.inventoryItems, h.suppliers, hdiscounts⟩
  | _ => exact reads_codesUnique.step (by simp [Op.writes]) h

/-- **Codes are unique.** In every run of the API no two products share a SKU, and no two items,
suppliers or discounts a code, by the checks of the services alone. -/
theorem codes_unique (midnight : Instant → Instant) (fold : String → String) (db : Db)
    (ops : List Op) (h0 : CodesUnique db) : Always (step midnight fold) CodesUnique db ops :=
  always_of_step (fun _ op h => codesUnique_step op h) h0

/-! ### Suppliers of items -/

lemma reads_supplied : Reads Supplied [.inventoryItems, .suppliers] := by
  intro db db' hsame h
  simp only [List.forall_mem_cons, SameAt] at hsame
  obtain ⟨hitems, hsuppliers, -⟩ := hsame
  unfold Supplied
  rw [hitems, hsuppliers]
  exact h

lemma supplied_step (op : Op) (h : Supplied db) : Supplied (step midnight fold db op) := by
  cases op with
  | inventoryItems op => exact supplied_inventoryItems op h
  | suppliers op => exact supplied_suppliers op h
  | _ => exact reads_supplied.step (by simp [Op.writes]) h

/-- **Suppliers stay.** In every run of the API the supplier that an item names is stored: it is
looked up when it is named, and it is not deleted while it is. -/
theorem supplied_always (midnight : Instant → Instant) (fold : String → String) (db : Db)
    (ops : List Op) (h0 : Supplied db) : Always (step midnight fold) Supplied db ops :=
  always_of_step (fun _ op h => supplied_step op h) h0

/-! ### Rows with an owner -/

lemma reads_owned : Reads Owned
    [.lineItems, .transactions, .cashDenominations, .cashExpenses, .cashRegisters] := by
  intro db db' hsame h
  simp only [List.forall_mem_cons, SameAt] at hsame
  obtain ⟨hlines, htransactions, hcounts, hexpenses, hregisters, -⟩ := hsame
  refine ⟨?_, ?_, ?_⟩
  · rw [hlines, htransactions]
    exact h.lineItems
  · unfold CashSummaries.RowsStored
    rw [hcounts, hregisters]
    exact h.denominations
  · rw [hexpenses, hregisters]
    exact h.expenses

lemma owned_step (op : Op) (h : Owned db) : Owned (step midnight fold db op) := by
  cases op with
  | transactions op => exact owned_transactions op h
  | cashRegisters op => exact owned_cashRegisters op h
  | _ => exact reads_owned.step (by simp [Op.writes]) h

/-- **No orphans.** In every run of the API each line item belongs to a stored transaction, and
each count and each expense to a stored register. -/
theorem owned_always (midnight : Instant → Instant) (fold : String → String) (db : Db)
    (ops : List Op) (h0 : Owned db) : Always (step midnight fold) Owned db ops :=
  always_of_step (fun _ op h => owned_step op h) h0

/-! ### Names and the catalog -/

lemma reads_namesUnique : Reads (NamesUnique fold) [.categories, .modifiers] := by
  intro db db' hsame h
  simp only [List.forall_mem_cons, SameAt] at hsame
  obtain ⟨hcategories, hmodifiers, -⟩ := hsame
  unfold NamesUnique
  rw [hcategories, hmodifiers]
  exact h

lemma namesUnique_step (op : Op) (h : NamesUnique fold db) :
    NamesUnique fold (step midnight fold db op) := by
  cases op with
  | categories op => exact Names.namesUnique_step (.categories op) h
  | modifiers op => exact Names.namesUnique_step (.modifiers op) h
  | _ => exact reads_namesUnique.step (by simp [Op.writes]) h

lemma reads_linked : Reads Catalog.Linked
    [.categories, .products, .recipes, .recipeIngredients, .inventoryItems] := by
  intro db db' hsame h
  simp only [List.forall_mem_cons, SameAt] at hsame
  obtain ⟨hcategories, hproducts, hrecipes, hingredients, hitems, -⟩ := hsame
  refine ⟨?_, ?_, ?_, ?_⟩
  · rw [hproducts, hcategories]
    exact h.productCategory
  · rw [hrecipes, hproducts]
    exact h.recipeProduct
  · rw [hingredients, hrecipes]
    exact h.ingredientRecipe
  · rw [hingredients, hitems]
    exact h.ingredientItem

lemma linked_step (op : Op) (h : Catalog.Linked db) :
    Catalog.Linked (step midnight fold db op) := by
  cases op with
  | categories op => exact Catalog.linked_categories op h
  | products op => exact Catalog.linked_products op h
  | recipes op hv => exact Catalog.linked_recipes hv h
  | inventoryItems op => exact Catalog.linked_inventoryItems op h
  | _ => exact reads_linked.step (by simp [Op.writes]) h

lemma once_products (op : Products.Op) (h : RecipeItems.OncePerRecipe db) :
    RecipeItems.OncePerRecipe (Products.step db op) := by
  have houtcome : Products.Outcome db op (Products.step db op) := Products.step_outcome op
  generalize Products.step db op = db' at houtcome ⊢
  cases houtcome with
  | removed => exact RecipeItems.nodup_filter h _
  | _ => exact h

/-- Names are unique up to letter case, each row of the catalog refers to stored rows, and no
recipe has two rows for the same item. -/
structure CatalogWhole (fold : String → String) (db : Db) : Prop where
  names : NamesUnique fold db
  linked : Catalog.Linked db
  once : RecipeItems.OncePerRecipe db

lemma once_step (op : Op) (h : CatalogWhole fold db) :
    RecipeItems.OncePerRecipe (step midnight fold db op) := by
  have hreads : Reads RecipeItems.OncePerRecipe [.recipeIngredients] := by
    intro db db' hsame h
    simp only [List.forall_mem_cons, SameAt] at hsame
    unfold RecipeItems.OncePerRecipe
    rw [hsame.1]
    exact h
  cases op with
  | products op => exact once_products op h.once
  | recipes op _ =>
    exact RecipeItems.once_step op h.once fun i hi => h.linked.ingredientRecipe i hi _ rfl
  | _ => exact hreads.step (by simp [Op.writes]) h.once

/-- **The catalog stays whole.** In every run of the API names are unique up to letter case, the
references of the catalog lead to stored rows, and no recipe lists an item twice. -/
theorem catalog_whole (midnight : Instant → Instant) (fold : String → String) (db : Db)
    (ops : List Op) (h0 : CatalogWhole fold db) :
    Always (step midnight fold) (CatalogWhole fold) db ops :=
  always_of_step (fun _ op h =>
    ⟨namesUnique_step op h.names, linked_step op h.linked, once_step op h⟩) h0

/-! ### A day of the shop -/

def roaster : Suppliers.CreateSupplierDto :=
  { code := ⟨"ROAST-1", by decide⟩, name := ⟨"Roaster", by decide⟩,
    contactName := ⟨"Counter", by decide⟩ }

def beans : InventoryItems.CreateInventoryItemDto :=
  { code := ⟨"BEANS", by decide⟩, name := ⟨"Beans", by decide⟩, unitOfMeasure := ⟨"kg", by decide⟩,
    supplierId := .val "roaster" }

/-- A discount of two in the hundred. -/
def spring : Discounts.CreateDiscountDto :=
  { code := "SPRING", name := "Spring", type := .percentage, value := .ofNat 2,
    organizationId := "shop" }

/-- An item and its supplier, a drink that is made of it and sold, and the expenses of the till.
Some of the removals are refused, and some leave an inactive row; so are the calls that bring a
code for the second time. -/
def openingDay : List Op :=
  [.suppliers (.create "roaster" roaster),
   .suppliers (.create "mill" { roaster with code := ⟨"MILL-1", by decide⟩ }),
   .suppliers (.create "copy" roaster),
   .suppliers (.update "mill" { code := .val roaster.code }),
   .inventoryItems (.create "beans" beans),
   .inventoryItems (.create "flour" { beans with code := ⟨"FLOUR", by decide⟩ }),
   .inventoryItems (.update "flour" { code := .val beans.code }),
   .discounts (.create "spring" spring) trivial,
   .discounts (.create "autumn" { spring with code := "AUTUMN" }) trivial,
   .discounts (.update "autumn" { code := .val "SPRING" })
     (by simp [Codes.Validated]),
   .suppliers (.remove "roaster"),
   .categories (.create "filter" { name := ⟨"Filter", by decide⟩ }),
   .products (.create "drip" { categoryId := ⟨"filter", by decide⟩, sku := ⟨"DRIP", by decide⟩,
                               name := ⟨"Drip", by decide⟩, price := .ofNat 30 }),
   .recipes (.create "recipe" { productId := "drip", name := "Drip",
                                ingredients := .val [⟨"beans", .ofNat 15, "g"⟩] }) trivial,
   .transactions (.create "sale" { lineItems := [⟨"drip", .least 1, .ofNat 30, .undefined,
                                                  .undefined⟩] }),
   .cashRegisters (.create "drawer" { shiftId := "morning", expectedCash := .ofNat 100,
                                      locationId := "bar", organizationId := "shop" }),
   .cashRegisters (.recordExpense "drawer" { amount := .ofNat 20, description := "ice" }),
   .products (.remove "drip"),
   .transactions (.remove "sale"),
   .cashRegisters (.remove "drawer")]

/-- The second bearers of a code are refused. -/
theorem codes_unique_openingDay :
    Always (step (fun t => t) String.toLower) CodesUnique ∅ openingDay ∧
    (run (step (fun t => t) String.toLower) ∅ openingDay).suppliers.values.map Supplier.code =
      ["ROAST-1", "MILL-1"] ∧
    (run (step (fun t => t) String.toLower) ∅ openingDay).inventoryItems.values.map
      InventoryItem.code = ["BEANS", "FLOUR"] ∧
    (run (step (fun t => t) String.toLower) ∅ openingDay).discounts.values.map Discount.code =
      ["SPRING", "AUTUMN"] :=
  ⟨codes_unique (fun t => t) String.toLower ∅ openingDay Codes.codesUnique_empty,
    by decide +kernel, by decide +kernel, by decide +kernel⟩

theorem supplied_always_openingDay :
    Always (step (fun t => t) String.toLower) Supplied ∅ openingDay :=
  supplied_always (fun t => t) String.toLower ∅ openingDay Table.refers_nil

theorem owned_always_openingDay :
    Always (step (fun t => t) String.toLower) Owned ∅ openingDay :=
  owned_always (fun t => t) String.toLower ∅ openingDay
    ⟨Table.refers_nil, Table.refers_nil, Table.refers_nil⟩

theorem catalog_whole_openingDay :
    Always (step (fun t => t) String.toLower) (CatalogWhole String.toLower) ∅ openingDay :=
  catalog_whole (fun t => t) String.toLower ∅ openingDay
    ⟨Names.namesUnique_empty, Catalog.linked_empty, List.nodup_nil⟩

end CoffeeOs.Integrity
