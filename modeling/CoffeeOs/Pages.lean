import CoffeeOs.Categories
import CoffeeOs.InventoryItems
import CoffeeOs.Recipes
import CoffeeOs.Suppliers
import Mathlib.Data.String.Basic

/-!
The lists of recipes, inventory items, suppliers and categories, read page by page.

The lists are sorted by the name or by the sort order, and several rows may have the same one.
Each page is a query of its own, so that a row may be passed over, or come twice, where a page
ends between two rows that the order does not tell apart.
-/

namespace CoffeeOs.Pages

open CoffeeOs.KeyedTable CoffeeOs.Listing CoffeeOs.Paging CoffeeOs.Schema

section Lists

variable {β : Type} [LinearOrder β] (collate : String → β) (contains : String → String → Bool)
  (t : ℕ) (db : Db)

/-- A client reads each recipe that the query asks for exactly once; `collate` is the order of
names in the database. -/
def RecipesRead (query : Recipes.QueryRecipesDto) : Prop :=
  ReadsEach (fun arrange skip take =>
      Recipes.findAll contains arrange { query with skip := some skip, take := some take })
    (fun row => collate row.name) t db
    ((matching recipe (query.selects contains) db).map fun e => Recipes.listedViewOf e.1 e.2 db)

def InventoryItemsRead (query : InventoryItems.QueryInventoryItemsDto) : Prop :=
  ReadsEach (fun arrange skip take =>
      InventoryItems.findAll contains arrange { query with skip := some skip, take := some take })
    (fun row => collate row.name) t db
    ((matching inventoryItem (query.selects contains) db).map
      fun e => InventoryItems.listedViewOf e.1 e.2 db)

def SuppliersRead (query : Suppliers.QuerySuppliersDto) : Prop :=
  ReadsEach (fun arrange skip take =>
      Suppliers.findAll contains arrange { query with skip := some skip, take := some take })
    (fun row => collate row.name) t db
    ((matching supplier (query.selects contains) db).map fun e => Suppliers.viewOf e.1 e.2 db)

def CategoriesRead (query : Categories.QueryCategoriesDto) : Prop :=
  ReadsEach (fun arrange skip take =>
      Categories.findAll contains arrange { query with skip := some skip, take := some take })
    (fun row => row.sortOrder) t db
    ((matching category (query.selects contains) db).map fun e => Categories.viewOf e.1 e.2 db)

variable {collate contains t db}

lemma recipesRead_iff (ht : 0 < t) (query : Recipes.QueryRecipesDto) :
    RecipesRead collate contains t db query ↔
      Untied (fun e => collate e.2.name) t (matching recipe (query.selects contains) db) :=
  readsEach_iff (fun row : Recipe => collate row.name) ht fun _ _ h =>
    Prod.ext (congrArg Recipes.ListedRecipeView.id h) (congrArg Recipes.ListedRecipeView.row h)

lemma inventoryItemsRead_iff (ht : 0 < t) (query : InventoryItems.QueryInventoryItemsDto) :
    InventoryItemsRead collate contains t db query ↔
      Untied (fun e => collate e.2.name) t (matching inventoryItem (query.selects contains) db) :=
  readsEach_iff (fun row : InventoryItem => collate row.name) ht fun _ _ h =>
    Prod.ext (congrArg InventoryItems.ListedItemView.id h)
      (congrArg InventoryItems.ListedItemView.row h)

lemma suppliersRead_iff (ht : 0 < t) (query : Suppliers.QuerySuppliersDto) :
    SuppliersRead collate contains t db query ↔
      Untied (fun e => collate e.2.name) t (matching supplier (query.selects contains) db) :=
  readsEach_iff (fun row : Supplier => collate row.name) ht fun _ _ h =>
    Prod.ext (congrArg Suppliers.SupplierView.id h) (congrArg Suppliers.SupplierView.row h)

lemma categoriesRead_iff (ht : 0 < t) (query : Categories.QueryCategoriesDto) :
    CategoriesRead contains t db query ↔
      Untied (fun e => e.2.sortOrder) t (matching category (query.selects contains) db) :=
  readsEach_iff (fun row : Category => row.sortOrder) ht fun _ _ h =>
    Prod.ext (congrArg Categories.CategoryView.id h) (congrArg Categories.CategoryView.row h)

variable (collate contains db) in
/-- **Lists.** Whatever the filters, reading a list page by page brings every row exactly once if
and only if no page ends between two rows of the same name, or of the same sort order. -/
theorem lists_read_iff (ht : 0 < t) :
    (∀ query : Recipes.QueryRecipesDto, RecipesRead collate contains t db query ↔
      Untied (fun e => collate e.2.name) t (matching recipe (query.selects contains) db)) ∧
    (∀ query : InventoryItems.QueryInventoryItemsDto,
      InventoryItemsRead collate contains t db query ↔
        Untied (fun e => collate e.2.name) t (matching inventoryItem (query.selects contains) db)) ∧
    (∀ query : Suppliers.QuerySuppliersDto, SuppliersRead collate contains t db query ↔
      Untied (fun e => collate e.2.name) t (matching supplier (query.selects contains) db)) ∧
    ∀ query : Categories.QueryCategoriesDto, CategoriesRead contains t db query ↔
      Untied (fun e => e.2.sortOrder) t (matching category (query.selects contains) db) :=
  ⟨recipesRead_iff ht, inventoryItemsRead_iff ht, suppliersRead_iff ht, categoriesRead_iff ht⟩

end Lists

/-- Up to letter case. -/
def insensitive (column text : String) : Bool :=
  column.toLower.toList.tails.any fun tail => text.toLower.toList.isPrefixOf tail

/-- Two rows in each list that its order does not tell apart. -/
def twins : Db where
  recipes := ((∅ : Table Id Recipe).put "single" { productId := "single", name := "Espresso" }).put
    "double" { productId := "double", name := "Espresso" }
  inventoryItems := ((∅ : Table Id InventoryItem).put "bag"
    { code := "BAG", name := "Beans", unitOfMeasure := "kg" }).put "can"
    { code := "CAN", name := "Beans", unitOfMeasure := "kg" }
  suppliers := ((∅ : Table Id Supplier).put "north" { code := "NORTH", name := "Farm" }).put "south"
    { code := "SOUTH", name := "Farm" }
  categories := ((∅ : Table Id Category).put "hot" { name := "Hot", sortOrder := 1 }).put "cold"
    { name := "Cold", sortOrder := 1 }

/-- Beside the twins, a row in each list that comes after them. -/
def threes : Db where
  recipes := twins.recipes.put "latte" { productId := "latte", name := "Latte" }
  inventoryItems := twins.inventoryItems.put "carton"
    { code := "CARTON", name := "Oats", unitOfMeasure := "l" }
  suppliers := twins.suppliers.put "dairy" { code := "DAIRY", name := "Mill" }
  categories := twins.categories.put "snacks" { name := "Snacks", sortOrder := 2 }

/-- On pages of two, the twins come on the first and the third row on the second. -/
theorem lists_read_iff_threes :
    RecipesRead id insensitive 2 threes {} ∧ InventoryItemsRead id insensitive 2 threes {} ∧
      SuppliersRead id insensitive 2 threes {} ∧ CategoriesRead insensitive 2 threes {} := by
  obtain ⟨hrecipes, hitems, hsuppliers, hcategories⟩ :=
    lists_read_iff id insensitive threes (t := 2) (by decide)
  refine ⟨(hrecipes {}).mpr ?_, (hitems {}).mpr ?_, (hsuppliers {}).mpr ?_, (hcategories {}).mpr ?_⟩
  all_goals decide +kernel

/-- On a page each, one of them may be read twice and the other one not at all. -/
theorem twins_not_read :
    ¬ RecipesRead id insensitive 1 twins {} ∧ ¬ InventoryItemsRead id insensitive 1 twins {} ∧
      ¬ SuppliersRead id insensitive 1 twins {} ∧ ¬ CategoriesRead insensitive 1 twins {} := by
  refine ⟨?_, ?_, ?_, ?_⟩
  · exact fun h => absurd ((recipesRead_iff (by decide) {}).mp h) (by decide +kernel)
  · exact fun h => absurd ((inventoryItemsRead_iff (by decide) {}).mp h) (by decide +kernel)
  · exact fun h => absurd ((suppliersRead_iff (by decide) {}).mp h) (by decide +kernel)
  · exact fun h => absurd ((categoriesRead_iff (by decide) {}).mp h) (by decide +kernel)

end CoffeeOs.Pages
