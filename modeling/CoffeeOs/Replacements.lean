import CoffeeOs.CompleteRace
import CoffeeOs.RecipeCosts
import CoffeeOs.TransactionTotals

/-!
Updates that carry the rows of a transaction or of a recipe.

The old rows are deleted under one condition and the new ones are created under another. The two
differ for a payload with no rows, which is an order to keep none and leaves all that were there.
-/

namespace CoffeeOs.Replacements

open CoffeeOs.KeyedTable CoffeeOs.Payload CoffeeOs.Requests CoffeeOs.Requests.Request
open CoffeeOs.Schema
open CoffeeOs.CompleteRace (itemsTotal sum_lineRows)
open CoffeeOs.RecipeCosts (HasItems totalCostOf unitCostOf calculateCost_ok)
open CoffeeOs.Recipes (RecipeIngredientDto UpdateRecipeDto calculateCost ingredientsOf
  ingredientRows keptIngredients)
open CoffeeOs.TransactionFrame (filter_updatedLines)
open CoffeeOs.Transactions (TransactionLineItemDto UpdateTransactionDto calculateTotal linesOf
  lineRows)
open CoffeeOs.TransactionSpec (HasProducts)
open CoffeeOs.TransactionTotals (calculateTotal_ok calculateTotal_eq)

variable {db : Db} {id : Id}

/-! ### Line items -/

/-- After the update the transaction has the line items of the payload and no others, and its
subtotal is theirs. -/
structure LinesReplaced (db : Db) (id : Id) (items : List TransactionLineItemDto) : Prop where
  lines : linesOf db id = lineRows id items
  subtotal : ∃ r, ((calculateTotal id).exec db).1 = .ok r ∧ r.subtotal = itemsTotal items

lemma hasProducts_of_lines {items : List TransactionLineItemDto}
    (hv : TransactionSpec.Verified db items) (h : linesOf db id = lineRows id items) :
    HasProducts db id := by
  intro l hl
  rw [h] at hl
  obtain ⟨item, hitem, rfl⟩ := List.mem_map.mp hl
  exact hv.found hitem

/-- The subtotal follows the lines. -/
lemma linesReplaced_iff {row : Transaction} {items : List TransactionLineItemDto}
    (hrow : db.transactions.find? id = some row) (hv : TransactionSpec.Verified db items) :
    LinesReplaced db id items ↔ linesOf db id = lineRows id items := by
  refine ⟨LinesReplaced.lines, fun h => ⟨h, ?_⟩⟩
  obtain ⟨r, hr⟩ := calculateTotal_ok hrow (hasProducts_of_lines hv h)
  obtain ⟨-, hsubtotal, -⟩ := calculateTotal_eq hrow hr
  refine ⟨r, hr, ?_⟩
  rw [hsubtotal, TransactionSpec.subtotalOf, h, sum_lineRows]

/-! ### Ingredients -/

/-- What the ingredients of a payload cost. -/
def itemsCost (db : Db) (items : List RecipeIngredientDto) : ℚ :=
  (items.map fun i => (i.quantity : ℚ) *
    ((db.inventoryItems.find? i.inventoryItemId).bind InventoryItem.costPerUnit).getD 0).sum

/-- After the update the recipe has the ingredients of the payload and no others, and its cost is
theirs. -/
structure IngredientsReplaced (db : Db) (id : Id) (items : List RecipeIngredientDto) : Prop where
  ingredients : ingredientsOf db id = ingredientRows id items
  totalCost : ∃ r, ((calculateCost id).exec db).1 = .ok r ∧ r.totalCost = itemsCost db items

lemma hasItems_of_ingredients {items : List RecipeIngredientDto}
    (hv : Recipes.Verified db items) (h : ingredientsOf db id = ingredientRows id items) :
    HasItems db id := by
  intro i hi
  rw [h] at hi
  obtain ⟨item, hitem, rfl⟩ := List.mem_map.mp hi
  exact (Recipes.verified_iff.mp hv).2 _ (List.mem_map_of_mem hitem)

lemma sum_ingredientRows (items : List RecipeIngredientDto) :
    ((ingredientRows id items).map fun i => i.quantity * unitCostOf db i).sum =
      itemsCost db items := by
  unfold ingredientRows itemsCost
  rw [List.map_map]
  rfl

/-- The cost follows the ingredients. -/
lemma ingredientsReplaced_iff {row : Recipe} {items : List RecipeIngredientDto}
    (hrow : db.recipes.find? id = some row) (hv : Recipes.Verified db items) :
    IngredientsReplaced db id items ↔ ingredientsOf db id = ingredientRows id items := by
  refine ⟨IngredientsReplaced.ingredients, fun h => ⟨h, ?_⟩⟩
  obtain ⟨r, hr, htotal, -⟩ := calculateCost_ok hrow (hasItems_of_ingredients hv h)
  refine ⟨r, hr, ?_⟩
  rw [htotal, totalCostOf, h, sum_ingredientRows]

/-- The ingredients of its own recipe after an update: the new ones if there are any, and else
those that were there. -/
lemma filter_updatedIngredients (dto : UpdateRecipeDto) :
    (keptIngredients db id dto ++ ingredientRows id dto.items).filter (fun i => i.recipeId = id) =
      if 0 < dto.items.length then ingredientRows id dto.items else ingredientsOf db id := by
  have hrows : ∀ i ∈ ingredientRows id dto.items, i.recipeId = id := by
    intro i hi
    obtain ⟨item, -, rfl⟩ := List.mem_map.mp hi
    rfl
  rw [List.filter_append, Table.filter_owner_self hrows]
  unfold keptIngredients
  split
  · rw [Table.filter_dropped_self, List.nil_append]
  · rename_i hnone
    have hitems : dto.items = [] := List.length_eq_zero_iff.mp (Nat.eq_zero_of_not_pos hnone)
    rw [hitems]
    exact List.append_nil _

/-! ### The updates -/

/-- Rows that replace those that were there, or leave them if there are none. -/
lemma replaced_iff {α β : Type*} {items : List β} {rows old : List α}
    (hrows : rows = [] ↔ items = []) :
    (if 0 < items.length then rows else old) = rows ↔ items ≠ [] ∨ old = [] := by
  by_cases hitems : items = []
  · rw [if_neg (by simp [hitems]), hrows.mpr hitems]
    simp [hitems]
  · rw [if_pos (List.length_pos_iff.mpr hitems)]
    exact iff_of_true rfl (Or.inl hitems)

lemma linesReplaced_update_iff {dto : UpdateTransactionDto}
    (h : (Transactions.update id dto).Accepts db) :
    LinesReplaced (Transactions.step db (.update id dto)) id dto.items ↔
      dto.items ≠ [] ∨ linesOf db id = [] := by
  obtain ⟨row, row', hrow, hopen, hv, ha⟩ := TransactionSpec.of_accepts_update h
  have hstep : Transactions.step db (.update id dto) = { db with
      transactions := db.transactions.put id row'
      lineItems := TransactionSpec.keptLines db id dto ++ lineRows id dto.items } := by
    rw [TransactionSpec.step_update, hrow]
    dsimp only
    rw [if_neg (not_or.mpr ⟨hopen, not_not.mpr hv⟩), ha]
  have hrow' : (Transactions.step db (.update id dto)).transactions.find? id = some row' := by
    rw [hstep]
    exact Table.find?_put_self
  have hv' : TransactionSpec.Verified (Transactions.step db (.update id dto)) dto.items := by
    rw [hstep]
    exact hv
  have hlines : linesOf (Transactions.step db (.update id dto)) id =
      if 0 < dto.items.length then lineRows id dto.items else linesOf db id := by
    rw [hstep]
    exact filter_updatedLines dto
  rw [linesReplaced_iff hrow' hv', hlines]
  exact replaced_iff List.map_eq_nil_iff

lemma ingredientsReplaced_update_iff {dto : UpdateRecipeDto}
    (h : (Recipes.update id dto).Accepts db) :
    IngredientsReplaced (Recipes.step db (.update id dto)) id dto.items ↔
      dto.items ≠ [] ∨ ingredientsOf db id = [] := by
  obtain ⟨row, row', hrow, hproduct, hv, ha⟩ := Recipes.of_accepts_update h
  have hstep : Recipes.step db (.update id dto) = { db with
      recipes := db.recipes.put id row'
      recipeIngredients := keptIngredients db id dto ++ ingredientRows id dto.items } := by
    rw [Recipes.step_update, hrow]
    dsimp only
    rw [if_neg (not_or.mpr ⟨not_not.mpr hproduct, not_not.mpr hv⟩), ha]
  have hrow' : (Recipes.step db (.update id dto)).recipes.find? id = some row' := by
    rw [hstep]
    exact Table.find?_put_self
  have hv' : Recipes.Verified (Recipes.step db (.update id dto)) dto.items := by
    rw [hstep]
    exact hv
  have hingredients : ingredientsOf (Recipes.step db (.update id dto)) id =
      if 0 < dto.items.length then ingredientRows id dto.items else ingredientsOf db id := by
    rw [hstep]
    exact filter_updatedIngredients dto
  rw [ingredientsReplaced_iff hrow' hv', hingredients]
  exact replaced_iff List.map_eq_nil_iff

/-- **Replacement.** An update that goes through leaves the transaction, or the recipe, with the
rows of its payload and no others exactly if the payload has rows or there were none before. -/
theorem rows_replaced_iff (db : Db) :
    (∀ id (dto : UpdateTransactionDto) items, dto.lineItems = .val items →
      (Transactions.update id dto).Accepts db →
      (LinesReplaced (Transactions.step db (.update id dto)) id items ↔
        items ≠ [] ∨ linesOf db id = [])) ∧
    ∀ id (dto : UpdateRecipeDto) items, dto.ingredients = .val items →
      (Recipes.update id dto).Accepts db →
      (IngredientsReplaced (Recipes.step db (.update id dto)) id items ↔
        items ≠ [] ∨ ingredientsOf db id = []) := by
  refine ⟨fun id dto items hitems h => ?_, fun id dto items hitems h => ?_⟩
  · have hdto : dto.items = items := by
      rw [UpdateTransactionDto.items, hitems]
      rfl
    rw [← hdto]
    exact linesReplaced_update_iff h
  · have hdto : dto.items = items := by
      rw [UpdateRecipeDto.items, hitems]
      rfl
    rw [← hdto]
    exact ingredientsReplaced_update_iff h

/-- A shop with a sale of a latte, and with a recipe for it. -/
def shop : Db := { RecipeCosts.bar with
  products := TransactionTotals.bar.products
  transactions := (∅ : Table Id Transaction).put "sale" { status := .pending }
  lineItems := [{ transactionId := "sale", productId := "latte", quantity := 1, unitPrice := 45 }]
  recipeIngredients := [RecipeCosts.milk] }

/-- Four lattes in the place of one. -/
def lattes : List TransactionLineItemDto :=
  [{ productId := "latte", quantity := ⟨4, by decide⟩, unitPrice := .ofNat 45 }]

def espresso : List RecipeIngredientDto :=
  [{ inventoryItemId := "water", quantity := .ofNat 30, unit := "ml" }]

theorem shop_rows_replaced_iff :
    (LinesReplaced (Transactions.step shop (.update "sale" { lineItems := .val lattes })) "sale"
        lattes ↔ lattes ≠ [] ∨ linesOf shop "sale" = []) ∧
    (IngredientsReplaced (Recipes.step shop (.update "latte" { ingredients := .val espresso }))
        "latte" espresso ↔ espresso ≠ [] ∨ ingredientsOf shop "latte" = []) :=
  ⟨(rows_replaced_iff shop).1 "sale" { lineItems := .val lattes } lattes rfl (by decide +kernel),
    (rows_replaced_iff shop).2 "latte" { ingredients := .val espresso } espresso rfl
      (by decide +kernel)⟩

/-- A sale that is to have no line items keeps its latte, and a recipe that is to have no
ingredients keeps its milk. -/
theorem shop_not_emptied :
    (Transactions.update "sale" { lineItems := .val [] }).Accepts shop ∧
    ¬ LinesReplaced (Transactions.step shop (.update "sale" { lineItems := .val [] })) "sale" [] ∧
    (Recipes.update "latte" { ingredients := .val [] }).Accepts shop ∧
    ¬ IngredientsReplaced (Recipes.step shop (.update "latte" { ingredients := .val [] }))
      "latte" [] := by
  refine ⟨by decide +kernel, fun h => ?_, by decide +kernel, fun h => ?_⟩
  · exact absurd h.lines (by decide +kernel)
  · exact absurd h.ingredients (by decide +kernel)

end CoffeeOs.Replacements
