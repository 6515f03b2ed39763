import CoffeeOs.Loops
import CoffeeOs.Recipes
import Mathlib.Algebra.Order.Ring.Rat

/-!
The cost of a recipe, added up and broken down.

The total skips the items that cost nothing, and the breakdown gives them a cost of 0. The two
agree, whatever the ingredients and whatever their order, and the total of two lists of
ingredients is the sum of their totals.
-/

namespace CoffeeOs.RecipeCosts

open CoffeeOs.KeyedTable CoffeeOs.Loops CoffeeOs.Requests CoffeeOs.Requests.Request
open CoffeeOs.Schema CoffeeOs.Recipes

variable {db : Db} {id : Id} {recipe : Recipe}

/-- The item of each of the ingredients of the recipe is stored. -/
def HasItems (db : Db) (id : Id) : Prop :=
  ∀ i ∈ ingredientsOf db id, (db.inventoryItems.find? i.inventoryItemId).isSome

/-- What the item of an ingredient costs, 0 if it has no cost. -/
def unitCostOf (db : Db) (i : RecipeIngredient) : ℚ :=
  ((db.inventoryItems.find? i.inventoryItemId).bind InventoryItem.costPerUnit).getD 0

def totalCostOf (db : Db) (id : Id) : ℚ :=
  ((ingredientsOf db id).map fun i => i.quantity * unitCostOf db i).sum

/-! ### The two traversals -/

/-- What an ingredient costs, and what its entry says. -/
def costOf (e : RecipeIngredient × Option InventoryItem) : ℚ :=
  e.1.quantity * (e.2.bind InventoryItem.costPerUnit).getD 0

def entryOf (e : RecipeIngredient × Option InventoryItem) : IngredientCost where
  name := (e.2.map InventoryItem.name).getD ""
  quantity := e.1.quantity
  unit := e.1.unit
  costPerUnit := (e.2.bind InventoryItem.costPerUnit).getD 0
  totalCost := costOf e

/-- Skipping an item that costs nothing adds its cost all the same. -/
lemma addIngredient_eq {e : RecipeIngredient × Option InventoryItem} (h : e.2.isSome) (total : ℚ) :
    addIngredient total e = .ok (total + costOf e) := by
  obtain ⟨i, item⟩ := e
  obtain ⟨item, rfl⟩ := Option.isSome_iff_exists.mp h
  unfold addIngredient costOf
  dsimp only [Option.bind_some]
  rcases item.costPerUnit with _ | c
  · simp
  · by_cases hc : c = 0
    · simp [hc]
    · simp [hc]

lemma ingredientCost_eq {e : RecipeIngredient × Option InventoryItem} (h : e.2.isSome) :
    ingredientCost e = .ok (entryOf e) := by
  obtain ⟨i, item⟩ := e
  obtain ⟨item, rfl⟩ := Option.isSome_iff_exists.mp h
  rfl

lemma cost_eq {view : RecipeView} (h : ∀ e ∈ view.ingredients, e.2.isSome) : cost view = .ok {
    recipeId := view.id, recipeName := view.row.name
    totalCost := (view.ingredients.map costOf).sum, currency := "MXN"
    ingredients := view.ingredients.map entryOf } := by
  have htotal : view.ingredients.foldlM addIngredient 0 =
      .ok (view.ingredients.map costOf).sum := by
    rw [foldlM_ok (fun e he total => addIngredient_eq (h e he) total), foldl_add, zero_add]
  have hentries : view.ingredients.mapM ingredientCost = .ok (view.ingredients.map entryOf) :=
    mapM_ok fun e he => ingredientCost_eq (h e he)
  rw [cost, htotal, hentries]
  rfl

lemma costs_viewOf : (viewOf db id recipe).ingredients.map costOf =
    (ingredientsOf db id).map fun i => i.quantity * unitCostOf db i := by
  unfold viewOf
  rw [List.map_map]
  rfl

/-- `calculateCost` answers with the total of the ingredients, and with entries that add up to
it. -/
theorem calculateCost_ok (hrecipe : db.recipes.find? id = some recipe) (h : HasItems db id) :
    ∃ r, ((calculateCost id).exec db).1 = .ok r ∧ r.totalCost = totalCostOf db id ∧
      (r.ingredients.map IngredientCost.totalCost).sum = totalCostOf db id := by
  have hitems : ∀ e ∈ (viewOf db id recipe).ingredients, e.2.isSome := by
    intro e he
    obtain ⟨i, hi, rfl⟩ := List.mem_map.mp he
    exact h i hi
  have hexec : ((calculateCost id).exec db).1 = cost (viewOf db id recipe) := by
    have hfound : (findOne id).exec db = (.ok (viewOf db id recipe), db) := by
      rw [findOne, exec_look_bind, hrecipe]
      rfl
    rw [calculateCost, exec_bind, hfound]
    rfl
  refine ⟨_, hexec.trans (cost_eq hitems), ?_, ?_⟩
  · exact congrArg List.sum costs_viewOf
  · dsimp only
    rw [List.map_map]
    exact congrArg List.sum costs_viewOf

/-! ### Totals of lists of ingredients -/

/-- The answer of `calculateCost` where the ingredients of all recipes are `rows`. -/
def costOver (db : Db) (id : Id) (rows : List RecipeIngredient) : Except Error RecipeCost :=
  ((calculateCost id).exec { db with recipeIngredients := rows }).1

lemma totalCostOf_append (rows rows' : List RecipeIngredient) :
    totalCostOf { db with recipeIngredients := rows ++ rows' } id =
      totalCostOf { db with recipeIngredients := rows } id +
        totalCostOf { db with recipeIngredients := rows' } id := by
  unfold totalCostOf ingredientsOf
  rw [List.filter_append, List.map_append, List.sum_append]
  rfl

lemma totalCostOf_perm {rows rows' : List RecipeIngredient} (h : rows.Perm rows') :
    totalCostOf { db with recipeIngredients := rows } id =
      totalCostOf { db with recipeIngredients := rows' } id :=
  ((h.filter _).map _).sum_eq

/-- **The cost of a recipe.** For ingredients whose items are stored, `calculateCost` answers with
the sum of its breakdown; the total does not depend on the order of the ingredients, and it is
additive. -/
theorem costs_agree (db : Db) (id : Id) (recipe : Recipe) (rows rows' : List RecipeIngredient)
    (hrecipe : db.recipes.find? id = some recipe)
    (hitems : ∀ i ∈ rows ++ rows', (db.inventoryItems.find? i.inventoryItemId).isSome) :
    ∃ r r' both, costOver db id rows = .ok r ∧ costOver db id rows' = .ok r' ∧
      costOver db id (rows ++ rows') = .ok both ∧
      r.totalCost = (r.ingredients.map IngredientCost.totalCost).sum ∧
      (rows.Perm rows' → r.totalCost = r'.totalCost) ∧
      both.totalCost = r.totalCost + r'.totalCost := by
  -- each list of rows alone is a recipe of its own
  have answers (part : List RecipeIngredient) (hpart : ∀ i ∈ part, i ∈ rows ++ rows') :
      ∃ r, costOver db id part = .ok r ∧
        r.totalCost = totalCostOf { db with recipeIngredients := part } id ∧
        (r.ingredients.map IngredientCost.totalCost).sum =
          totalCostOf { db with recipeIngredients := part } id :=
    @calculateCost_ok { db with recipeIngredients := part } id recipe hrecipe
      fun i hi => hitems i (hpart i (List.mem_of_mem_filter hi))
  obtain ⟨r, hr, htotal, hsum⟩ := answers rows fun i hi => List.mem_append_left _ hi
  obtain ⟨r', hr', htotal', -⟩ := answers rows' fun i hi => List.mem_append_right _ hi
  obtain ⟨both, hboth, hbothTotal, -⟩ := answers (rows ++ rows') fun i hi => hi
  refine ⟨r, r', both, hr, hr', hboth, htotal.trans hsum.symm, fun hperm => ?_, ?_⟩
  · rw [htotal, htotal', totalCostOf_perm hperm]
  · rw [hbothTotal, htotal, htotal', totalCostOf_append]

/-- A latte of milk, which has a cost, and of water, which has none. -/
def bar : Db where
  recipes := (∅ : Table Id Recipe).put "latte" { productId := "latte", name := "Latte" }
  inventoryItems := ((∅ : Table Id InventoryItem).put "milk"
    { code := "MILK", name := "Milk", unitOfMeasure := "ml", costPerUnit := some (1 / 50) }).put
    "water" { code := "WATER", name := "Water", unitOfMeasure := "ml", costPerUnit := none }

def milk : RecipeIngredient := ⟨"latte", "milk", 240, "ml"⟩

def water : RecipeIngredient := ⟨"latte", "water", 30, "ml"⟩

theorem bar_costs_agree : ∃ r r' both, costOver bar "latte" [milk] = .ok r ∧
    costOver bar "latte" [water] = .ok r' ∧ costOver bar "latte" ([milk] ++ [water]) = .ok both ∧
    r.totalCost = (r.ingredients.map IngredientCost.totalCost).sum ∧
    ([milk].Perm [water] → r.totalCost = r'.totalCost) ∧
    both.totalCost = r.totalCost + r'.totalCost :=
  costs_agree bar "latte" { productId := "latte", name := "Latte" } [milk] [water] rfl (by decide)

end CoffeeOs.RecipeCosts
