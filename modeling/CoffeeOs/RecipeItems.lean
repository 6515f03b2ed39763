import CoffeeOs.Recipes
import CoffeeOs.Runs

/-!
The items a recipe is made of.

One comparison of two lengths checks the ingredients of a payload. It is passed only by lists
that name pairwise distinct items, all of them stored, so that no recipe comes to have two rows
for one item.
-/

namespace CoffeeOs.RecipeItems

open CoffeeOs.KeyedTable CoffeeOs.Payload CoffeeOs.Requests CoffeeOs.Requests.Request
open CoffeeOs.Runs CoffeeOs.Schema CoffeeOs.Recipes

variable {db : Db} {id : Id}

/-- The recipe and the item of a row, which the schema wants to be unique together. -/
def recipeItem (i : RecipeIngredient) : Id × Id := (i.recipeId, i.inventoryItemId)

/-- No recipe has two rows for the same item. -/
def OncePerRecipe (db : Db) : Prop := (db.recipeIngredients.map recipeItem).Nodup

/-- The recipe of each row is stored. -/
def RecipesFound (db : Db) : Prop :=
  ∀ i ∈ db.recipeIngredients, (db.recipes.find? i.recipeId).isSome

lemma recipeItem_ingredientRows (items : List RecipeIngredientDto) :
    (ingredientRows id items).map recipeItem = items.map fun i => (id, i.inventoryItemId) := by
  unfold ingredientRows
  rw [List.map_map]
  rfl

lemma recipeId_of_mem_ingredientRows {items : List RecipeIngredientDto} {i : RecipeIngredient}
    (h : i ∈ ingredientRows id items) : i.recipeId = id := by
  obtain ⟨item, -, rfl⟩ := List.mem_map.mp h
  rfl

/-- Rows of a recipe that has none yet, for pairwise distinct items. -/
lemma nodup_append_ingredientRows {rows : List RecipeIngredient} {items : List RecipeIngredientDto}
    (h : (rows.map recipeItem).Nodup) (hnone : ∀ i ∈ rows, i.recipeId ≠ id)
    (hitems : (items.map (·.inventoryItemId)).Nodup) :
    ((rows ++ ingredientRows id items).map recipeItem).Nodup := by
  rw [List.map_append, recipeItem_ingredientRows]
  refine h.append ?_ ?_
  · have hpairs := hitems.map (f := fun k => (id, k)) fun k k' he => congrArg Prod.snd he
    rwa [List.map_map] at hpairs
  · intro e he he'
    obtain ⟨i, hi, rfl⟩ := List.mem_map.mp he
    obtain ⟨item, -, hitem⟩ := List.mem_map.mp he'
    exact hnone i hi (congrArg Prod.fst hitem).symm

lemma nodup_filter {rows : List RecipeIngredient} (h : (rows.map recipeItem).Nodup)
    (p : RecipeIngredient → Bool) : ((rows.filter p).map recipeItem).Nodup :=
  (List.filter_sublist.map recipeItem).nodup h

/-- The rows that an update leaves, and those it adds. -/
lemma nodup_keptIngredients (h : OncePerRecipe db) {dto : UpdateRecipeDto}
    (hv : Verified db dto.items) :
    ((keptIngredients db id dto ++ ingredientRows id dto.items).map recipeItem).Nodup := by
  unfold keptIngredients
  split
  · refine nodup_append_ingredientRows (nodup_filter h _) (fun i hi => ?_) (verified_iff.mp hv).1
    simpa using (List.mem_filter.mp hi).2
  · rename_i hnone
    rw [List.eq_nil_of_length_eq_zero (Nat.eq_zero_of_not_pos hnone)]
    rw [ingredientRows, List.map_nil, List.append_nil]
    exact h

lemma mem_of_mem_keptIngredients {dto : UpdateRecipeDto} {i : RecipeIngredient}
    (h : i ∈ keptIngredients db id dto) : i ∈ db.recipeIngredients := by
  unfold keptIngredients at h
  split at h
  · exact List.mem_of_mem_filter h
  · exact h

lemma recipesFound_step (op : Op) (hfound : RecipesFound db) : RecipesFound (step db op) := by
  have houtcome : Outcome db op (step db op) := step_outcome op
  generalize step db op = db' at houtcome ⊢
  cases houtcome with
  | kept => exact hfound
  | created =>
    intro i hi
    rw [Table.isSome_find?_put]
    rcases List.mem_append.mp hi with hi | hi
    · exact Or.inr (hfound i hi)
    · exact Or.inl (recipeId_of_mem_ingredientRows hi)
  | cleared => exact fun i hi => hfound i (mem_of_mem_keptIngredients hi)
  | updated =>
    intro i hi
    rw [Table.isSome_find?_put]
    rcases List.mem_append.mp hi with hi | hi
    · exact Or.inr (hfound i (mem_of_mem_keptIngredients hi))
    · exact Or.inl (recipeId_of_mem_ingredientRows hi)
  | removed =>
    intro i hi
    obtain ⟨hi, hne⟩ := List.mem_filter.mp hi
    exact Table.isSome_find?_erase.mpr ⟨by simpa using hne, hfound i hi⟩

lemma once_step (op : Op) (honce : OncePerRecipe db) (hfound : RecipesFound db) :
    OncePerRecipe (step db op) := by
  have houtcome : Outcome db op (step db op) := step_outcome op
  generalize step db op = db' at houtcome ⊢
  cases houtcome with
  | kept => exact honce
  | @created newId _ _ verified unused =>
    -- a recipe that is new has no rows yet
    have hnone : ∀ i ∈ db.recipeIngredients, i.recipeId ≠ newId := by
      rintro i hi rfl
      have hstored := hfound i hi
      rw [unused] at hstored
      cases hstored
    exact nodup_append_ingredientRows honce hnone (verified_iff.mp verified).1
  | @cleared id dto _ _ verified =>
    have hboth :
        ((keptIngredients db id dto ++ ingredientRows id dto.items).map recipeItem).Nodup :=
      nodup_keptIngredients honce verified
    rw [List.map_append] at hboth
    exact (List.nodup_append.mp hboth).1
  | updated _ _ verified => exact nodup_keptIngredients honce verified
  | removed => exact nodup_filter honce _

/-- A product, and two items to make it of. -/
def kitchen : Db where
  products := (∅ : Table Id Product).put "latte"
    { categoryId := "coffee", sku := "LATTE", name := "Latte", price := 45 }
  inventoryItems := ((∅ : Table Id InventoryItem).put "milk"
    { code := "MILK", name := "Milk", unitOfMeasure := "ml" }).put "coffee"
    { code := "COFFEE", name := "Coffee", unitOfMeasure := "g" }

end CoffeeOs.RecipeItems
