import CoffeeOs.Listing

/-!
The service of recipes.

A recipe makes a product of inventory items; its ingredients are rows of their own. An update
that carries ingredients deletes those that are there before it writes the new ones.
-/

namespace CoffeeOs.Recipes

open CoffeeOs.KeyedTable CoffeeOs.Payload CoffeeOs.Requests CoffeeOs.Requests.Request
open CoffeeOs.Listing CoffeeOs.Schema

structure RecipeIngredientDto where
  inventoryItemId : Id
  quantity : AtLeast 0
  unit : String

structure CreateRecipeDto where
  productId : Id
  name : String
  description : Property String := .undefined
  servings : Property (AtLeast 1) := .undefined
  prepTimeMinutes : Property (AtLeast 0) := .undefined
  instructions : Property String := .undefined
  ingredients : Property (List RecipeIngredientDto) := .undefined

structure UpdateRecipeDto where
  productId : Property Id := .undefined
  name : Property String := .undefined
  description : Property String := .undefined
  servings : Property (AtLeast 1) := .undefined
  prepTimeMinutes : Property (AtLeast 0) := .undefined
  instructions : Property String := .undefined
  ingredients : Property (List RecipeIngredientDto) := .undefined
  active : Property Bool := .undefined

structure QueryRecipesDto where
  skip : Option ℕ := some 0
  take : Option ℕ := some 50
  active : Option Bool := none
  search : Option String := none
  productId : Option Id := none

/-! ### What the client includes with a recipe -/

structure RecipeView where
  id : Id
  row : Recipe
  product : Option Product
  ingredients : List (RecipeIngredient × Option InventoryItem)

def ingredientsOf (db : Db) (id : Id) : List RecipeIngredient :=
  db.recipeIngredients.filter fun i => i.recipeId = id

def viewOf (db : Db) (id : Id) (row : Recipe) : RecipeView where
  id := id
  row := row
  product := db.products.find? row.productId
  ingredients := (ingredientsOf db id).map fun i => (i, db.inventoryItems.find? i.inventoryItemId)

/-- The columns of a product in the list of recipes. -/
structure ProductSelect where
  id : Id
  name : String
  sku : String

/-- The columns of an inventory item in the list of recipes. -/
structure InventoryItemSelect where
  id : Id
  code : String
  name : String
  costPerUnit : Option ℚ
  unitOfMeasure : String

structure ListedRecipeView where
  id : Id
  row : Recipe
  product : Option ProductSelect
  ingredients : List (RecipeIngredient × Option InventoryItemSelect)

def selectProduct (db : Db) (id : Id) : Option ProductSelect :=
  (db.products.find? id).map fun p => ⟨id, p.name, p.sku⟩

def selectInventoryItem (db : Db) (id : Id) : Option InventoryItemSelect :=
  (db.inventoryItems.find? id).map fun i => ⟨id, i.code, i.name, i.costPerUnit, i.unitOfMeasure⟩

def listedViewOf (id : Id) (row : Recipe) (db : Db) : ListedRecipeView where
  id := id
  row := row
  product := selectProduct db row.productId
  ingredients := (ingredientsOf db id).map fun i => (i, selectInventoryItem db i.inventoryItemId)

/-! ### The service -/

/-- The rows created for the ingredients of a payload. -/
def ingredientRows (id : Id) (ingredients : List RecipeIngredientDto) : List RecipeIngredient :=
  ingredients.map fun ingredient =>
    { recipeId := id
      inventoryItemId := ingredient.inventoryItemId
      quantity := ingredient.quantity
      unit := ingredient.unit }

/-- Verify all ingredients exist. -/
def verifyIngredients (ingredients : List RecipeIngredientDto) : Api Unit := do
  let ingredientIds := ingredients.map (·.inventoryItemId)
  let inventoryItems ← inventoryItem.findManyIn ingredientIds
  throwIf (inventoryItems.length ≠ ingredientIds.length)
    (.badRequest "One or more inventory items not found")

/-- The ingredients a payload carries; `undefined` and `null` are falsy alike. -/
def CreateRecipeDto.items (dto : CreateRecipeDto) : List RecipeIngredientDto :=
  dto.ingredients.toOption.getD []

/-- The new row of a payload. -/
def CreateRecipeDto.row (dto : CreateRecipeDto) : Recipe where
  productId := dto.productId
  name := dto.name
  description := dto.description.toOption
  servings := dto.servings.toOption.map Subtype.val
  prepTimeMinutes := dto.prepTimeMinutes.toOption.map Subtype.val
  instructions := dto.instructions.toOption

/-- No item comes twice among the ingredients, nor in the rows that the recipe has:
`@@unique([recipeId, inventoryItemId])`. -/
def Fits (rows : List RecipeIngredient) (ingredients : List RecipeIngredientDto) : Prop :=
  (ingredients.map (·.inventoryItemId)).Nodup ∧
    ∀ row ∈ rows, row.inventoryItemId ∉ ingredients.map (·.inventoryItemId)

instance (rows : List RecipeIngredient) (ingredients : List RecipeIngredientDto) :
    Decidable (Fits rows ingredients) := inferInstanceAs (Decidable (_ ∧ _))

/-- The last call of `create`: the row and the nested ingredients in one write. A new recipe has no
rows that they could clash with. -/
def writeCreate (newId : Id) (dto : CreateRecipeDto) : Api RecipeView :=
  atomically fun db =>
    match db.recipes.find? newId with
    | some _ => .error (.prisma .uniqueConstraint)
    | none =>
      if ¬ Fits [] dto.items then .error (.prisma .uniqueConstraint)
      else
        let db' := { db with
          recipes := db.recipes.put newId dto.row
          recipeIngredients := db.recipeIngredients ++ ingredientRows newId dto.items }
        .ok (viewOf db' newId dto.row, db')

def create (newId : Id) (dto : CreateRecipeDto) : Api RecipeView := do
  let found ← product.findUnique dto.productId
  let _ ← orThrow (.badRequest s!"Product with ID {dto.productId} not found") found
  if 0 < dto.items.length then
    verifyIngredients dto.items
  writeCreate newId dto

/-- The rows that a query asks for. -/
def QueryRecipesDto.selects (contains : String → String → Bool) (query : QueryRecipesDto)
    (row : Recipe) : Bool :=
  (query.active.all fun active => row.active = active) &&
  ((nonempty query.productId).all fun productId => row.productId = productId) &&
    searchIn contains query.search [some row.name, row.description]

/-- In the order of the names. -/
def findAll (contains : String → String → Bool) (arrange : Arrange Recipe)
    (query : QueryRecipesDto) : Api (Page ListedRecipeView) :=
  findPage recipe (query.selects contains) arrange (query.skip.getD 0) (query.take.getD 50)
    listedViewOf

def findOne (id : Id) : Api RecipeView := do
  let found ← look fun db => (db.recipes.find? id).map (viewOf db id)
  orThrow (.notFound s!"Recipe with ID {id} not found") found

structure IngredientCost where
  name : String
  quantity : ℚ
  unit : String
  costPerUnit : ℚ
  totalCost : ℚ

structure RecipeCost where
  recipeId : Id
  recipeName : String
  totalCost : ℚ
  currency : String
  ingredients : List IngredientCost

/-- One turn of the loop over the ingredients, which skips items without a cost. An ingredient
whose item is gone throws when the cost of the item is read. -/
def addIngredient (totalCost : ℚ) (ingredient : RecipeIngredient × Option InventoryItem) :
    Except Error ℚ :=
  match ingredient.2 with
  | none => .error .typeError
  | some inventoryItem =>
    match inventoryItem.costPerUnit with
    | none => .ok totalCost
    | some costPerUnit =>
      if costPerUnit ≠ 0 then .ok (totalCost + ingredient.1.quantity * costPerUnit)
      else .ok totalCost

/-- The entry of an ingredient, where an item without a cost costs 0. -/
def ingredientCost (ingredient : RecipeIngredient × Option InventoryItem) :
    Except Error IngredientCost :=
  match ingredient.2 with
  | none => .error .typeError
  | some inventoryItem => .ok {
      name := inventoryItem.name, quantity := ingredient.1.quantity, unit := ingredient.1.unit
      costPerUnit := inventoryItem.costPerUnit.getD 0
      totalCost := ingredient.1.quantity * inventoryItem.costPerUnit.getD 0 }

def cost (recipe : RecipeView) : Except Error RecipeCost := do
  let totalCost ← recipe.ingredients.foldlM addIngredient 0
  let ingredients ← recipe.ingredients.mapM ingredientCost
  return { recipeId := recipe.id, recipeName := recipe.row.name, totalCost, currency := "MXN",
           ingredients }

def calculateCost (id : Id) : Api RecipeCost := do
  let recipe ← findOne id
  .done (cost recipe)

/-- The row after an update by the payload. -/
def UpdateRecipeDto.apply (dto : UpdateRecipeDto) (row : Recipe) : Option Recipe := do
  let productId ← dto.productId.intoRequired row.productId
  let name ← dto.name.intoRequired row.name
  let active ← dto.active.intoRequired row.active
  return {
    productId, name, active
    description := dto.description.intoNullable row.description
    servings := (dto.servings.map Subtype.val).intoNullable row.servings
    prepTimeMinutes := (dto.prepTimeMinutes.map Subtype.val).intoNullable row.prepTimeMinutes
    instructions := dto.instructions.intoNullable row.instructions }

/-- The ingredients a payload carries; `undefined` and `null` are falsy alike. -/
def UpdateRecipeDto.items (dto : UpdateRecipeDto) : List RecipeIngredientDto :=
  dto.ingredients.toOption.getD []

/-- Verify product if changing; an empty id is not. -/
def verifyProduct (productId : Property Id) : Api Unit :=
  match productId.toOption.filter (· ≠ "") with
  | none => pure ()
  | some productId => do
    let found ← product.findUnique productId
    let _ ← orThrow (.badRequest s!"Product with ID {productId} not found") found

def deleteIngredients (id : Id) : Api Unit :=
  atomically fun db =>
    .ok ((), { db with recipeIngredients := db.recipeIngredients.filter fun i => i.recipeId ≠ id })

/-- The last call of `update`: the columns and the nested ingredients in one write. -/
def writeUpdate (id : Id) (dto : UpdateRecipeDto) : Api RecipeView :=
  atomically fun db =>
    match db.recipes.find? id with
    | none => .error (.prisma .recordNotFound)
    | some row =>
      match dto.apply row with
      | none => .error (.prisma .requiredNull)
      | some row' =>
        if ¬ Fits (ingredientsOf db id) dto.items then .error (.prisma .uniqueConstraint)
        else
          let db' := { db with
            recipes := db.recipes.put id row'
            recipeIngredients := db.recipeIngredients ++ ingredientRows id dto.items }
          .ok (viewOf db' id row', db')

def update (id : Id) (dto : UpdateRecipeDto) : Api RecipeView := do
  let found ← recipe.findUnique id
  let _ ← orThrow (.notFound s!"Recipe with ID {id} not found") found
  verifyProduct dto.productId
  if 0 < dto.items.length then
    verifyIngredients dto.items
    deleteIngredients id
  writeUpdate id dto

def remove (id : Id) : Api Unit := do
  let found ← recipe.findUnique id
  let _ ← orThrow (.notFound s!"Recipe with ID {id} not found") found
  deleteIngredients id
  recipe.delete id

/-- A call of the service; the id of a new row comes with it. -/
inductive Op
  | create (newId : Id) (dto : CreateRecipeDto)
  | update (id : Id) (dto : UpdateRecipeDto)
  | remove (id : Id)

/-- The payload names no empty product. -/
def Op.Validated : Op → Prop
  | .update _ dto => dto.productId ≠ .val ""
  | _ => True

/-- The tables after a call that runs alone. -/
def step (db : Db) : Op → Db
  | .create newId dto => ((create newId dto).exec db).2
  | .update id dto => ((update id dto).exec db).2
  | .remove id => ((remove id).exec db).2

/-! ### The checks -/

variable {db : Db} {id : Id}

/-- The check lets the ingredients through. -/
def Verified (db : Db) (ingredients : List RecipeIngredientDto) : Prop :=
  (db.inventoryItems.rows.filter fun e =>
    decide (e.1 ∈ ingredients.map (·.inventoryItemId))).length =
    (ingredients.map (·.inventoryItemId)).length

instance (db : Db) (ingredients : List RecipeIngredientDto) :
    Decidable (Verified db ingredients) := inferInstanceAs (Decidable (_ = _))

lemma verified_nil : Verified db [] := by simp [Verified]

/-- Ingredients that are let through name pairwise distinct items, all of them stored. -/
lemma verified_iff {ingredients : List RecipeIngredientDto} : Verified db ingredients ↔
    (ingredients.map (·.inventoryItemId)).Nodup ∧
      ∀ id ∈ ingredients.map (·.inventoryItemId), (db.inventoryItems.find? id).isSome :=
  Table.length_filter_mem_eq_iff

/-- Where the check has been passed and the old rows are gone, the database has nothing to
refuse. -/
lemma fits_of_verified {ingredients : List RecipeIngredientDto} (h : Verified db ingredients) :
    Fits [] ingredients := ⟨(verified_iff.mp h).1, fun _ hrow => by cases hrow⟩

lemma fits_nil (rows : List RecipeIngredient) : Fits rows [] := ⟨List.nodup_nil, by simp⟩

lemma exec_verifyIngredients (ingredients : List RecipeIngredientDto) :
    (verifyIngredients ingredients).exec db = (if Verified db ingredients then .ok () else
      .error (.badRequest "One or more inventory items not found"), db) := by
  have h : (verifyIngredients ingredients).exec db =
      (if ¬ Verified db ingredients then
        .error (.badRequest "One or more inventory items not found") else .ok (), db) :=
    exec_throwIf
  rw [h, ite_not]

/-- The product a payload of `update` names is stored, if it names one. -/
def ProductFound (db : Db) (productId : Property Id) : Prop :=
  ∀ k ∈ productId.toOption.filter (· ≠ ""), (db.products.find? k).isSome

instance (db : Db) (productId : Property Id) : Decidable (ProductFound db productId) :=
  inferInstanceAs (Decidable (∀ k ∈ _, _))

lemma exec_verifyProduct (db : Db) (productId : Property Id) :
    (verifyProduct productId).exec db =
      (if ProductFound db productId then .ok ()
        else .error (.badRequest s!"Product with ID {productId.toOption.getD default} not found"),
        db) := by
  rcases h : productId.toOption.filter (· ≠ "") with _ | k
  · -- no product is named, or an empty id, and nothing is looked for
    have hfound : ProductFound db productId := by
      intro k hk
      rw [h] at hk
      cases hk
    rw [if_pos hfound, verifyProduct, h]
    rfl
  · have hnamed : productId.toOption = some k := (Option.filter_eq_some_iff.mp h).1
    have hfound : ProductFound db productId ↔ (db.products.find? k).isSome := by
      unfold ProductFound
      rw [h]
      simp
    rw [verifyProduct, h, hnamed]
    show (product.findUnique k >>= fun found => orThrow _ found >>= fun _ => pure ()).exec db = _
    rw [Delegate.exec_findUnique_orThrow, product]
    rcases hk : db.products.find? k with _ | row
    · rw [if_neg (by simp [hfound, hk])]
      rfl
    · rw [if_pos (by simp [hfound, hk])]
      rfl

/-! ### The tables after each call -/

/-- The answer of `create`, and the tables it leaves. -/
lemma exec_create (newId : Id) (dto : CreateRecipeDto) :
    (create newId dto).exec db = match db.products.find? dto.productId with
      | none => (.error (.badRequest s!"Product with ID {dto.productId} not found"), db)
      | some _ =>
        if ¬ Verified db dto.items then
          (.error (.badRequest "One or more inventory items not found"), db)
        else match db.recipes.find? newId with
          | some _ => (.error (.prisma .uniqueConstraint), db)
          | none =>
            let db' := { db with
              recipes := db.recipes.put newId dto.row
              recipeIngredients := db.recipeIngredients ++ ingredientRows newId dto.items }
            (.ok (viewOf db' newId dto.row), db') := by
  -- a new recipe has no rows yet, so only the items among themselves may repeat
  have hwrite (hfits : Fits [] dto.items) : (writeCreate newId dto).exec db =
      match db.recipes.find? newId with
      | some _ => (.error (.prisma .uniqueConstraint), db)
      | none =>
        let db' := { db with
          recipes := db.recipes.put newId dto.row
          recipeIngredients := db.recipeIngredients ++ ingredientRows newId dto.items }
        (.ok (viewOf db' newId dto.row), db') := by
    rw [writeCreate, exec_atomically]
    rcases h : db.recipes.find? newId with _ | row <;> simp [hfits]
  rw [create, Delegate.exec_findUnique_orThrow, product]
  rcases hp : db.products.find? dto.productId with _ | row
  · rfl
  dsimp only
  rcases hi : dto.items with _ | ⟨item, items⟩
  · rw [hi] at hwrite
    rw [if_neg (by simp), if_neg (not_not.mpr verified_nil)]
    exact hwrite (fits_nil [])
  · rw [hi] at hwrite
    rw [if_pos (by simp), exec_bind, exec_verifyIngredients]
    by_cases hv : Verified db (item :: items)
    · -- the items have been counted, and so no two of them are the same
      rw [if_pos hv, if_neg (not_not.mpr hv)]
      exact hwrite (fits_of_verified hv)
    · rw [if_neg hv, if_pos hv]

lemma step_create (newId : Id) (dto : CreateRecipeDto) :
    step db (.create newId dto) =
      if (db.products.find? dto.productId).isSome ∧ Verified db dto.items ∧
          db.recipes.find? newId = none then { db with
        recipes := db.recipes.put newId dto.row
        recipeIngredients := db.recipeIngredients ++ ingredientRows newId dto.items }
      else db := by
  show ((create newId dto).exec db).2 = _
  rw [exec_create]
  rcases db.products.find? dto.productId with _ | row
  · simp
  by_cases hv : Verified db dto.items
  · rcases db.recipes.find? newId with _ | row <;> simp [hv]
  · simp [hv]

/-- The ingredients that an update by the payload leaves in place. -/
def keptIngredients (db : Db) (id : Id) (dto : UpdateRecipeDto) : List RecipeIngredient :=
  if 0 < dto.items.length then db.recipeIngredients.filter fun i => i.recipeId ≠ id
  else db.recipeIngredients

/-- The answer of `update`, and the tables it leaves. An update that is let through clears the old
ingredients before its last call, which may still fail on a `null`. -/
lemma exec_update (dto : UpdateRecipeDto) :
    (update id dto).exec db = match db.recipes.find? id with
      | none => (.error (.notFound s!"Recipe with ID {id} not found"), db)
      | some row =>
        if ¬ ProductFound db dto.productId then
          (.error (.badRequest
            s!"Product with ID {dto.productId.toOption.getD default} not found"), db)
        else if ¬ Verified db dto.items then
          (.error (.badRequest "One or more inventory items not found"), db)
        else match dto.apply row with
          | none =>
            (.error (.prisma .requiredNull),
              { db with recipeIngredients := keptIngredients db id dto })
          | some row' =>
            let db' := { db with
              recipes := db.recipes.put id row'
              recipeIngredients := keptIngredients db id dto ++ ingredientRows id dto.items }
            (.ok (viewOf db' id row'), db') := by
  rw [update, Delegate.exec_findUnique_orThrow, recipe]
  rcases hrow : db.recipes.find? id with _ | row
  · rfl
  dsimp only
  rw [exec_bind, exec_verifyProduct]
  by_cases hp : ProductFound db dto.productId
  swap
  · rw [if_neg hp, if_pos hp]
  rw [if_pos hp, if_neg (not_not.mpr hp)]
  dsimp only
  -- whatever the calls before have deleted, the last one writes on top of it
  have hwrite : ∀ rows, Fits (ingredientsOf { db with recipeIngredients := rows } id) dto.items →
      (writeUpdate id dto).exec { db with recipeIngredients := rows } =
        match dto.apply row with
        | none => (.error (.prisma .requiredNull), { db with recipeIngredients := rows })
        | some row' =>
          let db' := { db with
            recipes := db.recipes.put id row'
            recipeIngredients := rows ++ ingredientRows id dto.items }
          (.ok (viewOf db' id row'), db') := by
    intro rows hfits
    rw [writeUpdate, exec_atomically]
    rcases ha : dto.apply row with _ | row' <;> simp [hrow, ha, hfits]
  rcases hi : dto.items with _ | ⟨item, items⟩
  · -- without ingredients nothing is deleted, and nothing is added
    have hkeep : keptIngredients db id dto = db.recipeIngredients := by
      simp [keptIngredients, hi]
    have hlast := hwrite db.recipeIngredients
    rw [hi] at hlast
    rw [if_neg (by simp), hkeep, if_neg (not_not.mpr verified_nil)]
    exact hlast (fits_nil _)
  · have hkeep : keptIngredients db id dto =
        db.recipeIngredients.filter fun i => i.recipeId ≠ id := by
      simp [keptIngredients, hi]
    have hlast := hwrite (keptIngredients db id dto)
    rw [hi, hkeep] at hlast
    rw [if_pos (by simp), exec_bind, exec_verifyIngredients, hkeep]
    by_cases hv : Verified db (item :: items)
    · -- all rows of the recipe are gone by now, so that none of the new ones repeats an old one
      have hnone : ingredientsOf { db with
          recipeIngredients := db.recipeIngredients.filter fun i => i.recipeId ≠ id } id = [] :=
        Table.filter_dropped_self _
      rw [hnone] at hlast
      rw [if_pos hv, if_neg (not_not.mpr hv)]
      exact hlast (fits_of_verified hv)
    · rw [if_neg hv, if_pos hv]

/-- **The constraint.** A call that runs alone is never refused for an ingredient that is there
already: its check has found the items distinct, and an update has cleared the old ones. -/
theorem never_refused_for_ingredients (db : Db) :
    (∀ newId dto, db.recipes.find? newId = none →
      ((create newId dto).exec db).1 ≠ .error (.prisma .uniqueConstraint)) ∧
    ∀ id dto, ((update id dto).exec db).1 ≠ .error (.prisma .uniqueConstraint) := by
  refine ⟨fun newId dto hnew => ?_, fun id dto => ?_⟩
  · rw [exec_create, hnew]
    rcases db.products.find? dto.productId with _ | row
    · simp
    · by_cases hv : Verified db dto.items <;> simp [hv]
  · rw [exec_update]
    rcases db.recipes.find? id with _ | row
    · simp
    dsimp only
    by_cases hp : ProductFound db dto.productId
    swap
    · simp [hp]
    by_cases hv : Verified db dto.items
    swap
    · simp [hp, hv]
    rcases dto.apply row with _ | row' <;> simp [hp, hv]

/-- What a call of `update` has passed that goes through. -/
lemma of_accepts_update {dto : UpdateRecipeDto} (h : (update id dto).Accepts db) :
    ∃ row row', db.recipes.find? id = some row ∧ ProductFound db dto.productId ∧
      Verified db dto.items ∧ dto.apply row = some row' := by
  obtain ⟨view, hview⟩ := h
  rw [exec_update] at hview
  rcases hrow : db.recipes.find? id with _ | row
  · simp [hrow] at hview
  by_cases hp : ProductFound db dto.productId
  swap
  · simp [hrow, hp] at hview
  by_cases hv : Verified db dto.items
  swap
  · simp [hrow, hp, hv] at hview
  rcases ha : dto.apply row with _ | row'
  · simp [hrow, hp, hv, ha] at hview
  · exact ⟨row, row', rfl, hp, hv, ha⟩

lemma step_update (dto : UpdateRecipeDto) :
    step db (.update id dto) = match db.recipes.find? id with
      | none => db
      | some row =>
        if ¬ ProductFound db dto.productId ∨ ¬ Verified db dto.items then db
        else match dto.apply row with
          | none => { db with recipeIngredients := keptIngredients db id dto }
          | some row' => { db with
              recipes := db.recipes.put id row'
              recipeIngredients := keptIngredients db id dto ++ ingredientRows id dto.items } := by
  show ((update id dto).exec db).2 = _
  rw [exec_update]
  rcases db.recipes.find? id with _ | row
  · rfl
  dsimp only
  by_cases hp : ProductFound db dto.productId
  swap
  · rw [if_pos hp, if_pos (Or.inl hp)]
  by_cases hv : Verified db dto.items
  · rw [if_neg (not_not.mpr hp), if_neg (not_not.mpr hv), if_neg (by simp [hp, hv])]
    rcases dto.apply row with _ | row' <;> rfl
  · rw [if_neg (not_not.mpr hp), if_pos hv, if_pos (Or.inr hv)]

lemma step_remove : step db (.remove id) = match db.recipes.find? id with
    | none => db
    | some _ => { db with
        recipeIngredients := db.recipeIngredients.filter fun i => i.recipeId ≠ id
        recipes := db.recipes.erase id } := by
  show ((remove id).exec db).2 = _
  rw [remove, Delegate.exec_findUnique_orThrow, recipe]
  rcases hrow : db.recipes.find? id with _ | row
  · rfl
  · show ((recipe.delete id).exec { db with
      recipeIngredients := db.recipeIngredients.filter fun i => i.recipeId ≠ id }).2 = _
    rw [Delegate.exec_delete]
    · rfl
    · exact hrow

/-- What a call can make of the tables. -/
inductive Outcome (db : Db) : Op → Db → Prop
  | kept (op : Op) : Outcome db op db
  | created {newId : Id} {dto : CreateRecipeDto}
      (product : (db.products.find? dto.productId).isSome) (verified : Verified db dto.items)
      (unused : db.recipes.find? newId = none) : Outcome db (.create newId dto) { db with
        recipes := db.recipes.put newId dto.row
        recipeIngredients := db.recipeIngredients ++ ingredientRows newId dto.items }
  | cleared {id : Id} {dto : UpdateRecipeDto} {row : Recipe}
      (stored : db.recipes.find? id = some row) (verified : Verified db dto.items)
      (null : dto.apply row = none) :
      Outcome db (.update id dto) { db with recipeIngredients := keptIngredients db id dto }
  | updated {id : Id} {dto : UpdateRecipeDto} {row row' : Recipe}
      (stored : db.recipes.find? id = some row) (product : ProductFound db dto.productId)
      (verified : Verified db dto.items) (applied : dto.apply row = some row') :
      Outcome db (.update id dto) { db with
        recipes := db.recipes.put id row'
        recipeIngredients := keptIngredients db id dto ++ ingredientRows id dto.items }
  | removed {id : Id} {row : Recipe} (stored : db.recipes.find? id = some row) :
      Outcome db (.remove id) { db with
        recipeIngredients := db.recipeIngredients.filter fun i => i.recipeId ≠ id
        recipes := db.recipes.erase id }

/-- **One call.** A call lets the tables be, or has the outcome of its kind. -/
theorem step_outcome (op : Op) : Outcome db op (step db op) := by
  cases op with
  | create newId dto =>
    rw [step_create]
    split
    · rename_i hc
      exact .created hc.1 hc.2.1 hc.2.2
    · exact .kept _
  | update id dto =>
    rw [step_update]
    rcases hrow : db.recipes.find? id with _ | row
    · exact .kept _
    dsimp only
    split
    · exact .kept _
    rename_i hc
    obtain ⟨hproduct, hv⟩ := not_or.mp hc
    rcases ha : dto.apply row with _ | row'
    · -- the rows are gone, though the recipe cannot be written
      exact .cleared hrow (not_not.mp hv) ha
    · exact .updated hrow (not_not.mp hproduct) (not_not.mp hv) ha
  | remove id =>
    rw [step_remove]
    rcases hrow : db.recipes.find? id with _ | row
    · exact .kept _
    · exact .removed hrow

/-- A call changes the recipes and their ingredients, and nothing else. -/
lemma step_frame (op : Op) : step db op = { db with
    recipes := (step db op).recipes
    recipeIngredients := (step db op).recipeIngredients } := by
  have h : Outcome db op (step db op) := step_outcome op
  generalize step db op = db' at h ⊢
  cases h <;> rfl

/-- An update keeps the product, or sets the one its payload carries. -/
lemma apply_productId {dto : UpdateRecipeDto} {row row' : Recipe} (h : dto.apply row = some row') :
    row'.productId = row.productId ∨ dto.productId = .val row'.productId := by
  unfold UpdateRecipeDto.apply at h
  simp only [Option.bind_eq_bind, Option.bind_eq_some_iff] at h
  obtain ⟨productId, hproduct, name, -, active, -, h⟩ := h
  rw [← Option.some.inj h]
  exact (Property.intoRequired_eq_some_iff.mp hproduct).imp_left And.right

end CoffeeOs.Recipes
