import CoffeeOs.Schema

/-!
The service of products.

A product is deleted unless lines of tickets name it, and its recipes and the links to its
modifiers go with it by the cascades of the schema.
-/

namespace CoffeeOs.Products

open CoffeeOs.KeyedTable CoffeeOs.Payload CoffeeOs.Requests CoffeeOs.Requests.Request
open CoffeeOs.Schema

structure CreateProductDto where
  categoryId : NotEmpty
  sku : NotEmpty
  name : NotEmpty
  description : Property String := .undefined
  image : Property String := .undefined
  price : AtLeast 0
  cost : Property (AtLeast 0) := .undefined
  taxRate : Property (AtLeast 0) := .undefined
  allowModifiers : Property Bool := .undefined
  trackInventory : Property Bool := .undefined
  active : Property Bool := .undefined

structure UpdateProductDto where
  categoryId : Property NotEmpty := .undefined
  sku : Property NotEmpty := .undefined
  name : Property NotEmpty := .undefined
  description : Property String := .undefined
  image : Property String := .undefined
  price : Property (AtLeast 0) := .undefined
  cost : Property (AtLeast 0) := .undefined
  taxRate : Property (AtLeast 0) := .undefined
  allowModifiers : Property Bool := .undefined
  trackInventory : Property Bool := .undefined
  active : Property Bool := .undefined

/-! ### What the client includes with a product -/

structure ProductView where
  id : Id
  row : Product
  category : Option Category

def viewOf (id : Id) (row : Product) (db : Db) : ProductView where
  id := id
  row := row
  category := db.categories.find? row.categoryId

/-! ### The service -/

/-- The new row of a payload. -/
def CreateProductDto.row (dto : CreateProductDto) : Option Product := do
  let cost ← (dto.cost.map Subtype.val).intoRequired 0
  let taxRate ← (dto.taxRate.map Subtype.val).intoRequired (4 / 25)
  let allowModifiers ← dto.allowModifiers.intoRequired true
  let trackInventory ← dto.trackInventory.intoRequired true
  let active ← dto.active.intoRequired true
  return {
    categoryId := dto.categoryId, sku := dto.sku, name := dto.name, price := dto.price
    description := dto.description.toOption
    image := dto.image.toOption
    cost, taxRate, allowModifiers, trackInventory, active }

/-- Verify category exists. -/
def verifyCategory (categoryId : Id) : Api Unit := do
  let found ← category.findUnique categoryId
  let _ ← orThrow (.badRequest s!"Category with ID {categoryId} not found") found

def create (newId : Id) (dto : CreateProductDto) : Api ProductView := do
  let existing ← product.findFirst fun row => row.sku = dto.sku
  throwIf existing.isSome (.conflict s!"Product with SKU {dto.sku.val} already exists")
  verifyCategory dto.categoryId
  product.createFrom newId dto.row (viewOf newId)

def findBySku (sku : String) : Api ProductView := do
  let found ← product.findUniqueBy Product.sku sku viewOf
  orThrow (.notFound s!"Product with SKU {sku} not found") found

/-- The row after an update by the payload. -/
def UpdateProductDto.apply (dto : UpdateProductDto) (row : Product) : Option Product := do
  let categoryId ← (dto.categoryId.map Subtype.val).intoRequired row.categoryId
  let sku ← (dto.sku.map Subtype.val).intoRequired row.sku
  let name ← (dto.name.map Subtype.val).intoRequired row.name
  let price ← (dto.price.map Subtype.val).intoRequired row.price
  let cost ← (dto.cost.map Subtype.val).intoRequired row.cost
  let taxRate ← (dto.taxRate.map Subtype.val).intoRequired row.taxRate
  let allowModifiers ← dto.allowModifiers.intoRequired row.allowModifiers
  let trackInventory ← dto.trackInventory.intoRequired row.trackInventory
  let active ← dto.active.intoRequired row.active
  return {
    categoryId, sku, name, price, cost, taxRate, allowModifiers, trackInventory, active
    description := dto.description.intoNullable row.description
    image := dto.image.intoNullable row.image }

/-- If updating SKU, check for conflicts. -/
def checkSku (sku : Property NotEmpty) (row : Product) : Api Unit :=
  checkSome (sku.toOption.filter fun sku => sku.val ≠ row.sku) fun sku => do
    let existing ← product.findFirst fun row => row.sku = sku
    throwIf existing.isSome (.conflict s!"Product with SKU {sku.val} already exists")

/-- If updating category, verify it exists. -/
def checkCategory (categoryId : Property NotEmpty) : Api Unit :=
  checkSome categoryId.toOption fun categoryId => verifyCategory categoryId

def update (id : Id) (dto : UpdateProductDto) : Api ProductView := do
  let found ← product.findUnique id
  let row ← orThrow (.notFound s!"Product with ID {id} not found") found
  checkSku dto.sku row
  checkCategory dto.categoryId
  product.update id dto.apply (viewOf id)

def countTicketLines (db : Db) (id : Id) : ℕ :=
  (db.ticketLines.filter fun l => l.productId = id).length

/-- The rows that go with a product: its recipes with their ingredients, and the links to its
modifiers. -/
def cascade (id : Id) (db : Db) : Db :=
  let orphaned := fun recipeId => (db.recipes.find? recipeId).any fun r => r.productId = id
  { db with
    recipes := db.recipes.keep fun _ r => r.productId ≠ id
    recipeIngredients := db.recipeIngredients.filter fun i => ¬ orphaned i.recipeId
    productModifiers := db.productModifiers.filter fun m => m.productId ≠ id }

/-- Soft delete if product has been used in tickets. -/
def remove (id : Id) : Api Product :=
  product.removeUnused id (.notFound s!"Product with ID {id} not found")
    (fun db => countTicketLines db id > 0) (fun row => { row with active := false }) (cascade id)

/-- A call of the service that writes; the id of a new row comes with it. -/
inductive Op
  | create (newId : Id) (dto : CreateProductDto)
  | update (id : Id) (dto : UpdateProductDto)
  | remove (id : Id)

/-- The tables after a call that runs alone. -/
def step (db : Db) : Op → Db
  | .create newId dto => ((create newId dto).exec db).2
  | .update id dto => ((update id dto).exec db).2
  | .remove id => ((remove id).exec db).2

/-! ### The tables after each call -/

variable {db : Db} {id : Id}

lemma checks_verifyCategory (categoryId : Id) :
    (verifyCategory categoryId).Checks db ((db.categories.find? categoryId).isSome) :=
  Delegate.checks_found _

/-- The payload passes the checks of `create`. -/
def CreateChecked (db : Db) (dto : CreateProductDto) : Prop :=
  ¬ (db.products.Any fun _ row => row.sku = dto.sku.val) ∧
    (db.categories.find? dto.categoryId).isSome

instance (db : Db) (dto : CreateProductDto) : Decidable (CreateChecked db dto) :=
  inferInstanceAs (Decidable (_ ∧ _))

lemma step_create (newId : Id) (dto : CreateProductDto) :
    step db (.create newId dto) =
      if CreateChecked db dto ∧ db.products.find? newId = none then
        match dto.row with
        | none => db
        | some row => { db with products := db.products.put newId row }
      else db := by
  show ((create newId dto).exec db).2 = _
  rw [create, Delegate.store_findFirst_throwIf, (checks_verifyCategory dto.categoryId).store,
    Delegate.store_createFrom, ← ite_and, ← ite_and]
  rcases dto.row with _ | row <;> rfl

/-- The SKU of a payload, if it is new, is free. -/
def SkuFree (db : Db) (sku : Property NotEmpty) (row : Product) : Prop :=
  ∀ s ∈ sku.toOption.filter fun s => s.val ≠ row.sku,
    ¬ db.products.Any fun _ other => other.sku = s.val

instance (db : Db) (sku : Property NotEmpty) (row : Product) : Decidable (SkuFree db sku row) :=
  inferInstanceAs (Decidable (∀ s ∈ _, _))

/-- The category of a payload, if it has one, is stored. -/
def CategoryFound (db : Db) (categoryId : Property NotEmpty) : Prop :=
  ∀ k ∈ categoryId.toOption, (db.categories.find? k).isSome

instance (db : Db) (categoryId : Property NotEmpty) : Decidable (CategoryFound db categoryId) :=
  inferInstanceAs (Decidable (∀ k ∈ _, _))

lemma checks_checkSku (sku : Property NotEmpty) (row : Product) :
    (checkSku sku row).Checks db (SkuFree db sku row) :=
  checks_checkSome fun _ _ => Delegate.checks_findFirst _ _

lemma checks_checkCategory (categoryId : Property NotEmpty) :
    (checkCategory categoryId).Checks db (CategoryFound db categoryId) :=
  checks_checkSome fun _ _ => checks_verifyCategory _

lemma step_update (dto : UpdateProductDto) :
    step db (.update id dto) = match db.products.find? id with
      | none => db
      | some row =>
        if SkuFree db dto.sku row ∧ CategoryFound db dto.categoryId then
          match dto.apply row with
          | none => db
          | some row' => { db with products := db.products.put id row' }
        else db := by
  show ((update id dto).exec db).2 = _
  rw [update, Delegate.exec_findUnique_orThrow, product]
  rcases hrow : db.products.find? id with _ | row
  · rfl
  dsimp only
  rw [(checks_checkSku dto.sku row).store, (checks_checkCategory dto.categoryId).store,
    Delegate.exec_update_stored hrow, ite_and]
  rcases dto.apply row with _ | row' <;> rfl

lemma step_remove : step db (.remove id) = match db.products.find? id with
    | none => db
    | some row =>
      if countTicketLines db id > 0 then
        { db with products := db.products.put id { row with active := false } }
      else cascade id { db with products := db.products.erase id } := by
  show ((remove id).exec db).2 = _
  rw [remove, Delegate.exec_removeUnused, product]
  rcases db.products.find? id with _ | row
  · rfl
  · simp only [decide_eq_true_eq]

/-- What a call makes of the tables. -/
inductive Outcome (db : Db) : Op → Db → Prop
  | kept (op : Op) : Outcome db op db
  | created {newId : Id} {dto : CreateProductDto} {row : Product} (checked : CreateChecked db dto)
      (unused : db.products.find? newId = none) (applied : dto.row = some row) :
      Outcome db (.create newId dto) { db with products := db.products.put newId row }
  | updated {id : Id} {dto : UpdateProductDto} {row row' : Product}
      (stored : db.products.find? id = some row) (free : SkuFree db dto.sku row)
      (category : CategoryFound db dto.categoryId) (applied : dto.apply row = some row') :
      Outcome db (.update id dto) { db with products := db.products.put id row' }
  | retired {id : Id} {row : Product} (stored : db.products.find? id = some row) :
      Outcome db (.remove id)
        { db with products := db.products.put id { row with active := false } }
  | removed {id : Id} {row : Product} (stored : db.products.find? id = some row) :
      Outcome db (.remove id) (cascade id { db with products := db.products.erase id })

/-- **One call.** A call lets the tables be, or has the outcome of its kind. -/
theorem step_outcome (op : Op) : Outcome db op (step db op) := by
  cases op with
  | create newId dto =>
    rw [step_create]
    split
    · rename_i hc
      rcases hrow : dto.row with _ | row
      · exact .kept _
      · exact .created hc.1 hc.2 hrow
    · exact .kept _
  | update id dto =>
    rw [step_update]
    rcases hrow : db.products.find? id with _ | row
    · exact .kept _
    dsimp only
    split
    · rename_i hc
      rcases ha : dto.apply row with _ | row'
      · exact .kept _
      · exact .updated hrow hc.1 hc.2 ha
    · exact .kept _
  | remove id =>
    rw [step_remove]
    rcases hrow : db.products.find? id with _ | row
    · exact .kept _
    dsimp only
    split
    · -- the product has been sold, and is only switched off
      exact .retired hrow
    · exact .removed hrow

/-- A call changes the products and what goes with them, and nothing else. -/
lemma step_frame (op : Op) : step db op = { db with
    products := (step db op).products
    recipes := (step db op).recipes
    recipeIngredients := (step db op).recipeIngredients
    productModifiers := (step db op).productModifiers } := by
  have h : Outcome db op (step db op) := step_outcome op
  generalize step db op = db' at h ⊢
  cases h <;> rfl

lemma stores_step {op : Op} (hop : ∀ k, op ≠ .remove k) :
    db.products.Stores (step db op).products := by
  have h : Outcome db op (step db op) := step_outcome op
  generalize step db op = db' at h ⊢
  cases h with
  | kept => exact Table.stores_refl
  | removed => exact absurd rfl (hop _)
  | _ => exact Table.stores_put

/-- A call keeps a product, unless it removes it and no line of a ticket names it. -/
lemma stored_step_iff {k : Id} (op : Op) (h : (db.products.find? k).isSome) :
    ((step db op).products.find? k).isSome ↔ (op = .remove k → countTicketLines db k > 0) := by
  by_cases hop : ∀ k, op ≠ .remove k
  · exact iff_of_true ((stores_step hop).isSome h) fun he => absurd he (hop k)
  obtain ⟨id, rfl⟩ := not_forall_not.mp hop
  show ((product.get ((remove id).exec db).2).find? k).isSome ↔ _
  rw [remove, Delegate.stored_removeUnused_iff (cascade id) (fun _ _ => rfl) (fun _ => rfl) h,
    Op.remove.injEq]
  exact imp_congr_right fun hid => by rw [hid, decide_eq_true_eq]

/-! ### The category of a row -/

lemma row_categoryId {dto : CreateProductDto} {row : Product} (h : dto.row = some row) :
    row.categoryId = dto.categoryId := by
  unfold CreateProductDto.row at h
  simp only [Option.bind_eq_bind, Option.bind_eq_some_iff] at h
  obtain ⟨cost, -, taxRate, -, allowModifiers, -, trackInventory, -, active, -, h⟩ := h
  rw [← Option.some.inj h]

/-- An update keeps the category, or sets the one its payload carries. -/
lemma apply_categoryId {dto : UpdateProductDto} {row row' : Product}
    (h : dto.apply row = some row') :
    row'.categoryId = row.categoryId ∨
      ∃ categoryId, dto.categoryId = .val categoryId ∧ row'.categoryId = categoryId := by
  unfold UpdateProductDto.apply at h
  simp only [Option.bind_eq_bind, Option.bind_eq_some_iff] at h
  obtain ⟨categoryId, hcategory, sku, -, name, -, price, -, cost, -, taxRate, -, allowModifiers, -,
    trackInventory, -, active, -, h⟩ := h
  rw [← Option.some.inj h]
  rcases Property.intoRequired_eq_some_iff.mp hcategory with ⟨-, hold⟩ | hnew
  · exact Or.inl hold
  · obtain ⟨k, hk, rfl⟩ := Property.map_eq_val_iff.mp hnew
    exact Or.inr ⟨k, hk, rfl⟩

/-! ### The SKU of a row -/

lemma row_sku {dto : CreateProductDto} {row : Product} (h : dto.row = some row) :
    row.sku = dto.sku := by
  unfold CreateProductDto.row at h
  simp only [Option.bind_eq_bind, Option.bind_eq_some_iff] at h
  obtain ⟨cost, -, taxRate, -, allowModifiers, -, trackInventory, -, active, -, h⟩ := h
  rw [← Option.some.inj h]

/-- An update keeps the SKU, or sets the one its payload carries. -/
lemma apply_sku {dto : UpdateProductDto} {row row' : Product} (h : dto.apply row = some row') :
    row'.sku = row.sku ∨ ∃ sku, dto.sku = .val sku ∧ row'.sku = sku := by
  unfold UpdateProductDto.apply at h
  simp only [Option.bind_eq_bind, Option.bind_eq_some_iff] at h
  obtain ⟨categoryId, -, sku, hsku, name, -, price, -, cost, -, taxRate, -, allowModifiers, -,
    trackInventory, -, active, -, h⟩ := h
  rw [← Option.some.inj h]
  rcases Property.intoRequired_eq_some_iff.mp hsku with ⟨-, hold⟩ | hnew
  · exact Or.inl hold
  · obtain ⟨s, hs, rfl⟩ := Property.map_eq_val_iff.mp hnew
    exact Or.inr ⟨s, hs, rfl⟩

end CoffeeOs.Products
