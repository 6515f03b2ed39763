import CoffeeOs.Listing

/-!
The service of inventory items.

An item that recipes are made of, or that has been moved, is not deleted but made inactive.
-/

namespace CoffeeOs.InventoryItems

open CoffeeOs.KeyedTable CoffeeOs.Payload CoffeeOs.Requests CoffeeOs.Requests.Request
open CoffeeOs.Listing CoffeeOs.Schema

structure CreateInventoryItemDto where
  code : NotEmpty
  name : NotEmpty
  description : Property String := .undefined
  unitOfMeasure : NotEmpty
  costPerUnit : Property (AtLeast 0) := .undefined
  parLevel : Property (AtLeast 0) := .undefined
  reorderPoint : Property (AtLeast 0) := .undefined
  category : Property String := .undefined
  supplierId : Property Id := .undefined

structure UpdateInventoryItemDto where
  code : Property NotEmpty := .undefined
  name : Property NotEmpty := .undefined
  description : Property String := .undefined
  unitOfMeasure : Property NotEmpty := .undefined
  costPerUnit : Property (AtLeast 0) := .undefined
  parLevel : Property (AtLeast 0) := .undefined
  reorderPoint : Property (AtLeast 0) := .undefined
  category : Property String := .undefined
  supplierId : Property Id := .undefined
  active : Property Bool := .undefined

structure QueryInventoryItemsDto where
  skip : Option ℕ := none
  take : Option ℕ := none
  active : Option Bool := none
  category : Option String := none
  search : Option String := none
  supplierId : Option String := none
  lowStock : Option Bool := none

/-! ### What the client includes with an item -/

def countRecipeIngredients (db : Db) (id : Id) : ℕ :=
  (db.recipeIngredients.filter fun i => i.inventoryItemId = id).length

def countMovements (db : Db) (id : Id) : ℕ :=
  (db.inventoryMovements.rows.filter fun e => e.2.inventoryItemId = id).length

lemma countRecipeIngredients_pos_iff {db : Db} {id : Id} :
    countRecipeIngredients db id > 0 ↔ ∃ i ∈ db.recipeIngredients, i.inventoryItemId = id := by
  simp [countRecipeIngredients]

lemma countMovements_pos_iff {db : Db} {id : Id} :
    countMovements db id > 0 ↔ ∃ m ∈ db.inventoryMovements.values, m.inventoryItemId = id :=
  Table.length_filter_pos_iff (p := fun m : InventoryMovement => m.inventoryItemId = id)

structure InventoryItemView where
  id : Id
  row : InventoryItem
  supplier : Option Supplier

structure CountedItemView extends InventoryItemView where
  recipeIngredients : ℕ
  inventoryMovements : ℕ

def viewOf (id : Id) (row : InventoryItem) (db : Db) : InventoryItemView where
  id := id
  row := row
  supplier := row.supplierId.bind db.suppliers.find?

def countedViewOf (id : Id) (row : InventoryItem) (db : Db) : CountedItemView where
  toInventoryItemView := viewOf id row db
  recipeIngredients := countRecipeIngredients db id
  inventoryMovements := countMovements db id

/-- The columns of a supplier in the list of items. -/
structure SupplierSelect where
  id : Id
  name : String
  contactName : Option String

structure ListedItemView where
  id : Id
  row : InventoryItem
  supplier : Option SupplierSelect
  recipeIngredients : ℕ
  inventoryMovements : ℕ

def selectSupplier (db : Db) (id : Id) : Option SupplierSelect :=
  (db.suppliers.find? id).map fun s => ⟨id, s.name, s.contactName⟩

def listedViewOf (id : Id) (row : InventoryItem) (db : Db) : ListedItemView where
  id := id
  row := row
  supplier := row.supplierId.bind (selectSupplier db)
  recipeIngredients := countRecipeIngredients db id
  inventoryMovements := countMovements db id

/-! ### The service -/

/-- Verify supplier exists if provided; an empty id is not. -/
def verifySupplier (supplierId : Property Id) : Api Unit :=
  checkSome (supplierId.toOption.filter (· ≠ "")) fun supplierId => do
    let found ← supplier.findUnique supplierId
    let _ ← orThrow (.badRequest s!"Supplier with ID {supplierId} not found") found

/-- The new row of a payload. -/
def CreateInventoryItemDto.row (dto : CreateInventoryItemDto) : Option InventoryItem := do
  let costPerUnit ← (dto.costPerUnit.map Subtype.val).intoRequired 0
  let parLevel ← (dto.parLevel.map Subtype.val).intoRequired 0
  let reorderPoint ← (dto.reorderPoint.map Subtype.val).intoRequired 0
  return {
    code := dto.code, name := dto.name, unitOfMeasure := dto.unitOfMeasure
    costPerUnit := some costPerUnit, parLevel, reorderPoint
    description := dto.description.toOption
    category := dto.category.toOption
    supplierId := dto.supplierId.toOption }

def create (newId : Id) (dto : CreateInventoryItemDto) : Api CountedItemView := do
  let existing ← inventoryItem.findFirst fun row => row.code = dto.code
  throwIf existing.isSome (.conflict s!"Inventory item with code {dto.code.val} already exists")
  verifySupplier dto.supplierId
  inventoryItem.createFrom newId dto.row (countedViewOf newId)

/-- The rows that a query asks for, whatever its `lowStock` is. -/
def QueryInventoryItemsDto.selects (contains : String → String → Bool)
    (query : QueryInventoryItemsDto) (row : InventoryItem) : Bool :=
  (query.active.all fun active => row.active = active) &&
  ((nonempty query.category).all fun category => row.category = some category) &&
  ((nonempty query.supplierId).all fun supplierId => row.supplierId = some supplierId) &&
    searchIn contains query.search [some row.name, some row.code, row.description]

/-- In the order of the names. -/
def findAll (contains : String → String → Bool) (arrange : Arrange InventoryItem)
    (query : QueryInventoryItemsDto) : Api (Page ListedItemView) :=
  findPage inventoryItem (query.selects contains) arrange (query.skip.getD 0)
    (query.take.getD 50) listedViewOf

def findByCode (code : String) : Api InventoryItemView := do
  let found ← inventoryItem.findUniqueBy InventoryItem.code code viewOf
  orThrow (.notFound s!"Inventory item with code {code} not found") found

/-- The row after an update by the payload. -/
def UpdateInventoryItemDto.apply (dto : UpdateInventoryItemDto) (row : InventoryItem) :
    Option InventoryItem := do
  let code ← (dto.code.map Subtype.val).intoRequired row.code
  let name ← (dto.name.map Subtype.val).intoRequired row.name
  let unitOfMeasure ← (dto.unitOfMeasure.map Subtype.val).intoRequired row.unitOfMeasure
  let costPerUnit ← (dto.costPerUnit.map fun cost => some cost.val).intoRequired row.costPerUnit
  let parLevel ← (dto.parLevel.map Subtype.val).intoRequired row.parLevel
  let reorderPoint ← (dto.reorderPoint.map Subtype.val).intoRequired row.reorderPoint
  let active ← dto.active.intoRequired row.active
  return { row with
    code, name, unitOfMeasure, costPerUnit, parLevel, reorderPoint, active
    description := dto.description.intoNullable row.description
    category := dto.category.intoNullable row.category
    supplierId := dto.supplierId.intoNullable row.supplierId }

/-- If updating code, check for conflicts. -/
def checkCode (code : Property NotEmpty) (row : InventoryItem) : Api Unit :=
  checkSome (code.toOption.filter fun code => code.val ≠ row.code) fun code => do
    let existing ← inventoryItem.findFirst fun row => row.code = code
    throwIf existing.isSome (.conflict s!"Inventory item with code {code.val} already exists")

def update (id : Id) (dto : UpdateInventoryItemDto) : Api InventoryItemView := do
  let found ← inventoryItem.findUnique id
  let row ← orThrow (.notFound s!"Inventory item with ID {id} not found") found
  checkCode dto.code row
  verifySupplier dto.supplierId
  inventoryItem.update id dto.apply (viewOf id)

/-- Soft delete if item is being used. -/
def remove (id : Id) : Api InventoryItem :=
  inventoryItem.removeUnused id (.notFound s!"Inventory item with ID {id} not found")
    (fun db => countRecipeIngredients db id > 0 ∨ countMovements db id > 0)
    (fun row => { row with active := false }) fun db => db

/-- A call of the service that writes; the id of a new row comes with it. -/
inductive Op
  | create (newId : Id) (dto : CreateInventoryItemDto)
  | update (id : Id) (dto : UpdateInventoryItemDto)
  | remove (id : Id)

/-- The tables after a call that runs alone. -/
def step (db : Db) : Op → Db
  | .create newId dto => ((create newId dto).exec db).2
  | .update id dto => ((update id dto).exec db).2
  | .remove id => ((remove id).exec db).2

/-! ### The tables after each call -/

variable {db : Db} {id : Id}

/-- The supplier of a payload, if it names one, is stored. -/
def SupplierFound (db : Db) (supplierId : Property Id) : Prop :=
  ∀ k ∈ supplierId.toOption.filter (· ≠ ""), (db.suppliers.find? k).isSome

instance (db : Db) (supplierId : Property Id) : Decidable (SupplierFound db supplierId) :=
  inferInstanceAs (Decidable (∀ k ∈ _, _))

lemma checks_verifySupplier (supplierId : Property Id) :
    (verifySupplier supplierId).Checks db (SupplierFound db supplierId) :=
  checks_checkSome fun _ _ => Delegate.checks_found _

lemma step_create (newId : Id) (dto : CreateInventoryItemDto) :
    step db (.create newId dto) =
      if (¬ (db.inventoryItems.Any fun _ row => row.code = dto.code.val) ∧
          SupplierFound db dto.supplierId) ∧ db.inventoryItems.find? newId = none then
        match dto.row with
        | none => db
        | some row => { db with inventoryItems := db.inventoryItems.put newId row }
      else db := by
  show ((create newId dto).exec db).2 = _
  rw [create, Delegate.store_findFirst_throwIf, (checks_verifySupplier dto.supplierId).store,
    Delegate.store_createFrom, ← ite_and, ← ite_and]
  rcases dto.row with _ | row <;> rfl

/-- The code of a payload, if it is new, is free. -/
def CodeFree (db : Db) (code : Property NotEmpty) (row : InventoryItem) : Prop :=
  ∀ c ∈ code.toOption.filter fun c => c.val ≠ row.code,
    ¬ db.inventoryItems.Any fun _ other => other.code = c.val

instance (db : Db) (code : Property NotEmpty) (row : InventoryItem) :
    Decidable (CodeFree db code row) := inferInstanceAs (Decidable (∀ c ∈ _, _))

lemma checks_checkCode (code : Property NotEmpty) (row : InventoryItem) :
    (checkCode code row).Checks db (CodeFree db code row) :=
  checks_checkSome fun _ _ => Delegate.checks_findFirst _ _

lemma step_update (dto : UpdateInventoryItemDto) :
    step db (.update id dto) = match db.inventoryItems.find? id with
      | none => db
      | some row =>
        if CodeFree db dto.code row ∧ SupplierFound db dto.supplierId then
          match dto.apply row with
          | none => db
          | some row' => { db with inventoryItems := db.inventoryItems.put id row' }
        else db := by
  show ((update id dto).exec db).2 = _
  rw [update, Delegate.exec_findUnique_orThrow, inventoryItem]
  rcases hrow : db.inventoryItems.find? id with _ | row
  · rfl
  dsimp only
  rw [(checks_checkCode dto.code row).store, (checks_verifySupplier dto.supplierId).store,
    Delegate.exec_update_stored hrow, ite_and]
  rcases dto.apply row with _ | row' <;> rfl

lemma step_remove : step db (.remove id) = match db.inventoryItems.find? id with
    | none => db
    | some row =>
      if countRecipeIngredients db id > 0 ∨ countMovements db id > 0 then
        { db with inventoryItems := db.inventoryItems.put id { row with active := false } }
      else { db with inventoryItems := db.inventoryItems.erase id } := by
  show ((remove id).exec db).2 = _
  rw [remove, Delegate.exec_removeUnused, inventoryItem]
  rcases db.inventoryItems.find? id with _ | row
  · rfl
  · simp only [decide_eq_true_eq]

/-- What a call makes of the tables. -/
inductive Outcome (db : Db) : Op → Db → Prop
  | kept (op : Op) : Outcome db op db
  | created {newId : Id} {dto : CreateInventoryItemDto} {row : InventoryItem}
      (free : ¬ db.inventoryItems.Any fun _ row => row.code = dto.code.val)
      (supplier : SupplierFound db dto.supplierId)
      (unused : db.inventoryItems.find? newId = none) (applied : dto.row = some row) :
      Outcome db (.create newId dto) { db with inventoryItems := db.inventoryItems.put newId row }
  | updated {id : Id} {dto : UpdateInventoryItemDto} {row row' : InventoryItem}
      (stored : db.inventoryItems.find? id = some row) (free : CodeFree db dto.code row)
      (supplier : SupplierFound db dto.supplierId) (applied : dto.apply row = some row') :
      Outcome db (.update id dto) { db with inventoryItems := db.inventoryItems.put id row' }
  | retired {id : Id} {row : InventoryItem} (stored : db.inventoryItems.find? id = some row) :
      Outcome db (.remove id)
        { db with inventoryItems := db.inventoryItems.put id { row with active := false } }
  | removed {id : Id} {row : InventoryItem} (stored : db.inventoryItems.find? id = some row) :
      Outcome db (.remove id) { db with inventoryItems := db.inventoryItems.erase id }

/-- **One call.** A call lets the tables be, or has the outcome of its kind. -/
theorem step_outcome (op : Op) : Outcome db op (step db op) := by
  cases op with
  | create newId dto =>
    rw [step_create]
    split
    · rename_i hc
      rcases hrow : dto.row with _ | row
      · exact .kept _
      · exact .created hc.1.1 hc.1.2 hc.2 hrow
    · exact .kept _
  | update id dto =>
    rw [step_update]
    rcases hrow : db.inventoryItems.find? id with _ | row
    · exact .kept _
    dsimp only
    split
    · rename_i hc
      rcases ha : dto.apply row with _ | row'
      · exact .kept _
      · exact .updated hrow hc.1 hc.2 ha
    · exact .kept _
  | remove id =>
    rw [step_remove]
    rcases hrow : db.inventoryItems.find? id with _ | row
    · exact .kept _
    dsimp only
    split
    · exact .retired hrow
    · exact .removed hrow

/-- A call changes the items and nothing else. -/
lemma step_frame (op : Op) :
    step db op = { db with inventoryItems := (step db op).inventoryItems } := by
  have h : Outcome db op (step db op) := step_outcome op
  generalize step db op = db' at h ⊢
  cases h <;> rfl

lemma stores_step {op : Op} (hop : ∀ k, op ≠ .remove k) :
    db.inventoryItems.Stores (step db op).inventoryItems := by
  have h : Outcome db op (step db op) := step_outcome op
  generalize step db op = db' at h ⊢
  cases h with
  | kept => exact Table.stores_refl
  | removed => exact absurd rfl (hop _)
  | _ => exact Table.stores_put

/-- A call keeps an item, unless it removes it and it has neither been used nor moved. -/
lemma stored_step_iff {k : Id} (op : Op) (h : (db.inventoryItems.find? k).isSome) :
    ((step db op).inventoryItems.find? k).isSome ↔
      (op = .remove k → countRecipeIngredients db k > 0 ∨ countMovements db k > 0) := by
  by_cases hop : ∀ k, op ≠ .remove k
  · exact iff_of_true ((stores_step hop).isSome h) fun he => absurd he (hop k)
  obtain ⟨id, rfl⟩ := not_forall_not.mp hop
  show ((inventoryItem.get ((remove id).exec db).2).find? k).isSome ↔ _
  rw [remove, Delegate.stored_removeUnused_iff (fun db => db) (fun _ _ => rfl) (fun _ => rfl) h,
    Op.remove.injEq]
  exact imp_congr_right fun hid => by rw [hid, decide_eq_true_eq]

/-! ### The code and the supplier of a row -/

lemma row_code {dto : CreateInventoryItemDto} {row : InventoryItem} (h : dto.row = some row) :
    row.code = dto.code ∧ row.supplierId = dto.supplierId.toOption := by
  unfold CreateInventoryItemDto.row at h
  simp only [Option.bind_eq_bind, Option.bind_eq_some_iff] at h
  obtain ⟨costPerUnit, -, parLevel, -, reorderPoint, -, h⟩ := h
  rw [← Option.some.inj h]
  exact ⟨rfl, rfl⟩

/-- An update keeps the code, or sets the one its payload carries. -/
lemma apply_code {dto : UpdateInventoryItemDto} {row row' : InventoryItem}
    (h : dto.apply row = some row') :
    (row'.code = row.code ∨ ∃ code, dto.code = .val code ∧ row'.code = code) ∧
      row'.supplierId = dto.supplierId.intoNullable row.supplierId := by
  unfold UpdateInventoryItemDto.apply at h
  simp only [Option.bind_eq_bind, Option.bind_eq_some_iff] at h
  obtain ⟨code, hcode, name, -, unitOfMeasure, -, costPerUnit, -, parLevel, -, reorderPoint, -,
    active, -, h⟩ := h
  rw [← Option.some.inj h]
  refine ⟨?_, rfl⟩
  rcases Property.intoRequired_eq_some_iff.mp hcode with ⟨-, hold⟩ | hnew
  · exact Or.inl hold
  · obtain ⟨c, hc, rfl⟩ := Property.map_eq_val_iff.mp hnew
    exact Or.inr ⟨c, hc, rfl⟩

end CoffeeOs.InventoryItems
