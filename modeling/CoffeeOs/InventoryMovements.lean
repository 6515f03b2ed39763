import CoffeeOs.Numerals
import CoffeeOs.Schema

/-!
The service of inventory movements.

A movement into or out of an item is a row of its own. What the item has in stock is read from
a column of the item, which no call of the service writes.
-/

namespace CoffeeOs.InventoryMovements

open CoffeeOs.KeyedTable CoffeeOs.Payload CoffeeOs.Requests CoffeeOs.Requests.Request
open CoffeeOs.Numerals CoffeeOs.Schema

structure CreateInventoryMovementDto where
  inventoryItemId : Id
  type : MovementType
  reason : MovementReason
  quantity : Positive
  unit : Property String := .undefined
  unitCost : Property ℚ := .undefined
  totalCost : Property ℚ := .undefined
  referenceNumber : Property String := .undefined
  transactionId : Property Id := .undefined
  supplierId : Property Id := .undefined
  location : Property String := .undefined
  notes : Property String := .undefined
  movementDate : Property String := .undefined

structure UpdateInventoryMovementDto where
  inventoryItemId : Property Id := .undefined
  type : Property MovementType := .undefined
  reason : Property MovementReason := .undefined
  quantity : Property Positive := .undefined
  unit : Property String := .undefined
  unitCost : Property ℚ := .undefined
  totalCost : Property ℚ := .undefined
  referenceNumber : Property String := .undefined
  transactionId : Property Id := .undefined
  supplierId : Property Id := .undefined
  location : Property String := .undefined
  notes : Property String := .undefined
  movementDate : Property String := .undefined

/-! ### What the client includes with a movement -/

structure InventoryItemSelect where
  id : Id
  name : String
  sku : Option String
  currentStock : Option ℚ

structure MovementView where
  id : Id
  row : InventoryMovement
  inventoryItem : Option InventoryItemSelect

def viewOf (id : Id) (row : InventoryMovement) (db : Db) : MovementView where
  id := id
  row := row
  inventoryItem := (db.inventoryItems.find? row.inventoryItemId).map fun item =>
    ⟨row.inventoryItemId, item.name, item.sku, item.currentStock⟩

/-! ### The service -/

/-- The new row of a payload. -/
def CreateInventoryMovementDto.row (dto : CreateInventoryMovementDto) : InventoryMovement where
  inventoryItemId := dto.inventoryItemId
  type := dto.type
  reason := dto.reason
  quantity := dto.quantity
  unit := dto.unit.toOption
  unitCost := dto.unitCost.toOption
  totalCost := dto.totalCost.toOption
  referenceNumber := dto.referenceNumber.toOption
  transactionId := dto.transactionId.toOption
  supplierId := dto.supplierId.toOption
  location := dto.location.toOption
  notes := dto.notes.toOption
  movementDate := dto.movementDate.toOption

/-- `item?.currentStock || 0`. -/
def stockOf (db : Db) (inventoryItemId : Id) : ℚ :=
  ((db.inventoryItems.find? inventoryItemId).bind (·.currentStock)).getD 0

def getCurrentStock (inventoryItemId : Id) : Api ℚ := look fun db => stockOf db inventoryItemId

def create (newId : Id) (dto : CreateInventoryMovementDto) : Api MovementView := do
  let found ← inventoryItem.findUnique dto.inventoryItemId
  let _ ← orThrow (.badRequest s!"Inventory item with ID {dto.inventoryItemId} not found") found
  if dto.type = .out then
    let currentStock ← getCurrentStock dto.inventoryItemId
    throwIf (currentStock < dto.quantity) (.badRequest
      s!"Insufficient stock. Available: {numberText currentStock}, Requested: {numberText dto.quantity}")
  inventoryMovement.create newId dto.row (viewOf newId dto.row)

/-- The row after an update by the payload. -/
def UpdateInventoryMovementDto.apply (dto : UpdateInventoryMovementDto) (row : InventoryMovement) :
    Option InventoryMovement := do
  let inventoryItemId ← dto.inventoryItemId.intoRequired row.inventoryItemId
  let type ← dto.type.intoRequired row.type
  let reason ← dto.reason.intoRequired row.reason
  let quantity ← (dto.quantity.map Subtype.val).intoRequired row.quantity
  return {
    inventoryItemId, type, reason, quantity
    unit := dto.unit.intoNullable row.unit
    unitCost := dto.unitCost.intoNullable row.unitCost
    totalCost := dto.totalCost.intoNullable row.totalCost
    referenceNumber := dto.referenceNumber.intoNullable row.referenceNumber
    transactionId := dto.transactionId.intoNullable row.transactionId
    supplierId := dto.supplierId.intoNullable row.supplierId
    location := dto.location.intoNullable row.location
    notes := dto.notes.intoNullable row.notes
    movementDate := dto.movementDate.intoNullable row.movementDate }

/-- The row read at the beginning of a call. -/
def findMovement (id : Id) : Api InventoryMovement := do
  let found ← inventoryMovement.findUnique id
  orThrow (.notFound s!"Inventory movement with ID {id} not found") found

def update (id : Id) (dto : UpdateInventoryMovementDto) : Api MovementView := do
  let _ ← findMovement id
  inventoryMovement.update id dto.apply (viewOf id)

def remove (id : Id) : Api Unit := do
  let _ ← findMovement id
  inventoryMovement.delete id

/-- A call of the service; the id of a new row comes with it. -/
inductive Op
  | create (newId : Id) (dto : CreateInventoryMovementDto)
  | update (id : Id) (dto : UpdateInventoryMovementDto)
  | remove (id : Id)

/-- The tables after a call that runs alone. -/
def step (db : Db) : Op → Db
  | .create newId dto => ((create newId dto).exec db).2
  | .update id dto => ((update id dto).exec db).2
  | .remove id => ((remove id).exec db).2

/-! ### The tables after each call -/

variable {db : Db} {id : Id}

/-- The payload passes the checks of `create`. -/
def Checked (db : Db) (dto : CreateInventoryMovementDto) : Prop :=
  (db.inventoryItems.find? dto.inventoryItemId).isSome ∧
    (dto.type = .out → dto.quantity ≤ stockOf db dto.inventoryItemId)

instance (db : Db) (dto : CreateInventoryMovementDto) : Decidable (Checked db dto) :=
  inferInstanceAs (Decidable (_ ∧ (_ → _)))

lemma exec_create_checked (newId : Id) {dto : CreateInventoryMovementDto} (h : Checked db dto) :
    (create newId dto).exec db =
      (inventoryMovement.create newId dto.row (viewOf newId dto.row)).exec db := by
  obtain ⟨item, hitem⟩ := Option.isSome_iff_exists.mp h.1
  rw [create, Delegate.findUnique, exec_look_bind, inventoryItem, hitem, exec_orThrow_some]
  split
  · rename_i hout
    rw [getCurrentStock, exec_look_bind, exec_throwIf_bind_neg (not_lt.mpr (h.2 hout))]
  · rfl

lemma exec_create_unchecked (newId : Id) {dto : CreateInventoryMovementDto} (h : ¬ Checked db dto) :
    ∃ e, (create newId dto).exec db = (.error e, db) := by
  rw [create, Delegate.findUnique, exec_look_bind, inventoryItem]
  rcases hitem : db.inventoryItems.find? dto.inventoryItemId with _ | item
  · exact ⟨_, exec_orThrow_none _⟩
  rw [exec_orThrow_some]
  have hc : ¬ (dto.type = .out → dto.quantity ≤ stockOf db dto.inventoryItemId) :=
    fun hs => h ⟨by rw [hitem]; rfl, hs⟩
  obtain ⟨hout, hlt⟩ := Classical.not_imp.mp hc
  rw [if_pos hout, getCurrentStock, exec_look_bind, exec_throwIf_bind_pos (lt_of_not_ge hlt)]
  exact ⟨_, rfl⟩

/-- A `create` is accepted exactly if the payload passes the checks and the id is new. -/
lemma accepts_create_iff (newId : Id) (dto : CreateInventoryMovementDto) :
    (create newId dto).Accepts db ↔ Checked db dto ∧ db.inventoryMovements.find? newId = none := by
  by_cases hc : Checked db dto
  · unfold Accepts
    rw [exec_create_checked newId hc]
    rcases hid : db.inventoryMovements.find? newId with _ | row
    · rw [Delegate.exec_create_new hid]
      simp [hc]
    · rw [Delegate.exec_create_stored hid]
      simp
  · obtain ⟨e, he⟩ := exec_create_unchecked newId hc
    unfold Accepts
    rw [he]
    simp [hc]

lemma step_create (newId : Id) (dto : CreateInventoryMovementDto) :
    step db (.create newId dto) =
      if Checked db dto ∧ db.inventoryMovements.find? newId = none then
        { db with inventoryMovements := db.inventoryMovements.put newId dto.row }
      else db := by
  show ((create newId dto).exec db).2 = _
  by_cases hc : Checked db dto
  · rw [exec_create_checked newId hc]
    rcases hid : db.inventoryMovements.find? newId with _ | row
    · rw [Delegate.exec_create_new hid, if_pos ⟨hc, rfl⟩]
      rfl
    · rw [Delegate.exec_create_stored hid, if_neg (by simp)]
  · obtain ⟨e, he⟩ := exec_create_unchecked newId hc
    rw [he, if_neg (fun h => hc h.1)]

lemma exec_findMovement_bind {α : Type} (f : InventoryMovement → Api α) :
    (findMovement id >>= f).exec db = match db.inventoryMovements.find? id with
      | none => (.error (.notFound s!"Inventory movement with ID {id} not found"), db)
      | some row => (f row).exec db := by
  rw [findMovement, Delegate.exec_found_bind, inventoryMovement]
  rcases db.inventoryMovements.find? id with _ | row <;> rfl

lemma step_update (dto : UpdateInventoryMovementDto) :
    step db (.update id dto) = match db.inventoryMovements.find? id with
      | none => db
      | some row =>
        match dto.apply row with
        | none => db
        | some row' => { db with inventoryMovements := db.inventoryMovements.put id row' } := by
  show ((update id dto).exec db).2 = _
  rw [update, exec_findMovement_bind]
  rcases hrow : db.inventoryMovements.find? id with _ | row
  · rfl
  dsimp only
  rcases ha : dto.apply row with _ | row'
  · rw [Delegate.exec_update_null hrow ha]
  · rw [Delegate.exec_update hrow ha]
    rfl

lemma step_remove : step db (.remove id) = match db.inventoryMovements.find? id with
    | none => db
    | some _ => { db with inventoryMovements := db.inventoryMovements.erase id } := by
  show ((remove id).exec db).2 = _
  rw [remove, exec_findMovement_bind]
  rcases hrow : db.inventoryMovements.find? id with _ | row
  · rfl
  · dsimp only
    rw [Delegate.exec_delete hrow]
    rfl

/-- No call writes an item. -/
@[simp] lemma step_inventoryItems (op : Op) : (step db op).inventoryItems = db.inventoryItems := by
  cases op with
  | create newId dto => rw [step_create]; split <;> rfl
  | update id dto =>
    rw [step_update]
    rcases db.inventoryMovements.find? id with _ | row
    · rfl
    · dsimp only
      rcases dto.apply row with _ | row' <;> rfl
  | remove id =>
    rw [step_remove]
    rcases db.inventoryMovements.find? id with _ | row <;> rfl

/-- A call changes the movements and nothing else. -/
lemma step_frame (op : Op) :
    step db op = { db with inventoryMovements := (step db op).inventoryMovements } := by
  cases op with
  | create newId dto => rw [step_create]; split <;> rfl
  | update id dto =>
    rw [step_update]
    rcases db.inventoryMovements.find? id with _ | row
    · rfl
    · dsimp only
      rcases dto.apply row with _ | row' <;> rfl
  | remove id =>
    rw [step_remove]
    rcases db.inventoryMovements.find? id with _ | row <;> rfl

end CoffeeOs.InventoryMovements
