import CoffeeOs.KeyedTable
import CoffeeOs.Payload
import CoffeeOs.Requests

/-!
The rows the services store, the database that holds them, and the calls the services make
to it.

A row is stored under its id, which the database draws when the row is created. The columns
are those the services read or write; no foreign key is enforced.
-/

namespace CoffeeOs.Schema

open CoffeeOs.KeyedTable CoffeeOs.Requests CoffeeOs.Requests.Request

abbrev Id := String

/-- Milliseconds since 1970-01-01T00:00:00Z. -/
abbrev Instant := ℤ

/-! ### Point of sale -/

inductive TransactionStatus | pending | completed | cancelled | refunded
  deriving DecidableEq

structure Transaction where
  organizationId : Option Id := none
  customerName : Option String := none
  customerEmail : Option String := none
  customerPhone : Option String := none
  taxAmount : Option ℚ := none
  discountAmount : Option ℚ := none
  notes : Option String := none
  status : TransactionStatus
  completedAt : Option Instant := none
  deriving DecidableEq

structure LineItem where
  transactionId : Id
  productId : Id
  quantity : ℚ
  unitPrice : ℚ
  modifiers : List Id := []
  notes : Option String := none
  deriving DecidableEq

inductive PaymentMethod | cash | card | transfer | mobile
  deriving DecidableEq

inductive PaymentStatus | pending | completed | failed | refunded
  deriving DecidableEq

structure Payment where
  transactionId : Id
  amount : ℚ
  method : PaymentMethod
  reference : Option String := none
  notes : Option String := none
  paidAt : Option String := none
  status : PaymentStatus
  refundedAt : Option Instant := none
  deriving DecidableEq

inductive OrderStatus | pending | inProgress | ready | served | cancelled
  deriving DecidableEq

inductive OrderType | dineIn | takeOut | delivery
  deriving DecidableEq

structure Order where
  transactionId : Option Id := none
  type : OrderType
  tableNumber : Option String := none
  customerName : Option String := none
  guestCount : Option ℤ := none
  specialInstructions : Option String := none
  deliveryAddress : Option String := none
  deliveryPhone : Option String := none
  serverName : Option String := none
  status : OrderStatus
  orderNumber : String
  createdAt : Instant
  startedAt : Option Instant := none
  readyAt : Option Instant := none
  servedAt : Option Instant := none
  cancelledAt : Option Instant := none
  deriving DecidableEq

/-! ### Catalog -/

structure Category where
  name : String
  description : Option String := none
  color : Option String := none
  icon : Option String := none
  sortOrder : ℤ := 0
  active : Bool := true
  deriving DecidableEq

structure Product where
  categoryId : Id
  sku : String
  name : String
  description : Option String := none
  image : Option String := none
  price : ℚ
  cost : ℚ := 0
  taxRate : ℚ := 4 / 25
  allowModifiers : Bool := true
  trackInventory : Bool := true
  active : Bool := true
  deriving DecidableEq

inductive ModifierType | size | milk | extra | syrup | decaf
  deriving DecidableEq

structure Modifier where
  name : String
  type : ModifierType
  priceDelta : ℚ := 0
  active : Bool := true
  deriving DecidableEq

structure ProductModifier where
  productId : Id
  modifierId : Id
  deriving DecidableEq

/-- A line of a ticket. No service writes tickets; those that remove products count their lines. -/
structure TicketLine where
  productId : Id
  deriving DecidableEq

structure TicketLineModifier where
  modifierId : Id
  deriving DecidableEq

inductive DiscountType | percentage | fixedAmount | buyXGetY
  deriving DecidableEq

structure Discount where
  code : String
  name : String
  description : Option String := none
  type : DiscountType
  value : ℚ
  maxDiscountAmount : Option ℚ := none
  minPurchaseAmount : Option ℚ := none
  validFrom : Option Instant := none
  validUntil : Option Instant := none
  usageLimit : Option ℚ := none
  usageCount : ℚ := 0
  isActive : Bool := true
  organizationId : Id
  deriving DecidableEq

/-! ### Inventory -/

/-- The services read `sku` and `currentStock`, which the schema does not declare, and allow for
an item without a cost. -/
structure InventoryItem where
  code : String
  name : String
  sku : Option String := none
  description : Option String := none
  unitOfMeasure : String
  costPerUnit : Option ℚ := some 0
  parLevel : ℚ := 0
  reorderPoint : ℚ := 0
  category : Option String := none
  supplierId : Option Id := none
  active : Bool := true
  currentStock : Option ℚ := none
  deriving DecidableEq

structure Supplier where
  code : String
  name : String
  contactName : Option String := none
  active : Bool := true
  email : Option String := none
  phone : Option String := none
  address : Option String := none
  city : Option String := none
  state : Option String := none
  postalCode : Option String := none
  country : Option String := none
  leadTime : Option ℤ := none
  notes : Option String := none
  deriving DecidableEq

structure PurchaseOrder where
  supplierId : Id
  deriving DecidableEq

structure GoodsReceipt where
  inventoryItemId : Id
  deriving DecidableEq

inductive MovementType | in | out | adjustment | transfer
  deriving DecidableEq

inductive MovementReason
  | purchase | sale | usage | waste | damage | expiry | countAdjustment | transferIn | transferOut
  | return
  deriving DecidableEq

structure InventoryMovement where
  inventoryItemId : Id
  type : MovementType
  reason : MovementReason
  quantity : ℚ
  unit : Option String := none
  unitCost : Option ℚ := none
  totalCost : Option ℚ := none
  referenceNumber : Option String := none
  transactionId : Option Id := none
  supplierId : Option Id := none
  location : Option String := none
  notes : Option String := none
  movementDate : Option String := none
  deriving DecidableEq

/-! ### Recipes -/

structure Recipe where
  productId : Id
  name : String
  description : Option String := none
  servings : Option ℚ := none
  prepTimeMinutes : Option ℚ := none
  instructions : Option String := none
  active : Bool := true
  deriving DecidableEq

structure RecipeIngredient where
  recipeId : Id
  inventoryItemId : Id
  quantity : ℚ
  unit : String
  deriving DecidableEq

/-! ### Shifts and cash registers -/

inductive ShiftStatus | open | closed
  deriving DecidableEq

structure Shift where
  openingCash : ℚ
  openingNotes : Option String := none
  userId : Id
  locationId : Id
  organizationId : Id
  status : ShiftStatus
  openedAt : Instant
  closedAt : Option Instant := none
  closingCash : Option ℚ := none
  closingCard : Option ℚ := none
  closingTransfers : Option ℚ := none
  closingOther : Option ℚ := none
  totalClosing : Option ℚ := none
  totalExpected : Option ℚ := none
  variance : Option ℚ := none
  closingNotes : Option String := none
  deriving DecidableEq

structure CashRegister where
  shiftId : Id
  expectedCash : ℚ
  countedCash : Option ℚ := none
  totalExpenses : Option ℚ := none
  notes : Option String := none
  locationId : Id
  organizationId : Id
  deriving DecidableEq

structure CashDenomination where
  cashRegisterId : Id
  denomination : ℚ
  count : ℚ
  total : ℚ
  deriving DecidableEq

structure CashExpense where
  cashRegisterId : Id
  amount : ℚ
  description : String
  category : Option String := none
  recipient : Option String := none
  deriving DecidableEq

/-! ### Taxes -/

inductive TaxCategory | iva | ieps | isr | other
  deriving DecidableEq

structure Tax where
  name : String
  description : Option String := none
  category : TaxCategory
  rate : ℚ
  isActive : Bool := true
  organizationId : Id
  deriving DecidableEq

/-! ### The database -/

structure Db where
  transactions : Table Id Transaction := ∅
  lineItems : List LineItem := []
  payments : Table Id Payment := ∅
  orders : Table Id Order := ∅
  categories : Table Id Category := ∅
  products : Table Id Product := ∅
  modifiers : Table Id Modifier := ∅
  productModifiers : List ProductModifier := []
  ticketLines : List TicketLine := []
  ticketLineModifiers : List TicketLineModifier := []
  discounts : Table Id Discount := ∅
  suppliers : Table Id Supplier := ∅
  purchaseOrders : List PurchaseOrder := []
  goodsReceipts : List GoodsReceipt := []
  inventoryItems : Table Id InventoryItem := ∅
  inventoryMovements : Table Id InventoryMovement := ∅
  recipes : Table Id Recipe := ∅
  recipeIngredients : List RecipeIngredient := []
  shifts : Table Id Shift := ∅
  cashRegisters : Table Id CashRegister := ∅
  cashDenominations : List CashDenomination := []
  cashExpenses : List CashExpense := []
  taxes : Table Id Tax := ∅
  deriving DecidableEq

instance : EmptyCollection Db := ⟨{}⟩

/-- The columns of a transaction that the client selects along with a row that names it. -/
structure TransactionSelect where
  id : Id
  customerName : Option String
  status : TransactionStatus

def selectTransaction (db : Db) (id : Id) : Option TransactionSelect :=
  (db.transactions.find? id).map fun t => ⟨id, t.customerName, t.status⟩

/-- What the database client throws: a duplicate id, a missing record, `null` for a required
column. -/
inductive PrismaError | uniqueConstraint | recordNotFound | requiredNull
  deriving DecidableEq

inductive Error
  | notFound (message : String)
  | badRequest (message : String)
  | conflict (message : String)
  | typeError
  | prisma (e : PrismaError)
  deriving DecidableEq

/-- A request of the API. -/
abbrev Api (α : Type) := Request Db Error α

/-- One table of the database, as the client offers it to the services. -/
structure Delegate (ρ : Type) where
  get : Db → Table Id ρ
  set : Table Id ρ → Db → Db

namespace Delegate

variable {ρ α : Type} (d : Delegate ρ)

def findUnique (id : Id) : Api (Option ρ) := .look fun db => (d.get db).find? id

/-- `findUnique` by a column other than the id, along with what is shown of the row. -/
def findUniqueBy {κ : Type} [DecidableEq κ] (column : ρ → κ) (c : κ) (view : Id → ρ → Db → α) :
    Api (Option α) :=
  .look fun db => ((d.get db).rows.find? fun e => column e.2 = c).map fun e => view e.1 e.2 db

/-- The first row that passes the test. -/
def findFirst (p : ρ → Bool) : Api (Option (Id × ρ)) :=
  .look fun db => (d.get db).rows.find? fun e => p e.2

/-- The first row that passes the test, other than the row `id`. -/
def findFirstNot (id : Id) (p : ρ → Bool) : Api (Option (Id × ρ)) :=
  .look fun db => (d.get db).rows.find? fun e => e.1 ≠ id && p e.2

/-- `findMany({ where: { id: { in: ids } } })`: each matching row once. -/
def findManyIn (ids : List Id) : Api (List (Id × ρ)) :=
  .look fun db => (d.get db).rows.filter fun e => decide (e.1 ∈ ids)

/-- Store a new row under the id drawn for it. -/
def create (id : Id) (row : ρ) (view : Db → α) : Api α :=
  .atomically fun db =>
    match (d.get db).find? id with
    | some _ => .error (.prisma .uniqueConstraint)
    | none => let db' := d.set ((d.get db).put id row) db; .ok (view db', db')

/-- Store a new row, which has no value if `null` would be written to a required column. -/
def createFrom (id : Id) (row : Option ρ) (view : ρ → Db → α) : Api α :=
  match row with
  | none => fail (.prisma .requiredNull)
  | some row => d.create id row (view row)

/-- Rewrite the row `id` by `f`, which has no value if `null` would be written to a required
column. -/
def update (id : Id) (f : ρ → Option ρ) (view : ρ → Db → α) : Api α :=
  .atomically fun db =>
    match (d.get db).find? id with
    | none => .error (.prisma .recordNotFound)
    | some row =>
      match f row with
      | none => .error (.prisma .requiredNull)
      | some row' => let db' := d.set ((d.get db).put id row') db; .ok (view row' db', db')

def delete (id : Id) : Api Unit :=
  .atomically fun db =>
    match (d.get db).find? id with
    | none => .error (.prisma .recordNotFound)
    | some _ => .ok ((), d.set ((d.get db).erase id) db)

/-- Delete the row `id` and answer with it; `cascade` is what goes along with it. -/
def deleteRow (id : Id) (cascade : Db → Db) : Api ρ :=
  .atomically fun db =>
    match (d.get db).find? id with
    | none => .error (.prisma .recordNotFound)
    | some row => .ok (row, cascade (d.set ((d.get db).erase id) db))

/-- Read whether the row `id` is `used`; one that is stays, rewritten by `retire`, and any other
is deleted along with what `cascade` takes. -/
def removeUnused (id : Id) (missing : Error) (used : Db → Bool) (retire : ρ → ρ)
    (cascade : Db → Db) : Api ρ := do
  let found ← .look fun db => ((d.get db).find? id).map fun _ => used db
  let used ← orThrow missing found
  if used then d.update id (fun row => some (retire row)) fun row _ => row
  else d.deleteRow id cascade

/-! ### Each call, run alone -/

variable {d} {db : Db} {id : Id} {row old : ρ} {f : ρ → Option ρ}

lemma onlyLooks_findUnique : (d.findUnique id).OnlyLooks := onlyLooks_look _

lemma onlyLooks_found (e : Error) :
    (d.findUnique id >>= fun found => orThrow e found).OnlyLooks :=
  onlyLooks_findUnique.bind fun _ => onlyLooks_orThrow

lemma writesLast_create {view : Db → α} : (d.create id row view).WritesLast := .atomically _

lemma writesLast_createFrom {row : Option ρ} {view : ρ → Db → α} :
    (d.createFrom id row view).WritesLast := by
  cases row with
  | none => exact .done _
  | some row => exact writesLast_create

lemma writesLast_update {view : ρ → Db → α} : (d.update id f view).WritesLast := .atomically _

lemma writesLast_delete : (d.delete id).WritesLast := .atomically _

/-- Reading a row that has to be there. -/
lemma exec_findUnique_orThrow (e : Error) (g : ρ → Api α) :
    (d.findUnique id >>= fun found => orThrow e found >>= g).exec db =
      match (d.get db).find? id with
      | none => (.error e, db)
      | some row => (g row).exec db := by
  rw [findUnique, exec_look_bind]
  rcases (d.get db).find? id with _ | row <;> rfl

lemma exec_found_bind (e : Error) (g : ρ → Api α) :
    ((d.findUnique id >>= fun found => orThrow e found) >>= g).exec db =
      match (d.get db).find? id with
      | none => (.error e, db)
      | some row => (g row).exec db := exec_findUnique_orThrow e g

lemma exec_create_new (h : (d.get db).find? id = none) (view : Db → α) :
    (d.create id row view).exec db = (.ok (view (d.set ((d.get db).put id row) db)),
      d.set ((d.get db).put id row) db) := by
  rw [create, exec_atomically, h]

lemma exec_create_stored (h : (d.get db).find? id = some old) (view : Db → α) :
    (d.create id row view).exec db = (.error (.prisma .uniqueConstraint), db) := by
  rw [create, exec_atomically, h]

lemma exec_update (h : (d.get db).find? id = some old) (hf : f old = some row)
    (view : ρ → Db → α) : (d.update id f view).exec db =
      (.ok (view row (d.set ((d.get db).put id row) db)), d.set ((d.get db).put id row) db) := by
  rw [update, exec_atomically, h]
  dsimp only
  rw [hf]

lemma exec_update_some (h : (d.get db).find? id = some old) (g : ρ → ρ) (view : ρ → Db → α) :
    (d.update id (fun row => some (g row)) view).exec db =
      (.ok (view (g old) (d.set ((d.get db).put id (g old)) db)),
        d.set ((d.get db).put id (g old)) db) := by
  rw [update, exec_atomically, h]

lemma exec_update_null (h : (d.get db).find? id = some old) (hf : f old = none)
    (view : ρ → Db → α) :
    (d.update id f view).exec db = (.error (.prisma .requiredNull), db) := by
  rw [update, exec_atomically, h]
  dsimp only
  rw [hf]

lemma exec_delete (h : (d.get db).find? id = some old) :
    (d.delete id).exec db = (.ok (), d.set ((d.get db).erase id) db) := by
  rw [delete, exec_atomically, h]

lemma exec_deleteRow (h : (d.get db).find? id = some old) (cascade : Db → Db) :
    (d.deleteRow id cascade).exec db = (.ok old, cascade (d.set ((d.get db).erase id) db)) := by
  rw [deleteRow, exec_atomically, h]

lemma checks_found (e : Error) :
    (d.findUnique id >>= fun found => orThrow e found >>= fun _ => pure ()).Checks db
      (((d.get db).find? id).isSome) := checks_look_orThrow _

/-- Throwing if some row passes the test. -/
lemma checks_findFirst (p : ρ → Bool) (e : Error) :
    (d.findFirst p >>= fun found => throwIf found.isSome e).Checks db
      (¬ (d.get db).Any fun _ row => p row) :=
  checks_look_throwIf _ fun found : Option (Id × ρ) => found.isSome

lemma checks_findFirstNot (p : ρ → Bool) (e : Error) :
    (d.findFirstNot id p >>= fun found => throwIf found.isSome e).Checks db
      (¬ (d.get db).Any fun k row => k ≠ id && p row) :=
  checks_look_throwIf _ fun found : Option (Id × ρ) => found.isSome

/-- The tables after a call that begins by throwing if some row passes the test. -/
lemma store_findFirst_throwIf (p : ρ → Bool) (e : Error) (g : Unit → Api α) :
    ((d.findFirst p >>= fun found => throwIf found.isSome e >>= g).exec db).2 =
      if ¬ (d.get db).Any fun _ row => p row then ((g ()).exec db).2 else db := by
  rw [findFirst, exec_look_bind]
  exact checks_throwIf.store g

/-- The tables after a row is stored under a new id, if it has a value. -/
lemma store_createFrom (row : Option ρ) (view : ρ → Db → α) :
    ((d.createFrom id row view).exec db).2 =
      if (d.get db).find? id = none then
        match row with
        | none => db
        | some row => d.set ((d.get db).put id row) db
      else db := by
  rcases row with _ | row
  · exact (ite_self db).symm
  dsimp only [createFrom]
  rcases h : (d.get db).find? id with _ | old
  · rw [exec_create_new h, if_pos rfl]
  · rw [exec_create_stored h, if_neg (by simp)]

/-- A call that answers with a new row has stored it, under an id that was free. -/
lemma of_createFrom_ok {row : Option ρ} {view : ρ → Db → α} {a : α}
    (h : ((d.createFrom id row view).exec db).1 = .ok a) :
    (d.get db).find? id = none ∧
      ∃ r, row = some r ∧ a = view r (d.set ((d.get db).put id r) db) := by
  rcases row with _ | r
  · cases h
  rw [createFrom] at h
  rcases hid : (d.get db).find? id with _ | old
  · rw [exec_create_new hid] at h
    exact ⟨rfl, r, rfl, (Except.ok.inj h).symm⟩
  · rw [exec_create_stored hid] at h
    cases h

/-- The tables after a stored row is rewritten, if the new row has a value. -/
lemma exec_update_stored (h : (d.get db).find? id = some old) (view : ρ → Db → α) :
    ((d.update id f view).exec db).2 =
      match f old with
      | none => db
      | some row => d.set ((d.get db).put id row) db := by
  rcases hf : f old with _ | row
  · rw [exec_update_null h hf]
  · rw [exec_update h hf]

/-- The tables after a row is retired or deleted. -/
lemma exec_removeUnused (missing : Error) (used : Db → Bool) (retire : ρ → ρ) (cascade : Db → Db) :
    ((d.removeUnused id missing used retire cascade).exec db).2 =
      match (d.get db).find? id with
      | none => db
      | some row =>
        if used db then d.set ((d.get db).put id (retire row)) db
        else cascade (d.set ((d.get db).erase id) db) := by
  rw [removeUnused, exec_look_bind]
  rcases h : (d.get db).find? id with _ | row
  · rfl
  rw [Option.map_some, exec_orThrow_some]
  dsimp only
  split
  · rw [exec_update_some h]
  · rw [exec_deleteRow h]

/-- A stored row is there after the removal of `id`, unless it is the row `id` and unused. -/
lemma stored_removeUnused_iff {k : Id} {missing : Error} {used : Db → Bool} {retire : ρ → ρ}
    (cascade : Db → Db) (hset : ∀ t db, d.get (d.set t db) = t)
    (hcascade : ∀ db, d.get (cascade db) = d.get db) (h : ((d.get db).find? k).isSome) :
    ((d.get ((d.removeUnused id missing used retire cascade).exec db).2).find? k).isSome ↔
      (id = k → used db) := by
  rw [exec_removeUnused]
  rcases hrow : (d.get db).find? id with _ | row
  · refine iff_of_true h fun hid => ?_
    rw [← hid, hrow] at h
    cases h
  dsimp only
  split
  · rename_i hused
    rw [hset]
    exact iff_of_true (Table.stores_put.isSome h) fun _ => hused
  · rename_i hunused
    rw [hcascade, hset, Table.isSome_find?_erase, and_iff_left h]
    exact ⟨fun hne hid => absurd hid.symm hne, fun hused hid => hunused (hused hid.symm)⟩

end Delegate

def transaction : Delegate Transaction :=
  ⟨Db.transactions, fun t db => { db with transactions := t }⟩
def payment : Delegate Payment := ⟨Db.payments, fun t db => { db with payments := t }⟩
def product : Delegate Product := ⟨Db.products, fun t db => { db with products := t }⟩
def category : Delegate Category := ⟨Db.categories, fun t db => { db with categories := t }⟩
def modifier : Delegate Modifier := ⟨Db.modifiers, fun t db => { db with modifiers := t }⟩
def discount : Delegate Discount := ⟨Db.discounts, fun t db => { db with discounts := t }⟩
def supplier : Delegate Supplier := ⟨Db.suppliers, fun t db => { db with suppliers := t }⟩
def order : Delegate Order := ⟨Db.orders, fun t db => { db with orders := t }⟩
def inventoryItem : Delegate InventoryItem :=
  ⟨Db.inventoryItems, fun t db => { db with inventoryItems := t }⟩
def inventoryMovement : Delegate InventoryMovement :=
  ⟨Db.inventoryMovements, fun t db => { db with inventoryMovements := t }⟩
def recipe : Delegate Recipe := ⟨Db.recipes, fun t db => { db with recipes := t }⟩
def shift : Delegate Shift := ⟨Db.shifts, fun t db => { db with shifts := t }⟩
def cashRegister : Delegate CashRegister :=
  ⟨Db.cashRegisters, fun t db => { db with cashRegisters := t }⟩
def tax : Delegate Tax := ⟨Db.taxes, fun t db => { db with taxes := t }⟩

end CoffeeOs.Schema
