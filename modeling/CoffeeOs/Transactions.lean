import CoffeeOs.Runs
import CoffeeOs.Schema

/-!
The service of sales transactions.

A transaction has line items and payments, in tables of their own. What is still owed on it
is computed from these rows whenever it is asked for, and only `complete` asks before it
writes.
-/

namespace CoffeeOs.Transactions

open CoffeeOs.KeyedTable CoffeeOs.Payload CoffeeOs.Requests CoffeeOs.Requests.Request
open CoffeeOs.Schema

structure TransactionLineItemDto where
  productId : Id
  quantity : AtLeast 1
  unitPrice : AtLeast 0
  modifiers : Property (List Id) := .undefined
  notes : Property String := .undefined

structure CreateTransactionDto where
  organizationId : Property Id := .undefined
  customerName : Property String := .undefined
  customerEmail : Property String := .undefined
  customerPhone : Property String := .undefined
  taxAmount : Property (AtLeast 0) := .undefined
  discountAmount : Property (AtLeast 0) := .undefined
  notes : Property String := .undefined
  lineItems : List TransactionLineItemDto

structure UpdateTransactionDto where
  organizationId : Property Id := .undefined
  customerName : Property String := .undefined
  customerEmail : Property String := .undefined
  customerPhone : Property String := .undefined
  taxAmount : Property (AtLeast 0) := .undefined
  discountAmount : Property (AtLeast 0) := .undefined
  notes : Property String := .undefined
  lineItems : Property (List TransactionLineItemDto) := .undefined
  status : Property TransactionStatus := .undefined

/-! ### What the client includes with a transaction -/

structure TransactionView where
  id : Id
  row : Transaction
  lineItems : List (LineItem × Option Product)
  payments : List (Id × Payment)

def linesOf (db : Db) (id : Id) : List LineItem :=
  db.lineItems.filter fun l => l.transactionId = id

def paymentsOf (db : Db) (id : Id) : List (Id × Payment) :=
  db.payments.rows.filter fun e => e.2.transactionId = id

def viewOf (db : Db) (id : Id) (row : Transaction) : TransactionView where
  id := id
  row := row
  lineItems := (linesOf db id).map fun l => (l, db.products.find? l.productId)
  payments := paymentsOf db id

/-! ### The service -/

/-- The rows created for the line items of a payload. -/
def lineRows (id : Id) (items : List TransactionLineItemDto) : List LineItem :=
  items.map fun item =>
    { transactionId := id
      productId := item.productId
      quantity := item.quantity
      unitPrice := item.unitPrice
      modifiers := item.modifiers.toOption.getD []
      notes := item.notes.toOption }

/-- Verify all products exist. -/
def verifyProducts (items : List TransactionLineItemDto) : Api Unit := do
  let productIds := items.map (·.productId)
  let products ← product.findManyIn productIds
  throwIf (products.length ≠ productIds.length) (.badRequest "One or more products not found")

/-- The new row of a payload. -/
def CreateTransactionDto.row (dto : CreateTransactionDto) : Transaction where
  organizationId := dto.organizationId.toOption
  customerName := dto.customerName.toOption
  customerEmail := dto.customerEmail.toOption
  customerPhone := dto.customerPhone.toOption
  taxAmount := dto.taxAmount.toOption.map Subtype.val
  discountAmount := dto.discountAmount.toOption.map Subtype.val
  notes := dto.notes.toOption
  status := .pending

/-- The last call of `create`: the row and the nested line items in one write. -/
def writeCreate (newId : Id) (dto : CreateTransactionDto) : Api TransactionView :=
  atomically fun db =>
    match db.transactions.find? newId with
    | some _ => .error (.prisma .uniqueConstraint)
    | none =>
      let db' := { db with
        transactions := db.transactions.put newId dto.row
        lineItems := db.lineItems ++ lineRows newId dto.lineItems }
      .ok (viewOf db' newId dto.row, db')

def create (newId : Id) (dto : CreateTransactionDto) : Api TransactionView := do
  if 0 < dto.lineItems.length then
    verifyProducts dto.lineItems
  writeCreate newId dto

def findOne (id : Id) : Api TransactionView := do
  let found ← look fun db => (db.transactions.find? id).map (viewOf db id)
  orThrow (.notFound s!"Transaction with ID {id} not found") found

structure LineDetail where
  product : String
  quantity : ℚ
  unitPrice : ℚ
  total : ℚ
  modifiers : List Id

structure Totals where
  transactionId : Id
  status : TransactionStatus
  subtotal : ℚ
  tax : ℚ
  discount : ℚ
  total : ℚ
  totalPaid : ℚ
  balance : ℚ
  lineItems : List LineDetail
  currency : String

/-- One turn of the loop over the line items. A line whose product is gone throws when the
name of the product is read. -/
def addLine (acc : ℚ × List LineDetail) (item : LineItem × Option Product) :
    Except Error (ℚ × List LineDetail) :=
  let itemTotal := item.1.quantity * item.1.unitPrice
  match item.2 with
  | none => .error .typeError
  | some product => .ok (acc.1 + itemTotal, acc.2 ++
      [{ product := product.name, quantity := item.1.quantity, unitPrice := item.1.unitPrice,
         total := itemTotal, modifiers := item.1.modifiers }])

def totals (transaction : TransactionView) : Except Error Totals := do
  let (subtotal, lineItemsDetail) ← transaction.lineItems.foldlM addLine (0, [])
  let tax := transaction.row.taxAmount.getD 0
  let discount := transaction.row.discountAmount.getD 0
  let total := subtotal + tax - discount
  let totalPaid := transaction.payments.foldl (fun sum payment => sum + payment.2.amount) 0
  return {
    transactionId := transaction.id, status := transaction.row.status, subtotal, tax, discount,
    total, totalPaid, balance := total - totalPaid, lineItems := lineItemsDetail,
    currency := "MXN" }

def calculateTotal (id : Id) : Api Totals := do
  let transaction ← findOne id
  .done (totals transaction)

/-- The row after an update by the payload. -/
def UpdateTransactionDto.apply (dto : UpdateTransactionDto) (row : Transaction) :
    Option Transaction :=
  (dto.status.intoRequired row.status).map fun status => { row with
    organizationId := dto.organizationId.intoNullable row.organizationId
    customerName := dto.customerName.intoNullable row.customerName
    customerEmail := dto.customerEmail.intoNullable row.customerEmail
    customerPhone := dto.customerPhone.intoNullable row.customerPhone
    taxAmount := (dto.taxAmount.map Subtype.val).intoNullable row.taxAmount
    discountAmount := (dto.discountAmount.map Subtype.val).intoNullable row.discountAmount
    notes := dto.notes.intoNullable row.notes
    status }

/-- The line items a payload carries; `undefined` and `null` are falsy alike. -/
def UpdateTransactionDto.items (dto : UpdateTransactionDto) : List TransactionLineItemDto :=
  dto.lineItems.toOption.getD []

def deleteLineItems (id : Id) : Api Unit :=
  atomically fun db =>
    .ok ((), { db with lineItems := db.lineItems.filter fun l => l.transactionId ≠ id })

/-- The last call of `update`: the columns and the nested line items in one write. -/
def writeUpdate (id : Id) (dto : UpdateTransactionDto) : Api TransactionView :=
  atomically fun db =>
    match db.transactions.find? id with
    | none => .error (.prisma .recordNotFound)
    | some row =>
      match dto.apply row with
      | none => .error (.prisma .requiredNull)
      | some row' =>
        let db' := { db with
          transactions := db.transactions.put id row'
          lineItems := db.lineItems ++ lineRows id dto.items }
        .ok (viewOf db' id row', db')

def update (id : Id) (dto : UpdateTransactionDto) : Api TransactionView := do
  let found ← transaction.findUnique id
  let transaction ← orThrow (.notFound s!"Transaction with ID {id} not found") found
  throwIf (transaction.status = .completed) (.badRequest "Cannot update completed transaction")
  if 0 < dto.items.length then
    verifyProducts dto.items
    deleteLineItems id
  writeUpdate id dto

def cancel (id : Id) : Api TransactionView := do
  let found ← transaction.findUnique id
  let transaction ← orThrow (.notFound s!"Transaction with ID {id} not found") found
  throwIf (transaction.status = .completed)
    (.badRequest "Cannot cancel completed transaction. Use refund instead.")
  Schema.transaction.update id (fun row => some { row with status := .cancelled })
    fun row db => viewOf db id row

/-- The last call of `complete`; `now` is the clock reading it stores. -/
def writeComplete (id : Id) (now : Instant) : Api TransactionView :=
  Schema.transaction.update id
    (fun row => some { row with status := .completed, completedAt := some now })
    fun row db => viewOf db id row

def complete (id : Id) (now : Instant) : Api TransactionView := do
  let _ ← findOne id
  let totals ← calculateTotal id
  throwIf (totals.balance > 0) (.badRequest "Cannot complete transaction with outstanding balance")
  writeComplete id now

def deletePayments (id : Id) : Api Unit :=
  atomically fun db =>
    .ok ((), { db with payments := db.payments.keep fun _ p => p.transactionId ≠ id })

def remove (id : Id) : Api Unit := do
  let found ← transaction.findUnique id
  let transaction ← orThrow (.notFound s!"Transaction with ID {id} not found") found
  throwIf (transaction.status = .completed) (.badRequest "Cannot delete completed transaction")
  deleteLineItems id
  deletePayments id
  Schema.transaction.delete id

/-- A call of the service; the ids of new rows and the clock readings come with it. -/
inductive Op
  | create (newId : Id) (dto : CreateTransactionDto)
  | update (id : Id) (dto : UpdateTransactionDto)
  | cancel (id : Id)
  | complete (id : Id) (now : Instant)
  | remove (id : Id)

/-- The tables after a call that runs alone. -/
def step (db : Db) : Op → Db
  | .create newId dto => ((create newId dto).exec db).2
  | .update id dto => ((update id dto).exec db).2
  | .cancel id => ((cancel id).exec db).2
  | .complete id now => ((complete id now).exec db).2
  | .remove id => ((remove id).exec db).2

end CoffeeOs.Transactions
