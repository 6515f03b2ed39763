import CoffeeOs.Schema

/-!
The service of payments.

A payment moves by `update` until its status is COMPLETED, and by `refund` from there. Each
call reads the row once, tests its status, and writes in a second call.
-/

namespace CoffeeOs.Payments

open CoffeeOs.KeyedTable CoffeeOs.Payload CoffeeOs.Requests CoffeeOs.Requests.Request
open CoffeeOs.Schema

structure CreatePaymentDto where
  transactionId : Id
  amount : Positive
  method : PaymentMethod
  reference : Property String := .undefined
  notes : Property String := .undefined
  paidAt : Property String := .undefined

structure UpdatePaymentDto where
  transactionId : Property Id := .undefined
  amount : Property Positive := .undefined
  method : Property PaymentMethod := .undefined
  reference : Property String := .undefined
  notes : Property String := .undefined
  paidAt : Property String := .undefined
  status : Property PaymentStatus := .undefined

/-! ### What the client includes with a payment -/

structure PaymentView where
  id : Id
  row : Payment
  transaction : Option TransactionSelect

def viewOf (id : Id) (row : Payment) (db : Db) : PaymentView where
  id := id
  row := row
  transaction := selectTransaction db row.transactionId

/-! ### The service -/

/-- The new row of a payload. -/
def CreatePaymentDto.row (dto : CreatePaymentDto) : Payment where
  transactionId := dto.transactionId
  amount := dto.amount
  method := dto.method
  reference := dto.reference.toOption
  notes := dto.notes.toOption
  paidAt := dto.paidAt.toOption
  status := .pending

def create (newId : Id) (dto : CreatePaymentDto) : Api PaymentView := do
  let found ← transaction.findUnique dto.transactionId
  let _ ← orThrow (.badRequest s!"Transaction with ID {dto.transactionId} not found") found
  payment.create newId dto.row (viewOf newId dto.row)

/-- The row after an update by the payload. -/
def UpdatePaymentDto.apply (dto : UpdatePaymentDto) (row : Payment) : Option Payment := do
  let transactionId ← dto.transactionId.intoRequired row.transactionId
  let amount ← (dto.amount.map Subtype.val).intoRequired row.amount
  let method ← dto.method.intoRequired row.method
  let status ← dto.status.intoRequired row.status
  return { row with
    transactionId, amount, method, status
    reference := dto.reference.intoNullable row.reference
    notes := dto.notes.intoNullable row.notes
    paidAt := dto.paidAt.intoNullable row.paidAt }

/-- The row read at the beginning of a call. -/
def findPayment (id : Id) : Api Payment := do
  let found ← payment.findUnique id
  orThrow (.notFound s!"Payment with ID {id} not found") found

def update (id : Id) (dto : UpdatePaymentDto) : Api PaymentView := do
  let row ← findPayment id
  throwIf (row.status = .completed) (.badRequest "Cannot update completed payment")
  throwIf (row.status = .refunded) (.badRequest "Cannot update refunded payment")
  payment.update id dto.apply (viewOf id)

/-- The last call of `refund`; `now` is the clock reading it stores. -/
def writeRefund (id : Id) (now : Instant) : Api PaymentView :=
  payment.update id (fun row => some { row with status := .refunded, refundedAt := some now })
    (viewOf id)

def refund (id : Id) (now : Instant) : Api PaymentView := do
  let row ← findPayment id
  throwIf (row.status ≠ .completed) (.badRequest "Can only refund completed payments")
  writeRefund id now

def remove (id : Id) : Api Unit := do
  let row ← findPayment id
  throwIf (row.status = .completed)
    (.badRequest "Cannot delete completed payment. Use refund instead.")
  payment.delete id

/-- A call of the service; the ids of new rows and the clock readings come with it. -/
inductive Op
  | create (newId : Id) (dto : CreatePaymentDto)
  | update (id : Id) (dto : UpdatePaymentDto)
  | refund (id : Id) (now : Instant)
  | remove (id : Id)

/-- The tables after a call that runs alone. -/
def step (db : Db) : Op → Db
  | .create newId dto => ((create newId dto).exec db).2
  | .update id dto => ((update id dto).exec db).2
  | .refund id now => ((refund id now).exec db).2
  | .remove id => ((remove id).exec db).2

/-! ### The tables after each call -/

variable {db : Db} {id : Id}

lemma exec_findPayment_bind {α : Type} (f : Payment → Api α) :
    (findPayment id >>= f).exec db = match db.payments.find? id with
      | none => (.error (.notFound s!"Payment with ID {id} not found"), db)
      | some row => (f row).exec db := by
  rw [findPayment, Delegate.exec_found_bind, payment]
  rcases db.payments.find? id with _ | row <;> rfl

lemma step_create (newId : Id) (dto : CreatePaymentDto) :
    step db (.create newId dto) =
      if (db.transactions.find? dto.transactionId).isSome ∧ db.payments.find? newId = none then
        { db with payments := db.payments.put newId dto.row }
      else db := by
  show ((create newId dto).exec db).2 = _
  rw [create, Delegate.exec_findUnique_orThrow, transaction]
  rcases ht : db.transactions.find? dto.transactionId with _ | row
  · simp
  dsimp only
  rcases hp : db.payments.find? newId with _ | old
  · rw [Delegate.exec_create_new hp, if_pos (by simp)]
    rfl
  · rw [Delegate.exec_create_stored hp, if_neg (by simp)]

/-- A payment is open to updates. -/
def Open (row : Payment) : Prop := row.status ≠ .completed ∧ row.status ≠ .refunded

instance (row : Payment) : Decidable (Open row) := inferInstanceAs (Decidable (_ ∧ _))

lemma step_update (dto : UpdatePaymentDto) :
    step db (.update id dto) = match db.payments.find? id with
      | none => db
      | some row =>
        if Open row then
          match dto.apply row with
          | none => db
          | some row' => { db with payments := db.payments.put id row' }
        else db := by
  show ((update id dto).exec db).2 = _
  rw [update, exec_findPayment_bind]
  rcases hrow : db.payments.find? id with _ | row
  · rfl
  dsimp only
  by_cases hc : row.status = .completed
  · rw [exec_throwIf_bind_pos hc, if_neg fun h : Open row => h.1 hc]
  by_cases hr : row.status = .refunded
  · rw [exec_throwIf_bind_neg hc, exec_throwIf_bind_pos hr, if_neg fun h : Open row => h.2 hr]
  have hopen : Open row := ⟨hc, hr⟩
  rw [exec_throwIf_bind_neg hc, exec_throwIf_bind_neg hr, if_pos hopen]
  rcases ha : dto.apply row with _ | row'
  · rw [Delegate.exec_update_null hrow ha]
  · rw [Delegate.exec_update hrow ha]
    rfl

lemma step_refund (now : Instant) : step db (.refund id now) = match db.payments.find? id with
    | none => db
    | some row =>
      if row.status = .completed then { db with
        payments := db.payments.put id { row with status := .refunded, refundedAt := some now } }
      else db := by
  show ((refund id now).exec db).2 = _
  rw [refund, exec_findPayment_bind]
  rcases hrow : db.payments.find? id with _ | row
  · rfl
  dsimp only
  by_cases hc : row.status = .completed
  · rw [exec_throwIf_bind_neg (not_not.mpr hc), writeRefund,
      Delegate.exec_update_some (d := payment) hrow, if_pos hc]
    rfl
  · rw [exec_throwIf_bind_pos hc, if_neg hc]

lemma step_remove : step db (.remove id) = match db.payments.find? id with
    | none => db
    | some row =>
      if row.status = .completed then db
      else { db with payments := db.payments.erase id } := by
  show ((remove id).exec db).2 = _
  rw [remove, exec_findPayment_bind]
  rcases hrow : db.payments.find? id with _ | row
  · rfl
  dsimp only
  by_cases hc : row.status = .completed
  · rw [exec_throwIf_bind_pos hc, if_pos hc]
  · rw [exec_throwIf_bind_neg hc, Delegate.exec_delete hrow, if_neg hc]
    rfl

/-- What a call can make of the tables. -/
inductive Outcome (db : Db) : Op → Db → Prop
  | kept (op : Op) : Outcome db op db
  | created {newId : Id} {dto : CreatePaymentDto}
      (transaction : (db.transactions.find? dto.transactionId).isSome)
      (unused : db.payments.find? newId = none) :
      Outcome db (.create newId dto) { db with payments := db.payments.put newId dto.row }
  | updated {id : Id} {dto : UpdatePaymentDto} {row row' : Payment}
      (stored : db.payments.find? id = some row) (isOpen : Open row)
      (applied : dto.apply row = some row') :
      Outcome db (.update id dto) { db with payments := db.payments.put id row' }
  | refunded {id : Id} {now : Instant} {row : Payment} (stored : db.payments.find? id = some row)
      (completed : row.status = .completed) : Outcome db (.refund id now) { db with
        payments := db.payments.put id { row with status := .refunded, refundedAt := some now } }
  | removed {id : Id} {row : Payment} (stored : db.payments.find? id = some row)
      (unfinished : row.status ≠ .completed) :
      Outcome db (.remove id) { db with payments := db.payments.erase id }

/-- **One call.** A call lets the tables be, or has the outcome of its kind. -/
theorem step_outcome (op : Op) : Outcome db op (step db op) := by
  cases op with
  | create newId dto =>
    rw [step_create]
    split
    · rename_i hc
      exact .created hc.1 hc.2
    · exact .kept _
  | update id dto =>
    rw [step_update]
    rcases hrow : db.payments.find? id with _ | row
    · exact .kept _
    dsimp only
    split
    swap
    · exact .kept _
    rename_i hopen
    rcases ha : dto.apply row with _ | row'
    · exact .kept _
    · -- the row is open, and the fields of the request can be written to it
      exact .updated hrow hopen ha
  | refund id now =>
    rw [step_refund]
    rcases hrow : db.payments.find? id with _ | row
    · exact .kept _
    dsimp only
    split
    · rename_i hc
      exact .refunded hrow hc
    · exact .kept _
  | remove id =>
    rw [step_remove]
    rcases hrow : db.payments.find? id with _ | row
    · exact .kept _
    dsimp only
    split
    · exact .kept _
    · rename_i hc
      exact .removed hrow hc

end CoffeeOs.Payments
