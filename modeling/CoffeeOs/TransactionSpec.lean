import CoffeeOs.Loops
import CoffeeOs.Transactions
import Mathlib.Tactic.Ring

/-!
What each call of the transactions service does to the tables.

Each call is described once, as the tables it leaves and as the row of its own transaction
there; what a run does is proved from these descriptions.
-/

namespace CoffeeOs.TransactionSpec

open CoffeeOs.KeyedTable CoffeeOs.Loops CoffeeOs.Payload CoffeeOs.Requests
open CoffeeOs.Requests.Request CoffeeOs.Schema CoffeeOs.Transactions

/-! ### What is owed -/

def subtotalOf (db : Db) (id : Id) : ℚ :=
  ((linesOf db id).map fun l => l.quantity * l.unitPrice).sum

def paidOf (db : Db) (id : Id) : ℚ := ((paymentsOf db id).map fun e => e.2.amount).sum

/-- The balance of a transaction with columns `row`. -/
def owed (db : Db) (id : Id) (row : Transaction) : ℚ :=
  subtotalOf db id + row.taxAmount.getD 0 - row.discountAmount.getD 0 - paidOf db id

/-- The product of each line is stored. -/
def HasProducts (db : Db) (id : Id) : Prop :=
  ∀ l ∈ linesOf db id, (db.products.find? l.productId).isSome

/-- `calculateTotal(id)` answers, with a balance of at most 0. -/
def Paid (db : Db) (id : Id) : Prop :=
  ∃ r, ((calculateTotal id).exec db).1 = .ok r ∧ r.balance ≤ 0

instance (db : Db) (id : Id) : Decidable (Paid db id) :=
  match h : ((calculateTotal id).exec db).1 with
  | .ok r => decidable_of_iff (r.balance ≤ 0) (by simp [Paid, h])
  | .error _ => isFalse (by simp [Paid, h])

def lineTotal (e : LineItem × Option Product) : ℚ := e.1.quantity * e.1.unitPrice

/-- The detail of a line whose product is stored. -/
def detailOf (e : LineItem × Option Product) : LineDetail where
  product := (e.2.map Product.name).getD ""
  quantity := e.1.quantity
  unitPrice := e.1.unitPrice
  total := lineTotal e
  modifiers := e.1.modifiers

lemma addLine_eq {e : LineItem × Option Product} (h : e.2.isSome) (acc : ℚ × List LineDetail) :
    addLine acc e = .ok (acc.1 + lineTotal e, acc.2 ++ [detailOf e]) := by
  obtain ⟨l, product⟩ := e
  obtain ⟨product, rfl⟩ := Option.isSome_iff_exists.mp h
  rfl

variable {db : Db} {id : Id} {row : Transaction}

lemma lineTotals_viewOf : (viewOf db id row).lineItems.map lineTotal =
    (linesOf db id).map fun l => l.quantity * l.unitPrice := by
  unfold viewOf
  rw [List.map_map]
  rfl

/-- The totals of a transaction the product of each of whose lines is stored. -/
lemma totals_eq (h : HasProducts db id) (row : Transaction) : totals (viewOf db id row) = .ok {
    transactionId := id, status := row.status, subtotal := subtotalOf db id
    tax := row.taxAmount.getD 0, discount := row.discountAmount.getD 0
    total := subtotalOf db id + row.taxAmount.getD 0 - row.discountAmount.getD 0
    totalPaid := paidOf db id, balance := owed db id row
    lineItems := (viewOf db id row).lineItems.map detailOf, currency := "MXN" } := by
  have hall : ∀ e ∈ (viewOf db id row).lineItems, e.2.isSome := by
    intro e he
    obtain ⟨l, hl, rfl⟩ := List.mem_map.mp he
    exact h l hl
  have hlines : (viewOf db id row).lineItems.foldlM addLine (0, []) =
      .ok (subtotalOf db id, (viewOf db id row).lineItems.map detailOf) := by
    rw [foldlM_ok (fun e he acc => addLine_eq (hall e he) acc), foldl_add_collect, zero_add,
      lineTotals_viewOf]
    rfl
  have hpaid : (viewOf db id row).payments.foldl
      (fun sum payment => sum + payment.2.amount) 0 = paidOf db id :=
    foldl_add_map (fun payment : Id × Payment => payment.2.amount) _
  rw [totals, hlines]
  show Except.ok _ = _
  rw [hpaid]
  rfl

lemma totals_ok (h : HasProducts db id) (row : Transaction) :
    ∃ r, totals (viewOf db id row) = .ok r ∧ r.balance = owed db id row :=
  ⟨_, totals_eq h row, rfl⟩

lemma totals_error (h : ¬ HasProducts db id) : totals (viewOf db id row) = .error .typeError := by
  have hmiss : ∃ e ∈ (viewOf db id row).lineItems, e.2 = none := by
    by_contra hc
    refine h fun l hl => ?_
    by_contra hl'
    exact hc ⟨_, List.mem_map_of_mem hl, by simpa using hl'⟩
  have hthrow : (viewOf db id row).lineItems.foldlM addLine (0, []) = .error .typeError := by
    refine foldlM_error (fun e acc he => ?_) (fun e acc he => ?_) hmiss (0, [])
    · rw [addLine, he]
    · exact ⟨_, addLine_eq (Option.isSome_iff_ne_none.mpr he) acc⟩
  rw [totals, hthrow]
  rfl

lemma exec_findOne_bind {α : Type} (f : TransactionView → Api α) :
    (findOne id >>= f).exec db = match db.transactions.find? id with
      | none => (.error (.notFound s!"Transaction with ID {id} not found"), db)
      | some row => (f (viewOf db id row)).exec db := by
  rcases h : db.transactions.find? id with _ | row <;> simp [findOne, exec_bind, orThrow, h]

/-- `calculateTotal` looks once and answers from what it saw. -/
lemma exec_calculateTotal : (calculateTotal id).exec db = match db.transactions.find? id with
    | none => (.error (.notFound s!"Transaction with ID {id} not found"), db)
    | some row => (totals (viewOf db id row), db) := exec_findOne_bind _

lemma paid_iff : Paid db id ↔
    ∃ row, db.transactions.find? id = some row ∧ HasProducts db id ∧ owed db id row ≤ 0 := by
  unfold Paid
  rw [exec_calculateTotal]
  rcases hrow : db.transactions.find? id with _ | row
  · simp
  · by_cases hp : HasProducts db id
    · obtain ⟨r, hr, hb⟩ := totals_ok hp row
      simp [hr, hb, hp]
    · simp [totals_error hp, hp]

/-! ### The check of the products -/

/-- The check lets the line items through. -/
def Verified (db : Db) (items : List TransactionLineItemDto) : Prop :=
  (db.products.rows.filter fun e => decide (e.1 ∈ items.map (·.productId))).length =
    (items.map (·.productId)).length

instance (db : Db) (items : List TransactionLineItemDto) : Decidable (Verified db items) :=
  inferInstanceAs (Decidable (_ = _))

/-- Line items that are let through name pairwise distinct products, all of them stored. -/
lemma verified_iff {items : List TransactionLineItemDto} : Verified db items ↔
    (items.map (·.productId)).Nodup ∧
      ∀ id ∈ items.map (·.productId), (db.products.find? id).isSome :=
  Table.length_filter_mem_eq_iff

lemma Verified.found {items : List TransactionLineItemDto} (h : Verified db items)
    {item : TransactionLineItemDto} (hi : item ∈ items) :
    (db.products.find? item.productId).isSome :=
  (verified_iff.mp h).2 _ (List.mem_map_of_mem hi)

lemma verified_nil : Verified db [] := by simp [Verified]

lemma exec_verifyProducts (items : List TransactionLineItemDto) :
    (verifyProducts items).exec db = (if Verified db items then .ok () else
      .error (.badRequest "One or more products not found"), db) := by
  have h : (verifyProducts items).exec db =
      (if ¬ Verified db items then .error (.badRequest "One or more products not found")
        else .ok (), db) := exec_throwIf
  rw [h, ite_not]

/-! ### The tables after each call -/

lemma exec_findTransaction_bind {α : Type} (f : Transaction → Api α) :
    (transaction.findUnique id >>= fun found =>
      orThrow (.notFound s!"Transaction with ID {id} not found") found >>= f).exec db =
      match db.transactions.find? id with
      | none => (.error (.notFound s!"Transaction with ID {id} not found"), db)
      | some row => (f row).exec db := by
  rw [Delegate.exec_findUnique_orThrow, transaction]
  rcases db.transactions.find? id with _ | row <;> rfl

lemma exec_deleteLineItems_bind {α : Type} (f : Unit → Api α) :
    (deleteLineItems id >>= f).exec db =
      (f ()).exec { db with lineItems := db.lineItems.filter fun l => l.transactionId ≠ id } := rfl

lemma exec_deletePayments_bind {α : Type} (f : Unit → Api α) :
    (deletePayments id >>= f).exec db =
      (f ()).exec { db with payments := db.payments.keep fun _ p => p.transactionId ≠ id } := rfl

/-- The answer of `create`, and the tables it leaves. -/
lemma exec_create (newId : Id) (dto : CreateTransactionDto) :
    (create newId dto).exec db =
      if ¬ Verified db dto.lineItems then
        (.error (.badRequest "One or more products not found"), db)
      else match db.transactions.find? newId with
        | some _ => (.error (.prisma .uniqueConstraint), db)
        | none =>
          let db' := { db with
            transactions := db.transactions.put newId dto.row
            lineItems := db.lineItems ++ lineRows newId dto.lineItems }
          (.ok (viewOf db' newId dto.row), db') := by
  have hwrite : (writeCreate newId dto).exec db = match db.transactions.find? newId with
      | some _ => (.error (.prisma .uniqueConstraint), db)
      | none =>
        let db' := { db with
          transactions := db.transactions.put newId dto.row
          lineItems := db.lineItems ++ lineRows newId dto.lineItems }
        (.ok (viewOf db' newId dto.row), db') := by
    rw [writeCreate, exec_atomically]
    rcases db.transactions.find? newId with _ | row <;> rfl
  rw [← hwrite]
  unfold create
  rcases hi : dto.lineItems with _ | ⟨item, items⟩
  · rw [if_neg (not_not.mpr verified_nil)]
    rfl
  · rw [if_pos (by simp), exec_bind, exec_verifyProducts]
    by_cases hv : Verified db (item :: items)
    · rw [if_pos hv, if_neg (not_not.mpr hv)]
    · rw [if_neg hv, if_pos hv]

lemma step_create (newId : Id) (dto : CreateTransactionDto) :
    step db (.create newId dto) =
      if Verified db dto.lineItems ∧ db.transactions.find? newId = none then { db with
        transactions := db.transactions.put newId dto.row
        lineItems := db.lineItems ++ lineRows newId dto.lineItems }
      else db := by
  show ((create newId dto).exec db).2 = _
  rw [exec_create]
  by_cases hv : Verified db dto.lineItems
  · rw [if_neg (not_not.mpr hv)]
    rcases db.transactions.find? newId with _ | row <;> simp [hv]
  · simp [hv]

/-- The line items that an update by the payload leaves in place. -/
def keptLines (db : Db) (id : Id) (dto : UpdateTransactionDto) : List LineItem :=
  if 0 < dto.items.length then db.lineItems.filter fun l => l.transactionId ≠ id else db.lineItems

/-- The answer of `update`, and the tables it leaves. An update that is let through clears the old
line items before its last call, which may still fail on a `null`. -/
lemma exec_update (dto : UpdateTransactionDto) :
    (update id dto).exec db = match db.transactions.find? id with
      | none => (.error (.notFound s!"Transaction with ID {id} not found"), db)
      | some row =>
        if row.status = .completed then
          (.error (.badRequest "Cannot update completed transaction"), db)
        else if ¬ Verified db dto.items then
          (.error (.badRequest "One or more products not found"), db)
        else match dto.apply row with
          | none => (.error (.prisma .requiredNull), { db with lineItems := keptLines db id dto })
          | some row' =>
            let db' := { db with
              transactions := db.transactions.put id row'
              lineItems := keptLines db id dto ++ lineRows id dto.items }
            (.ok (viewOf db' id row'), db') := by
  rw [update, exec_findTransaction_bind]
  rcases hrow : db.transactions.find? id with _ | row
  · rfl
  dsimp only
  by_cases hc : row.status = .completed
  · rw [exec_throwIf_bind_pos hc, if_pos hc]
  -- whatever the calls before have deleted, the last one writes on top of it
  have hwrite : ∀ lines, (writeUpdate id dto).exec { db with lineItems := lines } =
      match dto.apply row with
      | none => (.error (.prisma .requiredNull), { db with lineItems := lines })
      | some row' =>
        let db' := { db with
          transactions := db.transactions.put id row'
          lineItems := lines ++ lineRows id dto.items }
        (.ok (viewOf db' id row'), db') := by
    intro lines
    rw [writeUpdate, exec_atomically]
    rcases ha : dto.apply row with _ | row' <;> simp [hrow, ha]
  rw [exec_throwIf_bind_neg hc, if_neg hc]
  rcases hi : dto.items with _ | ⟨item, items⟩
  · -- without line items nothing is deleted
    have hkeep : keptLines db id dto = db.lineItems := by simp [keptLines, hi]
    have hlast := hwrite db.lineItems
    rw [hi] at hlast
    rw [if_neg (by simp), hkeep, if_neg (not_not.mpr verified_nil)]
    exact hlast
  · -- the old lines are deleted once the products have been found
    have hkeep : keptLines db id dto = db.lineItems.filter fun l => l.transactionId ≠ id := by
      simp [keptLines, hi]
    have hlast := hwrite (keptLines db id dto)
    rw [hi, hkeep] at hlast
    rw [if_pos (by simp), exec_bind, exec_verifyProducts, hkeep]
    by_cases hv : Verified db (item :: items)
    · rw [if_pos hv, if_neg (not_not.mpr hv)]
      exact hlast
    · rw [if_neg hv, if_pos hv]

/-- What a call of `update` has passed that goes through. -/
lemma of_accepts_update {dto : UpdateTransactionDto} (h : (update id dto).Accepts db) :
    ∃ row row', db.transactions.find? id = some row ∧ row.status ≠ .completed ∧
      Verified db dto.items ∧ dto.apply row = some row' := by
  obtain ⟨view, hview⟩ := h
  rw [exec_update] at hview
  rcases hrow : db.transactions.find? id with _ | row
  · simp [hrow] at hview
  by_cases hc : row.status = .completed
  · simp [hrow, hc] at hview
  by_cases hv : Verified db dto.items
  swap
  · simp [hrow, hc, hv] at hview
  rcases ha : dto.apply row with _ | row'
  · simp [hrow, hc, hv, ha] at hview
  · exact ⟨row, row', rfl, hc, hv, ha⟩

lemma step_update (dto : UpdateTransactionDto) :
    step db (.update id dto) = match db.transactions.find? id with
      | none => db
      | some row =>
        if row.status = .completed ∨ ¬ Verified db dto.items then db
        else match dto.apply row with
          | none => { db with lineItems := keptLines db id dto }
          | some row' => { db with
              transactions := db.transactions.put id row'
              lineItems := keptLines db id dto ++ lineRows id dto.items } := by
  show ((update id dto).exec db).2 = _
  rw [exec_update]
  rcases db.transactions.find? id with _ | row
  · rfl
  dsimp only
  by_cases hc : row.status = .completed
  · rw [if_pos hc, if_pos (Or.inl hc)]
  by_cases hv : Verified db dto.items
  · rw [if_neg hc, if_neg (not_not.mpr hv), if_neg (by simp [hc, hv])]
    rcases dto.apply row with _ | row' <;> rfl
  · rw [if_neg hc, if_pos hv, if_pos (Or.inr hv)]

lemma step_cancel : step db (.cancel id) = match db.transactions.find? id with
    | none => db
    | some row =>
      if row.status = .completed then db
      else { db with
        transactions := db.transactions.put id { row with status := .cancelled } } := by
  show ((cancel id).exec db).2 = _
  rw [cancel, exec_findTransaction_bind]
  rcases hrow : db.transactions.find? id with _ | row
  · rfl
  dsimp only
  by_cases hc : row.status = .completed
  · rw [exec_throwIf_bind_pos hc, if_pos hc]
  · rw [exec_throwIf_bind_neg hc, Delegate.exec_update_some (d := transaction) hrow, if_neg hc]
    rfl

/-- The answer of `complete`, and the tables it leaves. -/
lemma exec_complete (now : Instant) :
    (complete id now).exec db = match db.transactions.find? id with
      | none => (.error (.notFound s!"Transaction with ID {id} not found"), db)
      | some row =>
        match totals (viewOf db id row) with
        | .error e => (.error e, db)
        | .ok r =>
          if r.balance > 0 then
            (.error (.badRequest "Cannot complete transaction with outstanding balance"), db)
          else
            let row' := { row with status := .completed, completedAt := some now }
            let db' := { db with transactions := db.transactions.put id row' }
            (.ok (viewOf db' id row'), db') := by
  unfold complete
  rw [exec_findOne_bind]
  rcases hrow : db.transactions.find? id with _ | row
  · rfl
  dsimp only
  rw [exec_bind, exec_calculateTotal, hrow]
  dsimp only
  rcases totals (viewOf db id row) with e | r
  · rfl
  dsimp only
  rw [exec_throwIf_bind]
  refine if_congr Iff.rfl rfl ?_
  rw [writeComplete, Delegate.exec_update_some (d := transaction) hrow]
  rfl

lemma accepts_complete_iff {now : Instant} : (complete id now).Accepts db ↔ Paid db id := by
  unfold Accepts Paid
  rw [exec_complete, exec_calculateTotal]
  rcases db.transactions.find? id with _ | row
  · exact iff_of_false (by simp) (by simp)
  dsimp only
  rcases totals (viewOf db id row) with e | r
  · exact iff_of_false (by simp) (by simp)
  dsimp only
  by_cases hb : r.balance > 0
  · rw [if_pos hb]
    exact iff_of_false (by simp) (by simpa using hb)
  · rw [if_neg hb]
    exact iff_of_true ⟨_, rfl⟩ ⟨r, rfl, not_lt.mp hb⟩

lemma step_complete (now : Instant) : step db (.complete id now) =
    match db.transactions.find? id with
    | none => db
    | some row =>
      if Paid db id then { db with
        transactions := db.transactions.put id
          { row with status := .completed, completedAt := some now } }
      else db := by
  show ((complete id now).exec db).2 = _
  have hpaid : Paid db id ↔ _ := paid_iff
  rw [exec_complete]
  rcases hrow : db.transactions.find? id with _ | row
  · rfl
  dsimp only
  rw [hrow] at hpaid
  by_cases hp : HasProducts db id
  · -- all products are stored, so there is a total to compare with
    obtain ⟨r, hr, hb⟩ := totals_ok hp row
    have hiff : ¬ r.balance > 0 ↔ Paid db id := by
      rw [hpaid, hb, not_lt]
      simp [hp]
    rw [hr]
    dsimp only
    by_cases ho : r.balance > 0
    · rw [if_pos ho, if_neg fun h => hiff.mpr h ho]
    · rw [if_neg ho, if_pos (hiff.mp ho)]
  · -- a product is missing, and the sale can neither be totalled nor paid
    have hunpaid : ¬ Paid db id := by simp [hpaid, hp]
    rw [totals_error hp, if_neg hunpaid]

lemma step_remove : step db (.remove id) = match db.transactions.find? id with
    | none => db
    | some row =>
      if row.status = .completed then db
      else { db with
        lineItems := db.lineItems.filter fun l => l.transactionId ≠ id
        payments := db.payments.keep fun _ p => p.transactionId ≠ id
        transactions := db.transactions.erase id } := by
  show ((remove id).exec db).2 = _
  rw [remove, exec_findTransaction_bind]
  rcases hrow : db.transactions.find? id with _ | row
  · rfl
  dsimp only
  by_cases hc : row.status = .completed
  · rw [exec_throwIf_bind_pos hc, if_pos hc]
  · rw [exec_throwIf_bind_neg hc, exec_deleteLineItems_bind, exec_deletePayments_bind, if_neg hc,
      Delegate.exec_delete]
    · rfl
    · exact hrow

/-- What a call can make of the tables. -/
inductive Outcome (db : Db) : Op → Db → Prop
  | kept (op : Op) : Outcome db op db
  | created {newId : Id} {dto : CreateTransactionDto} (verified : Verified db dto.lineItems)
      (unused : db.transactions.find? newId = none) : Outcome db (.create newId dto) { db with
        transactions := db.transactions.put newId dto.row
        lineItems := db.lineItems ++ lineRows newId dto.lineItems }
  | cleared {id : Id} {dto : UpdateTransactionDto} {row : Transaction}
      (stored : db.transactions.find? id = some row) (unfinished : row.status ≠ .completed)
      (verified : Verified db dto.items) (null : dto.apply row = none) :
      Outcome db (.update id dto) { db with lineItems := keptLines db id dto }
  | updated {id : Id} {dto : UpdateTransactionDto} {row row' : Transaction}
      (stored : db.transactions.find? id = some row) (unfinished : row.status ≠ .completed)
      (verified : Verified db dto.items) (applied : dto.apply row = some row') :
      Outcome db (.update id dto) { db with
        transactions := db.transactions.put id row'
        lineItems := keptLines db id dto ++ lineRows id dto.items }
  | cancelled {id : Id} {row : Transaction} (stored : db.transactions.find? id = some row)
      (unfinished : row.status ≠ .completed) : Outcome db (.cancel id) { db with
        transactions := db.transactions.put id { row with status := .cancelled } }
  | completed {id : Id} {now : Instant} {row : Transaction}
      (stored : db.transactions.find? id = some row) (paid : Paid db id) :
      Outcome db (.complete id now) { db with
        transactions := db.transactions.put id
          { row with status := .completed, completedAt := some now } }
  | removed {id : Id} {row : Transaction} (stored : db.transactions.find? id = some row)
      (unfinished : row.status ≠ .completed) : Outcome db (.remove id) { db with
        lineItems := db.lineItems.filter fun l => l.transactionId ≠ id
        payments := db.payments.keep fun _ p => p.transactionId ≠ id
        transactions := db.transactions.erase id }

/-- **One call.** A call lets the tables be, or has the outcome of its kind. -/
theorem step_outcome (op : Op) : Outcome db op (step db op) := by
  cases op with
  | create newId dto =>
    rw [step_create]
    split
    · rename_i hc
      exact .created hc.1 hc.2
    · exact .kept _
  | update id dto =>
    rw [step_update]
    rcases hrow : db.transactions.find? id with _ | row
    · exact .kept _
    dsimp only
    split
    · exact .kept _
    rename_i hc
    obtain ⟨hunfinished, hv⟩ := not_or.mp hc
    rcases ha : dto.apply row with _ | row'
    · -- the lines are gone, though the row cannot be written
      exact .cleared hrow hunfinished (not_not.mp hv) ha
    · exact .updated hrow hunfinished (not_not.mp hv) ha
  | cancel id =>
    rw [step_cancel]
    rcases hrow : db.transactions.find? id with _ | row
    · exact .kept _
    dsimp only
    split
    · exact .kept _
    · rename_i hunfinished
      exact .cancelled hrow hunfinished
  | complete id now =>
    rw [step_complete]
    rcases hrow : db.transactions.find? id with _ | row
    · exact .kept _
    dsimp only
    split
    · rename_i hpaid
      exact .completed hrow hpaid
    · exact .kept _
  | remove id =>
    rw [step_remove]
    rcases hrow : db.transactions.find? id with _ | row
    · exact .kept _
    dsimp only
    split
    · exact .kept _
    · rename_i hunfinished
      exact .removed hrow hunfinished

/-! ### The row of the target -/

lemma find?_step_update (dto : UpdateTransactionDto) :
    (step db (.update id dto)).transactions.find? id =
      (db.transactions.find? id).map fun row =>
        if row.status = .completed ∨ ¬ Verified db dto.items then row
        else (dto.apply row).getD row := by
  rw [step_update]
  rcases hrow : db.transactions.find? id with _ | row
  · exact hrow
  dsimp only [Option.map_some]
  split
  · exact hrow
  · rcases dto.apply row with _ | row'
    · exact hrow
    · exact Table.find?_put_self

lemma find?_step_cancel : (step db (.cancel id)).transactions.find? id =
    (db.transactions.find? id).map fun row =>
      if row.status = .completed then row else { row with status := .cancelled } := by
  rw [step_cancel]
  rcases hrow : db.transactions.find? id with _ | row
  · exact hrow
  dsimp only [Option.map_some]
  split
  · exact hrow
  · exact Table.find?_put_self

lemma find?_step_complete (now : Instant) :
    (step db (.complete id now)).transactions.find? id =
      (db.transactions.find? id).map fun row =>
        if Paid db id then { row with status := .completed, completedAt := some now }
        else row := by
  rw [step_complete]
  rcases hrow : db.transactions.find? id with _ | row
  · exact hrow
  dsimp only [Option.map_some]
  split
  · exact Table.find?_put_self
  · exact hrow

lemma apply_status {dto : UpdateTransactionDto} {row' : Transaction}
    (h : dto.apply row = some row') :
    row'.status = row.status ∧ dto.status = .undefined ∨ dto.status = .val row'.status := by
  obtain ⟨status, hs, rfl⟩ := Option.map_eq_some_iff.mp h
  rcases hd : dto.status with _ | _ | a
  · rw [hd] at hs
    exact Or.inl ⟨(Option.some.inj hs).symm, rfl⟩
  · rw [hd] at hs; cases hs
  · rw [hd] at hs
    exact Or.inr (congrArg Property.val (Option.some.inj hs))

lemma apply_val {dto : UpdateTransactionDto} {status : TransactionStatus}
    (h : dto.status = .val status) (row : Transaction) :
    ∃ row', dto.apply row = some row' ∧ row'.status = status ∧
      row'.completedAt = row.completedAt := by
  unfold UpdateTransactionDto.apply
  rw [h]
  exact ⟨_, rfl, rfl, rfl⟩

end CoffeeOs.TransactionSpec
