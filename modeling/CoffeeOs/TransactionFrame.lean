import CoffeeOs.TransactionSpec

/-!
What a call of the transactions service leaves alone, and what it can do to a row.

A call changes no row of a transaction other than its own, and what it does to the row of its
own is one of a few moves. A completed transaction is frozen up to the time it was completed.
-/

namespace CoffeeOs.TransactionFrame

open CoffeeOs.KeyedTable CoffeeOs.Payload CoffeeOs.Schema CoffeeOs.Transactions
open CoffeeOs.TransactionSpec

variable {db : Db} {id : Id} {row : Transaction}

/-- The transaction a call is about, which `create` brings into being. -/
def target : Op → Id
  | .create newId _ => newId
  | .update id _ => id
  | .cancel id => id
  | .complete id _ => id
  | .remove id => id

/-- The rows that belong to a transaction: its own, its line items, its payments. -/
def ownRows (db : Db) (id : Id) : Option Transaction × List LineItem × List (Id × Payment) :=
  (db.transactions.find? id, linesOf db id, paymentsOf db id)

lemma ownRows_eq {db db' : Db} (ht : db'.transactions.find? id = db.transactions.find? id)
    (hl : linesOf db' id = linesOf db id) (hp : paymentsOf db' id = paymentsOf db id) :
    ownRows db' id = ownRows db id := by
  unfold ownRows
  rw [ht, hl, hp]

lemma find?_of_ownRows {db db' : Db} (h : ownRows db' id = ownRows db id) :
    db'.transactions.find? id = db.transactions.find? id := congrArg Prod.fst h

lemma linesOf_of_ownRows {db db' : Db} (h : ownRows db' id = ownRows db id) :
    linesOf db' id = linesOf db id := congrArg (·.2.1) h

lemma paymentsOf_of_ownRows {db db' : Db} (h : ownRows db' id = ownRows db id) :
    paymentsOf db' id = paymentsOf db id := congrArg (·.2.2) h

lemma owed_congr {db db' : Db} (hl : linesOf db' id = linesOf db id)
    (hp : paymentsOf db' id = paymentsOf db id) : owed db' id row = owed db id row := by
  unfold owed subtotalOf paidOf
  rw [hl, hp]

lemma hasProducts_congr {db db' : Db} (hl : linesOf db' id = linesOf db id)
    (hprod : db'.products = db.products) : HasProducts db' id ↔ HasProducts db id := by
  unfold HasProducts
  rw [hl, hprod]

/-- The balance does not look at the status of a row, nor at its time of completion. -/
lemma paid_congr_row {db db' : Db} {row' : Transaction} (hrow : db.transactions.find? id = some row)
    (hrow' : db'.transactions.find? id = some row') (ht : row'.taxAmount = row.taxAmount)
    (hd : row'.discountAmount = row.discountAmount) (hl : linesOf db' id = linesOf db id)
    (hp : paymentsOf db' id = paymentsOf db id) (hprod : db'.products = db.products) :
    Paid db' id ↔ Paid db id := by
  have howed : owed db' id row' = owed db id row := by
    rw [owed_congr hl hp]
    unfold owed
    rw [ht, hd]
  rw [paid_iff, paid_iff, hrow, hrow', hasProducts_congr hl hprod]
  simp [howed]

variable {k : Id}

lemma transactionId_lineRows (items : List TransactionLineItemDto) :
    ∀ l ∈ lineRows id items, l.transactionId = id := by
  intro l hl
  obtain ⟨item, -, rfl⟩ := List.mem_map.mp hl
  rfl

lemma linesOf_lineRows_self (items : List TransactionLineItemDto) :
    (lineRows id items).filter (fun l => l.transactionId = id) = lineRows id items :=
  Table.filter_owner_self (transactionId_lineRows items)

lemma linesOf_lineRows_ne (items : List TransactionLineItemDto) (h : k ≠ id) :
    (lineRows k items).filter (fun l => l.transactionId = id) = [] :=
  Table.filter_owner_ne (transactionId_lineRows items) h

lemma mem_of_mem_keptLines {dto : UpdateTransactionDto} {l : LineItem}
    (h : l ∈ keptLines db id dto) : l ∈ db.lineItems := by
  unfold keptLines at h
  split at h
  · exact List.mem_of_mem_filter h
  · exact h

lemma filter_keptLines_ne (dto : UpdateTransactionDto) (h : k ≠ id) :
    (keptLines db k dto).filter (fun l => l.transactionId = id) = linesOf db id := by
  unfold keptLines
  split
  · exact Table.filter_dropped_ne _ h
  · rfl

/-- The lines that an update leaves of its own transaction. -/
lemma filter_keptLines_self (dto : UpdateTransactionDto) :
    (keptLines db id dto).filter (fun l => l.transactionId = id) =
      if 0 < dto.items.length then [] else linesOf db id := by
  unfold keptLines
  split
  · exact Table.filter_dropped_self db.lineItems
  · rfl

/-- The lines of its own transaction after an update: the new ones if there are any, and else
those that were there. -/
lemma filter_updatedLines (dto : UpdateTransactionDto) :
    (keptLines db id dto ++ lineRows id dto.items).filter (fun l => l.transactionId = id) =
      if 0 < dto.items.length then lineRows id dto.items else linesOf db id := by
  rw [List.filter_append, linesOf_lineRows_self, filter_keptLines_self]
  split
  · rfl
  · rename_i hnone
    have hitems : dto.items = [] := List.length_eq_zero_iff.mp (Nat.eq_zero_of_not_pos hnone)
    rw [hitems]
    exact List.append_nil _

lemma paymentsOf_keep_ne (h : k ≠ id) :
    (db.payments.keep fun _ p => p.transactionId ≠ k).rows.filter
      (fun e => e.2.transactionId = id) = paymentsOf db id :=
  Table.filter_dropped_ne db.payments.rows h

/-- A call changes the transactions, their line items and their payments, and nothing else. -/
lemma step_eq (op : Op) : step db op = { db with
    transactions := (step db op).transactions, lineItems := (step db op).lineItems,
    payments := (step db op).payments } := by
  have h : Outcome db op (step db op) := step_outcome op
  generalize step db op = db' at h ⊢
  cases h <;> rfl

@[simp] lemma step_products (op : Op) : (step db op).products = db.products := by rw [step_eq]

/-- **The frame.** A call changes no row of a transaction that is not its target. -/
theorem step_ownRows_of_ne {op : Op} (h : target op ≠ id) :
    ownRows (step db op) id = ownRows db id := by
  have houtcome : Outcome db op (step db op) := step_outcome op
  generalize step db op = db' at houtcome ⊢
  cases houtcome with
  | kept => rfl
  | @created newId dto =>
    have h : newId ≠ id := h
    refine ownRows_eq (Table.find?_put_ne h.symm) ?_ rfl
    show (db.lineItems ++ lineRows newId dto.lineItems).filter _ = _
    rw [List.filter_append, linesOf_lineRows_ne _ h, List.append_nil]
    rfl
  | cleared => exact ownRows_eq rfl (filter_keptLines_ne _ h) rfl
  | @updated k dto =>
    have h : k ≠ id := h
    refine ownRows_eq (Table.find?_put_ne h.symm) ?_ rfl
    show (keptLines db k dto ++ lineRows k dto.items).filter _ = _
    rw [List.filter_append, filter_keptLines_ne _ h, linesOf_lineRows_ne _ h, List.append_nil]
  | cancelled => exact ownRows_eq (Table.find?_put_ne h.symm) rfl rfl
  | completed => exact ownRows_eq (Table.find?_put_ne h.symm) rfl rfl
  | removed =>
    exact ownRows_eq (Table.find?_erase_ne h.symm) (Table.filter_dropped_ne _ h)
      (paymentsOf_keep_ne h)

/-! ### What a call does to a row -/

/-- The moves of the row `id` under a call. -/
inductive RowStep (db : Db) (id : Id) : Op → Transaction → Transaction → Prop
  | kept (op : Op) (row : Transaction) : RowStep db id op row row
  | updated {dto : UpdateTransactionDto} {row row' : Transaction}
      (unfinished : row.status ≠ .completed) (verified : Verified db dto.items)
      (applied : dto.apply row = some row') : RowStep db id (.update id dto) row row'
  | cancelled {row : Transaction} (unfinished : row.status ≠ .completed) :
      RowStep db id (.cancel id) row { row with status := .cancelled }
  | completed {row : Transaction} {now : Instant} (paid : Paid db id) :
      RowStep db id (.complete id now) row
        { row with status := .completed, completedAt := some now }

/-- A stored row makes one of its moves, or its transaction is removed. -/
theorem step_row (op : Op) (h : db.transactions.find? id = some row) :
    (∃ row', (step db op).transactions.find? id = some row' ∧ RowStep db id op row row') ∨
    (op = .remove id ∧ row.status ≠ .completed ∧
      (step db op).transactions.find? id = none) := by
  by_cases ht : target op = id
  swap
  · -- a call on another transaction
    exact Or.inl ⟨row, (find?_of_ownRows (step_ownRows_of_ne ht)).trans h, .kept op row⟩
  subst ht
  have houtcome : Outcome db op (step db op) := step_outcome op
  generalize step db op = db' at houtcome ⊢
  cases houtcome with
  | kept => exact Or.inl ⟨row, h, .kept _ row⟩
  | created _ unused =>
    rw [target, unused] at h
    cases h
  | cleared => exact Or.inl ⟨row, h, .kept _ row⟩
  | updated stored unfinished verified applied =>
    obtain rfl := Option.some.inj (stored.symm.trans h)
    exact Or.inl ⟨_, Table.find?_put_self, .updated unfinished verified applied⟩
  | cancelled stored unfinished =>
    obtain rfl := Option.some.inj (stored.symm.trans h)
    exact Or.inl ⟨_, Table.find?_put_self, .cancelled unfinished⟩
  | completed stored paid =>
    obtain rfl := Option.some.inj (stored.symm.trans h)
    exact Or.inl ⟨_, Table.find?_put_self, .completed paid⟩
  | removed stored unfinished =>
    obtain rfl := Option.some.inj (stored.symm.trans h)
    exact Or.inr ⟨rfl, unfinished, Table.find?_erase_self⟩

/-- Only `remove` deletes a transaction. -/
lemma stored_step {op : Op} (hop : ∀ k, op ≠ .remove k) (h : (db.transactions.find? id).isSome) :
    ((step db op).transactions.find? id).isSome := by
  obtain ⟨row, hrow⟩ := Option.isSome_iff_exists.mp h
  rcases step_row op hrow with ⟨row', hrow', -⟩ | ⟨hremove, -⟩
  · rw [hrow']
    rfl
  · exact absurd hremove (hop id)

/-- A row that was not there is the row of a payload. -/
theorem step_row_born {op : Op} {row' : Transaction} (h : db.transactions.find? id = none)
    (h' : (step db op).transactions.find? id = some row') :
    ∃ dto, op = .create id dto ∧ row' = dto.row := by
  by_cases ht : target op = id
  swap
  · rw [find?_of_ownRows (step_ownRows_of_ne ht), h] at h'
    cases h'
  subst ht
  have houtcome : Outcome db op (step db op) := step_outcome op
  generalize step db op = db' at houtcome h'
  have absent {row : Transaction} (stored : db.transactions.find? (target op) = some row) :
      False := by
    rw [h] at stored
    cases stored
  cases houtcome with
  | kept => exact (absent h').elim
  | created => exact ⟨_, rfl, Option.some.inj (h'.symm.trans Table.find?_put_self)⟩
  | cleared stored => exact (absent stored).elim
  | updated stored => exact (absent stored).elim
  | cancelled stored => exact (absent stored).elim
  | completed stored => exact (absent stored).elim
  | removed stored => exact (absent stored).elim

/-- A call of `complete` leaves the line items and the payments. -/
lemma step_complete_rows (now : Instant) :
    linesOf (step db (.complete id now)) id = linesOf db id ∧
      paymentsOf (step db (.complete id now)) id = paymentsOf db id := by
  rw [step_complete]
  rcases db.transactions.find? id with _ | row
  · exact ⟨rfl, rfl⟩
  · dsimp only
    split <;> exact ⟨rfl, rfl⟩

/-! ### Completed transactions -/

/-- The line items and the payments of a completed transaction stay as they are. -/
theorem step_rows_of_completed (op : Op) (h : db.transactions.find? id = some row)
    (hc : row.status = .completed) :
    linesOf (step db op) id = linesOf db id ∧ paymentsOf (step db op) id = paymentsOf db id := by
  by_cases ht : target op = id
  swap
  · have hf : ownRows (step db op) id = ownRows db id := step_ownRows_of_ne ht
    exact ⟨linesOf_of_ownRows hf, paymentsOf_of_ownRows hf⟩
  subst ht
  have houtcome : Outcome db op (step db op) := step_outcome op
  generalize step db op = db' at houtcome ⊢
  -- what the call finds is this row, and it is completed
  have finished {row' : Transaction} (stored : db.transactions.find? (target op) = some row') :
      row'.status = .completed := Option.some.inj (stored.symm.trans h) ▸ hc
  cases houtcome with
  | kept => exact ⟨rfl, rfl⟩
  | created _ unused =>
    rw [target, unused] at h
    cases h
  | cleared stored hopen => exact absurd (finished stored) hopen
  | updated stored hopen => exact absurd (finished stored) hopen
  | cancelled stored hopen => exact absurd (finished stored) hopen
  | completed => exact ⟨rfl, rfl⟩
  | removed stored hopen => exact absurd (finished stored) hopen

/-- A completed row keeps every column but the time of completion. -/
theorem step_row_of_completed (op : Op) (h : db.transactions.find? id = some row)
    (hc : row.status = .completed) : ∃ completedAt,
      (step db op).transactions.find? id = some { row with completedAt := completedAt } := by
  rcases step_row op h with ⟨row', h', hr⟩ | ⟨-, ho, -⟩
  · cases hr with
    | kept => exact ⟨row.completedAt, h'⟩
    | updated ho => exact absurd hc ho
    | cancelled ho => exact absurd hc ho
    | completed => rw [← hc] at h'; exact ⟨_, h'⟩
  · exact absurd hc ho

end CoffeeOs.TransactionFrame
