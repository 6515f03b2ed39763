import CoffeeOs.CashSummaries
import CoffeeOs.InventoryItems
import CoffeeOs.Suppliers
import CoffeeOs.TransactionDiscounts

/-!
Rows that belong to other rows, and items that name their supplier.

Line items, counts and expenses are stored under the row they belong to and go with it. An item
names a supplier that has been looked up, and a supplier is deleted only if no item names it. An
empty name is not looked up and names nobody.
-/

namespace CoffeeOs.Belongings

open CoffeeOs.KeyedTable CoffeeOs.Payload CoffeeOs.Schema
open CoffeeOs.CashSummaries (RowsStored)

variable {db : Db} {id : Id}

/-! ### Suppliers of items -/

/-- The supplier that an item names. -/
def supplierOf (item : InventoryItem) : Option Id := item.supplierId.filter (· ≠ "")

/-- The supplier that an item names is stored. -/
def Supplied (db : Db) : Prop :=
  Table.Refers supplierOf db.inventoryItems.values db.suppliers

lemma supplierOf_created {dto : InventoryItems.CreateInventoryItemDto} {row : InventoryItem}
    (hrow : dto.row = some row) (hfound : InventoryItems.SupplierFound db dto.supplierId) (k : Id)
    (hk : supplierOf row = some k) : (db.suppliers.find? k).isSome := by
  rw [supplierOf, (InventoryItems.row_code hrow).2] at hk
  exact hfound k hk

lemma supplierOf_updated {dto : InventoryItems.UpdateInventoryItemDto} {row row' : InventoryItem}
    (h : Supplied db) (hrow : db.inventoryItems.find? id = some row)
    (hfound : InventoryItems.SupplierFound db dto.supplierId) (ha : dto.apply row = some row')
    (k : Id) (hk : supplierOf row' = some k) : (db.suppliers.find? k).isSome := by
  rw [supplierOf, (InventoryItems.apply_code ha).2] at hk
  rcases hdto : dto.supplierId with _ | _ | named <;> rw [hdto] at hk hfound
  · exact h row (Table.mem_values_iff.mpr ⟨id, hrow⟩) k hk
  · cases hk
  · exact hfound k hk

lemma supplied_inventoryItems (op : InventoryItems.Op) (h : Supplied db) :
    Supplied (InventoryItems.step db op) := by
  have hitems : Table.Refers supplierOf (InventoryItems.step db op).inventoryItems.values
      db.suppliers := by
    have houtcome : InventoryItems.Outcome db op (InventoryItems.step db op) :=
      InventoryItems.step_outcome op
    generalize InventoryItems.step db op = db' at houtcome ⊢
    cases houtcome with
    | kept => exact h
    | created _ hfound _ hrow => exact h.put (supplierOf_created hrow hfound)
    | updated hrow _ hfound ha => exact h.put (supplierOf_updated h hrow hfound ha)
    | @retired id row hrow =>
      exact h.put (h row (Table.mem_values_iff.mpr ⟨id, hrow⟩))
    | removed => exact h.mono fun _ hi => Table.of_mem_values_erase hi
  rw [InventoryItems.step_frame]
  exact hitems

/-- A supplier without items is named by none. -/
lemma supplierOf_ne (hunused : Suppliers.countInventoryItems db id = 0) :
    ∀ item ∈ db.inventoryItems.values, supplierOf item ≠ some id := by
  intro item hitem hk
  have hnamed : item.supplierId = some id := (Option.filter_eq_some_iff.mp hk).1
  have hpos : 0 < Suppliers.countInventoryItems db id :=
    (Table.length_filter_pos_iff (p := fun i : InventoryItem => i.supplierId = some id)).mpr
      ⟨item, hitem, hnamed⟩
  exact hpos.ne' hunused

lemma supplied_suppliers (op : Suppliers.Op) (h : Supplied db) :
    Supplied (Suppliers.step db op) := by
  have hsuppliers : Table.Refers supplierOf db.inventoryItems.values
      (Suppliers.step db op).suppliers := by
    have houtcome : Suppliers.Outcome db op (Suppliers.step db op) := Suppliers.step_outcome op
    generalize Suppliers.step db op = db' at houtcome ⊢
    cases houtcome with
    | kept => exact h
    | created => exact h.put_parent
    | updated => exact h.put_parent
    | retired => exact h.put_parent
    | removed _ hunused => exact h.erase_parent (supplierOf_ne hunused)
  rw [Suppliers.step_frame]
  exact hsuppliers

/-! ### Rows with an owner -/

/-- The transaction of each line item, and the register of each count and of each expense, are
stored. -/
structure Owned (db : Db) : Prop where
  lineItems : Table.Refers (fun l : LineItem => some l.transactionId) db.lineItems db.transactions
  denominations : RowsStored db
  expenses : Table.Refers (fun e : CashExpense => some e.cashRegisterId) db.cashExpenses
    db.cashRegisters

lemma lineItems_transactions (op : Transactions.Op) (h : Owned db) :
    Table.Refers (fun l : LineItem => some l.transactionId) (Transactions.step db op).lineItems
      (Transactions.step db op).transactions := by
  have hkept {id : Id} {dto : Transactions.UpdateTransactionDto} :
      Table.Refers (fun l : LineItem => some l.transactionId)
        (TransactionSpec.keptLines db id dto) db.transactions :=
    h.lineItems.mono fun _ hl => TransactionFrame.mem_of_mem_keptLines hl
  have houtcome : TransactionSpec.Outcome db op (Transactions.step db op) :=
    TransactionSpec.step_outcome op
  generalize Transactions.step db op = db' at houtcome ⊢
  cases houtcome with
  | kept => exact h.lineItems
  | created =>
    exact h.lineItems.put_parent.append
      (Table.refers_put_owner (TransactionFrame.transactionId_lineRows _))
  | cleared => exact hkept
  | updated =>
    exact hkept.put_parent.append
      (Table.refers_put_owner (TransactionFrame.transactionId_lineRows _))
  | cancelled => exact h.lineItems.put_parent
  | completed => exact h.lineItems.put_parent
  | removed => exact h.lineItems.erase_owner

lemma owned_transactions (op : Transactions.Op) (h : Owned db) :
    Owned (Transactions.step db op) := by
  have hlines := lineItems_transactions op h
  rw [TransactionFrame.step_eq] at hlines ⊢
  exact ⟨hlines, h.denominations, h.expenses⟩

lemma expenses_step (op : CashRegisters.Op) (h : Owned db) :
    Table.Refers (fun e : CashExpense => some e.cashRegisterId)
      (CashRegisters.step db op).cashExpenses (CashRegisters.step db op).cashRegisters := by
  cases op with
  | create newId dto =>
    rw [CashRegisters.step_create]
    split
    · exact h.expenses.put_parent
    · exact h.expenses
  | update k dto =>
    rw [CashRegisters.step_update]
    rcases db.cashRegisters.find? k with _ | row
    · exact h.expenses
    dsimp only
    rcases dto.apply row with _ | row'
    · exact h.expenses
    · exact h.expenses.put_parent
  | recordDenominations k dto =>
    rw [CashRegisters.step_recordDenominations]
    rcases db.cashRegisters.find? k with _ | row
    · exact h.expenses
    · exact h.expenses.put_parent
  | recordExpense k dto =>
    rw [CashRegisters.step_recordExpense]
    rcases db.cashRegisters.find? k with _ | row
    · exact h.expenses
    · -- the new expense names the register that was found
      refine h.expenses.put_parent.append (Table.refers_put_owner fun e he => ?_)
      rw [List.mem_singleton.mp he]
      rfl
  | remove k =>
    rw [CashRegisters.step_remove]
    rcases db.cashRegisters.find? k with _ | row
    · exact h.expenses
    · -- the expenses of a register go with it
      exact h.expenses.erase_owner

lemma owned_cashRegisters (op : CashRegisters.Op) (h : Owned db) :
    Owned (CashRegisters.step db op) := by
  have hcounts : RowsStored (CashRegisters.step db op) :=
    CashSummaries.rowsStored_step op h.denominations
  have hexpenses := expenses_step op h
  refine ⟨?_, hcounts, hexpenses⟩
  rw [CashRegisters.step_frame]
  exact h.lineItems

end CoffeeOs.Belongings
