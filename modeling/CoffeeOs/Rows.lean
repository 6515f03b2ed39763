import CoffeeOs.CashRegisters
import CoffeeOs.Categories
import CoffeeOs.Discounts
import CoffeeOs.Footprints
import CoffeeOs.InventoryMovements
import CoffeeOs.Orders
import CoffeeOs.Payments
import CoffeeOs.Shifts
import CoffeeOs.Suppliers
import CoffeeOs.Taxes
import Mathlib.Data.Fintype.Basic

/-!
Calls that name a row, many at once.

A call that moves a stored row along looks at this row and writes it in a call of its own, and
what else it shows of the database these calls leave alone. So calls on different rows cannot
disturb each other, and what races there are between such calls are races for one row.
-/

namespace CoffeeOs.Rows

open CoffeeOs.Footprints CoffeeOs.Interleaving CoffeeOs.Interleaving.Pool CoffeeOs.KeyedTable
open CoffeeOs.Requests CoffeeOs.Requests.Request CoffeeOs.Runs CoffeeOs.Schema

/-! ### Rows of several tables -/

inductive RowTable
  | payments | orders | shifts | inventoryMovements | discounts | taxes | categories | suppliers
  | cashRegisters
  deriving DecidableEq

namespace RowTable

def Row : RowTable → Type
  | .payments => Payment
  | .orders => Order
  | .shifts => Shift
  | .inventoryMovements => InventoryMovement
  | .discounts => Discount
  | .taxes => Tax
  | .categories => Category
  | .suppliers => Supplier
  | .cashRegisters => CashRegister

def delegate : (t : RowTable) → Delegate t.Row
  | .payments => payment
  | .orders => order
  | .shifts => shift
  | .inventoryMovements => inventoryMovement
  | .discounts => discount
  | .taxes => tax
  | .categories => category
  | .suppliers => supplier
  | .cashRegisters => cashRegister

variable {t t' : RowTable} {db : Db}

lemma get_set (x : Table Id t.Row) : t.delegate.get (t.delegate.set x db) = x := by cases t <;> rfl

lemma set_get : t.delegate.set (t.delegate.get db) db = db := by cases t <;> rfl

lemma set_set (x y : Table Id t.Row) :
    t.delegate.set y (t.delegate.set x db) = t.delegate.set y db := by cases t <;> rfl

lemma get_set_ne (h : t ≠ t') (x : Table Id t.Row) :
    t'.delegate.get (t.delegate.set x db) = t'.delegate.get db := by
  cases t <;> cases t' <;> first | rfl | exact absurd rfl h

lemma set_comm (h : t ≠ t') (x : Table Id t.Row) (y : Table Id t'.Row) :
    t'.delegate.set y (t.delegate.set x db) = t.delegate.set x (t'.delegate.set y db) := by
  cases t <;> cases t' <;> first | rfl | exact absurd rfl h

end RowTable

/-- A row that a call names: its table and its id. -/
abbrev Target := RowTable × Id

/-- The row, if it is stored. -/
def rowAt (q : Target) (db : Db) : Option q.1.Row := (q.1.delegate.get db).find? q.2

/-- The database with one row rewritten or dropped, if it is stored. -/
def rewrite (q : Target) (g : q.1.Row → Option q.1.Row) (db : Db) : Db :=
  q.1.delegate.set ((q.1.delegate.get db).alter q.2 g) db

def Rewrites (q : Target) (f : Db → Db) : Prop := ∃ g, f = rewrite q g

variable {q q' : Target} {db : Db} {α β : Type}

lemma rewrites_id : Rewrites q id := by
  refine ⟨some, funext fun db => ?_⟩
  rw [rewrite, Table.alter_some, RowTable.set_get]
  rfl

lemma rewrite_comm (h : q ≠ q') (g : q.1.Row → Option q.1.Row) (g' : q'.1.Row → Option q'.1.Row) :
    rewrite q' g' (rewrite q g db) = rewrite q g (rewrite q' g' db) := by
  obtain ⟨t, id⟩ := q
  obtain ⟨t', id'⟩ := q'
  unfold rewrite
  by_cases ht : t = t'
  · subst ht
    have hid : id ≠ id' := fun he => h (he ▸ rfl)
    dsimp only
    rw [RowTable.get_set, RowTable.get_set, RowTable.set_set, RowTable.set_set,
      Table.alter_comm hid]
  · dsimp only
    rw [RowTable.get_set_ne ht, RowTable.get_set_ne (Ne.symm ht), RowTable.set_comm ht]

lemma find?_rewrite_ne (h : q' ≠ q) (g : q'.1.Row → Option q'.1.Row) (db : Db) :
    (q.1.delegate.get (rewrite q' g db)).find? q.2 = (q.1.delegate.get db).find? q.2 := by
  obtain ⟨t, id⟩ := q
  obtain ⟨t', id'⟩ := q'
  unfold rewrite
  by_cases ht : t = t'
  · subst ht
    dsimp only
    rw [RowTable.get_set, Table.find?_alter_ne fun he => h (congrArg (Prod.mk t) he.symm)]
  · dsimp only
    rw [RowTable.get_set_ne (Ne.symm ht)]

lemma rewrite_of_none {g : q.1.Row → Option q.1.Row} (h : rowAt q db = none) :
    rewrite q g db = db := by
  rw [rewrite, Table.alter_of_none h, RowTable.set_get]

/-! ### What a call sees -/

/-- What is seen does not depend on the tables of such rows. -/
def Fixed (view : Db → α) : Prop :=
  ∀ (t : RowTable) (x : Table Id t.Row) db, view (t.delegate.set x db) = view db

/-- Of such rows, only the row `q` is seen. -/
def Sees (q : Target) (view : Db → α) : Prop :=
  ∀ q', q' ≠ q → ∀ g db, view (rewrite q' g db) = view db

lemma sees_rowAt : Sees q (rowAt q) := fun _ hq => find?_rewrite_ne hq

/-- The row, along with what is shown with it. -/
lemma sees_map_rowAt {view : q.1.Row → Db → α} (h : ∀ row, Fixed (view row)) :
    Sees q fun db => (rowAt q db).map fun row => view row db := by
  intro q' hq g db
  dsimp only
  rw [rowAt, find?_rewrite_ne hq]
  exact congrArg (Option.map · _) (funext fun row => h row _ _ db)

/-- The calls change nothing but the row `q`, and see nothing of the other rows. -/
structure Keeps (q : Target) (p : Api α) : Prop where
  within : Within (Rewrites q) p
  blind : ∀ q', q' ≠ q → Blind (Rewrites q') p

lemma keeps_done (r : Except Error α) : Keeps q (.done r) := ⟨.done r, fun _ _ => .done r⟩

lemma Keeps.bind {p : Api α} {f : α → Api β} (hp : Keeps q p) (hf : ∀ a, Keeps q (f a)) :
    Keeps q (p >>= f) :=
  ⟨hp.within.bind fun a => (hf a).within, fun q' hq =>
    (hp.blind q' hq).bind fun a => (hf a).blind q' hq⟩

lemma Keeps.map {p : Api α} (hp : Keeps q p) (f : α → β) : Keeps q (f <$> p) :=
  hp.bind fun _ => keeps_done _

lemma keeps_throwIf {c : Prop} [Decidable c] {e : Error} : Keeps q (throwIf c e) :=
  ⟨within_throwIf, fun _ _ => blind_throwIf⟩

lemma keeps_orThrow {o : Option α} {e : Error} : Keeps q (orThrow e o) :=
  ⟨within_orThrow, fun _ _ => blind_orThrow⟩

lemma keeps_look {view : Db → α} (h : Sees q view) : Keeps q (look view) := by
  refine ⟨within_look rewrites_id view, fun q' hq => blind_look ?_⟩
  rintro _ ⟨g, rfl⟩ db
  exact h q' hq g db

/-- Reading a row that has to be there. -/
lemma keeps_found (q : Target) (e : Error) :
    Keeps q (q.1.delegate.findUnique q.2 >>= fun found => orThrow e found) :=
  (keeps_look sees_rowAt).bind fun _ => keeps_orThrow

/-- A call that rewrites the row by `g`, and answers with what it sees. -/
lemma keeps_atomically {f : Db → Except Error (α × Db)} (g : q.1.Row → Option q.1.Row)
    (hstore : ∀ db, ((Request.atomically f).exec db).2 = rewrite q g db)
    (hsees : Sees q fun db => (f db).map Prod.fst) : Keeps q (Request.atomically f) := by
  refine ⟨within_atomically ⟨g, funext hstore⟩, fun q' hq => blind_atomically ?_ ?_⟩
  · rintro _ ⟨g', rfl⟩ db
    rw [hstore, hstore, rewrite_comm hq]
  · rintro _ ⟨g', rfl⟩ db
    exact hsees q' hq g' db

lemma keeps_update (q : Target) {f : q.1.Row → Option q.1.Row} {view : q.1.Row → Db → α}
    (h : ∀ row, Fixed (view row)) : Keeps q (q.1.delegate.update q.2 f view) := by
  refine keeps_atomically (fun row => some ((f row).getD row)) (fun db => ?_) fun q' hq g db => ?_
  · show ((q.1.delegate.update q.2 f view).exec db).2 = _
    rcases hrow : (q.1.delegate.get db).find? q.2 with _ | row
    · rw [rewrite_of_none hrow, Delegate.update, exec_atomically, hrow]
    have hput := Table.alter_of_some (g := fun row => some ((f row).getD row)) hrow rfl
    rw [Delegate.exec_update_stored hrow, rewrite, hput]
    rcases f row with _ | row'
    · rw [Option.getD_none, Table.put_self hrow, RowTable.set_get]
    · rfl
  · dsimp only
    rw [find?_rewrite_ne hq]
    rcases (q.1.delegate.get db).find? q.2 with _ | row
    · rfl
    dsimp only
    rcases f row with _ | row'
    · rfl
    · show Except.ok (view row' _) = Except.ok (view row' _)
      rw [h row', h row', rewrite, h row']

lemma keeps_deleteRow (q : Target) : Keeps q (q.1.delegate.deleteRow q.2 fun db => db) := by
  refine keeps_atomically (fun _ => none) (fun db => ?_) fun q' hq g db => ?_
  · show ((q.1.delegate.deleteRow q.2 fun db => db).exec db).2 = _
    rcases hrow : (q.1.delegate.get db).find? q.2 with _ | row
    · rw [rewrite_of_none hrow, Delegate.deleteRow, exec_atomically, hrow]
    · rw [Delegate.exec_deleteRow hrow, Table.erase_eq_alter]
      rfl
  · dsimp only
    rw [find?_rewrite_ne hq]
    rcases (q.1.delegate.get db).find? q.2 with _ | row <;> rfl

lemma keeps_delete (q : Target) : Keeps q (q.1.delegate.delete q.2) := by
  refine keeps_atomically (fun _ => none) (fun db => ?_) fun q' hq g db => ?_
  · show ((q.1.delegate.delete q.2).exec db).2 = _
    rcases hrow : (q.1.delegate.get db).find? q.2 with _ | row
    · rw [rewrite_of_none hrow, Delegate.delete, exec_atomically, hrow]
    · rw [Delegate.exec_delete hrow, Table.erase_eq_alter]
      rfl
  · dsimp only
    rw [find?_rewrite_ne hq]
    rcases (q.1.delegate.get db).find? q.2 with _ | row <;> rfl

/-! ### The calls -/

/-- A call of the API that names the row it changes. -/
inductive Call
  | updatePayment (id : Id) (dto : Payments.UpdatePaymentDto)
  | refundPayment (id : Id) (now : Instant)
  | removePayment (id : Id)
  | updateOrder (id : Id) (dto : Orders.UpdateOrderDto)
  | startOrder (id : Id) (now : Instant)
  | markReady (id : Id) (now : Instant)
  | markServed (id : Id) (now : Instant)
  | cancelOrder (id : Id) (now : Instant)
  | removeOrder (id : Id)
  | updateShift (id : Id) (dto : Shifts.UpdateShiftDto)
  | closeShift (id : Id) (dto : Shifts.CloseShiftDto) (now : Instant)
  | removeShift (id : Id)
  | updateMovement (id : Id) (dto : InventoryMovements.UpdateInventoryMovementDto)
  | removeMovement (id : Id)
  | activateDiscount (id : Id)
  | deactivateDiscount (id : Id)
  | incrementUsage (id : Id)
  | removeDiscount (id : Id)
  | updateTax (id : Id) (dto : Taxes.UpdateTaxDto)
  | removeTax (id : Id)
  | updateSortOrder (id : Id) (sortOrder : ℤ)
  | removeCategory (id : Id)
  | removeSupplier (id : Id)
  | updateRegister (id : Id) (dto : CashRegisters.UpdateCashRegisterDto)

/-- What a call answers with. -/
inductive Answer
  | payment (view : Payments.PaymentView)
  | order (view : Orders.OrderView)
  | shift (view : Shifts.ShiftView)
  | movement (view : InventoryMovements.MovementView)
  | discount (view : Discounts.DiscountView)
  | deletedDiscount (row : Discount)
  | tax (view : Taxes.TaxView)
  | deletedTax (row : Tax)
  | category (row : Category)
  | supplier (row : Option Supplier)
  | register (view : CashRegisters.CashRegisterView)
  | deleted

/-- The row the call names. -/
def Call.target : Call → Target
  | .updatePayment id _ | .refundPayment id _ | .removePayment id => (.payments, id)
  | .updateOrder id _ | .startOrder id _ | .markReady id _ | .markServed id _ | .cancelOrder id _
  | .removeOrder id => (.orders, id)
  | .updateShift id _ | .closeShift id _ _ | .removeShift id => (.shifts, id)
  | .updateMovement id _ | .removeMovement id => (.inventoryMovements, id)
  | .activateDiscount id | .deactivateDiscount id | .incrementUsage id | .removeDiscount id =>
    (.discounts, id)
  | .updateTax id _ | .removeTax id => (.taxes, id)
  | .updateSortOrder id _ | .removeCategory id => (.categories, id)
  | .removeSupplier id => (.suppliers, id)
  | .updateRegister id _ => (.cashRegisters, id)

def request : Call → Api Answer
  | .updatePayment id dto => .payment <$> Payments.update id dto
  | .refundPayment id now => .payment <$> Payments.refund id now
  | .removePayment id => (fun _ => .deleted) <$> Payments.remove id
  | .updateOrder id dto => .order <$> Orders.update id dto
  | .startOrder id now => .order <$> Orders.startOrder id now
  | .markReady id now => .order <$> Orders.markReady id now
  | .markServed id now => .order <$> Orders.markServed id now
  | .cancelOrder id now => .order <$> Orders.cancel id now
  | .removeOrder id => (fun _ => .deleted) <$> Orders.remove id
  | .updateShift id dto => .shift <$> Shifts.update id dto
  | .closeShift id dto now => .shift <$> Shifts.close id dto now
  | .removeShift id => (fun _ => .deleted) <$> Shifts.remove id
  | .updateMovement id dto => .movement <$> InventoryMovements.update id dto
  | .removeMovement id => (fun _ => .deleted) <$> InventoryMovements.remove id
  | .activateDiscount id => .discount <$> Discounts.activate id
  | .deactivateDiscount id => .discount <$> Discounts.deactivate id
  | .incrementUsage id => .discount <$> Discounts.incrementUsage id
  | .removeDiscount id => .deletedDiscount <$> Discounts.remove id
  | .updateTax id dto => .tax <$> Taxes.update id dto
  | .removeTax id => .deletedTax <$> Taxes.remove id
  | .updateSortOrder id sortOrder => .category <$> Categories.updateSortOrder id sortOrder
  | .removeCategory id => .category <$> Categories.remove id
  | .removeSupplier id => .supplier <$> Suppliers.remove id
  | .updateRegister id dto => .register <$> CashRegisters.update id dto

variable {id : Id}

/-- What is made of the row alone. -/
lemma fixed_const (a : α) : Fixed fun _ => a := fun _ _ _ => rfl

lemma fixed_payment (row : Payment) : Fixed (Payments.viewOf id row) :=
  fun t _ _ => by cases t <;> rfl

lemma fixed_order (row : Order) : Fixed (Orders.viewOf id row) := fun t _ _ => by cases t <;> rfl

lemma fixed_movement (row : InventoryMovement) : Fixed (InventoryMovements.viewOf id row) :=
  fun t _ _ => by cases t <;> rfl

lemma fixed_register (row : CashRegister) : Fixed (CashRegisters.viewOf id row) :=
  fun t _ _ => by cases t <;> rfl

lemma fixed_countProducts : Fixed (Categories.countProducts · id) :=
  fun t _ _ => by cases t <;> rfl

lemma fixed_countInventoryItems : Fixed (Suppliers.countInventoryItems · id) :=
  fun t _ _ => by cases t <;> rfl

/-! ### Each call keeps to its row -/

lemma keeps_updatePayment (dto : Payments.UpdatePaymentDto) :
    Keeps (.payments, id) (Payments.update id dto) :=
  (keeps_found (.payments, id) _).bind fun _ => keeps_throwIf.bind fun _ =>
    keeps_throwIf.bind fun _ => keeps_update (.payments, id) fixed_payment

lemma keeps_refundPayment (now : Instant) : Keeps (.payments, id) (Payments.refund id now) :=
  (keeps_found (.payments, id) _).bind fun _ => keeps_throwIf.bind fun _ =>
    keeps_update (.payments, id) fixed_payment

lemma keeps_removePayment : Keeps (.payments, id) (Payments.remove id) :=
  (keeps_found (.payments, id) _).bind fun _ => keeps_throwIf.bind fun _ =>
    keeps_delete (.payments, id)

lemma keeps_updateOrder (dto : Orders.UpdateOrderDto) :
    Keeps (.orders, id) (Orders.update id dto) :=
  (keeps_found (.orders, id) _).bind fun _ => keeps_throwIf.bind fun _ =>
    keeps_throwIf.bind fun _ => keeps_update (.orders, id) fixed_order

lemma keeps_advance (source : OrderStatus) (message : String) (f : Order → Order) :
    Keeps (.orders, id) (Orders.advance id source message f) :=
  (keeps_found (.orders, id) _).bind fun _ => keeps_throwIf.bind fun _ =>
    keeps_update (.orders, id) fixed_order

lemma keeps_cancelOrder (now : Instant) : Keeps (.orders, id) (Orders.cancel id now) :=
  (keeps_found (.orders, id) _).bind fun _ => keeps_throwIf.bind fun _ =>
    keeps_throwIf.bind fun _ => keeps_update (.orders, id) fixed_order

lemma keeps_removeOrder : Keeps (.orders, id) (Orders.remove id) :=
  (keeps_found (.orders, id) _).bind fun _ => keeps_throwIf.bind fun _ =>
    keeps_delete (.orders, id)

lemma keeps_updateShift (dto : Shifts.UpdateShiftDto) :
    Keeps (.shifts, id) (Shifts.update id dto) :=
  (keeps_found (.shifts, id) _).bind fun _ =>
    keeps_update (.shifts, id) fun _ => fixed_const _

lemma keeps_closeShift (dto : Shifts.CloseShiftDto) (now : Instant) :
    Keeps (.shifts, id) (Shifts.close id dto now) :=
  (keeps_found (.shifts, id) _).bind fun _ => keeps_throwIf.bind fun _ =>
    keeps_update (.shifts, id) fun _ => fixed_const _

lemma keeps_removeShift : Keeps (.shifts, id) (Shifts.remove id) :=
  (keeps_found (.shifts, id) _).bind fun _ => keeps_throwIf.bind fun _ =>
    keeps_delete (.shifts, id)

lemma keeps_updateMovement (dto : InventoryMovements.UpdateInventoryMovementDto) :
    Keeps (.inventoryMovements, id) (InventoryMovements.update id dto) :=
  (keeps_found (.inventoryMovements, id) _).bind fun _ =>
    keeps_update (.inventoryMovements, id) fixed_movement

lemma keeps_removeMovement : Keeps (.inventoryMovements, id) (InventoryMovements.remove id) :=
  (keeps_found (.inventoryMovements, id) _).bind fun _ => keeps_delete (.inventoryMovements, id)

/-- Switching a discount on or off. -/
lemma keeps_switchDiscount (f : Discount → Option Discount) : Keeps (.discounts, id)
    (Discounts.findOne id >>= fun _ =>
      discount.update id f fun row _ => Discounts.DiscountView.mk id row) :=
  (keeps_found (.discounts, id) _).bind fun _ =>
    keeps_update (.discounts, id) fun _ => fixed_const _

lemma keeps_incrementUsage : Keeps (.discounts, id) (Discounts.incrementUsage id) :=
  keeps_update (.discounts, id) fun _ => fixed_const _

lemma keeps_removeDiscount : Keeps (.discounts, id) (Discounts.remove id) :=
  (keeps_found (.discounts, id) _).bind fun _ => keeps_deleteRow (.discounts, id)

lemma keeps_updateTax (dto : Taxes.UpdateTaxDto) : Keeps (.taxes, id) (Taxes.update id dto) :=
  (keeps_found (.taxes, id) _).bind fun _ => keeps_update (.taxes, id) fun _ => fixed_const _

lemma keeps_removeTax : Keeps (.taxes, id) (Taxes.remove id) :=
  (keeps_found (.taxes, id) _).bind fun _ => keeps_deleteRow (.taxes, id)

lemma keeps_updateSortOrder (sortOrder : ℤ) :
    Keeps (.categories, id) (Categories.updateSortOrder id sortOrder) :=
  (keeps_found (.categories, id) _).bind fun _ =>
    keeps_update (.categories, id) fun _ => fixed_const _

lemma keeps_removeCategory : Keeps (.categories, id) (Categories.remove id) := by
  refine (keeps_look (sees_map_rowAt (q := (.categories, id)) fun _ => ?_)).bind fun _ =>
    keeps_orThrow.bind fun used => ?_
  · exact fun t x db => congrArg (fun n => decide (n > 0)) (fixed_countProducts t x db)
  · split
    · exact keeps_update (.categories, id) fun _ => fixed_const _
    · exact keeps_deleteRow (.categories, id)

lemma keeps_removeSupplier : Keeps (.suppliers, id) (Suppliers.remove id) := by
  refine (keeps_look (sees_map_rowAt (q := (.suppliers, id)) fun _ =>
    fixed_countInventoryItems)).bind fun _ => keeps_orThrow.bind fun inventoryItems => ?_
  split
  · exact keeps_update (.suppliers, id) fun _ => fixed_const _
  · exact (keeps_delete (.suppliers, id)).bind fun _ => keeps_done _

lemma keeps_updateRegister (dto : CashRegisters.UpdateCashRegisterDto) :
    Keeps (.cashRegisters, id) (CashRegisters.update id dto) :=
  ((keeps_look (sees_map_rowAt (q := (.cashRegisters, id)) fixed_register)).bind fun _ =>
    keeps_orThrow).bind fun _ => keeps_update (.cashRegisters, id) fixed_register

/-- **One call.** A call changes and sees no row but the one it names. -/
lemma keeps_request (c : Call) : Keeps c.target (request c) := by
  cases c with
  | updatePayment id dto => exact (keeps_updatePayment dto).map _
  | refundPayment id now => exact (keeps_refundPayment now).map _
  | removePayment id => exact keeps_removePayment.map _
  | updateOrder id dto => exact (keeps_updateOrder dto).map _
  | startOrder id now => exact (keeps_advance _ _ _).map _
  | markReady id now => exact (keeps_advance _ _ _).map _
  | markServed id now => exact (keeps_advance _ _ _).map _
  | cancelOrder id now => exact (keeps_cancelOrder now).map _
  | removeOrder id => exact keeps_removeOrder.map _
  | updateShift id dto => exact (keeps_updateShift dto).map _
  | closeShift id dto now => exact (keeps_closeShift dto now).map _
  | removeShift id => exact keeps_removeShift.map _
  | updateMovement id dto => exact (keeps_updateMovement dto).map _
  | removeMovement id => exact keeps_removeMovement.map _
  | activateDiscount id => exact (keeps_switchDiscount _).map _
  | deactivateDiscount id => exact (keeps_switchDiscount _).map _
  | incrementUsage id => exact keeps_incrementUsage.map _
  | removeDiscount id => exact keeps_removeDiscount.map _
  | updateTax id dto => exact (keeps_updateTax dto).map _
  | removeTax id => exact keeps_removeTax.map _
  | updateSortOrder id sortOrder => exact (keeps_updateSortOrder sortOrder).map _
  | removeCategory id => exact keeps_removeCategory.map _
  | removeSupplier id => exact keeps_removeSupplier.map _
  | updateRegister id dto => exact (keeps_updateRegister dto).map _

/-! ### Many calls at once -/

section Pools

variable {ι : Type} [DecidableEq ι]

/-- The calls on the same database, none of them begun. -/
def pool (db : Db) (calls : ι → Call) : Pool ι Db Error Answer := ⟨db, fun i => request (calls i)⟩

omit [DecidableEq ι] in
lemma apart_pool (db : Db) (calls : ι → Call) :
    Apart Rewrites (fun i => (calls i).target) (pool db calls) :=
  ⟨fun i => (keeps_request (calls i)).within, fun i => (keeps_request (calls i)).blind⟩

/-- **Races are for rows.** Whatever calls are under way and whatever the order of their turns, a
call has answered and its row stands as if only the calls on the same row had had theirs. -/
theorem rows_alone (db : Db) (calls : ι → Call) (is : List ι) (i : ι) :
    let alone := is.filter fun j => (calls j).target = (calls i).target
    (run Pool.step (pool db calls) is).answer i =
        (run Pool.step (pool db calls) alone).answer i ∧
      rowAt (calls i).target (run Pool.step (pool db calls) is).store =
        rowAt (calls i).target (run Pool.step (pool db calls) alone).store := by
  have hsees : ∀ q, q ≠ (calls i).target → ∀ f, Rewrites q f → ∀ db,
      rowAt (calls i).target (f db) = rowAt (calls i).target db := by
    rintro q hq _ ⟨g, rfl⟩ db
    exact sees_rowAt q hq g db
  obtain ⟨hrequest, hrow⟩ := (apart_pool db calls).run_part i hsees is
  refine ⟨?_, hrow⟩
  unfold answer
  rw [hrequest]

/-- **Different rows.** Calls that name pairwise different rows answer what they answer alone, and
leave what they leave one after the other, in any order, whatever the order of their turns. -/
theorem rows_in_turn (db : Db) (calls : ι → Call) (is js : List ι)
    (hcalls : Function.Injective fun i => (calls i).target)
    (hf : (run Pool.step (pool db calls) is).Finished) (hjs : js.Nodup)
    (hall : ∀ i ∈ is, i ∈ js) :
    (∀ i, (run Pool.step (pool db calls) is).answer i =
        some ((request (calls i)).exec db).1) ∧
      (run Pool.step (pool db calls) is).store =
        inTurn (fun i => request (calls i)) db js :=
  ⟨fun i => (apart_pool db calls).answer_of_finished hcalls hf i,
    (apart_pool db calls).store_of_finished hcalls hf hjs hall⟩

end Pools

/-- A paid check, a shift at its end and a discount. -/
def counter : Db where
  payments := (∅ : Table Id Payment).put "paid"
    { transactionId := "check", amount := 40, method := .cash, status := .completed }
  shifts := (∅ : Table Id Shift).put "morning"
    { openingCash := 100, userId := "ana", locationId := "bar", organizationId := "shop",
      status := .open, openedAt := 0 }
  discounts := (∅ : Table Id Discount).put "happy"
    { code := "HAPPY", name := "Happy hour", type := .percentage, value := 10,
      organizationId := "shop" }

/-- A refund, the removal of the shift, which is refused, and a use of the discount. -/
def counterCalls : Fin 3 → Call
  | 0 => .refundPayment "paid" 9
  | 1 => .removeShift "morning"
  | 2 => .incrementUsage "happy"

theorem rows_in_turn_counter :
    (∀ i, (run Pool.step (pool counter counterCalls) [0, 1, 2, 0]).answer i =
        some ((request (counterCalls i)).exec counter).1) ∧
      (run Pool.step (pool counter counterCalls) [0, 1, 2, 0]).store =
        inTurn (fun i => request (counterCalls i)) counter [2, 1, 0] :=
  rows_in_turn counter counterCalls [0, 1, 2, 0] [2, 1, 0] (by decide) (by decide) (by decide)
    (by decide)

end CoffeeOs.Rows
