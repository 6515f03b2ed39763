import CoffeeOs.CashRegisters
import CoffeeOs.Categories
import CoffeeOs.Codes
import CoffeeOs.InventoryMovements
import CoffeeOs.Modifiers
import CoffeeOs.Orders
import CoffeeOs.PointOfSale
import CoffeeOs.Recipes
import CoffeeOs.Shifts
import CoffeeOs.Taxes

/-!
All services of the API, on the same database.

A run mixes the calls of every service that writes. Each service has its tables; two of them
share some, since a transaction is deleted with its payments and a product with its recipes.
-/

namespace CoffeeOs.Services

open CoffeeOs.Schema

/-- A call of the API that writes, with a payload that has passed the pipe. -/
inductive Op
  | transactions (op : Transactions.Op)
  | payments (op : Payments.Op)
  | orders (op : Orders.Op)
  | categories (op : Categories.Op)
  | products (op : Products.Op)
  | modifiers (op : Modifiers.Op)
  | discounts (op : Discounts.Op) (validated : Codes.Validated op)
  | inventoryItems (op : InventoryItems.Op)
  | inventoryMovements (op : InventoryMovements.Op)
  | suppliers (op : Suppliers.Op)
  | recipes (op : Recipes.Op) (validated : op.Validated)
  | shifts (op : Shifts.Op)
  | cashRegisters (op : CashRegisters.Op)
  | taxes (op : Taxes.Op)

/-- The tables after a call that runs alone. -/
def step (midnight : Instant → Instant) (fold : String → String) (db : Db) : Op → Db
  | .transactions op => Transactions.step db op
  | .payments op => Payments.step db op
  | .orders op => Orders.step midnight db op
  | .categories op => Categories.step fold db op
  | .products op => Products.step db op
  | .modifiers op => Modifiers.step fold db op
  | .discounts op _ => Discounts.step db op
  | .inventoryItems op => InventoryItems.step db op
  | .inventoryMovements op => InventoryMovements.step db op
  | .suppliers op => Suppliers.step db op
  | .recipes op _ => Recipes.step db op
  | .shifts op => Shifts.step db op
  | .cashRegisters op => CashRegisters.step db op
  | .taxes op => Taxes.step db op

/-! ### The tables of each service -/

inductive TableName
  | transactions | lineItems | payments | orders
  | categories | products | modifiers | productModifiers | discounts
  | suppliers | inventoryItems | inventoryMovements | recipes | recipeIngredients
  | shifts | cashRegisters | cashDenominations | cashExpenses | taxes
  | ticketLines | ticketLineModifiers | purchaseOrders | goodsReceipts
  deriving DecidableEq

/-- The tables that a call may change. -/
def Op.writes : Op → List TableName
  | .transactions _ => [.transactions, .lineItems, .payments]
  | .payments _ => [.payments]
  | .orders _ => [.orders]
  | .categories _ => [.categories]
  | .products _ => [.products, .recipes, .recipeIngredients, .productModifiers]
  | .modifiers _ => [.modifiers, .productModifiers]
  | .discounts _ _ => [.discounts]
  | .inventoryItems _ => [.inventoryItems]
  | .inventoryMovements _ => [.inventoryMovements]
  | .suppliers _ => [.suppliers]
  | .recipes _ _ => [.recipes, .recipeIngredients]
  | .shifts _ => [.shifts]
  | .cashRegisters _ => [.cashRegisters, .cashDenominations, .cashExpenses]
  | .taxes _ => [.taxes]

/-- The table has the same rows in both databases, in the same order. -/
def SameAt (db db' : Db) : TableName → Prop
  | .transactions => db'.transactions = db.transactions
  | .lineItems => db'.lineItems = db.lineItems
  | .payments => db'.payments = db.payments
  | .orders => db'.orders = db.orders
  | .categories => db'.categories = db.categories
  | .products => db'.products = db.products
  | .modifiers => db'.modifiers = db.modifiers
  | .productModifiers => db'.productModifiers = db.productModifiers
  | .discounts => db'.discounts = db.discounts
  | .suppliers => db'.suppliers = db.suppliers
  | .inventoryItems => db'.inventoryItems = db.inventoryItems
  | .inventoryMovements => db'.inventoryMovements = db.inventoryMovements
  | .recipes => db'.recipes = db.recipes
  | .recipeIngredients => db'.recipeIngredients = db.recipeIngredients
  | .shifts => db'.shifts = db.shifts
  | .cashRegisters => db'.cashRegisters = db.cashRegisters
  | .cashDenominations => db'.cashDenominations = db.cashDenominations
  | .cashExpenses => db'.cashExpenses = db.cashExpenses
  | .taxes => db'.taxes = db.taxes
  | .ticketLines => db'.ticketLines = db.ticketLines
  | .ticketLineModifiers => db'.ticketLineModifiers = db.ticketLineModifiers
  | .purchaseOrders => db'.purchaseOrders = db.purchaseOrders
  | .goodsReceipts => db'.goodsReceipts = db.goodsReceipts

variable {midnight : Instant → Instant} {fold : String → String} {db : Db}

/-- **The frame.** A call leaves the tables alone that are not its own. -/
theorem step_sameAt (op : Op) (t : TableName) (h : t ∉ op.writes) :
    SameAt db (step midnight fold db op) t := by
  cases op with
  | transactions op =>
    rw [step, TransactionFrame.step_eq]
    cases t <;> first | rfl | exact absurd (by simp [Op.writes]) h
  | payments op =>
    rw [step, PointOfSale.step_payments_eq]
    cases t <;> first | rfl | exact absurd (by simp [Op.writes]) h
  | orders op =>
    rw [step, Orders.step_frame]
    cases t <;> first | rfl | exact absurd (by simp [Op.writes]) h
  | categories op =>
    rw [step, Categories.step_frame]
    cases t <;> first | rfl | exact absurd (by simp [Op.writes]) h
  | products op =>
    rw [step, Products.step_frame]
    cases t <;> first | rfl | exact absurd (by simp [Op.writes]) h
  | modifiers op =>
    rw [step, Modifiers.step_frame]
    cases t <;> first | rfl | exact absurd (by simp [Op.writes]) h
  | discounts op _ =>
    rw [step, Discounts.step_frame]
    cases t <;> first | rfl | exact absurd (by simp [Op.writes]) h
  | inventoryItems op =>
    rw [step, InventoryItems.step_frame]
    cases t <;> first | rfl | exact absurd (by simp [Op.writes]) h
  | inventoryMovements op =>
    rw [step, InventoryMovements.step_frame]
    cases t <;> first | rfl | exact absurd (by simp [Op.writes]) h
  | suppliers op =>
    rw [step, Suppliers.step_frame]
    cases t <;> first | rfl | exact absurd (by simp [Op.writes]) h
  | recipes op _ =>
    rw [step, Recipes.step_frame]
    cases t <;> first | rfl | exact absurd (by simp [Op.writes]) h
  | shifts op =>
    rw [step, Shifts.step_frame]
    cases t <;> first | rfl | exact absurd (by simp [Op.writes]) h
  | cashRegisters op =>
    rw [step, CashRegisters.step_frame]
    cases t <;> first | rfl | exact absurd (by simp [Op.writes]) h
  | taxes op =>
    rw [step, Taxes.step_frame]
    cases t <;> first | rfl | exact absurd (by simp [Op.writes]) h

/-- The property is about these tables only. -/
def Reads (P : Db → Prop) (ts : List TableName) : Prop :=
  ∀ db db', (∀ t ∈ ts, SameAt db db' t) → P db → P db'

/-- A call that writes none of the tables that a property is about keeps the property. -/
lemma Reads.step {P : Db → Prop} {ts : List TableName} {op : Op} (hP : Reads P ts)
    (hts : ts.Disjoint op.writes) (h : P db) : P (step midnight fold db op) :=
  hP db _ (fun t ht => step_sameAt op t fun hw => hts ht hw) h

end CoffeeOs.Services
