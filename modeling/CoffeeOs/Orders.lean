import CoffeeOs.Calendar
import CoffeeOs.Payload
import CoffeeOs.Schema

/-!
The service of orders.

An order moves from PENDING over IN_PROGRESS and READY to SERVED, and may be cancelled on the
way; an update may carry any status. The number of a new order is made of the UTC date and of
the count of the orders stored since midnight where the server is.
-/

namespace CoffeeOs.Orders

open CoffeeOs.Calendar CoffeeOs.KeyedTable CoffeeOs.Numerals CoffeeOs.Payload
open CoffeeOs.Requests CoffeeOs.Requests.Request CoffeeOs.Schema

/-- `@IsInt() @Min(1)`. -/
abbrev GuestCount := {n : ℤ // 1 ≤ n}

structure CreateOrderDto where
  transactionId : Property Id := .undefined
  type : Schema.OrderType
  tableNumber : Property String := .undefined
  customerName : Property String := .undefined
  guestCount : Property GuestCount := .undefined
  specialInstructions : Property String := .undefined
  deliveryAddress : Property String := .undefined
  deliveryPhone : Property String := .undefined
  serverName : Property String := .undefined

structure UpdateOrderDto where
  transactionId : Property Id := .undefined
  type : Property Schema.OrderType := .undefined
  tableNumber : Property String := .undefined
  customerName : Property String := .undefined
  guestCount : Property GuestCount := .undefined
  specialInstructions : Property String := .undefined
  deliveryAddress : Property String := .undefined
  deliveryPhone : Property String := .undefined
  serverName : Property String := .undefined
  status : Property OrderStatus := .undefined

/-! ### What the client includes with an order -/

structure OrderView where
  id : Id
  row : Order
  transaction : Option TransactionSelect

def viewOf (id : Id) (row : Order) (db : Db) : OrderView where
  id := id
  row := row
  transaction := row.transactionId.bind (selectTransaction db)

/-! ### The number of a new order -/

/-- `today.toISOString().split('T')[0]`, without the dashes. -/
def dateStr (today : Instant) : String := String.ofList (dateDigits today)

def orderNumber (dateStr : String) (n : ℕ) : String :=
  "ORD-" ++ dateStr ++ "-" ++ String.ofList (padded 4 n)

/-- How many orders were created from the instant `gte` on. -/
def countSince (gte : Instant) (db : Db) : ℕ :=
  (db.orders.rows.filter fun e => gte ≤ e.2.createdAt).length

/-- `midnight today` is the last midnight where the server is, `today.setHours(0, 0, 0, 0)`. -/
def generateOrderNumber (midnight : Instant → Instant) (today : Instant) : Api String := do
  let count ← look (countSince (midnight today))
  return orderNumber (dateStr today) (count + 1)

/-! ### The service -/

/-- Verify transaction exists if provided; an empty id is not. -/
def verifyTransaction (transactionId : Property Id) : Api Unit :=
  match transactionId.toOption.filter (· ≠ "") with
  | none => pure ()
  | some transactionId => do
    let found ← transaction.findUnique transactionId
    let _ ← orThrow (.badRequest s!"Transaction with ID {transactionId} not found") found

/-- The new row of a payload. -/
def CreateOrderDto.row (dto : CreateOrderDto) (orderNumber : String) (createdAt : Instant) :
    Order where
  transactionId := dto.transactionId.toOption
  type := dto.type
  tableNumber := dto.tableNumber.toOption
  customerName := dto.customerName.toOption
  guestCount := dto.guestCount.toOption.map Subtype.val
  specialInstructions := dto.specialInstructions.toOption
  deliveryAddress := dto.deliveryAddress.toOption
  deliveryPhone := dto.deliveryPhone.toOption
  serverName := dto.serverName.toOption
  status := .pending
  orderNumber := orderNumber
  createdAt := createdAt

/-- The number is made by the clock reading `now`; the database stamps the row with the instant
`createdAt` of its insertion. -/
def create (midnight : Instant → Instant) (newId : Id) (dto : CreateOrderDto)
    (now createdAt : Instant) : Api OrderView := do
  verifyTransaction dto.transactionId
  let number ← generateOrderNumber midnight now
  order.create newId (dto.row number createdAt) (viewOf newId (dto.row number createdAt))

/-- The row after an update by the payload. -/
def UpdateOrderDto.apply (dto : UpdateOrderDto) (row : Order) : Option Order := do
  let type ← dto.type.intoRequired row.type
  let status ← dto.status.intoRequired row.status
  return { row with
    transactionId := dto.transactionId.intoNullable row.transactionId
    type, status
    tableNumber := dto.tableNumber.intoNullable row.tableNumber
    customerName := dto.customerName.intoNullable row.customerName
    guestCount := (dto.guestCount.map Subtype.val).intoNullable row.guestCount
    specialInstructions := dto.specialInstructions.intoNullable row.specialInstructions
    deliveryAddress := dto.deliveryAddress.intoNullable row.deliveryAddress
    deliveryPhone := dto.deliveryPhone.intoNullable row.deliveryPhone
    serverName := dto.serverName.intoNullable row.serverName }

/-- The row read at the beginning of a call. -/
def findOrder (id : Id) : Api Order := do
  let found ← order.findUnique id
  orThrow (.notFound s!"Order with ID {id} not found") found

def update (id : Id) (dto : UpdateOrderDto) : Api OrderView := do
  let row ← findOrder id
  throwIf (row.status = .served) (.badRequest "Cannot update served order")
  throwIf (row.status = .cancelled) (.badRequest "Cannot update cancelled order")
  order.update id dto.apply (viewOf id)

/-- A move along the line: any status but `source` is refused. -/
def advance (id : Id) (source : OrderStatus) (message : String) (f : Order → Order) :
    Api OrderView := do
  let row ← findOrder id
  throwIf (row.status ≠ source) (.badRequest message)
  order.update id (fun row => some (f row)) (viewOf id)

def startOrder (id : Id) (now : Instant) : Api OrderView :=
  advance id .pending "Can only start orders with PENDING status" fun row =>
    { row with status := .inProgress, startedAt := some now }

def markReady (id : Id) (now : Instant) : Api OrderView :=
  advance id .inProgress "Can only mark orders as ready when IN_PROGRESS" fun row =>
    { row with status := .ready, readyAt := some now }

def markServed (id : Id) (now : Instant) : Api OrderView :=
  advance id .ready "Can only mark orders as served when READY" fun row =>
    { row with status := .served, servedAt := some now }

def cancel (id : Id) (now : Instant) : Api OrderView := do
  let row ← findOrder id
  throwIf (row.status = .served) (.badRequest "Cannot cancel served order")
  throwIf (row.status = .cancelled) (.badRequest "Order is already cancelled")
  order.update id (fun row => some { row with status := .cancelled, cancelledAt := some now })
    (viewOf id)

def remove (id : Id) : Api Unit := do
  let row ← findOrder id
  throwIf (row.status = .served) (.badRequest "Cannot delete served order. Use cancel instead.")
  order.delete id

/-- A call of the service; the ids of new rows and the clock readings come with it. -/
inductive Op
  | create (newId : Id) (dto : CreateOrderDto) (now createdAt : Instant)
  | update (id : Id) (dto : UpdateOrderDto)
  | startOrder (id : Id) (now : Instant)
  | markReady (id : Id) (now : Instant)
  | markServed (id : Id) (now : Instant)
  | cancel (id : Id) (now : Instant)
  | remove (id : Id)

/-- The tables after a call that runs alone. -/
def step (midnight : Instant → Instant) (db : Db) : Op → Db
  | .create newId dto now createdAt => ((create midnight newId dto now createdAt).exec db).2
  | .update id dto => ((update id dto).exec db).2
  | .startOrder id now => ((startOrder id now).exec db).2
  | .markReady id now => ((markReady id now).exec db).2
  | .markServed id now => ((markServed id now).exec db).2
  | .cancel id now => ((cancel id now).exec db).2
  | .remove id => ((remove id).exec db).2

/-! ### The tables after each call -/

variable {db : Db} {id : Id} {op : Op} {row row' : Order} {midnight : Instant → Instant}

/-- The payload names no transaction, or a stored one. -/
def NamesStored (db : Db) (transactionId : Property Id) : Prop :=
  ∀ id ∈ transactionId.toOption.filter (· ≠ ""), db.transactions.find? id ≠ none

/-- The check of the transaction stores nothing. -/
lemma exec_verifyTransaction (transactionId : Property Id) :
    (NamesStored db transactionId ∧ (verifyTransaction transactionId).exec db = (.ok (), db)) ∨
    (¬ NamesStored db transactionId ∧
      ∃ e, (verifyTransaction transactionId).exec db = (.error e, db)) := by
  unfold verifyTransaction NamesStored
  rcases transactionId.toOption.filter (· ≠ "") with _ | k
  · exact Or.inl ⟨by simp, rfl⟩
  dsimp only
  rw [Delegate.findUnique, exec_look_bind, transaction]
  rcases hk : db.transactions.find? k with _ | row
  · exact Or.inr ⟨by simp [hk], _, exec_orThrow_none _⟩
  · exact Or.inl ⟨by simp [hk], rfl⟩

/-- The row a `create` stores if it is let through. -/
def newOrder (midnight : Instant → Instant) (db : Db) (dto : CreateOrderDto)
    (now createdAt : Instant) : Order :=
  dto.row (orderNumber (dateStr now) (countSince (midnight now) db + 1)) createdAt

section Create

variable {newId : Id} {dto : CreateOrderDto} {now createdAt : Instant}

lemma exec_create_of_named (h : NamesStored db dto.transactionId) :
    (create midnight newId dto now createdAt).exec db =
      (order.create newId (newOrder midnight db dto now createdAt)
        (viewOf newId (newOrder midnight db dto now createdAt))).exec db := by
  rcases exec_verifyTransaction dto.transactionId with ⟨-, h'⟩ | ⟨h', -⟩
  · rw [create, exec_bind, h']
    rfl
  · exact absurd h h'

lemma exec_create_of_not_named (midnight : Instant → Instant) (newId : Id)
    (now createdAt : Instant) (h : ¬ NamesStored db dto.transactionId) :
    ∃ e, (create midnight newId dto now createdAt).exec db = (.error e, db) := by
  rcases exec_verifyTransaction dto.transactionId with ⟨h', -⟩ | ⟨-, e, h'⟩
  · exact absurd h' h
  · refine ⟨e, ?_⟩
    rw [create, exec_bind, h']

lemma accepts_create_iff : (create midnight newId dto now createdAt).Accepts db ↔
    NamesStored db dto.transactionId ∧ db.orders.find? newId = none := by
  rw [Accepts]
  by_cases h : NamesStored db dto.transactionId
  · rw [exec_create_of_named h]
    rcases hid : db.orders.find? newId with _ | row
    · rw [Delegate.exec_create_new hid]
      exact iff_of_true ⟨_, rfl⟩ ⟨h, rfl⟩
    · rw [Delegate.exec_create_stored hid]
      simp
  · obtain ⟨e, he⟩ := exec_create_of_not_named midnight newId now createdAt h
    rw [he]
    simp [h]

end Create

lemma step_create (midnight : Instant → Instant) (newId : Id) (dto : CreateOrderDto)
    (now createdAt : Instant) :
    ((create midnight newId dto now createdAt).Accepts db ∧ db.orders.find? newId = none ∧
      step midnight db (.create newId dto now createdAt) =
        { db with orders := db.orders.put newId (newOrder midnight db dto now createdAt) }) ∨
    (¬ (create midnight newId dto now createdAt).Accepts db ∧
      step midnight db (.create newId dto now createdAt) = db) := by
  have hstep : step midnight db (.create newId dto now createdAt) =
      ((create midnight newId dto now createdAt).exec db).2 := rfl
  rw [hstep, accepts_create_iff]
  by_cases h : NamesStored db dto.transactionId
  · rw [exec_create_of_named h]
    rcases hid : db.orders.find? newId with _ | row
    · rw [Delegate.exec_create_new hid]
      exact Or.inl ⟨⟨h, rfl⟩, rfl, rfl⟩
    · rw [Delegate.exec_create_stored hid]
      exact Or.inr ⟨by simp, rfl⟩
  · obtain ⟨e, he⟩ := exec_create_of_not_named midnight newId now createdAt h
    rw [he]
    exact Or.inr ⟨fun hboth => h hboth.1, rfl⟩

/-- What a call makes of the row it is about, if it lets it through. -/
inductive Move : Op → Order → Order → Prop
  | updated {id : Id} {dto : UpdateOrderDto} {row row' : Order} (unserved : row.status ≠ .served)
      (uncancelled : row.status ≠ .cancelled) (applied : dto.apply row = some row') :
      Move (.update id dto) row row'
  | started {id : Id} {now : Instant} {row : Order} (pending : row.status = .pending) :
      Move (.startOrder id now) row { row with status := .inProgress, startedAt := some now }
  | ready {id : Id} {now : Instant} {row : Order} (inProgress : row.status = .inProgress) :
      Move (.markReady id now) row { row with status := .ready, readyAt := some now }
  | served {id : Id} {now : Instant} {row : Order} (ready : row.status = .ready) :
      Move (.markServed id now) row { row with status := .served, servedAt := some now }
  | cancelled {id : Id} {now : Instant} {row : Order} (unserved : row.status ≠ .served)
      (uncancelled : row.status ≠ .cancelled) :
      Move (.cancel id now) row { row with status := .cancelled, cancelledAt := some now }

/-- No call rewrites the number of an order or the time it was created. -/
lemma Move.keepsNumber (h : Move op row row') :
    row'.orderNumber = row.orderNumber ∧ row'.createdAt = row.createdAt := by
  cases h with
  | updated _ _ ha =>
    unfold UpdateOrderDto.apply at ha
    simp only [Option.bind_eq_bind, Option.bind_eq_some_iff, Option.pure_def,
      Option.some.injEq] at ha
    obtain ⟨_, -, _, -, rfl⟩ := ha
    exact ⟨rfl, rfl⟩
  | _ => exact ⟨rfl, rfl⟩

lemma Move.unserved (h : Move op row row') : row.status ≠ .served := by
  cases h with
  | updated hserved => exact hserved
  | cancelled hserved => exact hserved
  | started hs => simp [hs]
  | ready hs => simp [hs]
  | served hs => simp [hs]

lemma Move.uncancelled (h : Move op row row') : row.status ≠ .cancelled := by
  cases h with
  | updated _ hcancelled => exact hcancelled
  | cancelled _ hcancelled => exact hcancelled
  | started hs => simp [hs]
  | ready hs => simp [hs]
  | served hs => simp [hs]

lemma exec_findOrder_bind {α : Type} (f : Order → Api α) :
    (findOrder id >>= f).exec db = match db.orders.find? id with
      | none => (.error (.notFound s!"Order with ID {id} not found"), db)
      | some row => (f row).exec db := by
  rw [findOrder, Delegate.exec_found_bind, order]
  rcases db.orders.find? id with _ | row <;> rfl

/-- A call on a stored order either changes nothing or makes its move. -/
def Moves (op : Op) (id : Id) (db db' : Db) : Prop :=
  db' = db ∨ ∃ row row', db.orders.find? id = some row ∧ Move op row row' ∧
    db' = { db with orders := db.orders.put id row' }

lemma moves_advance {op : Op} {source : OrderStatus} {message : String} {f : Order → Order}
    (h : ∀ row, row.status = source → Move op row (f row)) :
    Moves op id db ((advance id source message f).exec db).2 := by
  rw [advance, exec_findOrder_bind]
  rcases hrow : db.orders.find? id with _ | row
  · exact Or.inl rfl
  dsimp only
  by_cases hs : row.status = source
  · rw [exec_throwIf_bind_neg (not_not.mpr hs), Delegate.exec_update_some (d := order) hrow]
    exact Or.inr ⟨row, f row, hrow, h row hs, rfl⟩
  · rw [exec_throwIf_bind_pos hs]
    exact Or.inl rfl

/-- A call that refuses what is served or cancelled, with a message for each. -/
lemma moves_guarded {op : Op} {served cancelled : String} {f : Order → Api OrderView}
    (h : ∀ row, db.orders.find? id = some row → row.status ≠ .served → row.status ≠ .cancelled →
      Moves op id db ((f row).exec db).2) :
    Moves op id db ((findOrder id >>= fun row =>
      throwIf (row.status = .served) (.badRequest served) >>= fun _ =>
        throwIf (row.status = .cancelled) (.badRequest cancelled) >>= fun _ =>
          f row).exec db).2 := by
  rw [exec_findOrder_bind]
  rcases hrow : db.orders.find? id with _ | row
  · exact Or.inl rfl
  dsimp only
  by_cases hserved : row.status = .served
  · rw [exec_throwIf_bind_pos hserved]
    exact Or.inl rfl
  by_cases hcancelled : row.status = .cancelled
  · rw [exec_throwIf_bind_neg hserved, exec_throwIf_bind_pos hcancelled]
    exact Or.inl rfl
  · rw [exec_throwIf_bind_neg hserved, exec_throwIf_bind_neg hcancelled]
    exact h row hrow hserved hcancelled

lemma moves_update (dto : UpdateOrderDto) :
    Moves (.update id dto) id db (step midnight db (.update id dto)) := by
  refine moves_guarded fun row hrow hserved hcancelled => ?_
  rcases ha : dto.apply row with _ | row'
  · rw [Delegate.exec_update_null hrow ha]
    exact Or.inl rfl
  · rw [Delegate.exec_update hrow ha]
    exact Or.inr ⟨row, row', hrow, .updated hserved hcancelled ha, rfl⟩

lemma moves_cancel (now : Instant) :
    Moves (.cancel id now) id db (step midnight db (.cancel id now)) := by
  refine moves_guarded fun row hrow hserved hcancelled => ?_
  rw [Delegate.exec_update_some (d := order) hrow]
  exact Or.inr ⟨row, _, hrow, .cancelled hserved hcancelled, rfl⟩

lemma step_remove : step midnight db (.remove id) = match db.orders.find? id with
    | none => db
    | some row =>
      if row.status = .served then db else { db with orders := db.orders.erase id } := by
  show ((remove id).exec db).2 = _
  rw [remove, exec_findOrder_bind]
  rcases hrow : db.orders.find? id with _ | row
  · rfl
  dsimp only
  by_cases hs : row.status = .served
  · rw [exec_throwIf_bind_pos hs, if_pos hs]
  · rw [exec_throwIf_bind_neg hs, Delegate.exec_delete hrow, if_neg hs]
    rfl

/-- The order a call is about, which `create` brings into being. -/
def target : Op → Id
  | .create newId _ _ _ => newId
  | .update id _ => id
  | .startOrder id _ => id
  | .markReady id _ => id
  | .markServed id _ => id
  | .cancel id _ => id
  | .remove id => id

/-- **One call.** A call that is let through stores a new order, makes its move on a stored
one, or deletes one that is not served; any other changes nothing. -/
theorem step_cases (midnight : Instant → Instant) (op : Op) :
    (∃ newId dto now createdAt, op = .create newId dto now createdAt ∧
      (create midnight newId dto now createdAt).Accepts db ∧ db.orders.find? newId = none ∧
      step midnight db op =
        { db with orders := db.orders.put newId (newOrder midnight db dto now createdAt) }) ∨
    Moves op (target op) db (step midnight db op) ∨
    (∃ row, op = .remove (target op) ∧ db.orders.find? (target op) = some row ∧
      row.status ≠ .served ∧
      step midnight db op = { db with orders := db.orders.erase (target op) }) := by
  cases op with
  | create newId dto now createdAt =>
    rcases step_create midnight newId dto now createdAt with ⟨hk, hid, h⟩ | ⟨-, h⟩
    · exact Or.inl ⟨newId, dto, now, createdAt, rfl, hk, hid, h⟩
    · exact Or.inr (Or.inl (Or.inl h))
  | update id dto => exact Or.inr (Or.inl (moves_update dto))
  | startOrder id now => exact Or.inr (Or.inl (moves_advance fun _ => .started))
  | markReady id now => exact Or.inr (Or.inl (moves_advance fun _ => .ready))
  | markServed id now => exact Or.inr (Or.inl (moves_advance fun _ => .served))
  | cancel id now => exact Or.inr (Or.inl (moves_cancel now))
  | remove id =>
    rw [step_remove]
    show _ ∨ Moves _ id _ _ ∨ _
    rcases hrow : db.orders.find? id with _ | row
    · exact Or.inr (Or.inl (Or.inl rfl))
    dsimp only
    by_cases hs : row.status = .served
    · exact Or.inr (Or.inl (Or.inl (if_pos hs)))
    · exact Or.inr (Or.inr ⟨row, rfl, hrow, hs, if_neg hs⟩)

/-- A call changes the orders and nothing else. -/
lemma step_frame (midnight : Instant → Instant) (op : Op) :
    step midnight db op = { db with orders := (step midnight db op).orders } := by
  rcases @step_cases db midnight op with ⟨_, _, _, _, -, -, -, h⟩ | (h | ⟨_, _, -, -, h⟩) |
    ⟨_, -, -, -, h⟩ <;> rw [h]

end CoffeeOs.Orders
