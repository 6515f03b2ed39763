import CoffeeOs.InventoryItems
import CoffeeOs.InventoryMovements
import CoffeeOs.OrderLife
import CoffeeOs.SettledPayments

/-!
What payments, orders and movements refer to.

Each of the three is checked against the row it refers to when it is created, and the reference
is an ordinary column afterwards: an update writes it without looking. A transaction, on the other
side, is deleted together with its payments, whatever orders belong to it. These are the calls
after which a reference may be left without its row, and the only ones.
-/

namespace CoffeeOs.References

open CoffeeOs.KeyedTable CoffeeOs.Payload CoffeeOs.Runs CoffeeOs.Schema
open CoffeeOs.OrderNumbers (midnightAt)

inductive Op
  | transactions (op : Transactions.Op)
  | payments (op : Payments.Op)
  | orders (op : Orders.Op)
  | inventoryItems (op : InventoryItems.Op)
  | inventoryMovements (op : InventoryMovements.Op)

/-- The tables after a call that runs alone. -/
def step (midnight : Instant → Instant) (db : Db) : Op → Db
  | .transactions op => Transactions.step db op
  | .payments op => Payments.step db op
  | .orders op => Orders.step midnight db op
  | .inventoryItems op => InventoryItems.step db op
  | .inventoryMovements op => InventoryMovements.step db op

/-- Payments, orders and movements refer to stored rows. -/
structure Linked (db : Db) : Prop where
  paymentTransaction : Table.Refers (fun p : Payment => some p.transactionId) db.payments.values
    db.transactions
  orderTransaction : Table.Refers (fun o : Order => o.transactionId) db.orders.values
    db.transactions
  movementItem : Table.Refers (fun m : InventoryMovement => some m.inventoryItemId)
    db.inventoryMovements.values db.inventoryItems

/-- The payload carries no `null` for a required column. -/
def OrderWritable (dto : Orders.UpdateOrderDto) : Prop := dto.type ≠ .null ∧ dto.status ≠ .null

def MovementWritable (dto : InventoryMovements.UpdateInventoryMovementDto) : Prop :=
  dto.inventoryItemId ≠ .null ∧ dto.type ≠ .null ∧ dto.reason ≠ .null ∧ dto.quantity ≠ .null

/-- An update that is let through refers to a stored row if its payload carries a reference; an
order is not created with an empty reference; a transaction that is deleted has no orders. -/
def Safe (db : Db) : Op → Prop
  | .transactions (.remove id) => ∀ row, db.transactions.find? id = some row →
    row.status ≠ .completed → ∀ o ∈ db.orders.values, o.transactionId ≠ some id
  | .payments (.update id dto) => ∀ row, db.payments.find? id = some row → Payments.Open row →
    SettledPayments.Writable dto → ∀ k, dto.transactionId = .val k →
      (db.transactions.find? k).isSome
  | .orders (.create newId dto _ _) => db.orders.find? newId = none → dto.transactionId = .val "" →
    (db.transactions.find? "").isSome
  | .orders (.update id dto) => ∀ row, db.orders.find? id = some row → row.status ≠ .served →
    row.status ≠ .cancelled → OrderWritable dto →
      ∀ k, dto.transactionId = .val k → (db.transactions.find? k).isSome
  | .inventoryMovements (.update id dto) => (db.inventoryMovements.find? id).isSome →
    MovementWritable dto → ∀ k, dto.inventoryItemId = .val k → (db.inventoryItems.find? k).isSome
  | _ => True

variable {midnight : Instant → Instant} {db : Db} {id : Id}

/-! ### Transactions -/

lemma linked_remove_iff (h : Linked db) : Linked (Transactions.step db (.remove id)) ↔
    Safe db (.transactions (.remove id)) := by
  rw [TransactionSpec.step_remove]
  rcases hrow : db.transactions.find? id with _ | row
  · exact iff_of_true h fun row hrow' => by rw [hrow] at hrow'; cases hrow'
  dsimp only
  by_cases hc : row.status = .completed
  · rw [if_pos hc]
    refine iff_of_true h fun row' hrow' hne => ?_
    rw [hrow] at hrow'
    exact absurd (Option.some.inj hrow' ▸ hc) hne
  rw [if_neg hc]
  refine ⟨fun h' _ _ _ o ho he => ?_, fun hs => ⟨?_, ?_, h.movementItem⟩⟩
  · have hstored : ((db.transactions.erase id).find? id).isSome := h'.orderTransaction o ho id he
    rw [Table.find?_erase_self] at hstored
    cases hstored
  · -- the payments of the transaction go with it
    refine (h.paymentTransaction.mono fun p hp => Table.of_mem_values_keep hp).erase_parent ?_
    intro p hp he
    obtain ⟨e, hmem, rfl⟩ := List.mem_map.mp hp
    exact of_decide_eq_true (List.mem_filter.mp hmem).2 (Option.some.inj he)
  · exact h.orderTransaction.erase_parent (hs row hrow hc)

lemma linked_transactions_iff (op : Transactions.Op) (h : Linked db) :
    Linked (Transactions.step db op) ↔ Safe db (.transactions op) := by
  have kept (hop : ∀ k, op ≠ .remove k) : Linked (Transactions.step db op) := by
    have hstored {α : Type} {ref : α → Option Id} {rows : List α}
        (hr : Table.Refers ref rows db.transactions) :
        Table.Refers ref rows (Transactions.step db op).transactions :=
      fun a ha k hk => TransactionFrame.stored_step hop (hr a ha k hk)
    have hpayments : (Transactions.step db op).payments = db.payments :=
      PointOfSale.payments_step hop
    rw [TransactionFrame.step_eq, hpayments]
    exact ⟨hstored h.paymentTransaction, hstored h.orderTransaction, h.movementItem⟩
  cases op with
  | remove id => exact linked_remove_iff h
  | _ => exact iff_of_true (kept (by simp)) trivial

/-! ### Payments -/

lemma linked_put_payment_iff {p : Payment} (h : Linked db) :
    Linked { db with payments := db.payments.put id p } ↔
      (db.transactions.find? p.transactionId).isSome := by
  have hput := h.paymentTransaction.put_iff (k := id) (a := p)
  simp only [Option.some.injEq, forall_eq'] at hput
  rw [← hput]
  exact ⟨fun h' => h'.paymentTransaction, fun hp => ⟨hp, h.orderTransaction, h.movementItem⟩⟩

lemma apply_transactionId {dto : Payments.UpdatePaymentDto} {p p' : Payment}
    (h : dto.apply p = some p') :
    dto.transactionId.intoRequired p.transactionId = some p'.transactionId := by
  unfold Payments.UpdatePaymentDto.apply at h
  simp only [Option.bind_eq_bind, Option.bind_eq_some_iff] at h
  obtain ⟨transactionId, ht, amount, -, method, -, status, -, h⟩ := h
  rw [ht, ← Option.some.inj h]

lemma linked_update_payment_iff (dto : Payments.UpdatePaymentDto) (h : Linked db) :
    Linked (Payments.step db (.update id dto)) ↔ Safe db (.payments (.update id dto)) := by
  rw [Payments.step_update]
  rcases hp : db.payments.find? id with _ | p
  · exact iff_of_true h fun p hp' => by rw [hp] at hp'; cases hp'
  have hsafe : Safe db (.payments (.update id dto)) ↔ (Payments.Open p →
      SettledPayments.Writable dto →
        ∀ k, dto.transactionId = .val k → (db.transactions.find? k).isSome) := by
    simp only [Safe, hp, Option.some.injEq, forall_eq']
  rw [hsafe]
  dsimp only
  by_cases ho : Payments.Open p
  swap
  · rw [if_neg ho]
    exact iff_of_true h fun ho' => absurd ho' ho
  rw [if_pos ho, forall_prop_of_true ho]
  rcases ha : dto.apply p with _ | p'
  · -- the update is not writable, so nothing is stored
    refine iff_of_true h fun hw => ?_
    obtain ⟨p', ha', -⟩ := SettledPayments.apply_of_writable hw p
    rw [ha] at ha'
    cases ha'
  · -- the reference is the new one, or the old one, which was linked
    have hold : (db.transactions.find? p.transactionId).isSome :=
      h.paymentTransaction p (Table.mem_values_iff.mpr ⟨id, hp⟩) _ rfl
    rw [forall_prop_of_true (SettledPayments.writable_of_apply ha)]
    dsimp only
    rw [linked_put_payment_iff h]
    exact Property.forall_intoRequired_iff (P := fun k => (db.transactions.find? k).isSome) hold
      (apply_transactionId ha)

lemma linked_payments_iff (op : Payments.Op) (h : Linked db) :
    Linked (Payments.step db op) ↔ Safe db (.payments op) := by
  cases op with
  | create newId dto =>
    rw [Payments.step_create]
    refine iff_of_true ?_ trivial
    split
    · rename_i hc
      exact (linked_put_payment_iff h).mpr hc.1
    · exact h
  | update id dto => exact linked_update_payment_iff dto h
  | refund id now =>
    rw [Payments.step_refund]
    refine iff_of_true ?_ trivial
    rcases hp : db.payments.find? id with _ | p
    · exact h
    have hold : (db.transactions.find? p.transactionId).isSome :=
      h.paymentTransaction p (Table.mem_values_iff.mpr ⟨id, hp⟩) _ rfl
    dsimp only
    split
    · exact (linked_put_payment_iff h).mpr hold
    · exact h
  | remove id =>
    rw [Payments.step_remove]
    refine iff_of_true ?_ trivial
    rcases db.payments.find? id with _ | p
    · exact h
    dsimp only
    split
    · exact h
    · exact ⟨h.paymentTransaction.mono fun _ hp => Table.of_mem_values_erase hp,
        h.orderTransaction, h.movementItem⟩

/-! ### Orders -/

lemma linked_put_order_iff {o : Order} (h : Linked db) :
    Linked { db with orders := db.orders.put id o } ↔
      ∀ k, o.transactionId = some k → (db.transactions.find? k).isSome := by
  rw [← h.orderTransaction.put_iff (k := id)]
  exact ⟨fun h' => h'.orderTransaction, fun ho => ⟨h.paymentTransaction, ho, h.movementItem⟩⟩

lemma apply_order {dto : Orders.UpdateOrderDto} {o o' : Order} (h : dto.apply o = some o') :
    OrderWritable dto ∧ o'.transactionId = dto.transactionId.intoNullable o.transactionId := by
  unfold Orders.UpdateOrderDto.apply at h
  simp only [Option.bind_eq_bind, Option.bind_eq_some_iff] at h
  obtain ⟨type, ht, status, hs, h⟩ := h
  rw [← Option.some.inj h]
  exact ⟨⟨Property.ne_null_of_intoRequired ht, Property.ne_null_of_intoRequired hs⟩, rfl⟩

lemma apply_of_orderWritable {dto : Orders.UpdateOrderDto} (h : OrderWritable dto) (o : Order) :
    ∃ o', dto.apply o = some o' := by
  unfold Orders.UpdateOrderDto.apply
  rw [Property.intoRequired_of_ne_null h.1, Property.intoRequired_of_ne_null h.2]
  exact ⟨_, rfl⟩

lemma linked_update_order_iff (dto : Orders.UpdateOrderDto) (h : Linked db) :
    Linked (Orders.step midnight db (.update id dto)) ↔ Safe db (.orders (.update id dto)) := by
  have hmoves : Orders.Moves (.update id dto) id db (Orders.step midnight db (.update id dto)) :=
    Orders.moves_update dto
  by_cases hup : ∃ o, db.orders.find? id = some o ∧ o.status ≠ .served ∧ o.status ≠ .cancelled ∧
      OrderWritable dto
  · -- the update is written
    obtain ⟨o, ho, hserved, hcancelled, hw⟩ := hup
    obtain ⟨o', ha⟩ := apply_of_orderWritable hw o
    rw [OrderLife.step_update ho hserved hcancelled ha, linked_put_order_iff h, (apply_order ha).2]
    have hold : ∀ k, o.transactionId = some k → (db.transactions.find? k).isSome :=
      h.orderTransaction o (Table.mem_values_iff.mpr ⟨id, ho⟩)
    rw [Property.forall_intoNullable_iff hold]
    refine ⟨fun hk o₁ h₁ _ _ _ => hk, fun hs => hs o ho hserved hcancelled hw⟩
  · -- the update is refused or fails, and nothing moves
    have heq : Orders.step midnight db (.update id dto) = db := by
      rcases hmoves with heq | ⟨o, o', ho, hmove, -⟩
      · exact heq
      · cases hmove with
        | updated hserved hcancelled ha =>
          exact absurd ⟨o, ho, hserved, hcancelled, (apply_order ha).1⟩ hup
    rw [heq]
    exact iff_of_true h fun o ho hserved hcancelled hw =>
      absurd ⟨o, ho, hserved, hcancelled, hw⟩ hup

/-- A move other than an update leaves the transaction of an order alone. -/
lemma move_transactionId {op : Orders.Op} {o o' : Order} (hm : Orders.Move op o o')
    (hop : ∀ k dto, op ≠ .update k dto) : o'.transactionId = o.transactionId := by
  cases hm with
  | updated => exact absurd rfl (hop _ _)
  | _ => rfl

lemma namesStored_iff {transactionId : Property Id} : Orders.NamesStored db transactionId ↔
    ∀ k, transactionId = .val k → k ≠ "" → (db.transactions.find? k).isSome := by
  cases transactionId with
  | val k => simp [Orders.NamesStored, Property.toOption, Option.filter_eq_some_iff,
      Option.ne_none_iff_isSome]
  | _ => simp [Orders.NamesStored, Property.toOption]

lemma linked_create_order_iff (newId : Id) (dto : Orders.CreateOrderDto)
    (now createdAt : Instant) (h : Linked db) :
    Linked (Orders.step midnight db (.create newId dto now createdAt)) ↔
      Safe db (.orders (.create newId dto now createdAt)) := by
  rcases Orders.step_create midnight newId dto now createdAt with ⟨hacc, hid, heq⟩ | ⟨hacc, heq⟩
  · have hnamed := namesStored_iff.mp (Orders.accepts_create_iff.mp hacc).1
    have hrow (k : Id) : (Orders.newOrder midnight db dto now createdAt).transactionId = some k ↔
        dto.transactionId = .val k := by
      show dto.transactionId.toOption = some k ↔ _
      cases dto.transactionId <;> simp [Property.toOption]
    rw [heq, linked_put_order_iff h]
    simp only [hrow]
    refine ⟨fun hk _ hempty => hk "" hempty, fun hs k hk => ?_⟩
    by_cases hempty : k = ""
    · subst hempty
      exact hs hid hk
    · exact hnamed k hk hempty
  · -- a call that is refused for its reference carries one that is not empty
    rw [heq]
    refine iff_of_true h fun hid hempty => absurd (Orders.accepts_create_iff.mpr ⟨?_, hid⟩) hacc
    rw [namesStored_iff, hempty]
    exact fun k hk hne => absurd (Property.val.inj hk).symm hne

lemma linked_orders_iff (op : Orders.Op) (h : Linked db) :
    Linked (Orders.step midnight db op) ↔ Safe db (.orders op) := by
  -- only an update writes the reference of a stored order
  have moved (hop : ∀ k dto, op ≠ .update k dto)
      (hm : Orders.Moves op (Orders.target op) db (Orders.step midnight db op)) :
      Linked (Orders.step midnight db op) := by
    rcases hm with heq | ⟨o, o', ho, hmove, heq⟩
    · rw [heq]
      exact h
    · rw [heq, linked_put_order_iff h, move_transactionId hmove hop]
      exact h.orderTransaction o (Table.mem_values_iff.mpr ⟨_, ho⟩)
  cases op with
  | create newId dto now createdAt => exact linked_create_order_iff newId dto now createdAt h
  | update id dto => exact linked_update_order_iff dto h
  | startOrder id now =>
    exact iff_of_true (moved (by simp) (Orders.moves_advance fun _ => .started)) trivial
  | markReady id now =>
    exact iff_of_true (moved (by simp) (Orders.moves_advance fun _ => .ready)) trivial
  | markServed id now =>
    exact iff_of_true (moved (by simp) (Orders.moves_advance fun _ => .served)) trivial
  | cancel id now => exact iff_of_true (moved (by simp) (Orders.moves_cancel now)) trivial
  | remove id =>
    rw [Orders.step_remove]
    refine iff_of_true ?_ trivial
    rcases db.orders.find? id with _ | o
    · exact h
    dsimp only
    split
    · exact h
    · exact ⟨h.paymentTransaction,
        h.orderTransaction.mono fun _ ho => Table.of_mem_values_erase ho, h.movementItem⟩

/-! ### Items and their movements -/

lemma linked_inventoryItems (op : InventoryItems.Op) (h : Linked db) :
    Linked (InventoryItems.step db op) := by
  have hitem : Table.Refers (fun m : InventoryMovement => some m.inventoryItemId)
      db.inventoryMovements.values (InventoryItems.step db op).inventoryItems := by
    intro m hm k hk
    refine (InventoryItems.stored_step_iff op (h.movementItem m hm k hk)).mpr fun _ => Or.inr ?_
    exact InventoryItems.countMovements_pos_iff.mpr ⟨m, hm, Option.some.inj hk⟩
  rw [InventoryItems.step_frame]
  exact ⟨h.paymentTransaction, h.orderTransaction, hitem⟩

lemma linked_put_movement_iff {m : InventoryMovement} (h : Linked db) :
    Linked { db with inventoryMovements := db.inventoryMovements.put id m } ↔
      (db.inventoryItems.find? m.inventoryItemId).isSome := by
  have hput := h.movementItem.put_iff (k := id) (a := m)
  simp only [Option.some.injEq, forall_eq'] at hput
  rw [← hput]
  exact ⟨fun h' => h'.movementItem, fun hm => ⟨h.paymentTransaction, h.orderTransaction, hm⟩⟩

lemma apply_movement {dto : InventoryMovements.UpdateInventoryMovementDto}
    {m m' : InventoryMovement} (h : dto.apply m = some m') : MovementWritable dto ∧
      dto.inventoryItemId.intoRequired m.inventoryItemId = some m'.inventoryItemId := by
  unfold InventoryMovements.UpdateInventoryMovementDto.apply at h
  simp only [Option.bind_eq_bind, Option.bind_eq_some_iff] at h
  obtain ⟨item, hi, type, ht, reason, hr, quantity, hq, h⟩ := h
  rw [← Option.some.inj h]
  exact ⟨⟨Property.ne_null_of_intoRequired hi, Property.ne_null_of_intoRequired ht,
    Property.ne_null_of_intoRequired hr,
    Property.ne_null_of_map (Property.ne_null_of_intoRequired hq)⟩, hi⟩

lemma apply_of_movementWritable {dto : InventoryMovements.UpdateInventoryMovementDto}
    (h : MovementWritable dto) (m : InventoryMovement) : ∃ m', dto.apply m = some m' := by
  obtain ⟨hi, ht, hr, hq⟩ := h
  unfold InventoryMovements.UpdateInventoryMovementDto.apply
  rw [Property.intoRequired_of_ne_null hi, Property.intoRequired_of_ne_null ht,
    Property.intoRequired_of_ne_null hr,
    Property.intoRequired_of_ne_null (Property.map_ne_null hq)]
  exact ⟨_, rfl⟩

lemma linked_update_movement_iff (dto : InventoryMovements.UpdateInventoryMovementDto)
    (h : Linked db) : Linked (InventoryMovements.step db (.update id dto)) ↔
      Safe db (.inventoryMovements (.update id dto)) := by
  rw [InventoryMovements.step_update]
  rcases hm : db.inventoryMovements.find? id with _ | m
  · exact iff_of_true h fun hm' => by rw [hm] at hm'; cases hm'
  have hsafe : Safe db (.inventoryMovements (.update id dto)) ↔ (MovementWritable dto →
      ∀ k, dto.inventoryItemId = .val k → (db.inventoryItems.find? k).isSome) := by
    simp only [Safe, hm, Option.isSome_some, forall_const]
  rw [hsafe]
  dsimp only
  rcases ha : dto.apply m with _ | m'
  · refine iff_of_true h fun hw => ?_
    obtain ⟨m', ha'⟩ := apply_of_movementWritable hw m
    rw [ha] at ha'
    cases ha'
  · obtain ⟨hw, hitem⟩ := apply_movement ha
    have hold : (db.inventoryItems.find? m.inventoryItemId).isSome :=
      h.movementItem m (Table.mem_values_iff.mpr ⟨id, hm⟩) _ rfl
    rw [forall_prop_of_true hw]
    dsimp only
    rw [linked_put_movement_iff h]
    exact Property.forall_intoRequired_iff (P := fun k => (db.inventoryItems.find? k).isSome)
      hold hitem

lemma linked_inventoryMovements_iff (op : InventoryMovements.Op) (h : Linked db) :
    Linked (InventoryMovements.step db op) ↔ Safe db (.inventoryMovements op) := by
  cases op with
  | create newId dto =>
    rw [InventoryMovements.step_create]
    refine iff_of_true ?_ trivial
    split
    · rename_i hc
      exact (linked_put_movement_iff h).mpr hc.1.1
    · exact h
  | update id dto => exact linked_update_movement_iff dto h
  | remove id =>
    rw [InventoryMovements.step_remove]
    refine iff_of_true ?_ trivial
    rcases db.inventoryMovements.find? id with _ | m
    · exact h
    · exact ⟨h.paymentTransaction, h.orderTransaction,
        h.movementItem.mono fun _ hm => Table.of_mem_values_erase hm⟩

/-! ### Runs of the five services -/

lemma linked_step_iff (op : Op) (h : Linked db) : Linked (step midnight db op) ↔ Safe db op := by
  cases op with
  | transactions op => exact linked_transactions_iff op h
  | payments op => exact linked_payments_iff op h
  | orders op => exact linked_orders_iff op h
  | inventoryItems op => exact iff_of_true (linked_inventoryItems op h) trivial
  | inventoryMovements op => exact linked_inventoryMovements_iff op h

/-- **References.** A run of the five services leaves every payment, order and movement with the
row it refers to, in all its states, exactly if each of its calls is safe. -/
theorem references_kept_iff (midnight : Instant → Instant) (db : Db) (ops : List Op)
    (h0 : Linked db) : Always (step midnight) Linked db ops ↔ Along (step midnight) Safe db ops :=
  always_iff_along (fun _ op h => linked_step_iff op h) h0

lemma linked_empty : Linked ∅ := ⟨Table.refers_nil, Table.refers_nil, Table.refers_nil⟩

/-- An order is taken for a transaction, and the transaction is removed. -/
def orphaned : List Op :=
  [.transactions (.create "sale" { lineItems := [] }),
   .orders (.create "order" { transactionId := .val "sale", type := .dineIn } 0 5),
   .transactions (.remove "sale")]

/-- A payment is moved to a transaction that does not exist. -/
def repaid : List Op :=
  [.transactions (.create "sale" { lineItems := [] }),
   .payments (.create "payment" { transactionId := "sale", amount := .succ 99, method := .cash }),
   .payments (.update "payment" { transactionId := .val "nothing" })]

theorem references_kept_iff_orphaned :
    Always (step (midnightAt 0)) Linked ∅ orphaned ↔ Along (step (midnightAt 0)) Safe ∅ orphaned :=
  references_kept_iff (midnightAt 0) ∅ orphaned linked_empty

theorem references_lost : ¬ Always (step (midnightAt 0)) Linked ∅ orphaned ∧
    ¬ Always (step (midnightAt 0)) Linked ∅ repaid := by
  refine ⟨fun h => ?_, fun h => ?_⟩
  · obtain ⟨o, ho, hsale⟩ : ∃ o, (run (step (midnightAt 0)) ∅ orphaned).orders.find? "order" =
        some o ∧ o.transactionId = some "sale" := ⟨_, rfl, rfl⟩
    have hstored := h.last.orderTransaction o (Table.mem_values_iff.mpr ⟨_, ho⟩) "sale" hsale
    exact absurd hstored (by decide)
  · obtain ⟨p, hp, hnothing⟩ : ∃ p, (run (step (midnightAt 0)) ∅ repaid).payments.find? "payment" =
        some p ∧ p.transactionId = "nothing" := ⟨_, rfl, rfl⟩
    have hstored := h.last.paymentTransaction p (Table.mem_values_iff.mpr ⟨_, hp⟩) "nothing"
      (congrArg some hnothing)
    exact absurd hstored (by decide)

end CoffeeOs.References
