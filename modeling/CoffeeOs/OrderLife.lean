import CoffeeOs.OrderNumbers

/-!
The life of an order.

An order moves along the line from PENDING to SERVED, and each move notes its time; an update
may carry any status and notes none. SERVED and CANCELLED are final for every call but the
deletion of a cancelled order.
-/

namespace CoffeeOs.OrderLife

open CoffeeOs.KeyedTable CoffeeOs.OrderNumbers CoffeeOs.Orders CoffeeOs.Payload CoffeeOs.Requests
open CoffeeOs.Requests.Request CoffeeOs.Runs CoffeeOs.Schema

inductive Transition : OrderStatus → OrderStatus → Prop
  | start : Transition .pending .inProgress
  | markReady : Transition .inProgress .ready
  | markServed : Transition .ready .served
  | cancel {status : OrderStatus} (h : status ∈ [.pending, .inProgress, .ready]) :
      Transition status .cancelled

variable {midnight : Instant → Instant} {db : Db} {id : Id} {op : Op} {row row' : Order}

/-! ### The times of the moves -/

/-- The times noted on an order agree with its status. -/
structure Agrees (row : Order) : Prop where
  started : row.status ∈ [.inProgress, .ready, .served] → row.startedAt.isSome
  ready : row.status ∈ [.ready, .served] → row.readyAt.isSome
  served : row.servedAt.isSome ↔ row.status = .served
  cancelled : row.cancelledAt.isSome ↔ row.status = .cancelled

/-- The times agree, and none is noted for a move the order still has before it. -/
structure Stamped (row : Order) : Prop extends Agrees row where
  unstarted : row.status = .pending → row.startedAt = none
  unready : row.status ∈ [.pending, .inProgress] → row.readyAt = none

/-- Every stored order has the property. -/
def AllOrders (P : Order → Prop) (db : Db) : Prop := ∀ id row, db.orders.find? id = some row → P row

/-- Every change of the status of an order is a move of the state machine. -/
def Lawful (midnight : Instant → Instant) (db : Db) (op : Op) : Prop :=
  ∀ id row row', db.orders.find? id = some row →
    (step midnight db op).orders.find? id = some row' → row.status ≠ row'.status →
      Transition row.status row'.status

/-- An update of an order that is neither served nor cancelled carries no other status than the
order has. -/
def KeepsStatus (db : Db) : Op → Prop
  | .update id dto => ∀ row status, db.orders.find? id = some row → row.status ≠ .served →
    row.status ≠ .cancelled → dto.type ≠ .null → dto.status = .val status → status = row.status
  | _ => True

lemma stamped_newOrder {dto : CreateOrderDto} {now createdAt : Instant} :
    Stamped (newOrder midnight db dto now createdAt) where
  started h := by simp [newOrder, CreateOrderDto.row] at h
  ready h := by simp [newOrder, CreateOrderDto.row] at h
  served := by simp [newOrder, CreateOrderDto.row]
  cancelled := by simp [newOrder, CreateOrderDto.row]
  unstarted _ := rfl
  unready _ := rfl

/-- The times on two rows are the same. -/
def SameTimes (row row' : Order) : Prop :=
  row'.startedAt = row.startedAt ∧ row'.readyAt = row.readyAt ∧
    row'.servedAt = row.servedAt ∧ row'.cancelledAt = row.cancelledAt

lemma apply_eq_some_iff {dto : UpdateOrderDto} (h : dto.apply row = some row') :
    dto.type ≠ .null ∧ dto.status.intoRequired row.status = some row'.status ∧
      SameTimes row row' := by
  unfold UpdateOrderDto.apply at h
  simp only [Option.bind_eq_bind, Option.bind_eq_some_iff, Option.pure_def,
    Option.some.injEq] at h
  obtain ⟨type, htype, status, hstatus, rfl⟩ := h
  refine ⟨fun hnull => ?_, hstatus, rfl, rfl, rfl, rfl⟩
  rw [hnull] at htype
  cases htype

lemma stamped_of_sameTimes (h : Stamped row) (ht : SameTimes row row')
    (hs : row'.status = row.status) : Stamped row' := by
  obtain ⟨hstarted, hready, hserved, hcancelled⟩ := ht
  refine ⟨⟨?_, ?_, ?_, ?_⟩, ?_, ?_⟩
  · rw [hs, hstarted]; exact h.started
  · rw [hs, hready]; exact h.ready
  · rw [hs, hserved]; exact h.served
  · rw [hs, hcancelled]; exact h.cancelled
  · rw [hs, hstarted]; exact h.unstarted
  · rw [hs, hready]; exact h.unready

/-- A move that notes no time would leave the times behind the status. -/
lemma status_eq_of_agrees (h : Stamped row) (ht : SameTimes row row') (ha : Agrees row')
    (hlawful : row.status ≠ row'.status → Transition row.status row'.status) :
    row'.status = row.status := by
  by_contra hne
  have htransition := hlawful (Ne.symm hne)
  obtain ⟨hstarted, hready, hserved, hcancelled⟩ := ht
  generalize hs : row.status = status, hs' : row'.status = status' at htransition
  -- each transition stamps a time, which the two rows share and the old one does not have
  cases htransition with
  | start =>
    have hsome := ha.started (by simp [hs'])
    rw [hstarted, h.unstarted hs] at hsome
    cases hsome
  | markReady =>
    have hsome := ha.ready (by simp [hs'])
    rw [hready, h.unready (by simp [hs])] at hsome
    cases hsome
  | markServed =>
    have hsome := ha.served.mpr hs'
    rw [hserved, h.served, hs] at hsome
    cases hsome
  | cancel =>
    have hsome := ha.cancelled.mpr hs'
    rw [hcancelled, h.cancelled] at hsome
    exact hne (hs'.trans hsome.symm)

lemma apply_val {dto : UpdateOrderDto} {status : OrderStatus} (htype : dto.type ≠ .null)
    (hstatus : dto.status = .val status) (row : Order) :
    ∃ row', dto.apply row = some row' ∧ row'.status = status := by
  unfold UpdateOrderDto.apply
  rw [hstatus]
  rcases ht : dto.type with _ | _ | type
  · exact ⟨_, rfl, rfl⟩
  · exact absurd ht htype
  · exact ⟨_, rfl, rfl⟩

lemma step_update {dto : UpdateOrderDto} (hrow : db.orders.find? id = some row)
    (hserved : row.status ≠ .served) (hcancelled : row.status ≠ .cancelled)
    (happly : dto.apply row = some row') :
    step midnight db (.update id dto) = { db with orders := db.orders.put id row' } := by
  show ((update id dto).exec db).2 = _
  rw [update, exec_findOrder_bind, hrow]
  dsimp only
  rw [exec_throwIf_bind_neg hserved, exec_throwIf_bind_neg hcancelled,
    Delegate.exec_update hrow happly]
  rfl

lemma mem_open_of_ne {status : OrderStatus} (hserved : status ≠ .served)
    (hcancelled : status ≠ .cancelled) : status ∈ [.pending, .inProgress, .ready] := by
  cases status <;> simp_all

/-! ### A row before and after a call -/

/-- Where a row comes from. -/
lemma row_before_step (h : (step midnight db op).orders.find? id = some row') :
    db.orders.find? id = some row' ∨
    (db.orders.find? id = none ∧
      ∃ dto now createdAt, row' = newOrder midnight db dto now createdAt) ∨
    ∃ row, db.orders.find? id = some row ∧ id = target op ∧ Move op row row' := by
  rcases step_cases midnight op with
    ⟨newId, dto, now, createdAt, -, -, hid, hdb⟩ | (hdb | ⟨row, row', hrow, hmove, hdb⟩) |
    ⟨row, -, hrow, -, hdb⟩ <;> rw [hdb] at h
  · by_cases hkey : id = newId
    · rw [hkey, Table.find?_put_self] at h
      rw [hkey]
      exact Or.inr (Or.inl ⟨hid, dto, now, createdAt, (Option.some.inj h).symm⟩)
    · exact Or.inl ((Table.find?_put_ne hkey).symm.trans h)
  · exact Or.inl h
  · by_cases hkey : id = target op
    · rw [hkey, Table.find?_put_self] at h
      rw [hkey, ← Option.some.inj h]
      exact Or.inr (Or.inr ⟨row, hrow, rfl, hmove⟩)
    · exact Or.inl ((Table.find?_put_ne hkey).symm.trans h)
  · by_cases hkey : id = target op
    · -- what was deleted is not there afterwards
      rw [hkey, Table.find?_erase_self] at h
      cases h
    · exact Or.inl ((Table.find?_erase_ne hkey).symm.trans h)

/-- What becomes of a row. -/
lemma row_after_step (op : Op) (h : db.orders.find? id = some row) :
    (step midnight db op).orders.find? id = some row ∨
    (id = target op ∧ ∃ row', Move op row row' ∧
      (step midnight db op).orders.find? id = some row') ∨
    (op = .remove id ∧ row.status ≠ .served ∧
      (step midnight db op).orders.find? id = none) := by
  rcases step_cases midnight op with
    ⟨newId, dto, now, createdAt, -, -, hid, hdb⟩ | (hdb | ⟨r, row', hrow, hmove, hdb⟩) |
    ⟨r, hop, hrow, hserved, hdb⟩ <;> rw [hdb]
  · -- a new order has another id
    have hkey : id ≠ newId := by
      rintro rfl
      cases hid.symm.trans h
    exact Or.inl ((Table.find?_put_ne hkey).trans h)
  · exact Or.inl h
  · by_cases hkey : id = target op
    · rw [hkey] at h ⊢
      rw [← Option.some.inj (hrow.symm.trans h)]
      exact Or.inr (Or.inl ⟨rfl, row', hmove, Table.find?_put_self⟩)
    · exact Or.inl ((Table.find?_put_ne hkey).trans h)
  · by_cases hkey : id = target op
    · rw [hkey] at h ⊢
      rw [← Option.some.inj (hrow.symm.trans h)]
      exact Or.inr (Or.inr ⟨hop, hserved, Table.find?_erase_self⟩)
    · exact Or.inl ((Table.find?_erase_ne hkey).trans h)

/-! ### Moves and their times -/

/-- The moves that note their time keep the times in agreement, and so does an update that
carries no other status. -/
lemma stamped_of_move (h : Stamped row) (hm : Move op row row')
    (hk : ∀ id dto status, op = .update id dto → dto.type ≠ .null → dto.status = .val status →
      status = row.status) :
    Stamped row' ∧ (row.status ≠ row'.status → Transition row.status row'.status) := by
  cases hm with
  | updated hserved hcancelled ha =>
    -- an update writes no times, so by `hk` it must write the old status again
    obtain ⟨htype, hstatus, htimes⟩ := apply_eq_some_iff ha
    have hsame : row'.status = row.status := by
      rcases hs : UpdateOrderDto.status _ with _ | _ | status
      · rw [hs] at hstatus
        exact (Option.some.inj hstatus).symm
      · rw [hs] at hstatus
        cases hstatus
      · rw [hs] at hstatus
        rw [← Option.some.inj hstatus]
        exact hk _ _ _ rfl htype hs
    exact ⟨stamped_of_sameTimes h htimes hsame, fun hne => absurd hsame.symm hne⟩
  | started hp =>
    refine ⟨⟨⟨fun _ => rfl, fun hs => ?_, ?_, ?_⟩, fun hs => ?_, fun _ => ?_⟩, fun _ => ?_⟩
    · simp at hs
    · simpa [hp] using h.served
    · simpa [hp] using h.cancelled
    · cases hs
    · exact h.unready (by simp [hp])
    · rw [hp]; exact .start
  | ready hp =>
    refine ⟨⟨⟨fun _ => ?_, fun _ => rfl, ?_, ?_⟩, fun hs => ?_, fun hs => ?_⟩, fun _ => ?_⟩
    · exact h.started (by simp [hp])
    · simpa [hp] using h.served
    · simpa [hp] using h.cancelled
    · cases hs
    · simp at hs
    · rw [hp]; exact .markReady
  | served hp =>
    refine ⟨⟨⟨fun _ => ?_, fun _ => ?_, ?_, ?_⟩, fun hs => ?_, fun hs => ?_⟩, fun _ => ?_⟩
    · exact h.started (by simp [hp])
    · exact h.ready (by simp [hp])
    · simp
    · simpa [hp] using h.cancelled
    · cases hs
    · simp at hs
    · rw [hp]; exact .markServed
  | cancelled hserved hcancelled =>
    refine ⟨⟨⟨fun hs => ?_, fun hs => ?_, ?_, ?_⟩, fun hs => ?_, fun hs => ?_⟩, fun _ => ?_⟩
    · simp at hs
    · simp at hs
    · simpa [hserved] using h.served
    · simp
    · cases hs
    · simp at hs
    · exact .cancel (mem_open_of_ne hserved hcancelled)

/-- Under a call that carries no other status into an open order, the rows keep their times in
agreement and move lawfully. -/
lemma stamped_step (h : AllOrders Stamped db) (hk : KeepsStatus db op) :
    AllOrders Stamped (step midnight db op) ∧ Lawful midnight db op := by
  have hrows : ∀ id row', (step midnight db op).orders.find? id = some row' → Stamped row' ∧
      ∀ row, db.orders.find? id = some row → row.status ≠ row'.status →
        Transition row.status row'.status := by
    intro id row' hrow'
    rcases row_before_step hrow' with
      hsame | ⟨hnone, dto, now, createdAt, rfl⟩ | ⟨row, hrow, rfl, hmove⟩
    · -- the row is untouched, then a new one, then the one that the call moves
      refine ⟨h id row' hsame, fun row hrow hne => absurd ?_ hne⟩
      rw [Option.some.inj (hrow.symm.trans hsame)]
    · refine ⟨stamped_newOrder, fun row hrow => ?_⟩
      cases hnone.symm.trans hrow
    · have hmoved : Stamped row' ∧ (row.status ≠ row'.status →
          Transition row.status row'.status) := by
        refine stamped_of_move (h _ row hrow) hmove fun id dto status hop htype hs => ?_
        subst hop
        exact hk row status hrow hmove.unserved hmove.uncancelled htype hs
      refine ⟨hmoved.1, fun r hr => ?_⟩
      rw [← Option.some.inj (hrow.symm.trans hr)]
      exact hmoved.2
  exact ⟨fun id row' h' => (hrows id row' h').1,
    fun id row row' hrow h' => (hrows id row' h').2 row hrow⟩

/-- If the rows move lawfully and their times agree afterwards, no other status was carried into
an open order. -/
lemma keepsStatus_of_lawful (h : AllOrders Stamped db) (hl : Lawful midnight db op)
    (ha : AllOrders Agrees (step midnight db op)) : KeepsStatus db op := by
  cases op with
  | update id dto =>
    intro row status hrow hserved hcancelled htype hstatus
    obtain ⟨row', happly, rfl⟩ := apply_val htype hstatus row
    have hrow' : (step midnight db (.update id dto)).orders.find? id = some row' := by
      rw [step_update hrow hserved hcancelled happly]
      exact Table.find?_put_self
    exact status_eq_of_agrees (h id row hrow) (apply_eq_some_iff happly).2.2
      (ha id row' hrow') (hl id row row' hrow hrow')
  | _ => trivial

/-- **Moves.** In a run from orders whose times agree with their status, every change of a status
is a move of the state machine and the times agree throughout exactly if no update carries
another status into an order that is neither served nor cancelled. -/
theorem moves_lawful_iff (midnight : Instant → Instant) (h : AllOrders Stamped db)
    (ops : List Op) :
    Along (step midnight) (Lawful midnight) db ops ∧
        Always (step midnight) (AllOrders Agrees) db ops ↔
      Along (step midnight) KeepsStatus db ops := by
  refine along_and_always_iff (fun db h id row hrow => (h id row hrow).toAgrees)
    (fun db op h hk => (stamped_step h hk).1) (fun db op h => ⟨fun hboth => ?_, fun hk => ?_⟩) h
  · exact keepsStatus_of_lawful h hboth.1 hboth.2
  · obtain ⟨hstamped, hlawful⟩ := stamped_step h hk
    exact ⟨hlawful, fun id row hrow => (hstamped id row hrow).toAgrees⟩

theorem moves_lawful_iff_started : AllOrders Stamped ∅ ∧
    (Along (step (midnightAt 0)) (Lawful (midnightAt 0)) ∅
          [.create "a" { type := .dineIn } 0 5, .startOrder "a" 60000] ∧
        Always (step (midnightAt 0)) (AllOrders Agrees) ∅
          [.create "a" { type := .dineIn } 0 5, .startOrder "a" 60000] ↔
      Along (step (midnightAt 0)) KeepsStatus ∅
        [.create "a" { type := .dineIn } 0 5, .startOrder "a" 60000]) := by
  have hnone : AllOrders Stamped ∅ := fun _ _ h => by cases h
  exact ⟨hnone, moves_lawful_iff _ hnone _⟩

/-- An update serves an order that was never started. -/
theorem unstarted_served : ¬ (Along (step (midnightAt 0)) (Lawful (midnightAt 0)) ∅
      [.create "a" { type := .dineIn } 0 5, .update "a" { status := .val .served }] ∧
    Always (step (midnightAt 0)) (AllOrders Agrees) ∅
      [.create "a" { type := .dineIn } 0 5, .update "a" { status := .val .served }]) := by
  rintro ⟨-, hagrees⟩
  set db := run (step (midnightAt 0)) ∅
    [.create "a" { type := .dineIn } 0 5, .update "a" { status := .val .served }] with hdb
  have hrow : (db.orders.find? "a").map (fun row => (row.status, row.servedAt)) =
      some (.served, none) := by
    rw [hdb]; decide +kernel
  obtain ⟨row, hfind, hboth⟩ := Option.map_eq_some_iff.mp hrow
  obtain ⟨hserved, htime⟩ := Prod.mk.inj hboth
  have hsome := (hagrees.last "a" row hfind).served.mpr hserved
  rw [htime] at hsome
  cases hsome

/-! ### The final statuses -/

/-- The call answers without an error. -/
def Accepted (midnight : Instant → Instant) (db : Db) : Op → Prop
  | .create newId dto now createdAt => (create midnight newId dto now createdAt).Accepts db
  | .update id dto => (update id dto).Accepts db
  | .startOrder id now => (startOrder id now).Accepts db
  | .markReady id now => (markReady id now).Accepts db
  | .markServed id now => (markServed id now).Accepts db
  | .cancel id now => (cancel id now).Accepts db
  | .remove id => (remove id).Accepts db

lemma onlyLooks_findOrder : (findOrder id).OnlyLooks :=
  Delegate.onlyLooks_findUnique.bind fun _ => onlyLooks_orThrow

lemma onlyLooks_verifyTransaction {transactionId : Property Id} :
    (verifyTransaction transactionId).OnlyLooks := by
  unfold verifyTransaction
  split
  · exact .done _
  · exact Delegate.onlyLooks_findUnique.bind fun _ =>
      onlyLooks_orThrow.bind fun _ => .done _

lemma writesLast_create {newId : Id} {dto : CreateOrderDto} {now createdAt : Instant} :
    (create midnight newId dto now createdAt).WritesLast :=
  onlyLooks_verifyTransaction.writesLast fun _ =>
    ((onlyLooks_look _).bind fun _ => .done _).writesLast fun _ => Delegate.writesLast_create

lemma writesLast_advance {source : OrderStatus} {message : String} {f : Order → Order} :
    (advance id source message f).WritesLast :=
  onlyLooks_findOrder.writesLast fun _ => onlyLooks_throwIf.writesLast fun _ =>
    Delegate.writesLast_update

lemma writesLast_update {dto : UpdateOrderDto} : (update id dto).WritesLast :=
  onlyLooks_findOrder.writesLast fun _ => onlyLooks_throwIf.writesLast fun _ =>
    onlyLooks_throwIf.writesLast fun _ => Delegate.writesLast_update

lemma writesLast_cancel {now : Instant} : (cancel id now).WritesLast :=
  onlyLooks_findOrder.writesLast fun _ => onlyLooks_throwIf.writesLast fun _ =>
    onlyLooks_throwIf.writesLast fun _ => Delegate.writesLast_update

lemma writesLast_remove : (remove id).WritesLast :=
  onlyLooks_findOrder.writesLast fun _ => onlyLooks_throwIf.writesLast fun _ =>
    Delegate.writesLast_delete

/-- A call that throws leaves every table as it is. -/
lemma step_of_not_accepted (h : ¬ Accepted midnight db op) : step midnight db op = db := by
  cases op with
  | create newId dto now createdAt => exact writesLast_create.exec_of_not_accepts h
  | update id dto => exact writesLast_update.exec_of_not_accepts h
  | startOrder id now => exact writesLast_advance.exec_of_not_accepts h
  | markReady id now => exact writesLast_advance.exec_of_not_accepts h
  | markServed id now => exact writesLast_advance.exec_of_not_accepts h
  | cancel id now => exact writesLast_cancel.exec_of_not_accepts h
  | remove id => exact writesLast_remove.exec_of_not_accepts h

lemma served_step (hs : row.status = .served) (h : db.orders.find? id = some row) :
    (step midnight db op).orders.find? id = some row := by
  rcases row_after_step op h with hsame | ⟨-, row', hmove, -⟩ | ⟨-, hserved, -⟩
  · exact hsame
  · exact absurd hs hmove.unserved
  · exact absurd hs hserved

lemma cancelled_step (hs : row.status = .cancelled) (h : db.orders.find? id = some row) :
    (op = .remove id ∧ (step midnight db op).orders.find? id = none) ∨
      (step midnight db op).orders.find? id = some row := by
  rcases row_after_step op h with hsame | ⟨-, row', hmove, -⟩ | ⟨hop, -, hnone⟩
  · exact Or.inr hsame
  · exact absurd hs hmove.uncancelled
  · exact Or.inl ⟨hop, hnone⟩

lemma step_find?_of_ne (h : target op ≠ id) :
    (step midnight db op).orders.find? id = db.orders.find? id := by
  rcases step_cases midnight op with
    ⟨newId, dto, now, createdAt, hop, -, -, hdb⟩ | (hdb | ⟨row, row', -, -, hdb⟩) |
    ⟨row, -, -, -, hdb⟩ <;> rw [hdb]
  · rw [hop] at h
    exact Table.find?_put_ne (Ne.symm h)
  · exact Table.find?_put_ne (Ne.symm h)
  · exact Table.find?_erase_ne (Ne.symm h)

/-- **Final statuses.** In any run, from the first state in which an order is SERVED its row
stays stored unchanged, and a CANCELLED one stays so until it is deleted; a call that throws
leaves the tables as they are, and no call touches the row of an order it is not about. -/
theorem orders_final (midnight : Instant → Instant) (db : Db) (pre post : List Op) :
    (∀ id row, (run (step midnight) db pre).orders.find? id = some row → row.status = .served →
      Always (step midnight) (fun db => db.orders.find? id = some row)
        (run (step midnight) db pre) post) ∧
    (∀ id row, (run (step midnight) db pre).orders.find? id = some row →
      row.status = .cancelled →
      Until (step midnight) (fun db => db.orders.find? id = some row)
        (fun db op => op = .remove id ∧ (step midnight db op).orders.find? id = none)
        (run (step midnight) db pre) post) ∧
    Along (step midnight) (fun db op => ¬ Accepted midnight db op → step midnight db op = db)
      db (pre ++ post) ∧
    Along (step midnight) (fun db op => ∀ id, target op ≠ id →
      (step midnight db op).orders.find? id = db.orders.find? id) db (pre ++ post) := by
  refine ⟨fun id row hrow hs => ?_, fun id row hrow hs => ?_, ?_, ?_⟩
  · exact always_of_step (fun _ _ => served_step hs) hrow
  · exact until_of_step (fun _ _ => cancelled_step hs) hrow
  · exact along_of_forall fun _ _ => step_of_not_accepted
  · exact along_of_forall fun _ _ _ => step_find?_of_ne

end CoffeeOs.OrderLife
