import CoffeeOs.Interleaving
import CoffeeOs.Runs
import CoffeeOs.TransactionFrame
import Mathlib.Data.Fintype.Option

/-!
A `complete` that races updates of the same transaction.

`complete` reads the balance and writes COMPLETED in a later call that does not look at it
again; an update tests the status and replaces the line items and the columns in later calls
that do not look at the status again. What keeps the completed sale paid is that every write an
update makes once the balance has been found settled leaves nothing owed.
-/

namespace CoffeeOs.CompleteRace

open CoffeeOs.KeyedTable CoffeeOs.Payload CoffeeOs.Requests CoffeeOs.Requests.Request
open CoffeeOs.Runs CoffeeOs.Interleaving CoffeeOs.Interleaving.Pool CoffeeOs.Schema
open CoffeeOs.Transactions hiding step
open CoffeeOs.TransactionSpec CoffeeOs.TransactionFrame

/-! ### What the writes of an update leave owed -/

section Writes

variable {db : Db} {id : Id} {row row' : Transaction} {items : List TransactionLineItemDto}

/-- What the line items of a payload come to. -/
def itemsTotal (items : List TransactionLineItemDto) : ℚ :=
  (items.map fun item => (item.quantity : ℚ) * item.unitPrice).sum

def cleared (db : Db) (id : Id) : Db :=
  { db with lineItems := db.lineItems.filter fun l => l.transactionId ≠ id }

def written (db : Db) (id : Id) (row' : Transaction) (items : List TransactionLineItemDto) : Db :=
  { db with
    transactions := db.transactions.put id row'
    lineItems := db.lineItems ++ lineRows id items }

/-- Without line items only the columns are owed. -/
lemma paid_cleared_iff (hrow : db.transactions.find? id = some row) :
    Paid (cleared db id) id ↔ owed db id row ≤ subtotalOf db id := by
  have hlines : linesOf (cleared db id) id = [] := Table.filter_dropped_self db.lineItems
  have howed : owed (cleared db id) id row = owed db id row - subtotalOf db id := by
    have hsub : subtotalOf (cleared db id) id = 0 := by rw [subtotalOf, hlines]; rfl
    have hpaid : paidOf (cleared db id) id = paidOf db id := rfl
    unfold owed
    rw [hsub, hpaid]
    ring
  have hprod : HasProducts (cleared db id) id := by
    intro l hl
    rw [hlines] at hl
    cases hl
  have hrow' : (cleared db id).transactions.find? id = some row := hrow
  rw [paid_iff, hrow']
  simp [hprod, howed]

lemma linesOf_written : linesOf (written db id row' items) id =
    linesOf db id ++ lineRows id items := by
  unfold linesOf written
  rw [List.filter_append, linesOf_lineRows_self]

lemma sum_lineRows : ((lineRows id items).map fun l => l.quantity * l.unitPrice).sum =
    itemsTotal items := by
  unfold lineRows itemsTotal
  rw [List.map_map]
  rfl

/-- New line items are owed on top of the ones that are there. -/
lemma owed_written : owed (written db id row' items) id row' =
    owed db id row' + itemsTotal items := by
  have hsub : subtotalOf (written db id row' items) id = subtotalOf db id + itemsTotal items := by
    unfold subtotalOf
    rw [linesOf_written, List.map_append, List.sum_append, sum_lineRows]
  have hpaid : paidOf (written db id row' items) id = paidOf db id := rfl
  unfold owed
  rw [hsub, hpaid]
  ring

lemma paid_written_iff (hprod : HasProducts db id) (hv : Verified db items) :
    Paid (written db id row' items) id ↔ owed db id row' + itemsTotal items ≤ 0 := by
  have hprod' : HasProducts (written db id row' items) id := by
    intro l hl
    rw [linesOf_written] at hl
    rcases List.mem_append.mp hl with hl | hl
    · exact hprod l hl
    · obtain ⟨item, hitem, rfl⟩ := List.mem_map.mp hl
      exact hv.found hitem
  have hrow' : (written db id row' items).transactions.find? id = some row' := Table.find?_put_self
  rw [paid_iff, hrow']
  simp [hprod', owed_written]

end Writes

/-! ### The calls of the requests -/

variable {ι : Type} {id : Id} {now : Instant} {dto : UpdateTransactionDto} {db : Db}

/-- The tables after the last call of `complete`. -/
def completedAt (now : Instant) (db : Db) (id : Id) (row : Transaction) : Db :=
  { db with transactions :=
      db.transactions.put id { row with status := .completed, completedAt := some now } }

lemma paid_completedAt_iff {row : Transaction} (hrow : db.transactions.find? id = some row) :
    Paid (completedAt now db id row) id ↔ Paid db id := by
  have hrow' : (completedAt now db id row).transactions.find? id =
      some { row with status := .completed, completedAt := some now } := Table.find?_put_self
  exact paid_congr_row hrow hrow' rfl rfl rfl rfl rfl

/-- What is left of `complete` after its first read. -/
def totalling (id : Id) (now : Instant) : Api TransactionView := do
  let totals ← calculateTotal id
  throwIf (totals.balance > 0) (.badRequest "Cannot complete transaction with outstanding balance")
  writeComplete id now

/-- What is left of an update with line items once it has checked the products. -/
def clearing (id : Id) (dto : UpdateTransactionDto) : Api TransactionView := do
  deleteLineItems id
  writeUpdate id dto

/-- What is left of an update with line items once it has tested the status. -/
def checking (id : Id) (dto : UpdateTransactionDto) : Api TransactionView := do
  verifyProducts dto.items
  clearing id dto

inductive CompleteStage (id : Id) (now : Instant) : Api TransactionView → Prop
  | unread : CompleteStage id now (complete id now)
  | totalling : CompleteStage id now (totalling id now)
  | armed : CompleteStage id now (writeComplete id now)
  | answered (r : Except Error TransactionView) : CompleteStage id now (.done r)

/-- How far an update has come; past the check of the products, these are stored in `db`. -/
inductive UpdateStage (db : Db) (id : Id) (dto : UpdateTransactionDto) :
    Api TransactionView → Prop
  | unread : UpdateStage db id dto (update id dto)
  | checking : UpdateStage db id dto (checking id dto)
  | clearing (verified : Verified db dto.items) : UpdateStage db id dto (clearing id dto)
  | writing (verified : Verified db dto.items) : UpdateStage db id dto (writeUpdate id dto)
  | answered (r : Except Error TransactionView) : UpdateStage db id dto (.done r)

section Calls

variable [DecidableEq ι] {q : Pool ι Db Error TransactionView} {i : ι}

lemma step_unread_complete (h : q.requests i = complete id now) :
    ∃ r, q.step i = ⟨q.store, Function.update q.requests i r⟩ ∧
      (r = totalling id now ∨ ∃ e, r = .done (.error e)) := by
  have hread : q.requests i = .look (fun db => (db.transactions.find? id).map (viewOf db id)) >>=
      fun found => orThrow (.notFound s!"Transaction with ID {id} not found") found >>=
        fun _ => totalling id now := h
  refine ⟨_, step_look_bind hread, ?_⟩
  rcases (q.store.transactions.find? id).map (viewOf q.store id) with _ | view
  · exact Or.inr ⟨_, rfl⟩
  · exact Or.inl rfl

/-- The second read of `complete`: it goes on to its write only if the transaction is paid. -/
lemma step_totalling (h : q.requests i = totalling id now) :
    ∃ r, q.step i = ⟨q.store, Function.update q.requests i r⟩ ∧
      (r = writeComplete id now ∧ Paid q.store id ∨ ∃ e, r = .done (.error e)) := by
  have hread : q.requests i = .look (fun db => (db.transactions.find? id).map (viewOf db id)) >>=
      fun found => (orThrow (.notFound s!"Transaction with ID {id} not found") found >>=
        fun view => .done (totals view)) >>= fun r =>
          throwIf (r.balance > 0)
            (.badRequest "Cannot complete transaction with outstanding balance") >>=
              fun _ => writeComplete id now := h
  refine ⟨_, step_look_bind hread, ?_⟩
  have hpaid : ((calculateTotal id).exec q.store).1 = _ := congrArg Prod.fst exec_calculateTotal
  rcases hrow : q.store.transactions.find? id with _ | row
  · exact Or.inr ⟨_, rfl⟩
  rw [hrow] at hpaid
  dsimp only [Option.map_some] at hpaid ⊢
  rw [orThrow_some_bind]
  rcases ht : totals (viewOf q.store id row) with e | r
  · exact Or.inr ⟨e, done_error_bind _⟩
  rw [done_ok_bind]
  by_cases hb : r.balance > 0
  · exact Or.inr ⟨_, throwIf_bind_pos hb _⟩
  · refine Or.inl ⟨throwIf_bind_neg hb _, r, ?_, le_of_not_gt hb⟩
    rw [hpaid, ht]

lemma step_armed (h : q.requests i = writeComplete id now) :
    (∃ e, q.step i = ⟨q.store, Function.update q.requests i (.done (.error e))⟩) ∨
    ∃ row view, q.store.transactions.find? id = some row ∧ q.step i =
      ⟨completedAt now q.store id row, Function.update q.requests i (.done (.ok view))⟩ := by
  rcases hrow : q.store.transactions.find? id with _ | row
  · refine Or.inl ⟨.prisma .recordNotFound, step_atomically_error h ?_⟩
    rw [transaction, hrow]
  · exact Or.inr ⟨row, _, rfl, step_atomically_ok h (by rw [transaction, hrow]; rfl)⟩

/-- The first call of an update: the test of the status. -/
lemma step_unread_update (h : q.requests i = update id dto) :
    ∃ r, q.step i = ⟨q.store, Function.update q.requests i r⟩ ∧
      UpdateStage q.store id dto r := by
  have hread : q.requests i = .look (fun db => db.transactions.find? id) >>= fun found =>
      orThrow (.notFound s!"Transaction with ID {id} not found") found >>= fun row =>
        throwIf (row.status = .completed) (.badRequest "Cannot update completed transaction") >>=
          fun _ => if 0 < dto.items.length then checking id dto else writeUpdate id dto := by
    rw [h]
    unfold update
    split <;> rfl
  refine ⟨_, step_look_bind hread, ?_⟩
  rcases q.store.transactions.find? id with _ | row
  · exact .answered _
  rw [orThrow_some_bind]
  by_cases hc : row.status = .completed
  · rw [throwIf_bind_pos hc]
    exact .answered _
  rw [throwIf_bind_neg hc]
  split
  · -- the products are looked for first, if there are any
    exact .checking
  · refine .writing ?_
    have hi : dto.items = [] := by simpa using ‹¬ 0 < dto.items.length›
    rw [hi]
    exact verified_nil

lemma step_checking (h : q.requests i = checking id dto) :
    ∃ r, q.step i = ⟨q.store, Function.update q.requests i r⟩ ∧
      UpdateStage q.store id dto r := by
  have hread : q.requests i =
      .look (fun db => db.products.rows.filter
        fun e => decide (e.1 ∈ dto.items.map (·.productId))) >>= fun products =>
          throwIf (products.length ≠ (dto.items.map (·.productId)).length)
            (.badRequest "One or more products not found") >>= fun _ => clearing id dto := h
  refine ⟨_, step_look_bind hread, ?_⟩
  by_cases hv : Verified q.store dto.items
  · have hclearing : UpdateStage q.store id dto (clearing id dto) := .clearing hv
    unfold Verified at hv
    rwa [throwIf_bind_neg (not_not.mpr hv)]
  · unfold Verified at hv
    rw [throwIf_bind_pos hv]
    exact .answered _

lemma step_clearing (h : q.requests i = clearing id dto) :
    q.step i = ⟨cleared q.store id, Function.update q.requests i (writeUpdate id dto)⟩ :=
  step_of_call h

lemma step_writing_ok {row row' : Transaction} (h : q.requests i = writeUpdate id dto)
    (hrow : q.store.transactions.find? id = some row) (ha : dto.apply row = some row') :
    ∃ view, q.step i = ⟨written q.store id row' dto.items,
      Function.update q.requests i (.done (.ok view))⟩ :=
  ⟨_, step_atomically_ok h (by rw [hrow]; dsimp only; rw [ha]; rfl)⟩

lemma step_writing (h : q.requests i = writeUpdate id dto) :
    (∃ e, q.step i = ⟨q.store, Function.update q.requests i (.done (.error e))⟩) ∨
    ∃ row row' view, q.store.transactions.find? id = some row ∧ dto.apply row = some row' ∧
      q.step i = ⟨written q.store id row' dto.items,
        Function.update q.requests i (.done (.ok view))⟩ := by
  rcases hrow : q.store.transactions.find? id with _ | row
  · refine Or.inl ⟨.prisma .recordNotFound, step_atomically_error h ?_⟩
    rw [hrow]
  rcases ha : dto.apply row with _ | row'
  · refine Or.inl ⟨.prisma .requiredNull, step_atomically_error h ?_⟩
    rw [hrow]
    dsimp only
    rw [ha]
  · obtain ⟨view, hstep⟩ := step_writing_ok h hrow ha
    exact Or.inr ⟨row, row', view, rfl, ha, hstep⟩

end Calls

/-! ### The race -/

/-- One request to complete the transaction and any number of requests to update it. -/
def race (id : Id) (now : Instant) (dto : ι → UpdateTransactionDto) (db : Db) :
    Pool (Option ι) Db Error TransactionView :=
  ⟨db, fun
    | none => complete id now
    | some i => update id (dto i)⟩

def IsCompleted (db : Db) (id : Id) : Prop :=
  ∃ row, db.transactions.find? id = some row ∧ row.status = .completed

/-- The balance has been found settled: the transaction is completed, or will be by the next
call of `complete`. -/
def Found (id : Id) (now : Instant) (q : Pool (Option ι) Db Error TransactionView) : Prop :=
  IsCompleted q.store id ∨ q.requests none = writeComplete id now

/-- Once the balance has been found settled, what an update writes in this turn leaves nothing
owed: neither the columns alone, when it clears the line items, nor the columns and line items
it then stores. -/
def SafeTurn (id : Id) (now : Instant) (dto : ι → UpdateTransactionDto)
    (q : Pool (Option ι) Db Error TransactionView) : Option ι → Prop
  | none => True
  | some i => Found id now q → ∀ row, q.store.transactions.find? id = some row →
    (q.requests (some i) = clearing id (dto i) →
      owed q.store id row ≤ subtotalOf q.store id) ∧
    (q.requests (some i) = writeUpdate id (dto i) → ∀ row', (dto i).apply row = some row' →
      owed q.store id row' + itemsTotal (dto i).items ≤ 0)

/-- Every request is at one of its stages. -/
structure Staged (id : Id) (now : Instant) (dto : ι → UpdateTransactionDto)
    (q : Pool (Option ι) Db Error TransactionView) : Prop where
  completing : CompleteStage id now (q.requests none)
  updating : ∀ i, UpdateStage q.store id (dto i) (q.requests (some i))

/-- A balance that has been found settled is. -/
def Guard (id : Id) (now : Instant) (q : Pool (Option ι) Db Error TransactionView) : Prop :=
  Found id now q → Paid q.store id

lemma UpdateStage.mono {db db' : Db} {r : Api TransactionView} (h : UpdateStage db id dto r)
    (hprod : db'.products = db.products) : UpdateStage db' id dto r := by
  have hv (items : List TransactionLineItemDto) (hv : Verified db items) : Verified db' items := by
    unfold Verified
    rw [hprod]
    exact hv
  cases h with
  | unread => exact .unread
  | checking => exact .checking
  | clearing h => exact .clearing (hv _ h)
  | writing h => exact .writing (hv _ h)
  | answered r => exact .answered r

lemma complete_ne_writeComplete : complete id now ≠ writeComplete id now := by
  intro h
  have := congrArg (fun r => (r.exec ∅).1) h
  cases this

lemma totalling_ne_writeComplete : totalling id now ≠ writeComplete id now := by
  intro h
  have := congrArg (fun r => (r.exec ∅).1) h
  cases this

variable [DecidableEq ι] {dtos : ι → UpdateTransactionDto}
  {q : Pool (Option ι) Db Error TransactionView} {db' : Db} {r : Api TransactionView} {i : ι}

/-! ### A turn of `complete` -/

lemma staged_complete_turn (h : Staged id now dtos q) (hprod : db'.products = q.store.products)
    (hr : CompleteStage id now r) :
    Staged id now dtos ⟨db', Function.update q.requests none r⟩ := by
  have hself : Function.update q.requests none r none = r := Function.update_self _ _ _
  have hother (i : ι) : Function.update q.requests none r (some i) = q.requests (some i) :=
    Function.update_of_ne (by simp) _ _
  exact ⟨hself.symm ▸ hr, fun i => (hother i).symm ▸ (h.updating i).mono hprod⟩

lemma found_complete_turn : Found id now ⟨db', Function.update q.requests none r⟩ ↔
    IsCompleted db' id ∨ r = writeComplete id now := by
  show IsCompleted db' id ∨ Function.update q.requests none r none = _ ↔ _
  rw [Function.update_self]

lemma step_complete (h : Staged id now dtos q) (hg : Guard id now q) :
    Staged id now dtos (q.step none) ∧ Guard id now (q.step none) := by
  have hstage := h.completing
  generalize hreq : q.requests none = r at hstage
  -- A read that does not find the balance settled.
  have look {r : Api TransactionView} (hr : CompleteStage id now r)
      (hne : r ≠ writeComplete id now) :
      Staged id now dtos ⟨q.store, Function.update q.requests none r⟩ ∧
        Guard id now ⟨q.store, Function.update q.requests none r⟩ :=
    ⟨staged_complete_turn h rfl hr,
      fun hf => hg (Or.inl ((found_complete_turn.mp hf).resolve_right hne))⟩
  cases hstage with
  | unread =>
    obtain ⟨r, hstep, hr⟩ := step_unread_complete hreq
    rw [hstep]
    rcases hr with rfl | ⟨e, rfl⟩
    · exact look .totalling totalling_ne_writeComplete
    · exact look (.answered _) (by simp [writeComplete, Delegate.update, atomically])
  | totalling =>
    obtain ⟨r, hstep, hr⟩ := step_totalling hreq
    rw [hstep]
    rcases hr with ⟨rfl, hp⟩ | ⟨e, rfl⟩
    · -- the balance is settled, and the sale is paid from now on as long as the guard holds
      exact ⟨staged_complete_turn h rfl .armed, fun _ => hp⟩
    · exact look (.answered _) (by simp [writeComplete, Delegate.update, atomically])
  | armed =>
    -- the write, which the guard has kept the sale paid for
    have hp : Paid q.store id := hg (Or.inr hreq)
    rcases step_armed hreq with ⟨e, hstep⟩ | ⟨row, view, hrow, hstep⟩
    · rw [hstep]
      exact ⟨staged_complete_turn h rfl (.answered _), fun _ => hp⟩
    · rw [hstep]
      exact ⟨staged_complete_turn h rfl (.answered _), fun _ => (paid_completedAt_iff hrow).mpr hp⟩
  | answered r => rw [step_of_done hreq]; exact ⟨h, hg⟩

/-! ### A turn of an update -/

lemma staged_update_turn (h : Staged id now dtos q) (hprod : db'.products = q.store.products)
    (hr : UpdateStage db' id (dtos i) r) :
    Staged id now dtos ⟨db', Function.update q.requests (some i) r⟩ := by
  have hnone : Function.update q.requests (some i) r none = q.requests none :=
    Function.update_of_ne (by simp) _ _
  refine ⟨hnone.symm ▸ h.completing, fun j => ?_⟩
  by_cases hj : j = i
  · subst hj
    show UpdateStage db' id (dtos j) (Function.update q.requests (some j) r (some j))
    rwa [Function.update_self]
  · show UpdateStage db' id (dtos j) (Function.update q.requests (some i) r (some j))
    rw [Function.update_of_ne (by simpa using hj)]
    exact (h.updating j).mono hprod

lemma found_update_turn : Found id now ⟨db', Function.update q.requests (some i) r⟩ ↔
    IsCompleted db' id ∨ q.requests none = writeComplete id now := by
  show IsCompleted db' id ∨ Function.update q.requests (some i) r none = _ ↔ _
  rw [Function.update_of_ne (by simp)]

/-- An update without a status does not move the transaction into or out of COMPLETED. -/
lemma isCompleted_written_iff {row row' : Transaction} (hs : dto.status = .undefined)
    (hrow : db.transactions.find? id = some row) (ha : dto.apply row = some row') :
    IsCompleted (written db id row' dto.items) id ↔ IsCompleted db id := by
  have hstatus : row'.status = row.status := by
    rcases apply_status ha with ⟨h, -⟩ | h
    · exact h
    · rw [hs] at h; cases h
  have hrow' : (written db id row' dto.items).transactions.find? id = some row' :=
    Table.find?_put_self
  unfold IsCompleted
  rw [hrow, hrow']
  simp [hstatus]

lemma staged_step_update (h : Staged id now dtos q) : Staged id now dtos (q.step (some i)) := by
  have hstage := h.updating i
  generalize hreq : q.requests (some i) = r at hstage
  cases hstage with
  | unread =>
    obtain ⟨r, hstep, hr⟩ := step_unread_update hreq
    rw [hstep]
    exact staged_update_turn h rfl hr
  | checking =>
    obtain ⟨r, hstep, hr⟩ := step_checking hreq
    rw [hstep]
    exact staged_update_turn h rfl hr
  | clearing hv =>
    rw [step_clearing hreq]
    exact staged_update_turn h rfl (.writing hv)
  | writing hv =>
    rcases step_writing hreq with ⟨e, hstep⟩ | ⟨row, row', view, hrow, ha, hstep⟩
    · rw [hstep]
      exact staged_update_turn h rfl (.answered _)
    · rw [hstep]
      exact staged_update_turn h rfl (.answered _)
  | answered r => rwa [step_of_done hreq]

lemma guard_of_safeTurn (hs : (dtos i).status = .undefined) (h : Staged id now dtos q)
    (hg : Guard id now q) (hsafe : SafeTurn id now dtos q (some i)) :
    Guard id now (q.step (some i)) := by
  have hstage := h.updating i
  generalize hreq : q.requests (some i) = r at hstage
  cases hstage with
  | unread =>
    obtain ⟨r, hstep, -⟩ := step_unread_update hreq
    rw [hstep]
    exact fun hf => hg (found_update_turn.mp hf)
  | checking =>
    obtain ⟨r, hstep, -⟩ := step_checking hreq
    rw [hstep]
    exact fun hf => hg (found_update_turn.mp hf)
  | clearing hv =>
    rw [step_clearing hreq]
    -- the lines are deleted while the completion has found the sale paid
    intro hf
    have hfound : Found id now q := found_update_turn.mp hf
    obtain ⟨row, hrow, -⟩ := paid_iff.mp (hg hfound)
    exact (paid_cleared_iff hrow).mpr ((hsafe hfound row hrow).1 hreq)
  | writing hv =>
    rcases step_writing hreq with ⟨e, hstep⟩ | ⟨row, row', view, hrow, ha, hstep⟩
    · rw [hstep]
      exact fun hf => hg (found_update_turn.mp hf)
    rw [hstep]
    -- the new lines and the row are written at that time
    intro hf
    have hfound : Found id now q :=
      (found_update_turn.mp hf).imp_left (isCompleted_written_iff hs hrow ha).mp
    obtain ⟨-, -, hprod, -⟩ := paid_iff.mp (hg hfound)
    exact (paid_written_iff hprod hv).mpr ((hsafe hfound row hrow).2 hreq row' ha)
  | answered r => rwa [step_of_done hreq]

lemma safeTurn_of_guard (hs : (dtos i).status = .undefined)
    (hg : Guard id now (q.step (some i))) : SafeTurn id now dtos q (some i) := by
  intro hf row hrow
  refine ⟨fun hreq => ?_, fun hreq row' ha => ?_⟩
  · rw [step_clearing hreq] at hg
    exact (paid_cleared_iff hrow).mp (hg (found_update_turn.mpr hf))
  · obtain ⟨view, hstep⟩ := step_writing_ok hreq hrow ha
    rw [hstep] at hg
    have hpaid : Paid (written q.store id row' (dtos i).items) id :=
      hg (found_update_turn.mpr (hf.imp_left (isCompleted_written_iff hs hrow ha).mpr))
    obtain ⟨row'', hrow'', -, ho⟩ := paid_iff.mp hpaid
    obtain rfl : row' = row'' := Option.some.inj (Table.find?_put_self.symm.trans hrow'')
    rwa [owed_written] at ho

/-! ### Any order of turns -/

omit [DecidableEq ι] in
lemma staged_race : Staged id now dtos (race id now dtos db) := ⟨.unread, fun _ => .unread⟩

omit [DecidableEq ι] in
lemma guard_race (h0 : IsCompleted db id → Paid db id) : Guard id now (race id now dtos db) := by
  rintro (hc | hw)
  · exact h0 hc
  · exact absurd hw complete_ne_writeComplete

lemma guard_step (hs : ∀ i, (dtos i).status = .undefined) (turn : Option ι)
    (h : Staged id now dtos q ∧ Guard id now q) (hsafe : SafeTurn id now dtos q turn) :
    Staged id now dtos (q.step turn) ∧ Guard id now (q.step turn) := by
  rcases turn with _ | i
  · exact step_complete h.1 h.2
  · exact ⟨staged_step_update h.1, guard_of_safeTurn (hs i) h.1 h.2 hsafe⟩

/-- **The race.** If every turn is safe, then in every state of the pool, and so when all
requests have answered, a completed transaction is paid. The turns that are not safe are those
that leave a balance owed which `complete` has found settled. -/
theorem completed_paid_of_safe (hs : ∀ i, (dtos i).status = .undefined)
    (h0 : IsCompleted db id → Paid db id) (turns : List (Option ι)) :
    (Along step (SafeTurn id now dtos) (race id now dtos db) turns →
      Always step (fun q => IsCompleted q.store id → Paid q.store id)
        (race id now dtos db) turns) ∧
    (Along step (SafeTurn id now dtos) (race id now dtos db) turns ↔
      Always step (Guard id now) (race id now dtos db) turns) := by
  have hguard (hsafe : Along step (SafeTurn id now dtos) (race id now dtos db) turns) :
      Always step (Guard id now) (race id now dtos db) turns := by
    have hall : Always step (fun q => Staged id now dtos q ∧ Guard id now q)
        (race id now dtos db) turns :=
      always_of_along (fun _ turn h => guard_step hs turn h) ⟨staged_race, guard_race h0⟩ hsafe
    exact hall.imp fun _ h => h.2
  refine ⟨fun hsafe => (hguard hsafe).imp fun _ hg hc => hg (Or.inl hc), hguard, ?_⟩
  refine along_of_always fun q turn hg => ?_
  rcases turn with _ | i
  · trivial
  · exact safeTurn_of_guard (hs i) hg

/-- An open sale with nothing on it, and so nothing owed. -/
def openSale : Db :=
  { transactions := (∅ : Table Id Transaction).put "sale" { status := .pending } }

/-- An update that adds a tax. -/
def addTax (_ : Unit) : UpdateTransactionDto := { taxAmount := .val ⟨7, by decide +kernel⟩ }

/-- The same sale, paid ahead. -/
def prepaidSale : Db :=
  { openSale with
    payments := (∅ : Table Id Payment).put "advance"
      { transactionId := "sale", amount := 10, method := .cash, status := .completed } }

omit [DecidableEq ι] in
lemma safeTurn_of_row {q : Pool (Option ι) Db Error TransactionView}
    {dto : ι → UpdateTransactionDto} {i : ι} (row : Transaction)
    (hrow : q.store.transactions.find? id = some row)
    (hcolumns : owed q.store id row ≤ subtotalOf q.store id)
    (hwritten : ∀ row' ∈ (dto i).apply row, owed q.store id row' + itemsTotal (dto i).items ≤ 0) :
    SafeTurn id now dto q (some i) := by
  intro _ row₁ hrow₁
  obtain rfl := Option.some.inj (hrow.symm.trans hrow₁)
  exact ⟨fun _ => hcolumns, fun _ row' ha => hwritten row' ha⟩

/-- `complete` finds the sale settled; the tax that is then written is covered by the payment, and
the sale that is completed last is paid. -/
theorem completed_paid_of_safe_prepaidSale :
    let q := run step (race "sale" 0 addTax prepaidSale) [none, none, some (), some (), none]
    Always step (fun q => IsCompleted q.store "sale" → Paid q.store "sale")
      (race "sale" 0 addTax prepaidSale) [none, none, some (), some (), none] ∧
    q.Finished ∧ IsCompleted q.store "sale" ∧
    (q.store.transactions.find? "sale").bind Transaction.taxAmount = some 7 := by
  have hopen : ¬ IsCompleted prepaidSale "sale" := by
    rintro ⟨row, hrow, hc⟩
    have hstored : prepaidSale.transactions.find? "sale" = some { status := .pending } := by
      decide +kernel
    rw [← Option.some.inj (hstored.symm.trans hrow)] at hc
    cases hc
  refine ⟨(completed_paid_of_safe (fun _ => rfl) (fun hc => absurd hc hopen) _).1 ?_,
    by decide +kernel, ?_, by decide +kernel⟩
  · -- both turns of the update find the sale as it was stored
    refine ⟨trivial, trivial, ?_, ?_, trivial, trivial⟩ <;>
      exact safeTurn_of_row { status := .pending } (by decide +kernel) (by decide +kernel)
        (by decide +kernel)
  · exact ⟨{ taxAmount := some 7, status := .completed, completedAt := some 0 },
      by decide +kernel, rfl⟩

/-- The update tests the status before `complete` writes it, and adds its tax after the balance
was read. -/
theorem completed_unpaid :
    let q := run step (race "sale" 0 addTax openSale) [none, none, some (), some (), none]
    (∀ i, (addTax i).status = .undefined) ∧ q.Finished ∧
      IsCompleted q.store "sale" ∧ ¬ Paid q.store "sale" := by
  refine ⟨fun _ => rfl, by decide +kernel, ?_, by decide +kernel⟩
  exact ⟨{ taxAmount := some 7, status := .completed, completedAt := some 0 },
    by decide +kernel, rfl⟩

end CoffeeOs.CompleteRace
