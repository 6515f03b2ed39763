import CoffeeOs.Runs
import CoffeeOs.TransactionFrame

/-!
The life of a transaction.

COMPLETED is final for every call but `complete` itself, which may only renew the time of
completion. CANCELLED and REFUNDED are meant to be final as well; the second theorem says which
calls move a transaction out of them.
-/

namespace CoffeeOs.TransactionLife

open CoffeeOs.KeyedTable CoffeeOs.Payload CoffeeOs.Runs CoffeeOs.Schema CoffeeOs.Transactions
open CoffeeOs.TransactionSpec CoffeeOs.TransactionFrame

variable {db : Db} {id : Id} {row : Transaction}

/-! ### After COMPLETED -/

/-- The transaction is stored with the columns of `row`, up to the time of completion, and has
the line items and the payments it has in `db₀`. -/
structure Frozen (db₀ : Db) (id : Id) (row : Transaction) (db : Db) : Prop where
  row : ∃ completedAt, db.transactions.find? id = some { row with completedAt := completedAt }
  lineItems : linesOf db id = linesOf db₀ id
  payments : paymentsOf db id = paymentsOf db₀ id

lemma frozen_step {db₀ : Db} (hc : row.status = .completed) (op : Op)
    (h : Frozen db₀ id row db) : Frozen db₀ id row (step db op) := by
  obtain ⟨completedAt, hrow⟩ := h.row
  obtain ⟨completedAt', hrow'⟩ := step_row_of_completed op hrow hc
  obtain ⟨hlines, hpayments⟩ := step_rows_of_completed op hrow hc
  exact ⟨⟨completedAt', hrow'⟩, hlines.trans h.lineItems, hpayments.trans h.payments⟩

/-- The call changes the time of completion only if it is `complete` on this transaction. -/
lemma completedAt_step {op : Op} (h : db.transactions.find? id = some row)
    (hc : row.status = .completed) (hop : ∀ now, op ≠ .complete id now) :
    (step db op).transactions.find? id = some row := by
  rcases step_row op h with ⟨row', h', hmove⟩ | ⟨-, ho, -⟩
  · cases hmove with
    | kept => exact h'
    | updated ho => exact absurd hc ho
    | cancelled ho => exact absurd hc ho
    | completed => exact absurd rfl (hop _)
  · exact absurd hc ho

/-- **Completed is final.** From the first state of a run in which a transaction is COMPLETED
it is frozen, only `complete` renews its time of completion, and no call of the run touches the
rows of a transaction that it is not about. -/
theorem completed_frozen (db : Db) (pre post : List Op) :
    (∀ id row, (run step db pre).transactions.find? id = some row → row.status = .completed →
      Always step (Frozen (run step db pre) id row) (run step db pre) post) ∧
    Along step (fun db op => ∀ id row, db.transactions.find? id = some row →
      row.status = .completed → (∀ now, op ≠ .complete id now) →
        (step db op).transactions.find? id = some row) db (pre ++ post) ∧
    Along step (fun db op => ∀ id, target op ≠ id → ownRows (step db op) id = ownRows db id)
      db (pre ++ post) := by
  refine ⟨fun id row hrow hc => ?_, ?_, ?_⟩
  · have hstart : Frozen (run step db pre) id row (run step db pre) :=
      ⟨⟨row.completedAt, hrow⟩, rfl, rfl⟩
    exact always_of_step (fun _ op => frozen_step hc op) hstart
  · exact along_of_forall fun _ _ _ _ hrow hc hop => completedAt_step hrow hc hop
  · exact along_of_forall fun _ _ _ ht => step_ownRows_of_ne ht

/-! ### After CANCELLED and REFUNDED -/

def Terminal (status : TransactionStatus) : Prop := status = .cancelled ∨ status = .refunded

instance (status : TransactionStatus) : Decidable (Terminal status) :=
  inferInstanceAs (Decidable (_ ∨ _))

/-- Under the call every cancelled or refunded transaction keeps its status, unless the call
removes it. -/
def KeepsTerminal (db : Db) (op : Op) : Prop :=
  ∀ id row, db.transactions.find? id = some row → Terminal row.status →
    op = .remove id ∨
    ∃ row', (step db op).transactions.find? id = some row' ∧ row'.status = row.status

/-- On a cancelled or refunded transaction the call is none of these: an update that carries
another status and is let through, a `cancel` of a refunded one, a `complete` of a paid one. -/
def NoRevival (db : Db) : Op → Prop
  | .update id dto =>
    ∀ row status, db.transactions.find? id = some row → Terminal row.status →
      Verified db dto.items → dto.status = .val status → status = row.status
  | .cancel id => ∀ row, db.transactions.find? id = some row → row.status ≠ .refunded
  | .complete id _ =>
    ∀ row, db.transactions.find? id = some row → Terminal row.status → ¬ Paid db id
  | _ => True

lemma keepsTerminal_of_noRevival {op : Op} (h : NoRevival db op) : KeepsTerminal db op := by
  intro id row hrow ht
  rcases step_row op hrow with ⟨row', hrow', hmove⟩ | ⟨hop, -, -⟩
  swap
  · exact Or.inl hop
  refine Or.inr ⟨row', hrow', ?_⟩
  cases hmove with
  | kept => rfl
  | updated ho hv ha =>
    rcases apply_status ha with ⟨hs, -⟩ | hs
    · exact hs
    · exact h row _ hrow ht hv hs
  | cancelled => exact (ht.resolve_right (h row hrow)).symm
  | completed hp => exact absurd hp (h row hrow ht)

lemma Terminal.ne_completed {status : TransactionStatus} (h : Terminal status) :
    status ≠ .completed := by
  rcases h with rfl | rfl <;> decide

lemma noRevival_of_keepsTerminal {op : Op} (h : KeepsTerminal db op) : NoRevival db op := by
  cases op with
  | create => trivial
  | update id dto =>
    intro row status hrow ht hv hs
    obtain ⟨row', ha, hs', -⟩ := apply_val hs row
    rcases h id row hrow ht with hop | ⟨row'', hrow'', hkeep⟩
    · cases hop
    · -- the update is written, so the status that it carries must be the old one
      rw [find?_step_update, hrow, Option.map_some, if_neg (by simp [ht.ne_completed, hv]), ha]
        at hrow''
      obtain rfl : row' = row'' := Option.some.inj hrow''
      rw [← hs', hkeep]
  | cancel id =>
    intro row hrow hr
    rcases h id row hrow (Or.inr hr) with hop | ⟨row', hrow', hkeep⟩
    · cases hop
    · -- a cancel of a refunded sale would write CANCELLED
      rw [find?_step_cancel, hrow, Option.map_some, if_neg (by rw [hr]; decide)] at hrow'
      rw [← Option.some.inj hrow', hr] at hkeep
      cases hkeep
  | complete id now =>
    intro row hrow ht hp
    rcases h id row hrow ht with hop | ⟨row', hrow', hkeep⟩
    · cases hop
    · -- a completion of a terminal sale would write COMPLETED
      rw [find?_step_complete, hrow, Option.map_some, if_pos hp] at hrow'
      rw [← Option.some.inj hrow'] at hkeep
      exact ht.ne_completed hkeep.symm
  | remove => trivial

/-- **Terminal statuses.** The calls of a run keep every cancelled or refunded transaction in
its status exactly when none of them revives one. -/
theorem terminal_kept_iff (db : Db) (ops : List Op) :
    Along step KeepsTerminal db ops ↔ Along step NoRevival db ops :=
  ⟨Along.imp fun _ _ => noRevival_of_keepsTerminal,
    Along.imp fun _ _ => keepsTerminal_of_noRevival⟩

/-- A sale without line items is cancelled, and completed all the same. -/
theorem cancelled_revived : ¬ Along step KeepsTerminal ∅
    [.create "sale" { lineItems := [] }, .cancel "sale", .complete "sale" 0] := by
  intro h
  set db := run step ∅ [.create "sale" { lineItems := [] }, .cancel "sale"] with hdb
  have hcancelled : db.transactions.find? "sale" = some { status := .cancelled } := by
    rw [hdb]; decide +kernel
  have hcompleted : (step db (.complete "sale" 0)).transactions.find? "sale" =
      some { status := .completed, completedAt := some 0 } := by
    rw [hdb]; decide +kernel
  have hkeeps : KeepsTerminal db (.complete "sale" 0) := h.2.2.1
  rcases hkeeps "sale" _ hcancelled (Or.inl rfl) with hop | ⟨row, hrow, hs⟩
  · cases hop
  · rw [← Option.some.inj (hcompleted.symm.trans hrow)] at hs
    cases hs

end CoffeeOs.TransactionLife
