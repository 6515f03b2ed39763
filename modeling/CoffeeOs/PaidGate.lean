import CoffeeOs.PointOfSale
import Mathlib.Tactic.Linarith

/-!
Paid before completed.

`complete` asks what is owed before it writes; `update` may carry the status along with its
other columns and does not ask. The first theorem says that this is the only way past the
gate. The second is about what comes after: which calls leave a paid and completed sale paid.
-/

namespace CoffeeOs.PaidGate

open CoffeeOs.KeyedTable CoffeeOs.Payload CoffeeOs.Runs CoffeeOs.Schema CoffeeOs.PointOfSale
open CoffeeOs.Transactions (linesOf paymentsOf)
open CoffeeOs.TransactionSpec CoffeeOs.TransactionFrame

variable {db : Db} {id : Id}

/-! ### Into COMPLETED -/

/-- A call that turns a transaction into COMPLETED leaves it paid, with the time of its
completion. -/
def Gate (db : Db) (op : Op) : Prop :=
  ∀ id row', (step db op).transactions.find? id = some row' → row'.status = .completed →
    (∀ row, db.transactions.find? id = some row → row.status ≠ .completed) →
    Paid (step db op) id ∧ row'.completedAt.isSome

/-- The call is not an update that carries the status COMPLETED and is let through. -/
def NoCompletingUpdate (db : Db) : Op → Prop
  | .transactions (.update id dto) =>
    ∀ row, db.transactions.find? id = some row → row.status ≠ .completed →
      Verified db dto.items → dto.status ≠ .val .completed
  | _ => True

lemma paid_of_complete {row : Transaction} (h : db.transactions.find? id = some row)
    (now : Instant) (hp : Paid db id) : Paid (Transactions.step db (.complete id now)) id := by
  have hrow' : (Transactions.step db (.complete id now)).transactions.find? id =
      some { row with status := .completed, completedAt := some now } := by
    rw [find?_step_complete, h, Option.map_some, if_pos hp]
  obtain ⟨hlines, hpayments⟩ := step_complete_rows now
  exact (paid_congr_row h hrow' rfl rfl hlines hpayments (step_products _)).mpr hp

lemma gate_of_noCompletingUpdate {op : Op} (h : NoCompletingUpdate db op) : Gate db op := by
  intro id row' hrow' hcompleted hbefore
  rcases op with op | op
  · rcases hrow : db.transactions.find? id with _ | row
    · obtain ⟨dto, -, rfl⟩ := step_row_born hrow hrow'
      cases hcompleted
    rcases step_row op hrow with ⟨row'', hrow'', hmove⟩ | ⟨-, -, hgone⟩
    swap
    · rw [step, hgone] at hrow'; cases hrow'
    obtain rfl : row'' = row' := Option.some.inj (hrow''.symm.trans hrow')
    cases hmove with
    | kept => exact absurd hcompleted (hbefore row hrow)
    | updated ho hv ha =>
      -- the status that an update writes is its own, which is not COMPLETED, or the old one
      rcases apply_status ha with ⟨hs, -⟩ | hs
      · rw [hs] at hcompleted; exact absurd hcompleted ho
      · rw [hcompleted] at hs
        exact absurd hs (h row hrow ho hv)
    | cancelled => cases hcompleted
    | completed hp => exact ⟨paid_of_complete hrow _ hp, rfl⟩
  · rw [step, transactions_step_payments] at hrow'
    exact absurd hcompleted (hbefore row' hrow')

/-- Transactions that are not completed carry no time of completion. -/
def Unstamped (db : Db) : Prop :=
  ∀ id row, db.transactions.find? id = some row → row.status ≠ .completed →
    row.completedAt = none

lemma apply_completedAt {dto : Transactions.UpdateTransactionDto} {row row' : Transaction}
    (h : dto.apply row = some row') : row'.completedAt = row.completedAt := by
  obtain ⟨status, -, rfl⟩ := Option.map_eq_some_iff.mp h
  rfl

lemma unstamped_step (op : Op) (h : Unstamped db) : Unstamped (step db op) := by
  intro id row' hrow' hopen
  rcases op with op | op
  · rcases hrow : db.transactions.find? id with _ | row
    · obtain ⟨dto, -, rfl⟩ := step_row_born hrow hrow'
      rfl
    rcases step_row op hrow with ⟨row'', hrow'', hmove⟩ | ⟨-, -, hgone⟩
    swap
    · rw [step, hgone] at hrow'; cases hrow'
    obtain rfl : row'' = row' := Option.some.inj (hrow''.symm.trans hrow')
    cases hmove with
    | kept => exact h id row hrow hopen
    | updated ho hv ha => rw [apply_completedAt ha]; exact h id row hrow ho
    | cancelled ho => exact h id row hrow ho
    | completed => exact absurd rfl hopen
  · -- the payments service writes no sale
    rw [step, transactions_step_payments] at hrow'
    exact h id row' hrow' hopen

/-- An update that carries COMPLETED writes no time of completion. -/
lemma noCompletingUpdate_of_gate {op : Op} (hu : Unstamped db) (h : Gate db op) :
    NoCompletingUpdate db op := by
  rcases op with op | op
  swap
  · trivial
  rcases op with _ | ⟨id, dto⟩ | _ | _ | _
  · trivial
  · intro row hrow ho hv hs
    obtain ⟨row', ha, hs', hc'⟩ := apply_val hs row
    have hrow' : (step db (.transactions (.update id dto))).transactions.find? id = some row' := by
      rw [step, find?_step_update, hrow, Option.map_some, if_neg (by simp [ho, hv]), ha]
      rfl
    -- the gate wants a completion to be stamped, which no update does
    have hstamp : row'.completedAt.isSome := by
      refine (h id row' hrow' hs' fun r hr => ?_).2
      rw [← Option.some.inj (hrow.symm.trans hr)]
      exact ho
    rw [hc', hu id row hrow ho] at hstamp
    cases hstamp
  · trivial
  · trivial
  · trivial

/-- **The gate.** A run passes every transaction into COMPLETED through the gate if none of
its calls is an update that carries COMPLETED; from tables whose open transactions bear no
time of completion, only then. -/
theorem gate_along (db : Db) (ops : List Op) :
    (Along step NoCompletingUpdate db ops → Along step Gate db ops) ∧
    (Unstamped db → (Along step Gate db ops → Along step NoCompletingUpdate db ops)) := by
  refine ⟨Along.imp fun _ _ => gate_of_noCompletingUpdate, fun hu h => ?_⟩
  have hiff : Along step Gate db ops ↔ Along step NoCompletingUpdate db ops :=
    along_congr (fun _ op => unstamped_step op)
      (fun _ _ hu => ⟨noCompletingUpdate_of_gate hu, gate_of_noCompletingUpdate⟩) hu
  exact hiff.mp h

/-- A shop that sells one product and has sold nothing yet. -/
def shop : Db where
  products := (∅ : Table Id Product).put "latte"
    { categoryId := "coffee", sku := "LATTE", name := "Latte", price := 45 }

/-- A sale of one product. -/
def latteSale : Transactions.CreateTransactionDto where
  lineItems := [{ productId := "latte", quantity := ⟨1, by decide +kernel⟩,
                  unitPrice := ⟨45, by decide +kernel⟩ }]

/-- An update completes the sale without a payment. -/
theorem gate_bypassed : ¬ Along step Gate shop
    [.transactions (.create "sale" latteSale),
     .transactions (.update "sale" { status := .val .completed })] := by
  intro h
  set db := step shop (.transactions (.create "sale" latteSale)) with hdb
  set db' := step db (.transactions (.update "sale" { status := .val .completed })) with hdb'
  have hopen : db.transactions.find? "sale" = some { status := .pending } := by
    rw [hdb]; decide +kernel
  have hcompleted : db'.transactions.find? "sale" = some { status := .completed } := by
    rw [hdb', hdb]; decide +kernel
  have hunpaid : ¬ Paid db' "sale" := by rw [hdb', hdb]; decide +kernel
  have hgate : Gate db (.transactions (.update "sale" { status := .val .completed })) := h.2.1
  refine hunpaid (hgate "sale" _ hcompleted rfl fun row hrow => ?_).1
  rw [← Option.some.inj (hopen.symm.trans hrow)]
  decide

/-! ### After COMPLETED -/

/-- The transaction is completed, and paid. -/
def Settled (id : Id) (db : Db) : Prop :=
  ∃ row, db.transactions.find? id = some row ∧ row.status = .completed ∧ Paid db id

instance (id : Id) (db : Db) : Decidable (Settled id db) :=
  match h : db.transactions.find? id with
  | none => isFalse (by simp [Settled, h])
  | some row => decidable_of_iff (row.status = .completed ∧ Paid db id) (by simp [Settled, h])

/-- What a payment counts towards the transaction. -/
def share (id : Id) (p : Payment) : ℚ := if p.transactionId = id then p.amount else 0

/-- The call takes away no more of what is paid towards the transaction than was paid beyond
its total. -/
def Covered (id : Id) (db : Db) : Op → Prop
  | .payments (.update pid dto) =>
    ∀ row p p', db.transactions.find? id = some row → db.payments.find? pid = some p →
      Payments.Open p → dto.apply p = some p' → owed db id row + share id p ≤ share id p'
  | .payments (.remove pid) =>
    ∀ row p, db.transactions.find? id = some row → db.payments.find? pid = some p →
      p.status ≠ .completed → owed db id row + share id p ≤ 0
  | _ => True

lemma paidOf_eq_total : paidOf db id = db.payments.total fun _ p => share id p := by
  unfold paidOf paymentsOf Table.total share
  rw [sum_selected]
  simp

section Paid

variable {pid : Id} {p p' : Payment}

lemma paidOf_congr {db' : Db} (h : db'.payments = db.payments) : paidOf db' id = paidOf db id := by
  rw [paidOf_eq_total, paidOf_eq_total, h]

lemma paidOf_put_new (h : db.payments.find? pid = none) :
    paidOf { db with payments := db.payments.put pid p } id = paidOf db id + share id p := by
  rw [paidOf_eq_total, paidOf_eq_total]
  exact Table.total_put_new h

lemma paidOf_put (h : db.payments.find? pid = some p) :
    paidOf { db with payments := db.payments.put pid p' } id + share id p =
      paidOf db id + share id p' := by
  rw [paidOf_eq_total, paidOf_eq_total]
  exact Table.total_put h

lemma paidOf_erase (h : db.payments.find? pid = some p) :
    paidOf { db with payments := db.payments.erase pid } id + share id p = paidOf db id := by
  rw [paidOf_eq_total, paidOf_eq_total]
  exact Table.total_erase h

end Paid

/-- A call of the transactions service leaves a settled transaction settled. -/
lemma settled_step_transactions (op : Transactions.Op) (h : Settled id db) :
    Settled id (Transactions.step db op) := by
  obtain ⟨row, hrow, hc, hp⟩ := h
  obtain ⟨completedAt, hrow'⟩ := step_row_of_completed op hrow hc
  obtain ⟨hlines, hpayments⟩ := step_rows_of_completed op hrow hc
  exact ⟨_, hrow', hc,
    (paid_congr_row hrow hrow' rfl rfl hlines hpayments (step_products op)).mpr hp⟩

/-- Under a call of the payments service a settled transaction stays settled if what is paid
still covers what is owed. -/
lemma settled_step_payments_iff {row : Transaction} (op : Payments.Op)
    (hrow : db.transactions.find? id = some row) (h : Settled id db) :
    Settled id (Payments.step db op) ↔
      owed db id row + paidOf db id ≤ paidOf (Payments.step db op) id := by
  obtain ⟨row', hrow', hc, hp⟩ := h
  obtain rfl : row = row' := Option.some.inj (hrow.symm.trans hrow')
  obtain ⟨row', hrow', hprod, ho⟩ := paid_iff.mp hp
  obtain rfl : row = row' := Option.some.inj (hrow.symm.trans hrow')
  have hlines : linesOf (Payments.step db op) id = linesOf db id := linesOf_step_payments op
  have howed : owed (Payments.step db op) id row =
      owed db id row + paidOf db id - paidOf (Payments.step db op) id := by
    unfold owed subtotalOf
    rw [hlines]
    ring
  unfold Settled
  rw [transactions_step_payments, hrow, paid_iff, transactions_step_payments, hrow,
    hasProducts_congr hlines (products_step_payments op)]
  simp [hc, hprod, howed]

lemma share_nonneg (dto : Payments.CreatePaymentDto) : 0 ≤ share id dto.row := by
  unfold share
  split
  · exact le_of_lt dto.amount.2
  · exact le_refl 0

lemma covered_update_iff {row : Transaction} {pid : Id} {p : Payment}
    {dto : Payments.UpdatePaymentDto} (hrow : db.transactions.find? id = some row)
    (hp : db.payments.find? pid = some p) :
    Covered id db (.payments (.update pid dto)) ↔
      ∀ p', Payments.Open p → dto.apply p = some p' →
        owed db id row + share id p ≤ share id p' := by
  refine ⟨fun h p' => h row p p' hrow hp, fun h row' q p' hrow' hq => ?_⟩
  obtain rfl : row = row' := Option.some.inj (hrow.symm.trans hrow')
  obtain rfl : p = q := Option.some.inj (hp.symm.trans hq)
  exact h p'

lemma covered_remove_iff {row : Transaction} {pid : Id} {p : Payment}
    (hrow : db.transactions.find? id = some row) (hp : db.payments.find? pid = some p) :
    Covered id db (.payments (.remove pid)) ↔
      (p.status ≠ .completed → owed db id row + share id p ≤ 0) := by
  refine ⟨fun h => h row p hrow hp, fun h row' q hrow' hq => ?_⟩
  obtain rfl : row = row' := Option.some.inj (hrow.symm.trans hrow')
  obtain rfl : p = q := Option.some.inj (hp.symm.trans hq)
  exact h

section Covers

variable {row : Transaction} {pid : Id}

lemma le_paidOf_of_eq {db' : Db} (ho : owed db id row ≤ 0) (h : db'.payments = db.payments) :
    owed db id row + paidOf db id ≤ paidOf db' id := by
  have : paidOf db' id = paidOf db id := paidOf_congr h
  linarith

lemma le_paidOf_create (ho : owed db id row ≤ 0) (newId : Id) (dto : Payments.CreatePaymentDto) :
    owed db id row + paidOf db id ≤ paidOf (Payments.step db (.create newId dto)) id := by
  rw [Payments.step_create]
  by_cases h : (db.transactions.find? dto.transactionId).isSome ∧ db.payments.find? newId = none
  · have hs : 0 ≤ share id dto.row := share_nonneg dto
    rw [if_pos h, paidOf_put_new h.2]
    linarith
  · rw [if_neg h]
    exact le_paidOf_of_eq ho rfl

/-- A refunded payment counts as before. -/
lemma le_paidOf_refund (ho : owed db id row ≤ 0) (now : Instant) :
    owed db id row + paidOf db id ≤ paidOf (Payments.step db (.refund pid now)) id := by
  rw [Payments.step_refund]
  rcases hp : db.payments.find? pid with _ | p
  · exact le_paidOf_of_eq ho rfl
  dsimp only
  split
  · set q : Payment := { p with status := .refunded, refundedAt := some now } with hq
    have hput : paidOf { db with payments := db.payments.put pid q } id + share id p =
        paidOf db id + share id q := paidOf_put hp
    have hshare : share id q = share id p := rfl
    linarith
  · exact le_paidOf_of_eq ho rfl

lemma le_paidOf_update_iff (hrow : db.transactions.find? id = some row)
    (ho : owed db id row ≤ 0) (dto : Payments.UpdatePaymentDto) :
    owed db id row + paidOf db id ≤ paidOf (Payments.step db (.update pid dto)) id ↔
      Covered id db (.payments (.update pid dto)) := by
  have same : owed db id row + paidOf db id ≤ paidOf db id := le_paidOf_of_eq ho rfl
  rw [Payments.step_update]
  rcases hp : db.payments.find? pid with _ | p
  · exact iff_of_true same (by simp [Covered, hp])
  rw [covered_update_iff hrow hp]
  dsimp only
  by_cases hopen : Payments.Open p
  swap
  · rw [if_neg hopen]
    exact iff_of_true same fun _ h => absurd h hopen
  rw [if_pos hopen]
  rcases ha : dto.apply p with _ | p'
  · exact iff_of_true same fun _ _ h => by cases h
  have hput : paidOf { db with payments := db.payments.put pid p' } id + share id p =
      paidOf db id + share id p' := paidOf_put hp
  refine ⟨?_, fun hc => ?_⟩
  · rintro hle q - hq
    obtain rfl : p' = q := Option.some.inj hq
    linarith
  · have := hc p' hopen rfl
    linarith

lemma le_paidOf_remove_iff (hrow : db.transactions.find? id = some row)
    (ho : owed db id row ≤ 0) :
    owed db id row + paidOf db id ≤ paidOf (Payments.step db (.remove pid)) id ↔
      Covered id db (.payments (.remove pid)) := by
  have same : owed db id row + paidOf db id ≤ paidOf db id := le_paidOf_of_eq ho rfl
  rw [Payments.step_remove]
  rcases hp : db.payments.find? pid with _ | p
  · exact iff_of_true same (by simp [Covered, hp])
  rw [covered_remove_iff hrow hp]
  dsimp only
  by_cases hc : p.status = .completed
  · rw [if_pos hc]
    exact iff_of_true same fun hn => absurd hc hn
  rw [if_neg hc]
  have herase : paidOf { db with payments := db.payments.erase pid } id + share id p =
      paidOf db id := paidOf_erase hp
  refine ⟨fun hle _ => ?_, fun hcov => ?_⟩
  · linarith
  · have := hcov hc
    linarith

end Covers

/-- **One step.** A settled transaction stays settled exactly under the calls that leave it
covered. -/
theorem settled_step_iff (op : Op) (h : Settled id db) :
    Settled id (step db op) ↔ Covered id db op := by
  rcases op with op | op
  · exact iff_of_true (settled_step_transactions op h) trivial
  obtain ⟨row, hrow, ho⟩ : ∃ row, db.transactions.find? id = some row ∧ owed db id row ≤ 0 := by
    obtain ⟨-, -, -, hpaid⟩ := h
    obtain ⟨row, hrow, -, ho⟩ := paid_iff.mp hpaid
    exact ⟨row, hrow, ho⟩
  rw [step, settled_step_payments_iff op hrow h]
  cases op with
  | create newId dto => exact iff_of_true (le_paidOf_create ho newId dto) trivial
  | update pid dto => exact le_paidOf_update_iff hrow ho dto
  | refund pid now => exact iff_of_true (le_paidOf_refund ho now) trivial
  | remove pid => exact le_paidOf_remove_iff hrow ho

/-- **Paid stays paid.** A run keeps a settled transaction settled throughout exactly when
each of its calls leaves it covered. -/
theorem settled_always_iff (ops : List Op) (h : Settled id db) :
    Always step (Settled id) db ops ↔ Along step (Covered id) db ops :=
  always_iff_along (fun _ op hs => settled_step_iff op hs) h

/-- The sale, paid in cash and completed; its payment is still PENDING. -/
def soldShop : Db := run step shop
  [.transactions (.create "sale" latteSale),
   .payments (.create "cash" { transactionId := "sale", amount := ⟨45, by decide +kernel⟩,
                               method := .cash }),
   .transactions (.complete "sale" 0)]

theorem settled_always_iff_soldShop : Settled "sale" soldShop ∧
    (Always step (Settled "sale") soldShop [.payments (.remove "cash")] ↔
      Along step (Covered "sale") soldShop [.payments (.remove "cash")]) :=
  have h : Settled "sale" soldShop := by decide +kernel
  ⟨h, settled_always_iff [.payments (.remove "cash")] h⟩

/-- The payment of a completed sale is removed. -/
theorem paid_sale_unpaid : Settled "sale" soldShop ∧
    ¬ Always step (Settled "sale") soldShop [.payments (.remove "cash")] := by
  have hunsettled : ¬ Settled "sale" (step soldShop (.payments (.remove "cash"))) := by
    decide +kernel
  exact ⟨by decide +kernel, fun h => hunsettled h.last⟩

end CoffeeOs.PaidGate
