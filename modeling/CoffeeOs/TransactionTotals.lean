import CoffeeOs.PointOfSale
import CoffeeOs.Runs
import Mathlib.Algebra.Order.BigOperators.Group.List

/-!
The totals of a transaction, and the money they stand for.

The lines of a transaction are added up as they are. Of its payments, those that have not been
collected count as paid along with those that have, so that the totals are about collected money
only where there is no other payment.
-/

namespace CoffeeOs.TransactionTotals

open CoffeeOs.KeyedTable CoffeeOs.Payload CoffeeOs.Requests CoffeeOs.Requests.Request
open CoffeeOs.Runs CoffeeOs.Schema CoffeeOs.PointOfSale
open CoffeeOs.Transactions (Totals LineDetail linesOf paymentsOf viewOf calculateTotal complete)
open CoffeeOs.TransactionSpec

variable {db : Db} {id : Id} {row : Transaction}

def Collected (e : Id × Payment) : Prop := e.2.status = .completed

instance : DecidablePred Collected := fun e => inferInstanceAs (Decidable (e.2.status = _))

/-- The money collected for a transaction. -/
def collectedOf (db : Db) (id : Id) : ℚ :=
  (((paymentsOf db id).filter fun e => Collected e).map fun e => e.2.amount).sum

/-- The totals are those of the lines and of the money collected, and `complete` goes through only
when the money covers the total. -/
structure Exact (db : Db) (id : Id) (row : Transaction) (r : Totals) : Prop where
  subtotal : r.subtotal = ((linesOf db id).map fun l => l.quantity * l.unitPrice).sum
  lines : (r.lineItems.map LineDetail.total).sum = r.subtotal
  total : r.total = r.subtotal + row.taxAmount.getD 0 - row.discountAmount.getD 0
  totalPaid : r.totalPaid = collectedOf db id
  balance : r.balance = r.total - r.totalPaid
  covered : ∀ now, (complete id now).Accepts db → r.total ≤ collectedOf db id

/-! ### Sums over some of the elements -/

/-- Of positive numbers, some add up to as much as all only if they are all. -/
lemma sum_filter_eq_iff {α : Type*} {p : α → Prop} [DecidablePred p] {f : α → ℚ} {l : List α}
    (hpos : ∀ a ∈ l, 0 < f a) :
    (l.map f).sum = ((l.filter p).map f).sum ↔ ∀ a ∈ l, p a := by
  have hsplit := List.sum_map_filter_add_sum_map_filter_not p f l
  refine ⟨fun h => ?_, fun h => ?_⟩
  · by_contra hsome
    have hne : ((l.filter fun a => ¬ p a).map f) ≠ [] := by
      intro hnil
      refine hsome fun a ha => ?_
      by_contra hp
      have hmem : a ∈ l.filter fun a => ¬ p a := List.mem_filter.mpr ⟨ha, by simpa using hp⟩
      rw [List.map_eq_nil_iff.mp hnil] at hmem
      cases hmem
    have hrest : 0 < ((l.filter fun a => ¬ p a).map f).sum := by
      refine List.sum_pos _ (fun x hx => ?_) hne
      obtain ⟨a, ha, rfl⟩ := List.mem_map.mp hx
      exact hpos a (List.mem_of_mem_filter ha)
    rw [h] at hsplit
    exact hrest.ne' (add_eq_left.mp hsplit)
  · rw [List.filter_eq_self.mpr fun a ha => decide_eq_true (h a ha)]

/-! ### The totals of one state -/

lemma sum_detail (db : Db) (id : Id) (row : Transaction) :
    (((viewOf db id row).lineItems.map detailOf).map LineDetail.total).sum = subtotalOf db id := by
  rw [List.map_map]
  exact congrArg List.sum lineTotals_viewOf

lemma paidOf_eq_collectedOf_iff (hpos : ∀ e ∈ paymentsOf db id, 0 < e.2.amount) :
    paidOf db id = collectedOf db id ↔ ∀ e ∈ paymentsOf db id, Collected e :=
  sum_filter_eq_iff hpos

/-- Where `calculateTotal` answers, its figures are those of the rows. -/
lemma calculateTotal_eq (hrow : db.transactions.find? id = some row) {r : Totals}
    (h : ((calculateTotal id).exec db).1 = .ok r) :
    HasProducts db id ∧ r.subtotal = subtotalOf db id ∧
      (r.lineItems.map LineDetail.total).sum = subtotalOf db id ∧
      r.tax = row.taxAmount.getD 0 ∧ r.discount = row.discountAmount.getD 0 ∧
      r.total = subtotalOf db id + row.taxAmount.getD 0 - row.discountAmount.getD 0 ∧
      r.totalPaid = paidOf db id ∧ r.balance = owed db id row := by
  rw [exec_calculateTotal, hrow] at h
  dsimp only at h
  by_cases hp : HasProducts db id
  · rw [totals_eq hp] at h
    obtain rfl := Except.ok.inj h
    exact ⟨hp, rfl, sum_detail db id row, rfl, rfl, rfl, rfl, rfl⟩
  · rw [totals_error hp] at h
    cases h

lemma calculateTotal_ok (hrow : db.transactions.find? id = some row) (hp : HasProducts db id) :
    ∃ r, ((calculateTotal id).exec db).1 = .ok r := by
  rw [exec_calculateTotal, hrow]
  exact ⟨_, totals_eq hp row⟩

/-- The totals are exact if the product of each line is stored and each payment is collected, and
only then. -/
lemma exact_iff (hrow : db.transactions.find? id = some row)
    (hpos : ∀ e ∈ paymentsOf db id, 0 < e.2.amount) :
    (∃ r, ((calculateTotal id).exec db).1 = .ok r ∧ Exact db id row r) ↔
      HasProducts db id ∧ ∀ e ∈ paymentsOf db id, Collected e := by
  refine ⟨?_, fun ⟨hp, hall⟩ => ?_⟩
  · -- the total paid is what was collected, and so every payment has been
    rintro ⟨r, hr, hexact⟩
    obtain ⟨hp, -, -, -, -, -, hpaid, -⟩ := calculateTotal_eq hrow hr
    exact ⟨hp, (paidOf_eq_collectedOf_iff hpos).mp (hpaid.symm.trans hexact.totalPaid)⟩
  · obtain ⟨r, hr⟩ := calculateTotal_ok hrow hp
    obtain ⟨-, hsubtotal, hlines, -, -, htotal, hpaid, hbalance⟩ := calculateTotal_eq hrow hr
    have hcollected : paidOf db id = collectedOf db id := (paidOf_eq_collectedOf_iff hpos).mpr hall
    have howed : owed db id row = r.total - collectedOf db id := by
      rw [htotal, ← hcollected]
      rfl
    refine ⟨r, hr, hsubtotal, hlines.trans hsubtotal.symm, ?_, hpaid.trans hcollected, ?_, ?_⟩
    · rw [htotal, hsubtotal]
    · rw [hbalance, howed, hpaid, hcollected]
    · -- a completion is accepted only when nothing is owed any more
      intro now haccepts
      obtain ⟨row', hrow', -, hle⟩ := paid_iff.mp (accepts_complete_iff.mp haccepts)
      obtain rfl := Option.some.inj (hrow.symm.trans hrow')
      rw [howed] at hle
      exact sub_nonpos.mp hle

/-! ### Runs of the two services -/

/-- The amount of each payment is positive, as the payloads have it. -/
def AmountsPositive (db : Db) : Prop := ∀ pid p, db.payments.find? pid = some p → 0 < p.amount

lemma amount_apply {p p' : Payment} {dto : Payments.UpdatePaymentDto} (h : dto.apply p = some p')
    (hp : 0 < p.amount) : 0 < p'.amount := by
  unfold Payments.UpdatePaymentDto.apply at h
  simp only [Option.bind_eq_bind, Option.bind_eq_some_iff] at h
  obtain ⟨transactionId, -, amount, hamount, method, -, status, -, h⟩ := h
  rw [← Option.some.inj h]
  refine (Property.forall_intoRequired_iff (P := fun a => 0 < a) hp hamount).mpr fun a ha => ?_
  obtain ⟨bound, -, rfl⟩ := Property.map_eq_val_iff.mp ha
  exact bound.2

lemma amountsPositive_step (op : Op) (h : AmountsPositive db) : AmountsPositive (step db op) := by
  intro pid p' hp'
  rcases hp : db.payments.find? pid with _ | p
  · obtain ⟨dto, -, rfl⟩ := step_payment_born hp hp'
    exact dto.amount.2
  rcases step_payment op hp with ⟨q, hq, hmove⟩ | ⟨-, hgone⟩
  · obtain rfl := Option.some.inj (hq.symm.trans hp')
    cases hmove with
    | kept => exact h pid p hp
    | updated _ applied => exact amount_apply applied (h pid p hp)
    | refunded => exact h pid p hp
  · rw [hgone] at hp'
    cases hp'

/-- **Totals.** In every state of a run from tables with positive payments, the totals of a stored
transaction are those of its lines and of the money collected exactly if the product of each
line is stored and each of its payments is COMPLETED. -/
theorem totals_exact_iff (db : Db) (ops : List Op) (h0 : AmountsPositive db) :
    Always step (fun db => ∀ id row, db.transactions.find? id = some row →
      ((∃ r, ((calculateTotal id).exec db).1 = .ok r ∧ Exact db id row r) ↔
        HasProducts db id ∧ ∀ e ∈ paymentsOf db id, Collected e)) db ops := by
  refine (always_of_step (fun _ op h => amountsPositive_step op h) h0).imp ?_
  intro db hpos id row hrow
  refine exact_iff hrow fun e he => ?_
  exact hpos e.1 e.2 (Table.mem_rows_iff.mp (List.mem_of_mem_filter he))

/-- A shop that sells lattes. -/
def bar : Db where
  products := (∅ : Table Id Product).put "latte"
    { categoryId := "coffee", sku := "LATTE", name := "Latte", price := 45 }

/-- A latte is sold, and a payment begun but not collected. -/
def begun : List Op :=
  [.transactions (.create "sale" { lineItems := [{ productId := "latte", quantity := .least _,
                                                   unitPrice := .ofNat 45 }] }),
   .payments (.create "payment" { transactionId := "sale", amount := .succ 44, method := .card })]

theorem begun_exact_iff : Always step (fun db => ∀ id row, db.transactions.find? id = some row →
    ((∃ r, ((calculateTotal id).exec db).1 = .ok r ∧ Exact db id row r) ↔
      HasProducts db id ∧ ∀ e ∈ paymentsOf db id, Collected e)) bar begun :=
  totals_exact_iff bar begun fun _ _ h => by cases h

/-- The payment counts, and the sale can be completed for 45 of which nothing has been
collected. -/
theorem begun_not_exact : ∃ row, (run step bar begun).transactions.find? "sale" = some row ∧
    ¬ (∃ r, ((calculateTotal "sale").exec (run step bar begun)).1 = .ok r ∧
      Exact (run step bar begun) "sale" row r) ∧
    (complete "sale" 0).Accepts (run step bar begun) := by
  refine ⟨{ status := .pending }, by decide +kernel, ?_, by decide +kernel⟩
  rintro ⟨r, hr, hexact⟩
  have hrow : (run step bar begun).transactions.find? "sale" = some { status := .pending } := by
    decide +kernel
  obtain ⟨-, -, -, -, -, -, hpaid, -⟩ := calculateTotal_eq hrow hr
  have hdiffer : paidOf (run step bar begun) "sale" ≠ collectedOf (run step bar begun) "sale" := by
    decide +kernel
  exact hdiffer (hpaid.symm.trans hexact.totalPaid)

end CoffeeOs.TransactionTotals
