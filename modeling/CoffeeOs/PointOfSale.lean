import CoffeeOs.Payments
import CoffeeOs.TransactionFrame

/-!
The two services of the point of sale, on the same tables.

A call of the payments service changes the payments and nothing else. What both services can
do to one payment is said once here, as the moves of its row and the ways it can go.
-/

namespace CoffeeOs.PointOfSale

open CoffeeOs.KeyedTable CoffeeOs.Payload CoffeeOs.Schema CoffeeOs.Payments
open CoffeeOs.Transactions (linesOf paymentsOf)
open CoffeeOs.TransactionSpec CoffeeOs.TransactionFrame

inductive Op
  | transactions (op : Transactions.Op)
  | payments (op : Payments.Op)

/-- The tables after a call that runs alone. -/
def step (db : Db) : Op → Db
  | .transactions op => Transactions.step db op
  | .payments op => Payments.step db op

variable {db : Db} {id pid : Id} {p p' : Payment}

/-! ### Calls of the payments service -/

lemma step_payments_eq (op : Payments.Op) :
    Payments.step db op = { db with payments := (Payments.step db op).payments } := by
  have h : Payments.Outcome db op (Payments.step db op) := Payments.step_outcome op
  generalize Payments.step db op = db' at h ⊢
  cases h <;> rfl

lemma transactions_step_payments (op : Payments.Op) :
    (Payments.step db op).transactions = db.transactions := by rw [step_payments_eq]

lemma linesOf_step_payments (op : Payments.Op) :
    linesOf (Payments.step db op) id = linesOf db id := by rw [step_payments_eq]; rfl

lemma products_step_payments (op : Payments.Op) :
    (Payments.step db op).products = db.products := by rw [step_payments_eq]

lemma apply_refundedAt {dto : UpdatePaymentDto} (h : dto.apply p = some p') :
    p'.refundedAt = p.refundedAt := by
  unfold UpdatePaymentDto.apply at h
  simp only [Option.bind_eq_bind, Option.bind_eq_some_iff] at h
  obtain ⟨transactionId, -, amount, -, method, -, status, -, h⟩ := h
  rw [← Option.some.inj h]

/-! ### What a call does to a payment -/

/-- The moves of the payment `pid` under a call. -/
inductive PaymentMove (pid : Id) : Op → Payment → Payment → Prop
  | kept (op : Op) (p : Payment) : PaymentMove pid op p p
  | updated {dto : UpdatePaymentDto} {p p' : Payment} (isOpen : Open p)
      (applied : dto.apply p = some p') : PaymentMove pid (.payments (.update pid dto)) p p'
  | refunded {p : Payment} {now : Instant} (completed : p.status = .completed) :
      PaymentMove pid (.payments (.refund pid now)) p
        { p with status := .refunded, refundedAt := some now }

/-- The calls that delete the payment `pid`, stored as `p`. -/
inductive Deletes (db : Db) (pid : Id) (p : Payment) : Op → Prop
  | remove (unfinished : p.status ≠ .completed) : Deletes db pid p (.payments (.remove pid))
  | removeTransaction {row : Transaction}
      (stored : db.transactions.find? p.transactionId = some row)
      (unfinished : row.status ≠ .completed) :
      Deletes db pid p (.transactions (.remove p.transactionId))

/-- Of the calls of the transactions service, only `remove` touches payments. -/
lemma payments_step {op : Transactions.Op} (h : ∀ k, op ≠ .remove k) :
    (Transactions.step db op).payments = db.payments := by
  have houtcome : Outcome db op (Transactions.step db op) := step_outcome op
  generalize Transactions.step db op = db' at houtcome ⊢
  cases houtcome with
  | removed => exact absurd rfl (h _)
  | _ => rfl

/-- A stored payment makes one of its moves, or is deleted. -/
theorem step_payment (op : Op) (h : db.payments.find? pid = some p) :
    (∃ p', (step db op).payments.find? pid = some p' ∧ PaymentMove pid op p p') ∨
    (Deletes db pid p op ∧ (step db op).payments.find? pid = none) := by
  rcases op with op | op <;> rw [step]
  · -- only the removal of its transaction reaches the payment
    have houtcome : TransactionSpec.Outcome db op (Transactions.step db op) :=
      TransactionSpec.step_outcome op
    generalize Transactions.step db op = db' at houtcome ⊢
    cases houtcome with
    | @removed k row stored unfinished =>
      rw [Table.find?_keep, h]
      by_cases hk : p.transactionId = k
      · subst hk
        exact Or.inr ⟨.removeTransaction stored unfinished, by simp [Option.filter]⟩
      · exact Or.inl ⟨p, by simp [Option.filter, hk], .kept _ p⟩
    | _ => exact Or.inl ⟨p, h, .kept _ p⟩
  · -- every other call is on one payment, this one or another
    have houtcome : Payments.Outcome db op (Payments.step db op) := Payments.step_outcome op
    generalize Payments.step db op = db' at houtcome ⊢
    cases houtcome with
    | kept => exact Or.inl ⟨p, h, .kept _ p⟩
    | @created newId dto _ unused =>
      have hne : pid ≠ newId := by
        rintro rfl
        rw [h] at unused
        cases unused
      exact Or.inl ⟨p, (Table.find?_put_ne hne).trans h, .kept _ p⟩
    | @updated k dto q q' stored isOpen applied =>
      by_cases hk : pid = k
      · subst hk
        obtain rfl : q = p := Option.some.inj (stored.symm.trans h)
        exact Or.inl ⟨q', Table.find?_put_self, .updated isOpen applied⟩
      · exact Or.inl ⟨p, (Table.find?_put_ne hk).trans h, .kept _ p⟩
    | @refunded k now q stored completed =>
      by_cases hk : pid = k
      · subst hk
        obtain rfl : q = p := Option.some.inj (stored.symm.trans h)
        exact Or.inl ⟨_, Table.find?_put_self, .refunded completed⟩
      · exact Or.inl ⟨p, (Table.find?_put_ne hk).trans h, .kept _ p⟩
    | @removed k q stored unfinished =>
      by_cases hk : pid = k
      · subst hk
        obtain rfl : q = p := Option.some.inj (stored.symm.trans h)
        exact Or.inr ⟨.remove unfinished, Table.find?_erase_self⟩
      · exact Or.inl ⟨p, (Table.find?_erase_ne hk).trans h, .kept _ p⟩

lemma Deletes.gone {op : Op} (hd : Deletes db pid p op) (h : db.payments.find? pid = some p) :
    (step db op).payments.find? pid = none := by
  cases hd with
  | remove hc =>
    rw [step, Payments.step_remove, h]
    dsimp only
    rw [if_neg hc]
    exact Table.find?_erase_self
  | removeTransaction hrow hc =>
    rw [step, TransactionSpec.step_remove, hrow]
    simp [hc, Table.find?_keep, h, Option.filter]

/-- A payment that was not there is the row of a payload. -/
theorem step_payment_born {op : Op} (h : db.payments.find? pid = none)
    (h' : (step db op).payments.find? pid = some p') :
    ∃ dto : CreatePaymentDto, op = .payments (.create pid dto) ∧ p' = dto.row := by
  have absent {t : Table Id Payment} (ht : t.find? pid = db.payments.find? pid)
      (hs : t.find? pid = some p') : False := by
    rw [ht, h] at hs
    cases hs
  have other {k : Id} {q : Payment} (stored : db.payments.find? k = some q) : pid ≠ k := by
    rintro rfl
    rw [h] at stored
    cases stored
  rcases op with op | op <;> rw [step] at h'
  · have houtcome : TransactionSpec.Outcome db op (Transactions.step db op) :=
      TransactionSpec.step_outcome op
    generalize Transactions.step db op = db' at houtcome h'
    cases houtcome with
    | removed =>
      rw [Table.find?_keep, h] at h'
      cases h'
    | _ => exact (absent rfl h').elim
  · have houtcome : Payments.Outcome db op (Payments.step db op) := Payments.step_outcome op
    generalize Payments.step db op = db' at houtcome h'
    cases houtcome with
    | kept => exact (absent rfl h').elim
    | @created newId dto =>
      by_cases hk : pid = newId
      · subst hk
        exact ⟨dto, rfl, Option.some.inj (h'.symm.trans Table.find?_put_self)⟩
      · exact (absent (Table.find?_put_ne hk) h').elim
    | updated stored => exact (absent (Table.find?_put_ne (other stored)) h').elim
    | refunded stored => exact (absent (Table.find?_put_ne (other stored)) h').elim
    | removed stored => exact (absent (Table.find?_erase_ne (other stored)) h').elim

end CoffeeOs.PointOfSale
