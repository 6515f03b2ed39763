import CoffeeOs.PointOfSale
import Mathlib.Data.List.Induction

/-!
The life of a payment.

A payment is born PENDING, moves by updates until it is COMPLETED, and ends REFUNDED. Once
COMPLETED it is meant to stay in the books for good; the theorem says which calls delete it
all the same.
-/

namespace CoffeeOs.PaymentLife

open CoffeeOs.KeyedTable CoffeeOs.Payload CoffeeOs.Runs CoffeeOs.Schema CoffeeOs.PointOfSale

variable {db : Db} {pid : Id} {p p' : Payment}

def Stored (pid : Id) (db : Db) : Prop := (db.payments.find? pid).isSome

instance (pid : Id) (db : Db) : Decidable (Stored pid db) := inferInstanceAs (Decidable (_ = true))

def IsCompleted (pid : Id) (db : Db) : Prop :=
  ∃ p, db.payments.find? pid = some p ∧ p.status = .completed

/-- From each state of the run in which the payment is COMPLETED, it stays stored. -/
def Kept (pid : Id) (db : Db) (ops : List Op) : Prop :=
  ∀ pre post, ops = pre ++ post → IsCompleted pid (run step db pre) →
    Always step (Stored pid) (run step db pre) post

/-- The money of the payment was collected: it is COMPLETED, or was when `refund` took it. -/
def Collected (p : Payment) : Prop :=
  p.status = .completed ∨ p.status = .refunded ∧ p.refundedAt.isSome

/-- The call deletes no collected payment: it is neither the removal of an open transaction
with such a payment, nor the removal of a payment that was refunded. -/
def KeepsCollected (db : Db) : Op → Prop
  | .transactions (.remove id) =>
    ∀ row, db.transactions.find? id = some row → row.status ≠ .completed →
      ∀ pid p, db.payments.find? pid = some p → p.transactionId = id → ¬ Collected p
  | .payments (.remove pid) =>
    ∀ p, db.payments.find? pid = some p → ¬ (p.status = .refunded ∧ p.refundedAt.isSome)
  | _ => True

lemma keepsCollected_iff {op : Op} : KeepsCollected db op ↔
    ∀ pid p, db.payments.find? pid = some p → Collected p → ¬ Deletes db pid p op := by
  refine ⟨fun h pid p hp hcoll hd => ?_, fun h => ?_⟩
  · cases hd with
    | remove hc => exact h p hp (hcoll.resolve_left hc)
    | removeTransaction hrow hc => exact h _ hrow hc pid p hp rfl hcoll
  · rcases op with op | op
    · cases op with
      | remove id =>
        rintro row hrow hc pid p hp rfl hcoll
        exact h pid p hp hcoll (.removeTransaction hrow hc)
      | _ => trivial
    · cases op with
      | remove pid =>
        intro p hp hr
        refine h pid p hp (Or.inr hr) (.remove ?_)
        rw [hr.1]
        decide
      | _ => trivial

/-- A collected payment that is not deleted stays collected. -/
lemma collected_step {op : Op} (hp : db.payments.find? pid = some p) (hcoll : Collected p)
    (hd : ¬ Deletes db pid p op) :
    ∃ p', (step db op).payments.find? pid = some p' ∧ Collected p' := by
  rcases step_payment op hp with ⟨p', hp', hmove⟩ | ⟨hdel, -⟩
  swap
  · exact absurd hdel hd
  refine ⟨p', hp', ?_⟩
  cases hmove with
  | kept => exact hcoll
  | updated ho =>
    rcases hcoll with hc | ⟨hr, -⟩
    · exact absurd hc ho.1
    · exact absurd hr ho.2
  | refunded => exact Or.inr ⟨rfl, rfl⟩

lemma kept_of_keepsCollected {ops : List Op} (h : Along step KeepsCollected db ops) :
    Kept pid db ops := by
  rintro pre post rfl ⟨p, hp, hc⟩
  have hpost : Along step KeepsCollected (run step db pre) post := (along_append.mp h).2
  have hall : Always step (fun db => ∃ p, db.payments.find? pid = some p ∧ Collected p)
      (run step db pre) post := by
    refine always_of_along (fun s op => ?_) ⟨p, hp, Or.inl hc⟩ hpost
    rintro ⟨q, hq, hcoll⟩ hkeeps
    exact collected_step hq hcoll (keepsCollected_iff.mp hkeeps pid q hq hcoll)
  refine hall.imp fun s => ?_
  rintro ⟨q, hq, -⟩
  unfold Stored
  rw [hq]
  rfl

/-- No payment bears the time of a refund. -/
def NoRefunds (db : Db) : Prop := ∀ pid p, db.payments.find? pid = some p → p.refundedAt = none

/-- **Where refunds come from.** A payment that bears the time of a refund is REFUNDED, and
was COMPLETED before. -/
theorem completed_before (h0 : NoRefunds db) (pre : List Op)
    (hp : (run step db pre).payments.find? pid = some p) (hr : p.refundedAt.isSome) :
    p.status = .refunded ∧
      ∃ pre' mid, pre = pre' ++ mid ∧ IsCompleted pid (run step db pre') := by
  induction pre using List.reverseRecOn generalizing p with
  | nil =>
    rw [h0 pid p hp] at hr
    cases hr
  | append_singleton pre op ih =>
    rw [run_append, run_cons, run_nil] at hp
    rcases hq : (run step db pre).payments.find? pid with _ | q
    · obtain ⟨dto, -, rfl⟩ := step_payment_born hq hp
      cases hr
    rcases step_payment op hq with ⟨p', hp', hmove⟩ | ⟨-, hgone⟩
    swap
    · rw [hgone] at hp; cases hp
    obtain rfl : p' = p := Option.some.inj (hp'.symm.trans hp)
    -- a date that was there before this step has its completion before it too
    have earlier (hq' : q.refundedAt.isSome) : q.status = .refunded ∧
        ∃ pre' mid, pre ++ [op] = pre' ++ mid ∧ IsCompleted pid (run step db pre') := by
      obtain ⟨hs, pre', mid, rfl, hc⟩ := ih hq hq'
      exact ⟨hs, pre', mid ++ [op], List.append_assoc _ _ _, hc⟩
    cases hmove with
    | kept => exact earlier hr
    | updated ho ha =>
      rw [apply_refundedAt ha] at hr
      exact absurd (earlier hr).1 ho.2
    | refunded hc => exact ⟨rfl, pre, [_], rfl, q, hq, hc⟩

lemma keepsCollected_of_kept {ops : List Op} (h0 : NoRefunds db)
    (h : ∀ pid, Kept pid db ops) : Along step KeepsCollected db ops := by
  rw [along_iff]
  rintro pre op post rfl
  refine keepsCollected_iff.mpr fun pid p hp hcoll hd => ?_
  obtain ⟨pre', mid, rfl, hc⟩ :
      ∃ pre' mid, pre = pre' ++ mid ∧ IsCompleted pid (run step db pre') := by
    rcases hcoll with hc | ⟨-, hr⟩
    · exact ⟨pre, [], (List.append_nil pre).symm, p, hp, hc⟩
    · exact (completed_before h0 pre hp hr).2
  have hstored : Stored pid (step (run step db (pre' ++ mid)) op) := by
    have hall := h pid pre' (mid ++ op :: post) (List.append_assoc _ _ _) hc
    rw [always_iff] at hall
    have hlast := hall (mid ++ [op]) post (by simp)
    rwa [run_append, run_cons, run_nil, ← run_append] at hlast
  unfold Stored at hstored
  rw [hd.gone hp] at hstored
  cases hstored

/-- **No collected payment is lost.** A run keeps every payment that was COMPLETED if none of
its calls deletes a collected one; from tables without refunds, only then. -/
theorem completed_payments_kept (db : Db) (ops : List Op) :
    (Along step KeepsCollected db ops → ∀ pid, Kept pid db ops) ∧
    (NoRefunds db → (∀ pid, Kept pid db ops) → Along step KeepsCollected db ops) :=
  ⟨fun h _ => kept_of_keepsCollected h, keepsCollected_of_kept⟩

/-- A sale with one payment, which an update has COMPLETED. -/
def collectedRun : List Op :=
  [.transactions (.create "sale" { taxAmount := .val ⟨9, by decide +kernel⟩, lineItems := [] }),
   .payments (.create "cash" { transactionId := "sale", amount := ⟨9, by decide +kernel⟩,
                               method := .cash }),
   .payments (.update "cash" { status := .val .completed })]

/-- The payment goes with its sale, and it goes once it is refunded. -/
theorem completed_payments_lost :
    ¬ Kept "cash" ∅ (collectedRun ++ [.transactions (.remove "sale")]) ∧
    ¬ Kept "cash" ∅ (collectedRun ++
      [.payments (.refund "cash" 0), .payments (.remove "cash")]) := by
  have hcompleted : IsCompleted "cash" (run step ∅ collectedRun) :=
    ⟨{ transactionId := "sale", amount := 9, method := .cash, status := .completed },
      by decide +kernel, rfl⟩
  refine ⟨fun h => ?_, fun h => ?_⟩
  · have hlast := (h collectedRun _ rfl hcompleted).last
    revert hlast
    decide +kernel
  · have hlast := (h collectedRun _ rfl hcompleted).last
    revert hlast
    decide +kernel

end CoffeeOs.PaymentLife
