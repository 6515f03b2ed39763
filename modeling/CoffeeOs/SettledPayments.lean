import CoffeeOs.PaymentLife

/-!
Settled payments, and where refunds come from.

Once a payment is COMPLETED or REFUNDED its figures are final, whatever the calls of both
services of the point of sale carry. A refund is dated by the call that makes it; an update
can set the status REFUNDED as well, and then dates nothing.
-/

namespace CoffeeOs.SettledPayments

open CoffeeOs.KeyedTable CoffeeOs.Payload CoffeeOs.Runs CoffeeOs.Schema
open CoffeeOs.Payments (Open UpdatePaymentDto CreatePaymentDto)
open CoffeeOs.PointOfSale CoffeeOs.PaymentLife

variable {db : Db} {pid : Id} {p p' : Payment}

/-! ### Final figures -/

/-- The payment is closed to updates. -/
def Settled (p : Payment) : Prop := p.status = .completed ∨ p.status = .refunded

instance (p : Payment) : Decidable (Settled p) := inferInstanceAs (Decidable (_ ∨ _))

lemma not_open_of_settled (h : Settled p) : ¬ Open p := by
  rintro ⟨hc, hr⟩
  exact h.elim hc hr

structure SameFigures (p p' : Payment) : Prop where
  amount : p'.amount = p.amount
  method : p'.method = p.method
  transactionId : p'.transactionId = p.transactionId
  reference : p'.reference = p.reference
  notes : p'.notes = p.notes
  paidAt : p'.paidAt = p.paidAt

lemma SameFigures.refl (p : Payment) : SameFigures p p := ⟨rfl, rfl, rfl, rfl, rfl, rfl⟩

lemma SameFigures.trans {p'' : Payment} (h : SameFigures p p') (h' : SameFigures p' p'') :
    SameFigures p p'' where
  amount := h'.amount.trans h.amount
  method := h'.method.trans h.method
  transactionId := h'.transactionId.trans h.transactionId
  reference := h'.reference.trans h.reference
  notes := h'.notes.trans h.notes
  paidAt := h'.paidAt.trans h.paidAt

/-- The rows of the payment in the states of a run, as long as it exists. -/
def history (pid : Id) : Db → List Op → List Payment
  | db, [] => (db.payments.find? pid).toList
  | db, op :: ops =>
    match db.payments.find? pid with
    | none => []
    | some p => p :: history pid (step db op) ops

lemma history_of_gone (h : db.payments.find? pid = none) (ops : List Op) :
    history pid db ops = [] := by
  cases ops with
  | nil => rw [history, h, Option.toList_none]
  | cons op ops => rw [history, h]

/-- A settled payment keeps its row, or is refunded. -/
lemma settled_move {op : Op} (hs : Settled p) (hmove : PaymentMove pid op p p') :
    SameFigures p p' ∧ (p'.status = p.status ∨ p.status = .completed ∧ p'.status = .refunded) := by
  cases hmove with
  | kept => exact ⟨.refl p, Or.inl rfl⟩
  | updated ho => exact absurd ho (not_open_of_settled hs)
  | refunded hc => exact ⟨⟨rfl, rfl, rfl, rfl, rfl, rfl⟩, Or.inr ⟨hc, rfl⟩⟩

/-- COMPLETED for a while, and REFUNDED after that. -/
def Ordered (statuses : List PaymentStatus) : Prop :=
  ∃ n m, statuses = List.replicate n .completed ++ List.replicate m .refunded

lemma ordered_singleton (hs : Settled p) : Ordered [p.status] := by
  rcases hs with hc | hr
  · exact ⟨1, 0, by simp [hc]⟩
  · exact ⟨0, 1, by simp [hr]⟩

lemma ordered_cons_completed {statuses : List PaymentStatus} (h : Ordered statuses) :
    Ordered (.completed :: statuses) := by
  obtain ⟨n, m, rfl⟩ := h
  exact ⟨n + 1, m, by rw [List.replicate_succ, List.cons_append]⟩

/-- Nothing but REFUNDED comes after REFUNDED. -/
lemma ordered_cons_refunded {statuses : List PaymentStatus} (h : Ordered statuses)
    (hr : .completed ∉ statuses) : Ordered (.refunded :: statuses) := by
  obtain ⟨n, m, rfl⟩ := h
  have hn : n = 0 := by
    by_contra hn
    exact hr (List.mem_append_left _ (List.mem_replicate.mpr ⟨hn, rfl⟩))
  exact ⟨0, m + 1, by simp [hn, List.replicate_succ]⟩

lemma singleton_settled (hs : Settled p) : (∀ q ∈ [p], SameFigures p q) ∧
    Ordered ([p].map (·.status)) ∧
    (p.status = .refunded → .completed ∉ [p].map (·.status)) := by
  refine ⟨fun q hq => List.mem_singleton.mp hq ▸ .refl p, ordered_singleton hs, fun hr hc => ?_⟩
  cases (List.mem_singleton.mp hc).trans hr

/-- The statuses of a settled payment: COMPLETED for a while, then REFUNDED. -/
lemma history_settled (ops : List Op) (hp : db.payments.find? pid = some p) (hs : Settled p) :
    (∀ q ∈ history pid db ops, SameFigures p q) ∧
    Ordered ((history pid db ops).map (·.status)) ∧
    (p.status = .refunded → .completed ∉ (history pid db ops).map (·.status)) := by
  induction ops generalizing db p with
  | nil =>
    rw [history, hp, Option.toList_some]
    exact singleton_settled hs
  | cons op ops ih =>
    rw [history, hp]
    dsimp only
    rcases step_payment op hp with ⟨p', hp', hmove⟩ | ⟨-, hgone⟩
    swap
    · -- the payment is deleted, and its history ends here
      rw [history_of_gone hgone]
      exact singleton_settled hs
    obtain ⟨hsame, hstatus⟩ := settled_move hs hmove
    -- the next state is settled again, so that the hypothesis applies from there on
    have hs' : Settled p' := by
      rcases hstatus with h | ⟨-, h⟩
      · unfold Settled
        rwa [h]
      · exact Or.inr h
    obtain ⟨hfigures, hordered, hno⟩ := ih hp' hs'
    have hrefunded (hr : p.status = .refunded) :
        .completed ∉ (history pid (step db op) ops).map (·.status) := by
      refine hno ?_
      rcases hstatus with h | ⟨-, h⟩
      · rw [h, hr]
      · exact h
    refine ⟨fun q hq => ?_, ?_, fun hr hc => ?_⟩
    · rcases List.mem_cons.mp hq with rfl | hq
      · exact .refl q
      · exact hsame.trans (hfigures q hq)
    · rw [List.map_cons]
      rcases hs with hc | hr
      · rw [hc]
        exact ordered_cons_completed hordered
      · rw [hr]
        exact ordered_cons_refunded hordered (hrefunded hr)
    · rcases List.mem_cons.mp hc with hc | hc
      · cases hc.trans hr
      · exact hrefunded hr hc

/-- **Settled payments are final.** From a state in which a payment is COMPLETED or REFUNDED,
and as long as its row exists, its figures do not change, and its status is COMPLETED for a
while and REFUNDED after that. -/
theorem settled_payment_final (db : Db) (pre post : List Op) (pid : Id) (p : Payment)
    (hp : (run step db pre).payments.find? pid = some p) (hs : Settled p) :
    (∀ q ∈ history pid (run step db pre) post, SameFigures p q) ∧
    Ordered ((history pid (run step db pre) post).map (·.status)) := by
  obtain ⟨hfigures, hordered, -⟩ := history_settled post hp hs
  exact ⟨hfigures, hordered⟩

/-- A COMPLETED payment of 9 in cash, over an update, its refund and one more update. -/
theorem cash_payment_final :
    (∀ q ∈ history "cash" (run step ∅ collectedRun)
        [.payments (.update "cash" { amount := .val ⟨1, by decide +kernel⟩ }),
         .payments (.refund "cash" 5), .payments (.update "cash" { status := .val .pending })],
      SameFigures { transactionId := "sale", amount := 9, method := .cash, status := .completed }
        q) ∧
    Ordered ((history "cash" (run step ∅ collectedRun)
        [.payments (.update "cash" { amount := .val ⟨1, by decide +kernel⟩ }),
         .payments (.refund "cash" 5),
         .payments (.update "cash" { status := .val .pending })]).map (·.status)) :=
  settled_payment_final ∅ collectedRun _ "cash" _ (by decide +kernel) (Or.inl rfl)

/-! ### Refunds and their dates -/

/-- A payment is REFUNDED exactly if it bears the time of a refund. -/
def RefundsDated (db : Db) : Prop :=
  ∀ pid p, db.payments.find? pid = some p → (p.status = .refunded ↔ p.refundedAt.isSome)

/-- No payment has been refunded. -/
def NoneRefunded (db : Db) : Prop :=
  ∀ pid p, db.payments.find? pid = some p → p.status ≠ .refunded ∧ p.refundedAt = none

lemma NoneRefunded.dated (h : NoneRefunded db) : RefundsDated db := by
  intro pid p hp
  obtain ⟨hs, hr⟩ := h pid p hp
  simp [hs, hr]

/-- The payload carries no `null` for a required column. -/
def Writable (dto : UpdatePaymentDto) : Prop :=
  dto.transactionId ≠ .null ∧ dto.amount ≠ .null ∧ dto.method ≠ .null ∧ dto.status ≠ .null

/-- The call does not set the status REFUNDED of a payment that is open to updates. -/
def RefundsByRefund (db : Db) : Payments.Op → Prop
  | .update pid dto =>
    ∀ p, db.payments.find? pid = some p → Open p → Writable dto → dto.status ≠ .val .refunded
  | _ => True

lemma apply_of_writable {dto : UpdatePaymentDto} (h : Writable dto) (p : Payment) :
    ∃ p', dto.apply p = some p' ∧ p'.status = dto.status.orElse p.status := by
  obtain ⟨ht, ha, hm, hs⟩ := h
  unfold UpdatePaymentDto.apply
  rw [Property.intoRequired_of_ne_null ht,
    Property.intoRequired_of_ne_null (Property.map_ne_null ha),
    Property.intoRequired_of_ne_null hm, Property.intoRequired_of_ne_null hs]
  exact ⟨_, rfl, rfl⟩

lemma writable_of_apply {dto : UpdatePaymentDto} (h : dto.apply p = some p') : Writable dto := by
  unfold UpdatePaymentDto.apply at h
  simp only [Option.bind_eq_bind, Option.bind_eq_some_iff] at h
  obtain ⟨transactionId, ht, amount, ha, method, hm, status, hs, -⟩ := h
  exact ⟨Property.ne_null_of_intoRequired ht,
    Property.ne_null_of_map (Property.ne_null_of_intoRequired ha),
    Property.ne_null_of_intoRequired hm, Property.ne_null_of_intoRequired hs⟩

/-- What a call does to the dates of the refunds. -/
lemma refundsDated_step_iff {op : Payments.Op} (h : RefundsDated db) :
    RefundsDated (Payments.step db op) ↔ RefundsByRefund db op := by
  refine ⟨fun h' => ?_, fun hop pid p' hp' => ?_⟩
  · -- an update that could write a refund without its date must not be there
    cases op with
    | update pid dto =>
      intro p hp ho hw hr
      obtain ⟨p', ha, hs⟩ := apply_of_writable hw p
      have hp' : (Payments.step db (.update pid dto)).payments.find? pid = some p' := by
        rw [Payments.step_update, hp]
        dsimp only
        rw [if_pos ho, ha]
        exact Table.find?_put_self
      rw [hr] at hs
      have hdated : p'.refundedAt.isSome := (h' pid p' hp').mp hs
      rw [apply_refundedAt ha] at hdated
      exact ho.2 ((h pid p hp).mpr hdated)
    | _ => trivial
  · rcases hp : db.payments.find? pid with _ | p
    · -- a payment that has just been created is not refunded
      have hborn : (step db (.payments op)).payments.find? pid = some p' := hp'
      obtain ⟨dto, -, rfl⟩ := step_payment_born hp hborn
      simp [CreatePaymentDto.row]
    rcases step_payment (.payments op) hp with ⟨q, hq, hmove⟩ | ⟨-, hgone⟩
    swap
    · cases hgone.symm.trans hp'
    obtain rfl : q = p' := Option.some.inj (hq.symm.trans hp')
    cases hmove with
    | kept => exact h pid p hp
    | @updated dto _ _ ho ha =>
      -- the update leaves the date alone, and so it must not write the status
      have hw : Writable dto := writable_of_apply ha
      have hnew : dto.status ≠ .val .refunded := hop p hp ho hw
      obtain ⟨q', hq', hs⟩ := apply_of_writable hw p
      obtain rfl : q' = q := Option.some.inj (hq'.symm.trans ha)
      have hdate : ¬ q'.refundedAt.isSome := by
        rw [apply_refundedAt ha, ← h pid p hp]
        exact ho.2
      have hstatus : q'.status ≠ .refunded := by
        rw [hs]
        rcases hd : dto.status with _ | _ | a
        · exact ho.2
        · exact ho.2
        · exact fun ha => hnew (by rw [hd]; exact congrArg _ ha)
      exact iff_of_false hstatus hdate
    | refunded hc => exact iff_of_true rfl rfl

lemma run_payments (ops : List Payments.Op) :
    run step db (ops.map .payments) = run Payments.step db ops := by
  induction ops generalizing db with
  | nil => rfl
  | cons op ops ih => exact ih

/-- **Only completed payments are refunded.** In a run of the payments service from tables in
which nothing has been refunded, a payment is REFUNDED exactly if it bears the time of a refund,
and has been COMPLETED before then, exactly if no accepted update sets the status REFUNDED. -/
theorem refunds_dated_iff (db : Db) (ops : List Payments.Op) (h0 : NoneRefunded db) :
    (∀ pre post, ops = pre ++ post → RefundsDated (run Payments.step db pre) ∧
      ∀ pid p, (run Payments.step db pre).payments.find? pid = some p → p.status = .refunded →
        ∃ pre' mid, pre = pre' ++ mid ∧ IsCompleted pid (run Payments.step db pre')) ↔
    Along Payments.step RefundsByRefund db ops := by
  have hdated : Always Payments.step RefundsDated db ops ↔
      Along Payments.step RefundsByRefund db ops :=
    always_iff_along (fun _ _ h => refundsDated_step_iff h) h0.dated
  rw [← hdated, always_iff]
  refine ⟨fun h pre post he => (h pre post he).1, fun h pre post he => ⟨h pre post he, ?_⟩⟩
  intro pid p hp hr
  -- a refunded payment has its date, and was completed before it was given
  have hdate : p.refundedAt.isSome := (h pre post he pid p hp).mp hr
  rw [← run_payments] at hp
  have hno : NoRefunds db := fun pid p hp => (h0 pid p hp).2
  obtain ⟨-, pre', mid, hsplit, hc⟩ := completed_before hno _ hp hdate
  obtain ⟨pre₁, pre₂, rfl, rfl, -⟩ := List.map_eq_append_iff.mp hsplit
  rw [run_payments] at hc
  exact ⟨pre₁, pre₂, rfl, hc⟩

/-- A payment that an update sets REFUNDED while it is PENDING. -/
def refundedByUpdate : List Payments.Op :=
  [.create "cash" { transactionId := "sale", amount := .succ 8, method := .cash },
   .update "cash" { status := .val .refunded }]

def withSale : Db where
  transactions := (∅ : Table Id Transaction).put "sale" { status := .pending }

lemma noneRefunded_withSale : NoneRefunded withSale := by
  intro pid p hp
  cases hp

/-- A payment that an update has COMPLETED, and its refund. -/
def refundedByRefund : List Payments.Op :=
  [.create "cash" { transactionId := "sale", amount := .succ 8, method := .cash },
   .update "cash" { status := .val .completed }, .refund "cash" 5]

theorem refundedByRefund_dated_iff :
    (∀ pre post, refundedByRefund = pre ++ post → RefundsDated (run Payments.step withSale pre) ∧
      ∀ pid p, (run Payments.step withSale pre).payments.find? pid = some p →
        p.status = .refunded →
        ∃ pre' mid, pre = pre' ++ mid ∧ IsCompleted pid (run Payments.step withSale pre')) ↔
    Along Payments.step RefundsByRefund withSale refundedByRefund :=
  refunds_dated_iff withSale refundedByRefund noneRefunded_withSale

/-- The update leaves a REFUNDED payment that bears no time of a refund and was never
COMPLETED. -/
theorem refunded_by_update :
    ¬ RefundsDated (run Payments.step withSale refundedByUpdate) ∧
    ¬ IsCompleted "cash" (run Payments.step withSale (refundedByUpdate.take 0)) ∧
    ¬ IsCompleted "cash" (run Payments.step withSale (refundedByUpdate.take 1)) ∧
    ¬ IsCompleted "cash" (run Payments.step withSale (refundedByUpdate.take 2)) := by
  have hnot {db : Db} (h : (db.payments.find? "cash").map (·.status) ≠ some .completed) :
      ¬ IsCompleted "cash" db := by
    rintro ⟨p, hp, hc⟩
    rw [hp, Option.map_some, hc] at h
    exact h rfl
  refine ⟨fun h => ?_, hnot (by decide +kernel), hnot (by decide +kernel), hnot (by decide +kernel)⟩
  have hp : (run Payments.step withSale refundedByUpdate).payments.find? "cash" =
      some { transactionId := "sale", amount := 9, method := .cash, status := .refunded } := by
    decide +kernel
  cases (h "cash" _ hp).mp rfl

end CoffeeOs.SettledPayments
